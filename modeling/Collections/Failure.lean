import Collections.Value

set_option autoImplicit false

namespace Collections

inductive ListOperation where
  | get | set | append | appendAll | setDestructor | remove | pop | peek | indexOf | copy | reverse
  | sort | shuffle | toOrderedSet | filter | cursor | toList | traverse | destroy
  deriving DecidableEq

def ListOperation.name : ListOperation → String
  | .get => "get"
  | .set => "set"
  | .append => "append"
  | .appendAll => "appendAll"
  | .setDestructor => "setDestructor"
  | .remove => "remove"
  | .pop => "pop"
  | .peek => "peek"
  | .indexOf => "indexOf"
  | .copy => "copy"
  | .reverse => "reverse"
  | .sort => "sort"
  | .shuffle => "shuffle"
  | .toOrderedSet => "toSortedSet"
  | .filter => "filter"
  | .cursor => "iterator"
  | .toList => "toArray"
  | .traverse => "iterate"
  | .destroy => "destroy"

inductive ListFailure where
  | indexOutOfRange (index : Value) (length : Number)
  | negativeLength (length : Number)
  | invalidLength (length : Value)
  | empty (operation : ListOperation)
  | selfAppend
  | destroyed (operation : ListOperation)
  deriving DecidableEq

inductive ListCode where
  | indexOutOfRange | negativeLength | invalidLength | empty | selfAppend | destroyed
  deriving DecidableEq

namespace ListCode

def all : List ListCode :=
  [.indexOutOfRange, .negativeLength, .invalidLength, .empty, .selfAppend, .destroyed]

def name : ListCode → String
  | .indexOutOfRange => "INDEX_OUT_OF_RANGE"
  | .negativeLength => "NEGATIVE_LENGTH"
  | .invalidLength => "INVALID_LENGTH"
  | .empty => "EMPTY"
  | .selfAppend => "SELF_APPEND"
  | .destroyed => "DESTROYED"

def text (code : ListCode) : String := "LIST_ERROR_" ++ code.name

end ListCode

namespace ListFailure

def code : ListFailure → ListCode
  | .indexOutOfRange .. => .indexOutOfRange
  | .negativeLength _ => .negativeLength
  | .invalidLength _ => .invalidLength
  | .empty _ => .empty
  | .selfAppend => .selfAppend
  | .destroyed _ => .destroyed

def facts : ListFailure → List (String × Value)
  | .indexOutOfRange index length => [("index", index), ("length", .number length)]
  | .negativeLength length => [("length", .number length)]
  | .invalidLength length => [("length", length)]
  | .empty operation => [("operation", .text operation.name)]
  | .selfAppend => []
  | .destroyed operation => [("operation", .text operation.name)]

def metadata (failure : ListFailure) : List (String × Value) :=
  ("code", .text failure.code.text) :: failure.facts

end ListFailure

inductive Misuse where
  | mixedIntegers
  | integerAsNumber
  | symbolAsNumber
  | symbolAsText
  | objectAsPrimitive
  | absentAsObject
  | propertyOfAbsent (absent : String) (key : String)
  | notCallable (expression : String)
  | tooManyItems
  | cyclicParent
  | readOnly (key : String) (object : String)
  | restrictedMember
  | notConstructible
  deriving DecidableEq

def Misuse.message : Misuse → String
  | .mixedIntegers => "Cannot mix BigInt and other types, use explicit conversions"
  | .integerAsNumber => "Cannot convert a BigInt value to a number"
  | .symbolAsNumber => "Cannot convert a Symbol value to a number"
  | .symbolAsText => "Cannot convert a Symbol value to a string"
  | .objectAsPrimitive => "Cannot convert object to primitive value"
  | .absentAsObject => "Cannot convert undefined or null to object"
  | .propertyOfAbsent absent key =>
      "Cannot read properties of " ++ absent ++ " (reading '" ++ key ++ "')"
  | .notCallable expression => expression ++ " is not a function"
  | .tooManyItems => "Invalid array length"
  | .cyclicParent => "Cyclic __proto__ value"
  | .readOnly key object =>
      "Cannot assign to read only property '" ++ key ++ "' of object '" ++ object ++ "'"
  | .restrictedMember =>
      "'caller', 'callee', and 'arguments' properties may not be accessed on strict mode " ++
        "functions or the arguments objects for calls to them"
  | .notConstructible => "object.constructor[Symbol.species] is not a constructor"

inductive Excess where
  | length
  | text
  | depth
  | quotient
  deriving DecidableEq

def Excess.message : Excess → String
  | .length => "Invalid array length"
  | .text => "Invalid string length"
  | .depth => "Maximum call stack size exceeded"
  | .quotient => "Division by zero"

inductive Failure where
  | list (failure : ListFailure)
  | misuse (cause : Misuse)
  | excess (cause : Excess)
  | thrown (message : String)
  | momentOutOfRange
  | unsupported
  | endless
  deriving DecidableEq

def Failure.message : Failure → String
  | .list failure => failure.code.text
  | .misuse cause => cause.message
  | .excess cause => cause.message
  | .thrown message => message
  | .momentOutOfRange => "Invalid Date pass to format"
  | .unsupported => "unsupported operation"
  | .endless => "endless run"

end Collections
