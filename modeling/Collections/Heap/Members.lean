import Collections.Heap
import Collections.Number.Decimal
import Collections.Text.CodeUnits

set_option autoImplicit false

namespace Collections

namespace Family

def parent? : Family → Option Family
  | .record => none
  | .codedError => some .error
  | .listError => some .codedError
  | _ => some .record

def members : Family → List String
  | .record =>
      ["constructor", "hasOwnProperty", "isPrototypeOf", "propertyIsEnumerable", "toLocaleString",
        "toString", "valueOf", "__defineGetter__", "__defineSetter__", "__lookupGetter__",
        "__lookupSetter__", "__proto__"]
  | .array =>
      ["constructor", "at", "concat", "copyWithin", "entries", "every", "fill", "filter", "find",
        "findIndex", "findLast", "findLastIndex", "flat", "flatMap", "forEach", "includes",
        "indexOf", "join", "keys", "lastIndexOf", "map", "pop", "push", "reduce", "reduceRight",
        "reverse", "shift", "slice", "some", "sort", "splice", "toLocaleString", "toReversed",
        "toSorted", "toSpliced", "toString", "unshift", "values", "with", "__proto__"]
  | .function =>
      ["constructor", "apply", "arguments", "bind", "call", "caller", "toString", "__proto__"]
  | .error => ["constructor", "toString", "__proto__"]
  | .codedError => ["constructor", "getMetadata", "toObject", "__proto__"]
  | .listError => ["constructor", "__proto__"]
  | .text =>
      ["constructor", "anchor", "at", "big", "blink", "bold", "charAt", "charCodeAt", "codePointAt",
        "concat", "endsWith", "fixed", "fontcolor", "fontsize", "includes", "indexOf",
        "isWellFormed", "italics", "lastIndexOf", "link", "localeCompare", "match", "matchAll",
        "normalize", "padEnd", "padStart", "repeat", "replace", "replaceAll", "search", "slice",
        "small", "split", "startsWith", "strike", "sub", "substr", "substring", "sup",
        "toLocaleLowerCase", "toLocaleUpperCase", "toLowerCase", "toString", "toUpperCase",
        "toWellFormed", "trim", "trimEnd", "trimStart", "valueOf", "__proto__"]
  | .number =>
      ["constructor", "toExponential", "toFixed", "toLocaleString", "toPrecision", "toString",
        "valueOf", "__proto__"]
  | .integer => ["constructor", "toLocaleString", "toString", "valueOf", "__proto__"]
  | .bool => ["constructor", "toString", "valueOf", "__proto__"]
  | .symbol => ["constructor", "toString", "valueOf", "__proto__"]

-- A second name of a member.
def memberName : Family → String → String
  | .text, "trimLeft" => "trimStart"
  | .text, "trimRight" => "trimEnd"
  | _, key => key

-- Members that must not be looked at.
def restricted : List String := ["arguments", "caller"]

def constructorName : Family → String
  | .record => "Object"
  | .array => "Array"
  | .function => "Function"
  | .error | .codedError | .listError => "Error"
  | .text => "String"
  | .number => "Number"
  | .integer => "BigInt"
  | .bool => "Boolean"
  | .symbol => "Symbol"

def depth : Nat := 4

end Family

namespace Intrinsic

def root (family : Family) : Intrinsic := .member family Record.parentKey

def isRoot : Intrinsic → Bool
  | .member _ name => name == Record.parentKey
  | .teller _ => false

def isRestricted : Intrinsic → Bool
  | .member .function name => name ∈ Family.restricted
  | _ => false

def name : Intrinsic → String
  | .member family "constructor" => family.constructorName
  | .member _ name => name
  | .teller _ => ""

-- Members that take no operand, and members that take two; the others take one.
def arity : Intrinsic → Nat
  | .member _ name =>
      if name ∈ ["entries", "flat", "getMetadata", "keys", "pop", "reverse", "shift",
          "toLocaleString", "toObject", "toReversed", "toString", "valueOf", "values"] then 0
      else if name ∈ ["__defineGetter__", "__defineSetter__", "apply", "copyWithin", "slice",
          "splice", "toSpliced", "with"] then 2
      else 1
  | .teller _ => 0

def property? (key : String) (intrinsic : Intrinsic) : Option Value :=
  match intrinsic, intrinsic.isRoot, key with
  | .member .array _, true, "length" => some (.number (.zero false))
  | .member family _, true, key =>
      if key = Record.parentKey then
        some (match family.parent? with
          | some above => .intrinsic (root above)
          | none => .null)
      else none
  | intrinsic, false, "name" => some (.text intrinsic.name)
  | intrinsic, false, "length" => some (.number (.ofNat intrinsic.arity))
  | _, _, _ => none

def text : Intrinsic → String
  | .member .array "__proto__" => ""
  | .member .error "__proto__" | .member .codedError "__proto__" | .member .listError "__proto__" =>
      "Error"
  | .member .function "__proto__" => "function () \x7b [native code] \x7d"
  | .member _ "__proto__" => "[object Object]"
  | intrinsic => "function " ++ intrinsic.name ++ "() \x7b [native code] \x7d"

end Intrinsic

namespace Heap

def familyOf (heap : Heap) : Value → Option Family
  | .undefined | .null => none
  | .bool _ => some .bool
  | .number _ => some .number
  | .integer _ => some .integer
  | .text _ => some .text
  | .symbol _ => some .symbol
  | .object identity =>
      some <| match heap.entity identity with
        | .array _ => .array
        | .function _ => .function
        | .error ⟨.plain, _, _⟩ => .error
        | .error ⟨.coded .general _, _, _⟩ => .codedError
        | .error ⟨.coded .list _, _, _⟩ => .listError
        | _ => .record
  | .intrinsic (.member family "__proto__") => some family
  | .intrinsic _ => some .function

def isFunction (heap : Heap) (value : Value) : Bool :=
  match value with
  | .object identity =>
      match heap.entity identity with
      | .function _ => true
      | _ => false
  | .intrinsic (.member .function _) => true
  | .intrinsic intrinsic => !intrinsic.isRoot
  | _ => false

def memberOf? (family : Family) (key : String) : Option Value :=
  match family, key with
  | .error, "name" => some (.text "Error")
  | .error, "message" => some (.text "")
  | family, key =>
      let name := family.memberName key
      if name ∈ family.members then some (.intrinsic (.member family name)) else none

def sharedWithin (key : String) : Nat → Family → Option Value
  | 0, _ => none
  | depth + 1, family =>
      memberOf? family key <|> family.parent?.bind (sharedWithin key depth)

def shared? (family : Family) (key : String) : Option Value := sharedWithin key Family.depth family

-- A unit that is half of a character has no text of its own.
def unitText (unit : Nat) : String := (Char.ofNat unit).toString

def unitTexts (content : String) : List Value :=
  (Text.codeUnits content).map fun unit => .text (unitText unit)

def itemsProperty? (key : String) (items : List Value) : Option Value :=
  if key = "length" then some (.number (.ofNat items.length))
  else (indexKey? key).bind (items[·]?)

def textProperty? (key : String) (content : String) : Option Value :=
  if key = "length" then some (.number (.ofNat (Text.unitCount content)))
  else (indexKey? key).bind ((unitTexts content)[·]?)

def ownProperty? (heap : Heap) (key : String) (value : Value) : Option Value :=
  match value with
  | .text content => textProperty? key content
  | .intrinsic intrinsic => intrinsic.property? key
  | .symbol identity | .object identity =>
      match heap.entity identity, key with
      | .symbol description, "description" => some ((description.map .text).getD .undefined)
      | .function _, "length" => some (.number (.zero false))
      | .function _, "name" => some (.text "")
      | .function _, "toString" => some (.intrinsic (.teller identity))
      | .record record, key => record.own.get? key
      | .array items, key => itemsProperty? key items
      | .error error, "stack" => some error.stack
      | .error error, "message" => error.message.map .text
      | .error ⟨.coded _ metadata, _, _⟩, "type" => some (.object metadata)
      | _, _ => none
  | _ => none

def foundAbove (look : Value → Option Value) (family : Family) (parent : Parent) (key : String) :
    Option Value :=
  match parent with
  | .shared => shared? family key
  | .absent => none
  | .object object =>
      (look object).map fun found =>
        match found with
        | .intrinsic intrinsic => if intrinsic.isRoot then object else found
        | found => found

def lookWithin (heap : Heap) (key : String) : Nat → Value → Option Value
  | depth, value =>
      match heap.ownProperty? key value with
      | some found => some found
      | none =>
          match heap.entity? value, depth with
          | some (.record record), depth + 1 =>
              foundAbove (heap.lookWithin key depth) .record record.parent key
          | some (.record _), 0 => none
          | _, _ => (heap.familyOf value).bind (shared? · key)
termination_by depth => depth

def look? (heap : Heap) (key : String) (value : Value) : Option Value :=
  heap.lookWithin key (heap.entities.size + 1) value

def lookAbove? (heap : Heap) (family : Family) (parent : Parent) (key : String) : Option Value :=
  foundAbove (heap.look? key) family parent key

def slotsOf (heap : Heap) : Parent → List (Nat × Value)
  | .object (.object identity) =>
      (identity :: heap.ancestors identity).flatMap fun identity =>
        (heap.ownEntries (.object identity)).filterMap fun (key, value) =>
          (indexKey? key).map (·, value)
  | _ => []

def property (heap : Heap) (key : String) (value : Value) : Value :=
  (heap.look? key value).getD .undefined

def requireOpen (found : Value) : Except Failure Value :=
  match found with
  | .intrinsic intrinsic =>
      if intrinsic.isRestricted then .error (.misuse .restrictedMember) else .ok found
  | found => .ok found

def propertyUnits? (heap : Heap) (key : String) (value : Value) : Option (List Nat) :=
  match value, indexKey? key with
  | .text content, some index => (Text.codeUnits content)[index]?.map ([·])
  | value, _ =>
      match heap.property key value with
      | .text content => some (Text.codeUnits content)
      | _ => none

end Heap

end Collections
