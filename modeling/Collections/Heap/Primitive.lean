import Collections.Heap.Members
import Collections.Number.Numeral

set_option autoImplicit false

namespace Collections

inductive Preference where
  | text
  | number

def Preference.members : Preference → List String
  | .text => ["toString", "valueOf"]
  | .number => ["valueOf", "toString"]

inductive Operand where
  | number (number : Number)
  | integer (integer : Int)

namespace Operand

-- An integer is never taken for a number.
def toNumber : Operand → Except Failure Number
  | .number held => .ok held
  | .integer _ => .error (.misuse .integerAsNumber)

end Operand

namespace Value

def symbolText (description : Option String) : String := "Symbol(" ++ description.getD "" ++ ")"

def objectText : String := "[object Object]"

def shallowText (heap : Heap) (value : Value) : String :=
  match value with
  | .undefined => "undefined"
  | .null => "null"
  | .bool value => if value then "true" else "false"
  | .number held => held.toText
  | .integer value => toString value
  | .text value => value
  | .intrinsic held => held.text
  | .symbol identity | .object identity =>
      match heap.entity identity with
      | .symbol description => symbolText description
      | .function source => source
      | _ => objectText

def primitiveText (heap : Heap) (value : Value) : Except Failure String :=
  match value with
  | .symbol _ => .error (.misuse .symbolAsText)
  | .object _ | .intrinsic _ => .error (.misuse .objectAsPrimitive)
  | value => .ok (value.shallowText heap)

def primitiveOperand (value : Value) : Except Failure Operand :=
  match value with
  | .undefined => .ok (.number .nan)
  | .null => .ok (.number (.zero false))
  | .bool held => .ok (.number (.ofNat held.toNat))
  | .number held => .ok (.number held)
  | .integer held => .ok (.integer held)
  | .text content => .ok (.number (Numeral.number content))
  | .symbol _ => .error (.misuse .symbolAsNumber)
  | .object _ | .intrinsic _ => .error (.misuse .objectAsPrimitive)

end Value

namespace Heap

abbrev Reading := List Value → Preference → Value → Except Failure Value

-- An item of a joined text. Absent ones are left empty.
def itemText (heap : Heap) (read : Reading) (joining : List Value) (item : Value) :
    Except Failure String :=
  match item with
  | .undefined | .null => .ok ""
  | item => do (← read joining .text item).primitiveText heap

def itemCount (heap : Heap) (read : Reading) (joining : List Value) (value : Value) :
    Except Failure Nat := do
  let length ← read joining .number (heap.property "length" value)
  let count := (← (← length.primitiveOperand).toNumber).toCount
  if count < 1 <<< 32 then return count else throw (.misuse .tooManyItems)

def itemsOf (heap : Heap) (count : Nat) (value : Value) : List Value :=
  match heap.entity? value with
  | some (.array items) => items
  | _ => (List.range count).map fun index => heap.property (toString index) value

def longestText : Nat := (1 <<< 29) - 24

-- The texts of items with commas between them. What is being joined already is left empty.
def joinedText (heap : Heap) (read : Reading) (joining : List Value) (value : Value) :
    Except Failure String := do
  let count ← heap.itemCount read joining value
  if value ∈ joining then return ""
  else if longestText < count then throw (.excess .text)
  else
    let items ← (heap.itemsOf count value).mapM (heap.itemText read (value :: joining))
    return ",".intercalate items

def arrayReading (heap : Heap) (read : Reading) (joining : List Value) (value : Value) :
    Except Failure Value :=
  match heap.look? "join" value with
  | some (.intrinsic _) => .text <$> heap.joinedText read joining value
  | some held => .ok (if heap.isFunction held then .undefined else .text Value.objectText)
  | none => .ok (.text Value.objectText)

def partText (heap : Heap) (read : Reading) (joining : List Value) (key : String)
    (otherwise : String) (value : Value) : Except Failure String :=
  match heap.property key value with
  | .undefined => .ok otherwise
  | part => do (← read joining .text part).primitiveText heap

def errorText (heap : Heap) (read : Reading) (joining : List Value) (value : Value) :
    Except Failure String := do
  let name ← heap.partText read joining "name" "Error" value
  let message ← heap.partText read joining "message" "" value
  return if name = "" then message
    else if message = "" then name
    else name ++ ": " ++ message

def answer? (heap : Heap) (read : Reading) (joining : List Value) (value member : Value) :
    Except Failure (Option Value) :=
  match member with
  | .intrinsic (.teller function) => .ok (some (.text (Value.shallowText heap (.object function))))
  | .intrinsic (.member .array "toString") => some <$> heap.arrayReading read joining value
  | .intrinsic (.member .error "toString") => do
      return some (.text (← heap.errorText read joining value))
  | .intrinsic (.member .function "toString") => .ok (some (.text (value.shallowText heap)))
  | .intrinsic (.member _ "toString") => .ok (some (.text Value.objectText))
  | .intrinsic _ => .ok (some value)
  | held => .ok (if heap.isFunction held then some .undefined else none)

def firstPrimitive (ask : String → Except Failure (Option Value)) :
    List String → Except Failure Value
  | [] => .error (.misuse .objectAsPrimitive)
  | name :: names => do
      match ← ask name with
      | none | some (.object _) | some (.intrinsic _) => firstPrimitive ask names
      | some primitive => return primitive

def isReadable : Value → Bool
  | .object _ | .intrinsic _ => true
  | _ => false

def primitiveWithin (heap : Heap) (depth : Nat) (joining : List Value) (preference : Preference)
    (value : Value) : Except Failure Value :=
  match depth with
  | 0 => if isReadable value then .error (.excess .depth) else .ok value
  | depth + 1 =>
      if isReadable value then
        firstPrimitive
          (fun name =>
            match heap.look? name value with
            | some member => heap.answer? (heap.primitiveWithin depth) joining value member
            | none => .ok none)
          preference.members
      else .ok value

/--
How deep objects are read. Between two arrays whose joining begins, no object is read twice in one
way unless reading it has no end, and an array is joined only once within itself.
-/
def readingDepth (heap : Heap) : Nat := 2 * ((heap.entities.size + 2) * (heap.entities.size + 2))

def primitive (heap : Heap) (preference : Preference) (value : Value) : Except Failure Value :=
  if isReadable value then heap.primitiveWithin heap.readingDepth [] preference value
  else .ok value

def text (heap : Heap) (value : Value) : Except Failure String := do
  (← heap.primitive .text value).primitiveText heap

def display (heap : Heap) (value : Value) : Except Failure String :=
  match value with
  | .symbol _ => .ok (value.shallowText heap)
  | value => heap.text value

def operand (heap : Heap) (value : Value) : Except Failure Operand := do
  (← heap.primitive .number value).primitiveOperand

def requireProperty (heap : Heap) (key : String) (value : Value) : Except Failure Value :=
  match value with
  | .undefined | .null => .error (.misuse (.propertyOfAbsent (value.shallowText heap) key))
  | value => requireOpen (heap.property key value)

end Heap

end Collections
