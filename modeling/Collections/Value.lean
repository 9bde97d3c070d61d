import Collections.Number

set_option autoImplicit false

namespace Collections

inductive Family where
  | record | array | function | error | codedError | listError
  | text | number | integer | bool | symbol
  deriving DecidableEq

inductive Intrinsic where
  | member (family : Family) (name : String)
  | teller (function : Nat)
  deriving DecidableEq

inductive Value where
  | undefined
  | null
  | bool (value : Bool)
  | number (value : Number)
  | integer (value : Int)
  | text (value : String)
  | symbol (identity : Nat)
  | object (identity : Nat)
  | intrinsic (intrinsic : Intrinsic)
  deriving DecidableEq, Inhabited

namespace Value

def identical : Value → Value → Bool
  | .number left, .number right => left.same right
  | left, right => left == right

def alike (left right : Value) : Bool :=
  match left, right with
  | .number .nan, .number .nan => true
  | _, _ => left.identical right

-- A membership set holds the positive zero only.
def asMember : Value → Value
  | .number held => if held.isZero then .number (.zero false) else .number held
  | value => value

def distinct (values : List Value) : List Value :=
  (values.foldl
    (fun members value =>
      if members.any fun member => member.alike value then members else value.asMember :: members)
    []).reverse

def place? : Value → Option (Int × Int)
  | .number held => held.place?
  | .integer value => some (0, value * Number.one)
  | _ => none

def isNull : Value → Bool
  | .null => true
  | _ => false

end Value

inductive Parent where
  | shared
  | absent
  | object (object : Value)
  deriving DecidableEq

inductive Assigned where
  | kept
  | linked (parent : Parent)
  | gone

end Collections
