import Collections.Number.Decimal

set_option autoImplicit false

namespace Collections

def indexKey? (key : String) : Option Nat :=
  let digits := key.toList
  let index := Decimal.digitsValue digits
  if Nat.toDigits 10 index = digits ∧ index < (1 <<< 32) - 1 then some index else none

def keyBefore (key present : String) : Bool :=
  match indexKey? key, indexKey? present with
  | some index, some presentIndex => index < presentIndex
  | some _, none => true
  | none, _ => false

structure Properties (α : Type) where
  entries : List (String × α)
  deriving DecidableEq

namespace Properties

variable {α : Type}

def empty : Properties α := ⟨[]⟩

instance : Inhabited (Properties α) := ⟨empty⟩

def assignEntry (key : String) (value : α) : List (String × α) → List (String × α)
  | [] => [(key, value)]
  | (present, held) :: rest =>
      if present = key then (key, value) :: rest
      else if keyBefore key present then (key, value) :: (present, held) :: rest
      else (present, held) :: assignEntry key value rest

def assign (properties : Properties α) (key : String) (value : α) : Properties α :=
  ⟨assignEntry key value properties.entries⟩

def ofEntries (entries : List (String × α)) : Properties α :=
  entries.foldl (fun properties (key, value) => properties.assign key value) empty

def get? (properties : Properties α) (key : String) : Option α := properties.entries.lookup key

def map {β : Type} (change : α → β) (properties : Properties α) : Properties β :=
  ⟨properties.entries.map fun (key, value) => (key, change value)⟩

end Properties

end Collections
