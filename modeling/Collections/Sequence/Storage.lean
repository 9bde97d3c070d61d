import Collections.Number.Decimal
import Collections.Properties
import Collections.Value

set_option autoImplicit false

/-!
The slots behind a list. A slot is unassigned until it is written; reading an unassigned slot, or
one past the end, gives the undefined value. Writing past the end makes room up to the written slot:
the room counts as capacity, but only slots that follow one another from the first on are laid out.
What is written to slots further on is kept aside.

A position may also be no slot at all. A value written there is kept aside under the name of the
position. A storage may have a parent: what that holds at a slot shows through while the slot is
unassigned. Names and parent are lost when the storage is replaced.
-/

namespace Collections

/-- Where a value can be kept: a slot below `2 ^ 32 - 1`, a name that spells none, or a symbol. -/
inductive Position where
  | slot (index : Nat)
  | named (name : String)
  | symbolic (identity : Nat)
  deriving DecidableEq

namespace Position

def ofName (name : String) : Position :=
  match indexKey? name with
  | some index => .slot index
  | none => .named name

def ofNumber (number : Number) : Position :=
  match number.toNat?.filter (· < (1 <<< 32) - 1) with
  | some index => .slot index
  | none => .named number.toText

end Position

inductive Draw where
  | position (position : Position)
  | capacity
  deriving DecidableEq

namespace Draw

def capacityName : String := "length"

def ofName (name : String) : Draw :=
  if name = capacityName then .capacity else .position (.ofName name)

def ofNumber (number : Number) : Draw := .position (.ofNumber number)

end Draw

structure Storage where
  slots : Array (Option Value) := #[]
  reach : Nat := 0
  aside : List (Position × Value) := []
  parent : Parent := .shared
  behind : List (Nat × Value) := []

instance : Inhabited Storage := ⟨{}⟩

namespace Storage

def capacity (storage : Storage) : Nat := max storage.slots.size storage.reach

def keptAside? (storage : Storage) (position : Position) : Option Value :=
  storage.aside.lookup position

def dropAside (storage : Storage) (position : Position) : Storage :=
  { storage with aside := storage.aside.filter fun entry => entry.1 != position }

def putAside (storage : Storage) (position : Position) (value : Value) : Storage :=
  let others := storage.dropAside position
  { others with aside := (position, value) :: others.aside }

def assigned? (storage : Storage) (slot : Nat) : Option Value :=
  match storage.slots[slot]? with
  | some assigned => assigned
  | none => storage.keptAside? (.slot slot)

def held? (storage : Storage) (slot : Nat) : Option Value :=
  storage.assigned? slot <|> storage.behind.lookup slot

def read (storage : Storage) (slot : Nat) : Value := (storage.held? slot).getD .undefined

def write (storage : Storage) (slot : Nat) (value : Value) : Storage :=
  if slot < storage.slots.size then
    { storage with slots := storage.slots.setIfInBounds slot (some value) }
  else if slot = storage.slots.size then
    let others := storage.dropAside (.slot slot)
    { others with slots := others.slots.push (some value) }
  else
    let room := max storage.reach (slot + 1)
    { storage.putAside (.slot slot) value with reach := room }

def writeFrom (storage : Storage) (slot : Nat) : List Value → Storage
  | [] => storage
  | value :: values => (storage.write slot value).writeFrom (slot + 1) values

def unassign (storage : Storage) (slot : Nat) : Storage :=
  if slot < storage.slots.size then
    { storage with slots := storage.slots.setIfInBounds slot none }
  else storage.dropAside (.slot slot)

def heldFrom (storage : Storage) (slot count : Nat) : List (Option Value) :=
  (List.range' slot count).map storage.held?

def valuesFrom (storage : Storage) (slot count : Nat) : List Value :=
  (List.range' slot count).map storage.read

def held (storage : Storage) (count : Nat) : List (Option Value) :=
  storage.heldFrom 0 (min count storage.capacity)

def reallocate (storage : Storage) (count capacity : Nat) : Storage :=
  ({ slots := Array.replicate capacity none } : Storage).writeFrom 0 (storage.valuesFrom 0 count)

def resize (storage : Storage) (capacity : Nat) : Storage :=
  { storage with
    slots := storage.slots.extract 0 capacity
    reach := capacity
    aside := storage.aside.filter fun (position, _) =>
      match position with
      | .slot index => index < capacity
      | _ => true }

def shiftOut (storage : Storage) (slot length : Nat) : Storage :=
  let later := storage.valuesFrom (slot + 1) (length - (slot + 1))
  (storage.writeFrom slot later).unassign (length - 1)

def turn (storage : Storage) (length : Nat) : Storage :=
  let turned := (storage.valuesFrom 0 length).reverse
  let half := length / 2
  (storage.writeFrom 0 (turned.take half)).writeFrom (length - half) (turned.drop (length - half))

def filled (count : Nat) (value : Value) : Storage :=
  { slots := Array.replicate count (some value) }

end Storage

end Collections
