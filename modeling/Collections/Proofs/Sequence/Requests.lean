import Collections.Proofs.Number
import Collections.Proofs.Table
import Collections.Proofs.Usage
import Collections.Sequence.Operations

set_option autoImplicit false

namespace Collections

inductive Told {Outside : Type} (callbacks : Callbacks Outside) (early : Outside) :
    Outside → Prop where
  | nothing : Told callbacks early early
  | notice {late : Outside} (logger : String) (notice : Notice)
      (earlier : Told callbacks early late) :
      Told callbacks early (callbacks.notify logger notice late)

structure State.ChangesOnly {Outside : Type} (early : State Outside) (callbacks : Callbacks Outside)
    (list : Handle Sequence) (late : State Outside) : Prop where
  others : ∀ other, other ≠ list →
    late.containers.lists.cell? other = early.containers.lists.cell? other
  sets : late.containers.sets = early.containers.sets
  cursors : late.containers.cursors = early.containers.cursors
  traversals : late.containers.traversals = early.containers.traversals
  ordinals : late.ordinals = early.ordinals
  told : Told callbacks early.outside late.outside

namespace Sequence

variable {Outside : Type}

inductive Request (Outside : Type) where
  | empty (options : ListOptions)
  | withLength (length : Value) (options : ListOptions)
  | ofValues (values : List Value) (options : ListOptions)
  | join (lists : List (Option (Handle Sequence))) (options : ListOptions)
  | get (list : Handle Sequence) (index : Value)
  | set (list : Handle Sequence) (index value : Value)
  | append (list : Handle Sequence) (value : Value)
  | appendAll (list source : Handle Sequence)
  | remove (list : Handle Sequence) (index : Value)
  | removeFirst (list : Handle Sequence)
  | pop (list : Handle Sequence)
  | removeItem (list : Handle Sequence) (value : Value)
  | peek (list : Handle Sequence)
  | indexOf (list : Handle Sequence) (value : Value)
  | contains (list : Handle Sequence) (value : Value)
  | copy (list : Handle Sequence) (destructor : Option String)
  | reverse (list : Handle Sequence)
  | filter (list : Handle Sequence) (test : Value → Action Outside Bool)
  | toList (list : Handle Sequence)
  | destroy (list : Handle Sequence)

inductive Answer where
  | list (made : Handle Sequence)
  | item (value : Value)
  | flag (flag : Bool)
  | position (position : Option Nat)
  | items (values : List Value)
  | done

def ofValues (callbacks : Callbacks Outside) (values : List Value) (options : ListOptions) :
    Action Outside (Handle Sequence) := do
  let list ← empty options
  values.forM (append callbacks list)
  return list

def perform (callbacks : Callbacks Outside) : Request Outside → Action Outside Answer
  | .empty options => return .list (← empty options)
  | .withLength length options => return .list (← withLength length options)
  | .ofValues values options => return .list (← ofValues callbacks values options)
  | .join lists options => return .list (← join callbacks lists options)
  | .get list index => return .item (← get list index)
  | .set list index value => do
      set list index value
      return .done
  | .append list value => do
      append callbacks list value
      return .done
  | .appendAll list source => do
      appendAll callbacks list source
      return .done
  | .remove list index => return .item (← remove list index)
  | .removeFirst list => return .item (← removeFirst list)
  | .pop list => return .item (← pop list)
  | .removeItem list value => return .flag (← removeItem list value)
  | .peek list => return .item (← peek list)
  | .indexOf list value => return .position (← indexOf list value)
  | .contains list value => return .flag (← contains list value)
  | .copy list destructor => return .list (← copy callbacks list destructor)
  | .reverse list => do
      reverse list
      return .done
  | .filter list test => return .list (← filter callbacks list test)
  | .toList list => return .items (← toList callbacks list)
  | .destroy list => do
      destroy callbacks list
      return .done

abbrev World := List (Option (List Value))

structure Ending where
  outcome : Except Failure Answer
  world : World

namespace World

def elements? (world : World) (list : Handle Sequence) : Option (List Value) :=
  world[list.index]?.join

def elements (world : World) (list : Handle Sequence) : List Value :=
  (world.elements? list).getD []

def put (world : World) (list : Handle Sequence) (values : List Value) : World :=
  world.set list.index (some values)

def drop (world : World) (list : Handle Sequence) : World := world.set list.index none

def answers (world : World) (answer : Answer) : Ending := ⟨.ok answer, world⟩

def makes (world : World) (values : List Value) : Ending :=
  ⟨.ok (.list ⟨world.length⟩), world ++ [some values]⟩

def fails (world : World) (failure : Failure) : Ending := ⟨.error failure, world⟩

end World

inductive Sifts (callbacks : Callbacks Outside) (made : Handle Sequence)
    (test : Value → Action Outside Bool) (start : State Outside) :
    List Value → List Value → State Outside → Prop where
  | start : Sifts callbacks made test start [] [] start
  | judged {values kept : List Value} {early ready late : State Outside} {value : Value}
      {verdict : Bool} (earlier : Sifts callbacks made test start values kept early)
      (meanwhile : early.ChangesOnly callbacks made ready)
      (judged : test value ready = .ok verdict late) :
      Sifts callbacks made test start (values ++ [value])
        (kept ++ if verdict then [value] else []) late

theorem Sifts.eq_filter {callbacks : Callbacks Outside} {made : Handle Sequence}
    {test : Value → Action Outside Bool} {start late : State Outside} {values kept : List Value}
    {holds : Value → Bool}
    (decides : ∀ value state, Succeeds (test value) state fun verdict _ => verdict = holds value)
    (sifts : Sifts callbacks made test start values kept late) : kept = values.filter holds := by
  induction sifts with
  | start => rfl
  | judged _ _ judged ih =>
    obtain ⟨_, _, answered, rfl⟩ := decides _ _
    rw [answered] at judged
    cases judged
    rw [List.filter_append, ih, List.filter_cons, List.filter_nil]

section Meets

variable (world : World) (ending : Ending)

def Live (list : Handle Sequence) (operation : ListOperation) (meets : List Value → Prop) : Prop :=
  match world.elements? list with
  | some values => meets values
  | none => ending = world.fails (.list (.destroyed operation))

def Within (values : List Value) (index : Value) (meets : Nat → Value → Prop) : Prop :=
  (∃ (position : Nat) (element : Value),
    index.Names position ∧ values[position]? = some element ∧ meets position element) ∨
  (∀ position : Nat, index.Names position → values.length ≤ position) ∧ ∃ length : Number,
    length.same (.ofNat values.length) ∧
      ending = world.fails (.list (.indexOutOfRange index length))

def Measured (length : Value) (meets : Nat → Prop) : Prop :=
  (∃ count : Nat, length.Names count ∧
    if count < 1 <<< 32 then meets count else ending = world.fails (.excess .length)) ∨
  (∃ (number : Number) (whole : Int), whole < 0 ∧ length = .number number ∧ length.Names whole ∧
    ending = world.fails (.list (.negativeLength number))) ∨
  (∀ whole : Int, ¬ length.Names whole) ∧ ending = world.fails (.list (.invalidLength length))

def Meets (callbacks : Callbacks Outside) (before : State Outside) : Request Outside → Prop
  | .empty _ => ending = world.makes []
  | .withLength length _ => Measured world ending length fun count =>
      ending = world.makes (List.replicate count .null)
  | .ofValues values _ => ending = world.makes values
  | .join lists _ => ending = world.makes ((lists.filterMap id).flatMap world.elements)
  | .get list index => Live world ending list .get fun values =>
      Within world ending values index fun _ element => ending = world.answers (.item element)
  | .set list index value => Live world ending list .set fun values =>
      Within world ending values index fun position _ =>
        ending = (world.put list (values.set position value)).answers .done
  | .append list value => Live world ending list .append fun values =>
      ending = (world.put list (values ++ [value])).answers .done
  | .appendAll list source => Live world ending list .appendAll fun values =>
      if source = list then ending = world.fails (.list .selfAppend)
      else ending = (world.put list (values ++ world.elements source)).answers .done
  | .remove list index => Live world ending list .remove fun values =>
      Within world ending values index fun position element =>
        ending = (world.put list (values.eraseIdx position)).answers (.item element)
  | .removeFirst list => Live world ending list .remove fun values =>
      match values with
      | [] => ∃ length : Number, length.isZero ∧
          ending = world.fails (.list (.indexOutOfRange (.number (.zero false)) length))
      | first :: rest => ending = (world.put list rest).answers (.item first)
  | .pop list => Live world ending list .pop fun values =>
      match values.getLast? with
      | none => ending = world.fails (.list (.empty .pop))
      | some last => ending = (world.put list values.dropLast).answers (.item last)
  | .removeItem list value => Live world ending list .indexOf fun values =>
      ending = (world.put list (values.eraseP fun element => element.identical value)).answers
        (.flag (values.any fun element => element.identical value))
  | .peek list => Live world ending list .peek fun values =>
      match values.getLast? with
      | none => ending = world.fails (.list (.empty .peek))
      | some last => ending = world.answers (.item last)
  | .indexOf list value => Live world ending list .indexOf fun values =>
      ending = world.answers (.position (values.findIdx? fun element => element.identical value))
  | .contains list value => Live world ending list .indexOf fun values =>
      ending = world.answers (.flag (values.any fun element => element.identical value))
  | .copy list _ => Live world ending list .copy fun values => ending = world.makes values
  | .reverse list => Live world ending list .reverse fun values =>
      ending = (world.put list values.reverse).answers .done
  | .filter list test => Live world ending list .filter fun values =>
      ∃ kept after, Sifts callbacks ⟨world.length⟩ test before values kept after ∧
        ending = world.makes kept
  | .toList list => Live world ending list .toList fun values =>
      ending = world.answers (.items values)
  | .destroy list => Live world ending list .destroy fun _ =>
      ending = (world.drop list).answers .done

end Meets

def Fits (before : State Outside) : Request Outside → Prop
  | .join lists _ => ∀ list, some list ∈ lists → before.containers.lists.cell? list ≠ none
  | .filter _ test => ∀ value state, Succeeds (test value) state fun _ after =>
      after.containers = state.containers
  | _ => True

end Sequence

end Collections
