import Collections.StableSort.Gallop

set_option autoImplicit false

namespace Collections.StableSort

inductive Side where
  | kept
  | other
  deriving DecidableEq

def Side.opposite : Side → Side
  | .kept => .other
  | .other => .kept

/-- What a merge has left of either run, and what it has taken, last taken first. -/
structure Merging (α : Type) where
  kept : List α
  other : List α
  taken : List α := []

namespace Merging

variable {α : Type}

def take (merging : Merging α) (side : Side) (count : Nat) : Merging α :=
  match side with
  | .kept =>
      { merging with
        kept := merging.kept.drop count
        taken := (merging.kept.take count).reverseAux merging.taken }
  | .other =>
      { merging with
        other := merging.other.drop count
        taken := (merging.other.take count).reverseAux merging.taken }

def rivals? (merging : Merging α) : Option (α × α) :=
  match merging.kept, merging.other with
  | kept :: _ :: _, other :: _ => some (kept, other)
  | _, _ => none

def finish (merging : Merging α) (direction : Direction) : List α :=
  match direction with
  | .forward => merging.taken.reverseAux (merging.other ++ merging.kept)
  | .backward => merging.kept.reverseAux (merging.other.reverseAux merging.taken)

def remaining (merging : Merging α) : Nat := merging.kept.length + merging.other.length

theorem remaining_take_le (merging : Merging α) (side : Side) (count : Nat) :
    (merging.take side count).remaining ≤ merging.remaining := by
  cases side <;> simp only [take, remaining, List.length_drop] <;> omega

theorem remaining_take_lt (merging : Merging α) (side : Side) {pair : α × α}
    (rivals : merging.rivals? = some pair) :
    (merging.take side 1).remaining < merging.remaining := by
  unfold rivals? at rivals
  split at rivals
  next keptRun otherRun =>
    cases side <;> simp only [take, remaining, List.length_drop, keptRun, otherRun] <;>
      simp only [List.length_cons] <;> omega
  next => cases rivals

theorem remaining_leap_lt (merging : Merging α) (side : Side) (count : Nat) {pair : α × α}
    (rivals : (merging.take side count).rivals? = some pair) :
    ((merging.take side count).take side.opposite 1).remaining < merging.remaining :=
  Nat.lt_of_lt_of_le (remaining_take_lt _ _ rivals) (remaining_take_le _ _ _)

end Merging

inductive Pace where
  | singly (keptWins otherWins : Nat)
  | firstLeap
  | secondLeap (wins : Nat)
  | rated (wins : Nat)

def worthwhile : Nat := 7

/--
The pace after the outcome of the last step. Rounds that pay off make it easier to gallop again, and
leaving off makes it harder.
-/
def Pace.settle (pace : Pace) (threshold : Nat) : Nat × Pace :=
  match pace with
  | .singly keptWins otherWins =>
      if threshold ≤ keptWins ∨ threshold ≤ otherWins then (threshold, .firstLeap)
      else (threshold, pace)
  | .rated wins =>
      if worthwhile ≤ wins then (max 1 (threshold - 1), .firstLeap)
      else (threshold + 1, .singly 0 0)
  | _ => (threshold, pace)

def Direction.firstSide : Direction → Side
  | .forward => .kept
  | .backward => .other

variable {α : Type} {m : Type → Type} [Monad m]

@[inline]
def otherFirst (below : α → α → m Bool) (direction : Direction) (kept other : α) : m Bool :=
  match direction with
  | .forward => below other kept
  | .backward => below kept other

@[specialize]
def countWins (below : α → α → m Bool) (direction : Direction) (merging : Merging α) (side : Side)
    (rivals : α × α) : m Nat :=
  match side with
  | .kept =>
      gallop (fun item => return !(← otherFirst below direction item rivals.2)) direction
        merging.kept
  | .other =>
      gallop (fun item => otherFirst below direction rivals.1 item) direction merging.other

@[specialize]
def mergeOn (below : α → α → m Bool) (direction : Direction) (threshold : Nat) (pace : Pace)
    (merging : Merging α) : m (List α × Nat) :=
  match _ : merging.rivals? with
  | none => return (merging.finish direction, threshold)
  | some (kept, other) =>
      match pace.settle threshold with
      | (threshold, .singly keptWins otherWins) => do
          if ← otherFirst below direction kept other then
            mergeOn below direction threshold (.singly 0 (otherWins + 1)) (merging.take .other 1)
          else
            mergeOn below direction threshold (.singly (keptWins + 1) 0) (merging.take .kept 1)
      | (threshold, .secondLeap wins) => do
          let side := direction.firstSide.opposite
          let count ← countWins below direction merging side (kept, other)
          match _ : (merging.take side count).rivals? with
          | none => return ((merging.take side count).finish direction, threshold)
          | some _ =>
              mergeOn below direction threshold (.rated (max wins count))
                ((merging.take side count).take side.opposite 1)
      | (threshold, _) => do
          let side := direction.firstSide
          let count ← countWins below direction merging side (kept, other)
          match _ : (merging.take side count).rivals? with
          | none => return ((merging.take side count).finish direction, threshold)
          | some _ =>
              mergeOn below direction threshold (.secondLeap count)
                ((merging.take side count).take side.opposite 1)
termination_by merging.remaining
decreasing_by
  · exact merging.remaining_take_lt _ ‹_›
  · exact merging.remaining_take_lt _ ‹_›
  · exact merging.remaining_leap_lt _ _ ‹_›
  · exact merging.remaining_leap_lt _ _ ‹_›

/--
Merges two runs. What the left run has below the first item of the right one, and what the right run
has above the last item of the left one, is in its place already.
-/
@[specialize]
def mergeRuns (below : α → α → m Bool) (threshold : Nat) (left right : List α) :
    m (List α × Nat) :=
  match right with
  | [] => return (left, threshold)
  | first :: _ => do
      let placed ← gallop (fun item => return !(← below first item)) .forward left
      let lefts := left.drop placed
      match lefts.getLast? with
      | none => return (left ++ right, threshold)
      | some last =>
          let backward := right.reverse
          let count ← gallop (fun item => return !(← below item last)) .backward backward
          let rights := backward.drop count
          if rights.isEmpty then return (left ++ right, threshold)
          else
            let (direction, merging) : Direction × Merging α :=
              if lefts.length ≤ rights.length then
                (.forward, { kept := lefts, other := rights.reverse })
              else (.backward, { kept := rights, other := lefts.reverse })
            let (merged, threshold) ←
              mergeOn below direction threshold (.singly 0 0) (merging.take .other 1)
            return (left.take placed ++ merged ++ (backward.take count).reverse, threshold)

end Collections.StableSort
