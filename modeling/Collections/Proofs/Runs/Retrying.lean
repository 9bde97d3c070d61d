import Mathlib.Data.List.Perm.Subperm
import Collections.Proofs.Runs.Releasing

set_option autoImplicit false

namespace Collections

inductive Containers.Owes (containers : Containers) : Operation → List (String × Value) → Prop where
  | list {list : Handle Sequence} {held : Sequence} (there : containers.lists.cell? list = some held)
      (live : held.destroyed = false) :
      containers.Owes (.destroy list) (owing held.destructor held.elements)
  | present {list : Handle Sequence} {held : Sequence}
      (there : containers.lists.cell? list = some held) (live : held.destroyed = false) :
      containers.Owes (.destroyIfPresent (some list)) (owing held.destructor held.elements)
  | set {set : Handle OrderedSet} {held : OrderedSet} (there : containers.sets.cell? set = some held) :
      containers.Owes (.destroySet set) (owing held.destructor held.items.toList)

inductive Retried (surroundings : Surroundings Diary) (operation : Operation) :
    State Diary → Nat → State Diary → Prop where
  | answered {before after : State Diary} {answer : Operation.Answer}
      (ok : perform surroundings operation before = .ok answer after) :
      Retried surroundings operation before 0 after
  | again {before middle after : State Diary} {failure : Failure} {failures : Nat}
      (broke : perform surroundings operation before = .error failure middle)
      (later : Retried surroundings operation middle failures after) :
      Retried surroundings operation before (failures + 1) after

/-- The calls of all attempts, of which the last one alone releases all that is owed. -/
inductive Conducts.StartsOver (conducts : Conducts) (owed : List (String × Value)) :
    Nat → List (String × Value) → Prop where
  | through : conducts.StartsOver owed 0 owed
  | again {failures : Nat} {calls later : List (String × Value)} {failure : Failure}
      (breaks : conducts.BreaksOff owed calls failure)
      (rest : conducts.StartsOver owed failures later) :
      conducts.StartsOver owed (failures + 1) (calls ++ later)

section Retrying

variable {conducts : Conducts} {host : Callbacks Diary} {owed calls : List (String × Value)}
  {failures : Nat}

theorem Conducts.StartsOver.length_le (begun : conducts.StartsOver owed failures calls) :
    owed.length + failures ≤ calls.length := by
  induction begun with
  | through => simp
  | again breaks _ ih =>
    have := List.length_pos_iff.2 breaks.ne_nil
    rw [List.length_append]
    omega

-- The first attempt that fails is enough for some call to come too often.
theorem Conducts.StartsOver.count_le_iff (begun : conducts.StartsOver owed failures calls) :
    (∀ call, calls.count call ≤ owed.count call) ↔ failures = 0 := by
  constructor
  · intro counts
    have within : calls.Subperm owed := List.subperm_ext_iff.2 fun call _ => counts call
    have short := within.length_le
    have long := begun.length_le
    omega
  · rintro rfl call
    cases begun
    exact Nat.le_refl _

variable (conducts host) in
theorem Containers.Owes.pays {operation : Operation} {before : State Diary}
    (owes : before.containers.Owes operation owed) :
    conducts.Pays (perform (conducts.quietly host) operation) owed before := by
  cases owes with
  | list there live => exact (Sequence.destroy_pays conducts host there live).answer Operation.Answer.done
  | present there live =>
    exact (Sequence.destroy_pays conducts host there live).answer Operation.Answer.done
  | set there =>
    have pays := OrderedSet.destroy_pays conducts host (Table.get_of_cell? there)
    exact pays.answer Operation.Answer.done

/--
However often a teardown fails before it is through, each attempt begins with what the container owed
first. No element is released more than once exactly if no attempt fails.
-/
theorem teardowns_start_over (conducts : Conducts) (host : Callbacks Diary) {operation : Operation}
    {owed : List (String × Value)} {start after : State Diary} {failures : Nat}
    (owes : start.containers.Owes operation owed)
    (retried : Retried (conducts.quietly host) operation start failures after) :
    ∃ calls, after.outside.destructed = start.outside.destructed ++ calls ∧
      conducts.StartsOver owed failures calls ∧
        ((∀ call, calls.count call ≤ owed.count call) ↔ failures = 0) := by
  suffices ∃ calls, after.outside.destructed = start.outside.destructed ++ calls ∧
      conducts.StartsOver owed failures calls by
    obtain ⟨calls, traced, begun⟩ := this
    exact ⟨calls, traced, begun, begun.count_le_iff⟩
  induction retried with
  | answered ok =>
    have ended := owes.pays conducts host
    simp only [Conducts.Pays, Ends, ok] at ended
    exact ⟨owed, ended, .through⟩
  | again broke _ ih =>
    have ended := owes.pays conducts host
    simp only [Conducts.Pays, Ends, broke] at ended
    obtain ⟨same, calls, traced, breaks⟩ := ended
    -- What failed has left the containers alone, so the next attempt owes as much.
    obtain ⟨later, follows, begun⟩ := ih (same ▸ owes)
    exact ⟨calls ++ later, by rw [follows, traced, List.append_assoc], .again breaks begun⟩

theorem teardowns_start_over_at_second :
    let host := Callbacks.plain Diary fun _ => compareOn Value.rank
    let conducts := { Conducts.still with
      destruct := fun call _ _ =>
        { outcome := if call = 1 then .error (.thrown "busy") else .ok () } }
    let start := conducts.quietFinal host
      [.listOf [.integer 1, .null, .integer 2] { destructor := some "free" }]
    let owed : List (String × Value) := [("free", .integer 1), ("free", .integer 2)]
    start.containers.Owes (.destroy ⟨0⟩) owed ∧ ∃ after calls,
      Retried (conducts.quietly host) (.destroy ⟨0⟩) start 1 after ∧
        after.outside.destructed = calls ∧ conducts.StartsOver owed 1 calls ∧
          ¬ ∀ call, calls.count call ≤ owed.count call := by
  intro host conducts start owed
  let held := start.containers.lists.get ⟨0⟩
  have there : start.containers.lists.cell? ⟨0⟩ = some held := rfl
  have owing : owing held.destructor held.elements = owed := by decide +kernel
  have owes := Containers.Owes.list there rfl
  rw [owing] at owes
  have retried : ∃ after, Retried (conducts.quietly host) (.destroy ⟨0⟩) start 1 after :=
    ⟨_, .again rfl (.answered rfl)⟩
  obtain ⟨after, retried⟩ := retried
  obtain ⟨calls, traced, begun, counts⟩ := teardowns_start_over conducts host owes retried
  exact ⟨owes, after, calls, retried, traced, begun, fun few => by cases counts.1 few⟩

theorem element_released_twice :
    let host := Callbacks.plain Diary fun _ => compareOn Value.rank
    let conducts := { Conducts.still with
      destruct := fun call _ _ =>
        { outcome := if call = 1 then .error (.thrown "busy") else .ok () } }
    let start := conducts.quietFinal host
      [.listOf [.integer 1, .integer 2] { destructor := some "free" }]
    let owed : List (String × Value) := [("free", .integer 1), ("free", .integer 2)]
    start.containers.Owes (.destroy ⟨0⟩) owed ∧ ∃ after,
      Retried (conducts.quietly host) (.destroy ⟨0⟩) start 1 after ∧
        after.outside.destructed = start.outside.destructed ++ owed ++ owed ∧
          ¬ after.outside.destructed.count ("free", .integer 1) ≤ owed.count ("free", .integer 1) := by
  intro host conducts start owed
  let held := start.containers.lists.get ⟨0⟩
  have there : start.containers.lists.cell? ⟨0⟩ = some held := rfl
  have owing : owing held.destructor held.elements = owed := by decide +kernel
  refine ⟨owing ▸ .list there rfl, _, .again rfl (.answered rfl), ?_, ?_⟩ <;> decide +kernel

end Retrying

end Collections
