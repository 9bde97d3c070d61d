import Collections.Proofs.Runs.Conduct
import Collections.Proofs.Sequence.Slots
import Collections.Proofs.StableSort.Permuting

set_option autoImplicit false

namespace Collections.Sequence

variable {Outside : Type} {callbacks : Callbacks Outside} {list : Handle Sequence}
  {held after : Sequence} {before : State Outside}

structure Sound (held : Sequence) : Prop where
  room : held.length ≤ held.capacity
  assigned : ∀ slot, slot < held.length → (held.storage.assigned? slot).isSome
  released : held.destroyed = true → held.length = 0 ∧ held.destructor = none

/-- A sound list whose storage nobody has tampered with. -/
structure Steady (held : Sequence) : Prop where
  covers : held.storage.Covers held.length
  plain : held.storage.Plain
  released : held.destroyed = true → held.length = 0 ∧ held.destructor = none
  zero : held.negativeZero = true → held.length = 0

namespace Steady

theorem sound (steady : held.Steady) : held.Sound :=
  ⟨steady.covers.room, steady.covers.assigned, steady.released⟩

theorem elements_eq (steady : held.Steady) : held.held = held.elements.map some :=
  steady.covers.held_eq

theorem absent : (default : Sequence).Steady where
  covers := .blank _
  plain := .blank #[]
  released _ := ⟨rfl, rfl⟩
  zero := nofun

end Steady

theorem Fresh.steady (fresh : held.Fresh) : held.Steady := by
  cases fresh with
  | empty options => exact ⟨.blank _, .blank _, nofun, nofun⟩
  | nulls count negativeZero options zero =>
    exact ⟨.filled count .null, .blank _, nofun, zero⟩

theorem Edit.steady (edit : held.Edit after) (steady : held.Steady) : after.Steady := by
  obtain ⟨covers, plain, released, zero⟩ := steady
  cases edit with
  | grown => exact ⟨.reallocate _ _ _, (Storage.Plain.blank _).writeFrom _ _, released, zero⟩
  | pushed live value =>
    refine ⟨covers.push value, plain.write _ value, fun destroyed => ?_, by simp [push]⟩
    simp [push, live] at destroyed
  | written slot value => exact ⟨covers.write slot value, plain.write slot value, released, zero⟩
  | putAside number value =>
    exact ⟨covers.putAside _ value, plain.putAside number value, released, zero⟩
  | shiftedOut slot =>
    refine ⟨covers.shiftOut slot, (plain.writeFrom _ _).unassign _, fun destroyed => ?_, fun negative => ?_⟩
    · simp [shiftOut, released destroyed]
    · simp [shiftOut, zero negative]
  | overwritten values => exact ⟨covers.writeFrom 0 values, plain.writeFrom 0 values, released, zero⟩
  | turned => exact ⟨covers.turn, (plain.writeFrom _ _).writeFrom _ _, released, zero⟩
  | assigned live destructor =>
    refine ⟨covers, plain, fun destroyed => ?_, zero⟩
    simp [live] at destroyed
  | abandoned => exact ⟨covers, plain, fun destroyed => ⟨(released destroyed).1, rfl⟩, zero⟩
  | released => exact ⟨.blank _, .blank _, fun _ => ⟨rfl, rfl⟩, by simp [release]⟩

theorem Edit.destroyed (edit : held.Edit after) (destroyed : held.destroyed = true) :
    after.destroyed = true := by
  cases edit <;> first | exact destroyed | rfl

theorem look_plain {storage : Storage} (plain : storage.Plain) {word : String}
    (lettered : 'c' ∈ word.toList) :
    look callbacks storage word = callbacks.lookAbove .shared word := by
  simp [look, plain.keptAside?_eq_none lettered, plain.parent]

theorem copyOut_all (ordinary : callbacks.Ordinary)
    (there : before.containers.lists.cell? list = some held) (steady : held.Steady) :
    Succeeds (copyOut callbacks list) before fun copied after =>
      after = before ∧ copied = held.elements.map some := by
  apply Succeeds.bind_eq (state_eq there)
  rw [look_plain steady.plain (by decide), look_plain steady.plain (by decide), steady.elements_eq]
  have copying : Succeeds
      (callbacks.requirePlainCopyable >>= fun _ => pure (held.elements.map some)) before
      fun copied after => after = before ∧ copied = held.elements.map some :=
    (ordinary.copies before).bind fun _ after same => Succeeds.of_pure ⟨same, rfl⟩
  simpa only [Callbacks.requirePlainCopyable, bind_assoc] using copying

theorem sort_ends (ordinary : callbacks.Ordinary) (comparator : ComparatorId)
    (there : before.containers.lists.cell? list = some held) (steady : held.Steady)
    (live : held.destroyed = false) :
    Ends (sort callbacks list (some comparator)) before (fun _ _ => True)
      fun failure _ => ∃ left right early late,
        callbacks.below (some comparator) left right early = .error failure late := by
  apply Ends.bind_eq (requireLive_eq there live .sort)
  refine (copyOut_all ordinary there steady).ends.bind fun copied copying told => ?_
  obtain ⟨rfl, rfl⟩ := told
  refine ((StableSort.sort_ends _ _ copying).imp (fun _ _ permuted => permuted)
    fun _ _ broke => broke).bind fun sorted after permuted => ?_
  apply Ends.bind_eq rfl
  -- As many values come back as were copied out.
  have whole : sorted.length = held.elements.length := by simpa using permuted.length_eq
  rw [if_neg (by simp [whole])]
  trivial

end Collections.Sequence
