import Collections.Heap.Assignment
import Collections.Proofs.Sequence.Slots

set_option autoImplicit false

namespace Collections

def Binding.isPlain : Binding → Bool
  | .data | .readOnly | .restricted => true
  | .link | .stack _ => false

namespace Heap

variable {family : Family} {key : String} {binding : Binding}

theorem memberOf?_isRoot {intrinsic : Intrinsic}
    (found : memberOf? family key = some (.intrinsic intrinsic)) (root : intrinsic.isRoot) :
    key = Record.parentKey := by
  unfold memberOf? at found
  split at found
  next => cases found
  next => cases found
  next =>
    dsimp only at found
    split at found
    next =>
      cases found
      have named : family.memberName key = Record.parentKey := by simpa [Intrinsic.isRoot] using root
      unfold Family.memberName at named
      split at named <;> simp_all [Record.parentKey]
    next => cases found

theorem sharedWithin_isRoot {depth : Nat} {intrinsic : Intrinsic}
    (found : sharedWithin key depth family = some (.intrinsic intrinsic)) (root : intrinsic.isRoot) :
    key = Record.parentKey := by
  induction depth generalizing family with
  | zero => cases found
  | succ depth ih =>
    rw [sharedWithin] at found
    cases own : memberOf? family key with
    | some value =>
      rw [own] at found
      cases found
      exact memberOf?_isRoot own root
    | none =>
      rw [own] at found
      obtain ⟨above, _, found⟩ := Option.bind_eq_some_iff.1 found
      exact ih found

theorem sharedBinding?_isPlain (unlinked : key ≠ Record.parentKey)
    (found : sharedBinding? family key = some binding) : binding.isPlain := by
  obtain ⟨value, shared, rfl⟩ := Option.map_eq_some_iff.1 found
  split
  next intrinsic =>
    by_cases root : intrinsic.isRoot
    · exact (unlinked (sharedWithin_isRoot shared root)).elim
    · cases restricted : intrinsic.isRestricted <;> simp [root, Binding.isPlain]
  next => rfl

theorem ownBinding?_isPlain {heap : Heap} (calm : key ≠ "stack") {object : Value}
    (found : heap.ownBinding? key object = some binding) : binding.isPlain := by
  unfold ownBinding? at found
  split at found
  next =>
    split at found
    · obtain ⟨_, rfl⟩ : _ ∧ Binding.readOnly = binding := by simpa using found
      rfl
    · rw [if_neg calm] at found
      cases found
    · obtain ⟨_, _, rfl⟩ := Option.map_eq_some_iff.1 found
      rfl
    · cases found
  next =>
    obtain ⟨_, rfl⟩ : _ ∧ Binding.readOnly = binding := by simpa using found
    rfl
  next => cases found

theorem bindingWithin_isPlain {heap : Heap} (unlinked : key ≠ Record.parentKey)
    (calm : key ≠ "stack") {depth : Nat} {parent : Parent}
    (found : heap.bindingWithin key depth family parent = some binding) : binding.isPlain := by
  induction depth generalizing family parent with
  | zero =>
    cases parent with
    | shared => exact sharedBinding?_isPlain unlinked found
    | absent => cases found
    | object => cases found
  | succ depth ih =>
    cases parent with
    | shared => exact sharedBinding?_isPlain unlinked found
    | absent => cases found
    | object object =>
      rw [bindingWithin] at found
      split at found
      next own =>
        cases found
        exact ownBinding?_isPlain calm own
      next => exact ih found
      next =>
        obtain ⟨_, _, found⟩ := Option.bind_eq_some_iff.1 found
        exact sharedBinding?_isPlain unlinked found

theorem assignAbove_toText (parent : Parent) (number : Number) (value : Value) (heap : Heap) :
    assignAbove .array arrayText parent number.toText value heap = .ok .kept heap ∨
      ∃ failure, assignAbove .array arrayText parent number.toText value heap =
        .error failure heap := by
  have unlinked : number.toText ≠ Record.parentKey := fun same =>
    absurd (number.toText_numeral '_' (by rw [same]; decide)) (by decide)
  have calm : number.toText ≠ "stack" := fun same =>
    absurd (number.toText_numeral 's' (by rw [same]; decide)) (by decide)
  have got : (get : HeapAction Heap) heap = .ok heap heap := rfl
  simp only [assignAbove, bind, EStateM.bind, got]
  cases found : heap.binding? .array parent number.toText with
  | none => exact .inl rfl
  | some binding =>
    have plain := bindingWithin_isPlain unlinked calm found
    cases binding with
    | data => exact .inl rfl
    | readOnly => exact .inr ⟨_, rfl⟩
    | restricted => exact .inr ⟨_, rfl⟩
    | link => cases plain
    | stack => cases plain

end Heap

end Collections
