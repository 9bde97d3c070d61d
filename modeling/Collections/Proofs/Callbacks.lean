import Collections.Proofs.Ranking

set_option autoImplicit false

namespace Collections

open Std

variable {Outside : Type}

namespace Callbacks

variable (callbacks : Callbacks Outside)

def QuietDestructors : Prop :=
  ∀ name value before, Succeeds (callbacks.destruct name value) before fun _ after =>
    after.containers = before.containers

def KeepComparators : Prop :=
  ∀ name value set held before, before.containers.sets.cell? set = some held →
    Ends (callbacks.destruct name value) before
      (fun _ after => ∃ kept, after.containers.sets.cell? set = some kept ∧
        kept.comparator = held.comparator)
      (fun _ after => ∃ kept, after.containers.sets.cell? set = some kept ∧
        kept.comparator = held.comparator)

structure OnlyLook : Prop where
  lookAbove : ∀ parent name, OnlyAdvances (callbacks.lookAbove parent name)
  requireCopyable : ∀ copying constructing,
    OnlyAdvances (callbacks.requireCopyable copying constructing)

def requirePlainCopyable : Action Outside Unit := do
  let copying ← callbacks.lookAbove .shared "slice"
  let constructing ← callbacks.lookAbove .shared "constructor"
  callbacks.requireCopyable copying constructing

def CopyPlainStorages : Prop :=
  ∀ before, Succeeds callbacks.requirePlainCopyable before fun _ => before.Advances

def plain (Outside : Type) (order : ComparatorId → Value → Value → Ordering) :
    Callbacks Outside where
  destruct _ _ := return ()
  compare comparator left right := return { order := order comparator left right }
  draw _ lower _ := return .ofNumber lower
  capacityOf _ := return 0
  lookAbove _ name := return .intrinsic (.member .array name)
  assignAbove _ _ _ := return .kept
  slotsOf _ := return []
  requireCopyable _ _ := return ()
  notify _ _ outside := outside
  growths := 0

section Plain

variable (Outside) (order : ComparatorId → Value → Value → Ordering)

theorem plain_compares (comparator : ComparatorId) :
    (plain Outside order).Compares comparator (order comparator) :=
  fun _ _ before => ⟨before.outside, rfl⟩

theorem plain_quiet : (plain Outside order).QuietDestructors :=
  fun _ _ before => ⟨(), before, rfl, rfl⟩

theorem plain_keepComparators : (plain Outside order).KeepComparators :=
  fun _ _ _ held _ there => ⟨held, there, rfl⟩

theorem plain_copyPlainStorages : (plain Outside order).CopyPlainStorages :=
  fun before => ⟨(), before, rfl, .refl before⟩

end Plain

end Callbacks

end Collections
