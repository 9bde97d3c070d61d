import Collections.Proofs.Assignment
import Collections.Proofs.Runs.Conduct
import Collections.Script.Run

set_option autoImplicit false

namespace Collections.Script

theorem ask_reads {α : Type} (question : Heap → Except Failure α) : OnlyReads (ask question) := by
  intro before
  have answered : ask question before = resultOf (question before.outside.heap) before := rfl
  unfold Ends
  rw [answered]
  cases question before.outside.heap <;> rfl

theorem inHeap_of_kept {α : Type} {action : HeapAction α} {before : State Session} {result : α}
    (kept : action before.outside.heap = .ok result before.outside.heap) :
    inHeap action before = .ok result before := by
  simp only [inHeap, kept]

theorem inHeap_of_broke {α : Type} {action : HeapAction α} {before : State Session}
    {failure : Failure} (broke : action before.outside.heap = .error failure before.outside.heap) :
    inHeap action before = .error failure before := by
  simp only [inHeap, broke]

theorem callbacks_ordinary (run : Runner) : (callbacks run).Ordinary where
  looks parent name := ask_reads fun heap =>
    Heap.requireOpen ((heap.lookAbove? .array parent name).getD .undefined)
  requires copying constructing := ask_reads (Heap.requireCopyable copying constructing)
  assigns parent number value before := by
    have assigning : (callbacks run).assignAbove parent number.toText value =
        inHeap (Heap.assignAbove .array Heap.arrayText parent number.toText value) := rfl
    unfold Ends
    rw [assigning]
    rcases Heap.assignAbove_toText parent number value before.outside.heap with kept | ⟨_, broke⟩
    · rw [inHeap_of_kept kept]
      exact ⟨nofun, rfl⟩
    · rw [inHeap_of_broke broke]
  copies before := ⟨(), before, rfl, rfl⟩

theorem callbacks_onlyLook (run : Runner) : (callbacks run).OnlyLook where
  lookAbove parent name := ((callbacks_ordinary run).looks parent name).advances
  requireCopyable copying constructing :=
    ((callbacks_ordinary run).requires copying constructing).advances

theorem callbacks_copyPlainStorages (run : Runner) : (callbacks run).CopyPlainStorages :=
  fun before => ((callbacks_ordinary run).copies before).imp fun _ _ same => same ▸ .refl before

theorem visitGiven_discarded (visit : Value → Action Session Unit) (results : Array Unit)
    (values : List Value) :
    (do let _ ← visitGiven visit results values) = values.forM visit := by
  induction values generalizing results with
  | nil => rfl
  | cons value rest ih =>
    simp only [visitGiven, bind_assoc, ih]
    rfl

theorem ofValues_plain (callbacks : Callbacks Session) (values : List Value)
    (options : ListOptions) :
    (do
      let list ← Sequence.empty options
      appendMany callbacks list (.plain values)
      return list) = Sequence.ofValues callbacks values options := by
  unfold Sequence.ofValues appendMany visitValues
  simp only [visitGiven_discarded]

end Collections.Script
