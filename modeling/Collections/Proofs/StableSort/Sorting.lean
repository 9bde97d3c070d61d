import Collections.Proofs.StableSort.Merging

set_option autoImplicit false

namespace Collections.StableSort

open Std

variable {α : Type} {order : α → α → Ordering} [TransCmp order]

theorem insertIdx_eq_append {items : List α} {position : Nat} (inside : position ≤ items.length)
    (item : α) : items.insertIdx position item = items.take position ++ item :: items.drop position := by
  induction position generalizing items with
  | zero => rfl
  | succ position ih =>
    cases items with
    | nil => simp at inside
    | cons first rest =>
      have shorter : position ≤ rest.length := by simpa using inside
      simp [ih shorter]

section Inserting

theorem place_eq {sorted : Array α} (ascending : Ascending order sorted.toList) (pivot : α)
    {low high : Nat} (bound : high ≤ sorted.size)
    (least : low ≤ passing (fun item => !(order pivot item == .lt)) sorted.toList)
    (most : passing (fun item => !(order pivot item == .lt)) sorted.toList ≤ high) :
    place (below order) sorted pivot low high bound =
      passing (fun item => !(order pivot item == .lt)) sorted.toList := by
  induction low, high, bound using place.induct sorted with
  | case1 low high bound inside middle left right =>
    have front := front_not_above ascending pivot
    have within : middle < sorted.size := by omega
    have found : sorted.toList[middle]? = some sorted[middle] := by simp [within]
    have tested := front.passes_iff found
    rw [place.eq_def]
    simp only [inside, ↓reduceDIte]
    change (if (order pivot sorted[middle] == .lt) = true then _ else _) = _
    -- The pivot goes behind its equals, so the middle is passed unless it is above the pivot.
    split
    next above =>
      refine left least (Nat.le_of_not_lt fun passed => ?_)
      simpa [above] using tested.2 passed
    next notAbove => exact right (tested.1 (by simpa using notAbove)) most
  | case2 low high bound outside =>
    rw [place.eq_def]
    simp only [outside, ↓reduceDIte]
    change low = _
    omega

theorem insert_eq {sorted : Array α} (ascending : Ascending order sorted.toList) (pivot : α) :
    (insert (below order) sorted pivot : Array α).toList = merged order sorted.toList [pivot] := by
  have position := place_eq ascending pivot (Nat.le_refl sorted.size) (Nat.zero_le _)
    passing_le_length
  have above := above_of_dropped ascending pivot rfl
  generalize counted : passing _ sorted.toList = count at position above
  have inside : count ≤ sorted.size := counted ▸ passing_le_length
  have before := merged_append_left (sorted.toList.drop count) [pivot]
    fun item member other same => List.mem_singleton.1 same ▸ isLE_of_taken order counted item member
  have leads : ∀ item ∈ [pivot], ∀ other ∈ sorted.toList.drop count, order item other = .lt :=
    fun item same other member => List.mem_singleton.1 same ▸ above other member
  have after := merged_append_right (sorted.toList.drop count) [] leads
  rw [List.take_append_drop] at before
  rw [List.append_nil, merged_nil] at after
  rw [before, after]
  change (sorted.insertIdxIfInBounds (place (below order) sorted pivot 0 sorted.size _) pivot).toList = _
  rw [position, Array.insertIdxIfInBounds, dif_pos inside, Array.toList_insertIdx]
  exact insertIdx_eq_append inside pivot

theorem insertAll_ascending (items : List α) (sorted : Array α)
    (ascending : Ascending order sorted.toList) :
    Ascending order (insertAll (below order) sorted items : Array α).toList ∧
      KeepsClasses order (sorted.toList ++ items)
        (insertAll (below order) sorted items : Array α).toList := by
  induction items generalizing sorted with
  | nil => exact ⟨ascending, by rw [List.append_nil]; exact .refl sorted.toList⟩
  | cons pivot rest ih =>
    have inserted := insert_eq ascending pivot
    have single : Ascending order [pivot] := List.pairwise_singleton _ _
    have ascends : Ascending order (insert (below order) sorted pivot : Array α).toList := by
      rw [inserted]
      exact merged_ascending ascending single
    obtain ⟨allAscend, kept⟩ := ih _ ascends
    refine ⟨allAscend, ?_⟩
    have first : KeepsClasses order (sorted.toList ++ [pivot])
        (insert (below order) sorted pivot : Array α).toList := by
      rw [inserted]
      exact merged_keepsClasses ascending _
    have whole := first.append (.refl rest)
    rw [List.append_assoc] at whole
    exact whole.trans kept

end Inserting

section Runs

-- The sense of a run: strictly descending, or ascending.
def Sense (order : α → α → Ordering) (descending : Bool) (items : List α) : Prop :=
  items.Pairwise fun earlier later => (order later earlier == .lt) = descending

theorem Sense.cons {descending : Bool} {previous item : α} {rest : List α}
    (next : (order item previous == .lt) = descending) (sense : Sense order descending (item :: rest)) :
    Sense order descending (previous :: item :: rest) := by
  refine List.pairwise_cons.2 ⟨fun later member => ?_, sense⟩
  rcases List.mem_cons.1 member with rfl | member
  · exact next
  · have follows := (List.pairwise_cons.1 sense).1 later member
    cases descending
    · simp only [beq_eq_false_iff_ne, ← isLE_iff_ne_lt order] at next follows ⊢
      exact TransCmp.isLE_trans next follows
    · simp only [beq_iff_eq] at next follows ⊢
      exact TransCmp.lt_trans follows next

theorem continueRun_eq (order : α → α → Ordering) [TransCmp order] (descending : Bool)
    (previous : α) (length : Nat) (items : List α) :
    ∃ run rest, items = run ++ rest ∧ Sense order descending (previous :: run) ∧
      continueRun (below order) descending previous length items = length + run.length := by
  induction items generalizing previous length with
  | nil => exact ⟨[], [], rfl, List.pairwise_singleton _ _, rfl⟩
  | cons item rest ih =>
    simp only [continueRun]
    by_cases goesOn : (order item previous == .lt) = descending
    · obtain ⟨run, left, whole, sense, count⟩ := ih item (length + 1)
      refine ⟨item :: run, left, by rw [whole, List.cons_append], sense.cons goesOn, ?_⟩
      change (if ((order item previous == .lt) == descending) = true then _ else _) = _
      rw [if_pos (beq_iff_eq.2 goesOn), count]
      exact Nat.add_right_comm length 1 run.length
    · refine ⟨[], item :: rest, rfl, List.pairwise_singleton _ _, ?_⟩
      change (if ((order item previous == .lt) == descending) = true then _ else _) = _
      rw [if_neg fun same => goesOn (beq_iff_eq.1 same)]
      rfl

theorem measureRun_eq (order : α → α → Ordering) [TransCmp order] (items : List α) :
    Sense order (measureRun (below order) items : Bool × Nat).1
      (items.take (measureRun (below order) items : Bool × Nat).2) := by
  match items with
  | [] => exact List.Pairwise.nil
  | [item] => exact List.pairwise_singleton _ _
  | first :: second :: rest =>
    obtain ⟨run, left, rfl, sense, count⟩ :=
      continueRun_eq order (order second first == .lt) second 2 rest
    have length : (measureRun (below order) (first :: second :: (run ++ left)) : Bool × Nat) =
        (order second first == .lt, 2 + run.length) := by
      rw [← count]
      rfl
    have begins : (first :: second :: (run ++ left)).take (2 + run.length) = first :: second :: run := by
      rw [Nat.add_comm, List.take_succ_cons, List.take_succ_cons, List.take_left]
    rw [length, begins]
    exact Sense.cons rfl sense

theorem Sense.arranged {descending : Bool} {items : List α} (sense : Sense order descending items) :
    Ascending order (if descending then items.reverse else items) ∧
      KeepsClasses order items (if descending then items.reverse else items) := by
  cases descending with
  | false =>
    refine ⟨sense.imp fun {earlier later} notLower => ?_, .refl items⟩
    exact (isLE_iff_ne_lt order).2 (by simpa using notLower)
  | true =>
    have lower : items.Pairwise fun earlier later => order later earlier = .lt :=
      sense.imp fun {earlier later} lower => by simpa using lower
    refine ⟨List.pairwise_reverse.2 (lower.imp fun below => by simp [below]), .reverse ?_⟩
    refine lower.imp fun {earlier later} below equal => ?_
    rw [OrientedCmp.eq_symm equal] at below
    cases below

theorem sortRun_sorts (descending : Bool) (length : Nat) (items : List α)
    (sense : Sense order descending (items.take length)) :
    Ascending order (sortRun (below order) descending length items : Array α).toList ∧
      KeepsClasses order items (sortRun (below order) descending length items : Array α).toList := by
  obtain ⟨ascending, kept⟩ := sense.arranged
  simp only [sortRun]
  obtain ⟨allAscend, allKept⟩ := insertAll_ascending (items.drop length)
    (if descending then (items.take length).reverse else items.take length).toArray
    (by simpa using ascending)
  refine ⟨allAscend, ?_⟩
  have whole := kept.append (.refl (items.drop length))
  rw [List.take_append_drop] at whole
  exact whole.trans (by simpa using allKept)

end Runs

section Balancing

def contents (runs : List (Array α)) : List α := (runs.reverse.map Array.toList).flatten

theorem contents_cons (run : Array α) (runs : List (Array α)) :
    contents (run :: runs) = contents runs ++ run.toList := by
  simp [contents]

theorem collapse_sorts (order : α → α → Ordering) [TransCmp order]
    (site? : List Nat → Option Site) (threshold : Nat) (runs : List (Array α))
    (ascending : ∀ run ∈ runs, Ascending order run.toList) :
    (∀ run ∈ (collapse (below order) site? threshold runs : List (Array α) × Nat).1,
      Ascending order run.toList) ∧
    KeepsClasses order (contents runs)
      (contents (collapse (below order) site? threshold runs : List (Array α) × Nat).1) := by
  -- Two neighbours become one run, so the induction is on the number of pending runs.
  induction count : runs.length using Nat.strongRecOn generalizing threshold runs with
  | ind count ih =>
    rw [collapse.eq_def]
    split
    next last previous rest _ =>
      have lastAscends := ascending last (by simp)
      have previousAscends := ascending previous (by simp)
      have joined := mergeRuns_eq threshold previousAscends lastAscends
      generalize mergeRuns (below order) threshold previous.toList last.toList = result at joined ⊢
      obtain ⟨run, nextThreshold⟩ := result
      obtain rfl : run = merged order previous.toList last.toList := joined
      obtain ⟨allAscend, kept⟩ := ih _ (by simp_all; omega) nextThreshold
        ((merged order previous.toList last.toList).toArray :: rest)
        (by simpa [merged_ascending previousAscends lastAscends] using
          fun run member => ascending run (by simp [member])) rfl
      refine ⟨allAscend, .trans ?_ kept⟩
      rw [contents_cons, contents_cons, contents_cons, List.append_assoc]
      exact .append (.refl _) (merged_keepsClasses previousAscends _)
    next last previous third rest _ =>
      have previousAscends := ascending previous (by simp)
      have thirdAscends := ascending third (by simp)
      have joined := mergeRuns_eq threshold thirdAscends previousAscends
      generalize mergeRuns (below order) threshold third.toList previous.toList = result at joined ⊢
      obtain ⟨run, nextThreshold⟩ := result
      obtain rfl : run = merged order third.toList previous.toList := joined
      obtain ⟨allAscend, kept⟩ := ih _ (by simp_all; omega) nextThreshold
        (last :: (merged order third.toList previous.toList).toArray :: rest)
        (by simpa [merged_ascending thirdAscends previousAscends] using
          ⟨ascending last (by simp), fun run member => ascending run (by simp [member])⟩) rfl
      refine ⟨allAscend, .trans ?_ kept⟩
      rw [contents_cons, contents_cons, contents_cons, contents_cons, contents_cons,
        List.append_assoc (contents rest)]
      exact .append (.append (.refl _) (merged_keepsClasses thirdAscends _)) (.refl _)
    next => exact ⟨ascending, .refl _⟩

theorem collapse_pending (order : α → α → Ordering) (threshold : Nat) (runs : List (Array α)) :
    (collapse (below order) pending? threshold runs : List (Array α) × Nat).1.length ≤ 1 := by
  induction count : runs.length using Nat.strongRecOn generalizing threshold runs with
  | ind count ih =>
    rw [collapse.eq_def]
    split
    next last previous rest _ =>
      generalize mergeRuns (below order) threshold previous.toList last.toList = result
      exact ih _ (by simp_all; omega) result.2 (result.1.toArray :: rest) rfl
    next last previous third rest _ =>
      generalize mergeRuns (below order) threshold third.toList previous.toList = result
      exact ih _ (by simp_all; omega) result.2 (last :: result.1.toArray :: rest) rfl
    next runs _ _ notLast notBeforeLast =>
      -- With two runs or more there is a site: the last two, or the two before the last.
      rcases runs with _ | ⟨last, _ | ⟨previous, _ | ⟨third, rest⟩⟩⟩
      · exact Nat.zero_le 1
      · exact Nat.le_refl 1
      · exact (notLast last previous [] rfl rfl).elim
      · by_cases shorter : third.size < last.size
        · exact (notBeforeLast last previous third rest
            (by simp [pending?, Site.ofNeighbours, shorter]) rfl).elim
        · exact (notLast last previous (third :: rest)
            (by simp [pending?, Site.ofNeighbours, shorter]) rfl).elim

end Balancing

theorem sortRuns_sorts (shortest threshold : Nat) (runs : List (Array α)) (items : List α)
    (ascending : ∀ run ∈ runs, Ascending order run.toList) :
    Ascending order (sortRuns (below order) shortest threshold runs items : List α) ∧
      KeepsClasses order (contents runs ++ items)
        (sortRuns (below order) shortest threshold runs items : List α) := by
  induction threshold, runs, items using sortRuns.induct shortest with
  | case1 threshold runs =>
    rw [sortRuns.eq_def]
    -- The items are used up: what is left of the pending runs is at most one run.
    have single := collapse_pending order threshold runs
    obtain ⟨allAscend, kept⟩ := collapse_sorts order pending? threshold runs ascending
    change Ascending order (contents
        (collapse (below order) pending? threshold runs : List (Array α) × Nat).1) ∧
      KeepsClasses order _ (contents
        (collapse (below order) pending? threshold runs : List (Array α) × Nat).1)
    rw [List.append_nil]
    refine ⟨?_, kept⟩
    generalize (collapse (below order) pending? threshold runs : List (Array α) × Nat).1 = result at *
    match result with
    | [] => exact List.Pairwise.nil
    | [run] => simpa [contents] using allAscend run
  | case2 threshold runs first rest ih =>
    rw [sortRuns.eq_def]
    have sense := measureRun_eq order (first :: rest)
    generalize measured : (measureRun (below order) (first :: rest) : Bool × Nat) = result at sense
    obtain ⟨descending, natural⟩ := result
    dsimp only
    rw [measured]
    -- One run is taken from the items and put in order; then the pending runs are balanced.
    let length := if natural < shortest then min shortest (rest.length + 1) else natural
    obtain ⟨runAscends, runKept⟩ := sortRun_sorts descending natural
      (first :: rest.take (length - 1)) (by
        have begins : first :: rest.take (length - 1) <+: first :: rest :=
          List.cons_prefix_cons.2 ⟨rfl, List.take_prefix _ _⟩
        have shorter := List.prefix_take_iff.2
          ⟨(List.take_prefix natural _).trans begins, List.length_take_le natural _⟩
        exact List.Pairwise.sublist shorter.sublist sense)
    let run : Array α := sortRun (below order) descending natural (first :: rest.take (length - 1))
    obtain ⟨collapsedAscend, collapsedKept⟩ := collapse_sorts order unbalanced? threshold
      (run :: runs) (by simpa [run, runAscends] using ascending)
    let collapsed : List (Array α) × Nat := collapse (below order) unbalanced? threshold (run :: runs)
    obtain ⟨allAscend, kept⟩ := ih natural collapsed.1 collapsed.2 collapsedAscend
    refine ⟨allAscend, .trans ?_ kept⟩
    have whole := (((KeepsClasses.refl (contents runs)).append runKept).trans
      (contents_cons run runs ▸ collapsedKept)).append (.refl (rest.drop (length - 1)))
    rwa [List.append_assoc, List.cons_append, List.take_append_drop] at whole

theorem sort_sorts (items : List α) :
    Ascending order (sort (below order) items : List α) ∧
      KeepsClasses order items (sort (below order) items : List α) :=
  sortRuns_sorts (shortestRun items.length) worthwhile [] items (by simp)

end Collections.StableSort
