import Collections.Proofs.Outcome
import Collections.Proofs.StableSort.Correspondence

set_option autoImplicit false

namespace Collections

variable {Outside α β : Type}

def Yields (action : Action Outside α) (wanted : α → Prop) : Prop :=
  ∀ before, Ends action before (fun result _ => wanted result) fun _ _ => True

namespace Yields

variable {action : Action Outside α} {next : α → Action Outside β} {wanted : β → Prop}

theorem of_pure {result : β} (holds : wanted result) : Yields (pure result : Action Outside β) wanted :=
  fun _ => holds

theorem bind {reached : α → Prop} (first : Yields action reached)
    (second : ∀ result, reached result → Yields (next result) wanted) :
    Yields (action >>= next) wanted :=
  fun before => (first before).bind fun result middle holds => second result holds middle

theorem of_any (action : Action Outside α) : Yields action fun _ => True := by
  intro before
  unfold Ends
  split <;> trivial

theorem bind_any (second : ∀ result, Yields (next result) wanted) : Yields (action >>= next) wanted :=
  (of_any action).bind fun result _ => second result

end Yields

namespace StableSort

def Merging.items (merging : Merging α) : List α := merging.kept ++ merging.other ++ merging.taken

namespace Merging

theorem take_perm (merging : Merging α) (side : Side) (count : Nat) :
    (merging.take side count).items.Perm merging.items := by
  have split (items : List α) : (items.drop count ++ (items.take count).reverse).Perm items := by
    have turned := (List.reverse_perm (items.take count)).append_left (items.drop count)
    have swapped := List.perm_append_comm.trans (.of_eq (List.take_append_drop count items))
    exact turned.trans swapped
  obtain ⟨kept, other, taken⟩ := merging
  cases side with
  | kept =>
    have moved := (split kept).append_right (other ++ taken)
    have swapped : (kept.drop count ++ other ++ ((kept.take count).reverse ++ taken)).Perm
        (kept.drop count ++ (kept.take count).reverse ++ (other ++ taken)) := by
      simpa [List.append_assoc] using
        (List.perm_append_comm_assoc other _ taken).append_left (kept.drop count)
    simpa [take, items, List.reverseAux_eq] using swapped.trans moved
  | other =>
    have moved := ((split other).append_left kept).append_right taken
    simpa [take, items, List.reverseAux_eq] using moved

theorem finish_perm (merging : Merging α) (direction : Direction) :
    (merging.finish direction).Perm merging.items := by
  obtain ⟨kept, other, taken⟩ := merging
  cases direction with
  | forward =>
    have turned := (List.reverse_perm taken).append (List.perm_append_comm : (other ++ kept).Perm _)
    simpa [finish, items, List.reverseAux_eq] using turned.trans List.perm_append_comm
  | backward =>
    have turned := (List.reverse_perm kept).append ((List.reverse_perm other).append_right taken)
    simpa [finish, items, List.reverseAux_eq] using turned

end Merging

variable (below : α → α → Action Outside Bool)

section Inserting

theorem place_le (sorted : Array α) (pivot : α) (low high : Nat) (bound : high ≤ sorted.size)
    (ordered : low ≤ high) :
    Yields (place below sorted pivot low high bound) fun position => position ≤ high := by
  induction low, high, bound using place.induct sorted with
  | case1 low high bound inside middle left right =>
    rw [place.eq_def]
    simp only [inside, ↓reduceDIte]
    refine .bind_any fun answer => ?_
    cases answer with
    | false => exact right (by omega)
    | true =>
      have earlier := left (by omega)
      exact fun before => (earlier before).imp (fun _ _ least => by omega) fun _ _ _ => trivial
  | case2 low high bound outside =>
    rw [place.eq_def]
    simp only [outside, ↓reduceDIte]
    exact .of_pure ordered

theorem insertAll_perm (sorted : Array α) (items : List α) :
    Yields (insertAll below sorted items) fun result => result.toList.Perm (sorted.toList ++ items) := by
  induction items generalizing sorted with
  | nil => exact .of_pure (by simp)
  | cons pivot rest ih =>
    have inserts : Yields (insert below sorted pivot) fun inserted =>
        inserted.toList.Perm (pivot :: sorted.toList) := by
      refine (place_le below sorted pivot 0 sorted.size _ (Nat.zero_le _)).bind fun position inside => ?_
      refine .of_pure ?_
      rw [Array.insertIdxIfInBounds, dif_pos inside, Array.toList_insertIdx]
      exact List.perm_insertIdx pivot sorted.toList inside
    refine inserts.bind fun inserted permuted before => (ih inserted before).imp ?_ fun _ _ _ => trivial
    intro result _ more
    calc result.toList.Perm (inserted.toList ++ rest) := more
      _ |>.Perm (pivot :: sorted.toList ++ rest) := permuted.append_right rest
      _ |>.Perm (sorted.toList ++ pivot :: rest) := List.perm_middle.symm

end Inserting

section Merging

theorem mergeOn_perm (direction : Direction) (threshold : Nat) (pace : Pace) (merging : Merging α) :
    Yields (mergeOn below direction threshold pace merging) fun result =>
      result.1.Perm merging.items := by
  have goesOn {side : Side} {count : Nat} {action : Action Outside (List α × Nat)}
      {merging : Merging α} (later : Yields action fun result =>
        result.1.Perm (merging.take side count).items) :
      Yields action fun result => result.1.Perm merging.items := fun before =>
    (later before).imp (fun _ _ permuted => permuted.trans (merging.take_perm side count))
      fun _ _ _ => trivial
  induction threshold, pace, merging using mergeOn.induct direction with
  | case1 threshold pace merging finished =>
    rw [mergeOn.eq_def]
    split
    · exact .of_pure (merging.finish_perm direction)
    next rivals => rw [finished] at rivals; cases rivals
  | case2 threshold pace merging kept other rivals next keptWins otherWins settled left right =>
    rw [mergeOn.eq_def]
    split
    next finished => rw [rivals] at finished; cases finished
    next found =>
      rw [rivals] at found
      cases found
      simp only [settled]
      refine .bind_any fun answer => ?_
      cases answer
      · exact goesOn right
      · exact goesOn left
  | case3 threshold pace merging kept other rivals next wins settled side ih
  | case4 threshold pace merging kept other rivals next following notSingly notSecond settled side
      ih =>
    rw [mergeOn.eq_def]
    split
    next finished => rw [rivals] at finished; cases finished
    next found =>
      rw [rivals] at found
      cases found
      simp only [settled]
      refine .bind_any fun count => ?_
      split
      next => exact .of_pure ((Merging.finish_perm _ _).trans (merging.take_perm _ _))
      next pair leapt => exact goesOn (goesOn (ih count pair leapt))

theorem framed_perm {left right merged : List α} (placed count : Nat)
    (permuted : merged.Perm (left.drop placed ++ right.reverse.drop count)) :
    (left.take placed ++ merged ++ (right.reverse.take count).reverse).Perm (left ++ right) := by
  have lefts : (left.take placed ++ merged).Perm (left ++ right.reverse.drop count) := by
    have inside := permuted.append_left (left.take placed)
    rwa [← List.append_assoc, List.take_append_drop] at inside
  have rights : (right.reverse.drop count ++ (right.reverse.take count).reverse).Perm right := by
    have turned := (List.reverse_perm (right.reverse.take count)).append_left (right.reverse.drop count)
    have swapped := List.perm_append_comm.trans (.of_eq (List.take_append_drop count right.reverse))
    exact (turned.trans swapped).trans (List.reverse_perm right)
  have both := lefts.append_right (right.reverse.take count).reverse
  rw [List.append_assoc left] at both
  exact both.trans (rights.append_left left)

theorem mergeRuns_perm (threshold : Nat) (left right : List α) :
    Yields (mergeRuns below threshold left right) fun result => result.1.Perm (left ++ right) := by
  cases right with
  | nil => exact .of_pure (by simp)
  | cons first rest =>
    refine .bind_any fun placed => ?_
    dsimp only
    split
    next => exact .of_pure (.refl _)
    next last _ =>
      refine .bind_any fun count => ?_
      split
      next => exact .of_pure (.refl _)
      next =>
        refine (mergeOn_perm below _ threshold _ _).bind fun merged permuted => .of_pure ?_
        refine framed_perm placed count ((permuted.trans (Merging.take_perm _ _ _)).trans ?_)
        split
        next => simpa [Merging.items] using (List.reverse_perm _).append_left (left.drop placed)
        next =>
          have turned := (List.reverse_perm (left.drop placed)).append_left
            ((first :: rest).reverse.drop count)
          simpa [Merging.items] using turned.trans List.perm_append_comm

end Merging

section Sorting

def itemsOf (runs : List (Array α)) : List α := (runs.reverse.map Array.toList).flatten

theorem itemsOf_cons (run : Array α) (runs : List (Array α)) :
    itemsOf (run :: runs) = itemsOf runs ++ run.toList := by simp [itemsOf]

theorem collapse_perm (site? : List Nat → Option Site) (threshold : Nat) (runs : List (Array α)) :
    Yields (collapse below site? threshold runs) fun result =>
      (itemsOf result.1).Perm (itemsOf runs) := by
  induction count : runs.length using Nat.strongRecOn generalizing threshold runs with
  | ind count ih =>
    rw [collapse.eq_def]
    split
    next last previous rest _ =>
      refine (mergeRuns_perm below threshold _ _).bind fun merged permuted before => ?_
      refine (ih _ (by simp_all; omega) merged.2 (merged.1.toArray :: rest) rfl before).imp
        (fun result _ more => more.trans ?_) fun _ _ _ => trivial
      simpa [itemsOf_cons] using permuted.append_left (itemsOf rest)
    next last previous third rest _ =>
      refine (mergeRuns_perm below threshold _ _).bind fun merged permuted before => ?_
      refine (ih _ (by simp_all; omega) merged.2 (last :: merged.1.toArray :: rest) rfl before).imp
        (fun result _ more => more.trans ?_) fun _ _ _ => trivial
      simpa [itemsOf_cons] using (permuted.append_left (itemsOf rest)).append_right last.toList
    next => exact .of_pure (.refl _)

theorem sortRun_perm (descending : Bool) (length : Nat) (items : List α) :
    Yields (sortRun below descending length items) fun run => run.toList.Perm items := by
  intro before
  refine (insertAll_perm below _ (items.drop length) before).imp (fun run _ permuted =>
    permuted.trans ?_) fun _ _ _ => trivial
  split
  next =>
    have turned := (List.reverse_perm (items.take length)).append_right (items.drop length)
    simpa using turned
  next => simp

theorem sortRuns_perm (shortest threshold : Nat) (runs : List (Array α)) (items : List α) :
    Yields (sortRuns below shortest threshold runs items) fun sorted =>
      sorted.Perm (itemsOf runs ++ items) := by
  induction threshold, runs, items using sortRuns.induct shortest with
  | case1 threshold runs =>
    rw [sortRuns.eq_def]
    refine (collapse_perm below pending? threshold runs).bind fun collapsed permuted => .of_pure ?_
    simpa [itemsOf] using permuted
  | case2 threshold runs first rest ih =>
    rw [sortRuns.eq_def]
    refine .bind_any fun measured => ?_
    refine (sortRun_perm below measured.1 measured.2 _).bind fun run sorted => ?_
    refine (collapse_perm below unbalanced? threshold (run :: runs)).bind
      fun collapsed permuted before => ?_
    refine (ih measured.2 collapsed.1 collapsed.2 before).imp (fun result _ more =>
      more.trans ?_) fun _ _ _ => trivial
    -- The items of the new run and those behind it are the items that were left.
    rw [itemsOf_cons] at permuted
    simp only [dite_eq_ite]
    generalize cut : (if measured.2 < shortest then min shortest (rest.length + 1)
      else measured.2) - 1 = taken at sorted ⊢
    have restored : (run.toList ++ rest.drop taken).Perm (first :: rest) := by
      have whole := sorted.append_right (rest.drop taken)
      rwa [List.cons_append, List.take_append_drop] at whole
    have moved := permuted.append_right (rest.drop taken)
    rw [List.append_assoc] at moved
    exact moved.trans (restored.append_left (itemsOf runs))

def failing (broken : Failure → Prop) : Correspondence (Action Outside) Id where
  Holds action _ := ∀ before, Ends action before (fun _ _ => True) fun failure _ => broken failure
  returns _ _ := trivial
  chains first second before := (first before).bind fun result middle _ => second result middle

theorem sort_ends (items : List α) (before : State Outside) :
    Ends (sort below items) before (fun sorted _ => sorted.Perm items)
      fun failure _ => ∃ left right early late, below left right early = .error failure late := by
  let broken (failure : Failure) := ∃ left right early late,
    below left right early = .error failure late
  have tests (left right : α) : (failing broken).Holds (below left right) (pure false) := by
    intro early
    unfold Ends
    split
    next => trivial
    next failure late broke => exact ⟨left, right, early, late, broke⟩
  have permutes := sortRuns_perm below (shortestRun items.length) worthwhile [] items before
  exact (permutes.and ((failing broken).holds_sort tests items before)).imp
    (fun _ _ told => told.1) fun _ _ told => told.2

end Sorting

end StableSort

end Collections
