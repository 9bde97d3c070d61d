import Collections.StableSort

set_option autoImplicit false

namespace Collections.StableSort

structure Correspondence (m n : Type → Type) [Monad m] [Monad n] where
  Holds : {α : Type} → m α → n α → Prop
  returns : ∀ {α : Type} (result : α), Holds (pure result) (pure result)
  chains : ∀ {α β : Type} {first : m α} {image : n α} {next : α → m β} {nextImage : α → n β},
    Holds first image → (∀ result, Holds (next result) (nextImage result)) →
      Holds (first >>= next) (image >>= nextImage)

namespace Correspondence

variable {α : Type} {m n : Type → Type} [Monad m] [Monad n] (law : Correspondence m n)

section Counting

variable {passes : α → m Bool} {image : α → n Bool}
  (agree : ∀ item, law.Holds (passes item) (image item))

include agree

theorem holds_narrow (direction : Direction) (items : List α) (low high : Nat) :
    law.Holds (narrow passes direction items low high) (narrow image direction items low high) := by
  induction low, high using narrow.induct direction items with
  | case1 low high inside missing =>
    rw [narrow.eq_def passes, narrow.eq_def image]
    simp only [inside, ↓reduceDIte, missing]
    exact law.returns low
  | case2 low high inside item found above below =>
    rw [narrow.eq_def passes, narrow.eq_def image]
    simp only [inside, ↓reduceDIte, found]
    refine law.chains (agree item) fun passed => ?_
    cases passed
    · exact below
    · exact above
  | case3 low high outside =>
    rw [narrow.eq_def passes, narrow.eq_def image]
    simp only [outside, ↓reduceDIte]
    exact law.returns low

theorem holds_probe (direction : Direction) (items : List α) (last offset : Nat) :
    law.Holds (probe passes direction items last offset)
      (probe image direction items last offset) := by
  induction last, offset using probe.induct items with
  | case1 last offset inside ih =>
    rw [probe.eq_def passes, probe.eq_def image]
    simp only [inside, ↓reduceDIte]
    refine law.chains (agree _) fun passed => ?_
    cases passed
    · exact law.holds_narrow agree direction items (last + 1) offset
    · exact ih
  | case2 last offset outside =>
    rw [probe.eq_def passes, probe.eq_def image]
    simp only [outside, ↓reduceDIte]
    exact law.holds_narrow agree direction items (last + 1) items.length

theorem holds_gallop (direction : Direction) (items : List α) :
    law.Holds (gallop passes direction items) (gallop image direction items) := by
  cases items with
  | nil => exact law.returns 0
  | cons first rest =>
    refine law.chains (agree first) fun passed => ?_
    cases passed
    · exact law.returns 0
    · exact law.holds_probe agree direction (first :: rest) 0 1

end Counting

variable {below : α → α → m Bool} {image : α → α → n Bool}
  (agree : ∀ left right, law.Holds (below left right) (image left right))

include agree

theorem holds_negated (left right : α) :
    law.Holds (do return !(← below left right)) (do return !(← image left right)) :=
  law.chains (agree left right) fun answer => law.returns !answer

theorem holds_continueRun (descending : Bool) (previous : α) (length : Nat) (items : List α) :
    law.Holds (continueRun below descending previous length items)
      (continueRun image descending previous length items) := by
  induction items generalizing previous length with
  | nil => exact law.returns length
  | cons item rest ih =>
    refine law.chains (agree item previous) fun answer => ?_
    split
    · exact ih item (length + 1)
    · exact law.returns length

theorem holds_measureRun (items : List α) :
    law.Holds (measureRun below items) (measureRun image items) := by
  match items with
  | [] => exact law.returns (false, 0)
  | [_] => exact law.returns (false, 1)
  | first :: second :: rest =>
    refine law.chains (agree second first) fun descending => ?_
    exact law.chains (law.holds_continueRun agree descending second 2 rest) fun length =>
      law.returns (descending, length)

theorem holds_place (sorted : Array α) (pivot : α) (low high : Nat) (bound : high ≤ sorted.size) :
    law.Holds (place below sorted pivot low high bound) (place image sorted pivot low high bound) := by
  induction low, high, bound using place.induct sorted with
  | case1 low high bound inside middle left right =>
    rw [place.eq_def below, place.eq_def image]
    simp only [inside, ↓reduceDIte]
    refine law.chains (agree pivot _) fun answer => ?_
    cases answer
    · exact right
    · exact left
  | case2 low high bound outside =>
    rw [place.eq_def below, place.eq_def image]
    simp only [outside, ↓reduceDIte]
    exact law.returns low

theorem holds_insertAll (sorted : Array α) (items : List α) :
    law.Holds (insertAll below sorted items) (insertAll image sorted items) := by
  induction items generalizing sorted with
  | nil => exact law.returns sorted
  | cons pivot rest ih =>
    have inserted : law.Holds (insert below sorted pivot) (insert image sorted pivot) :=
      law.chains (law.holds_place agree sorted pivot 0 sorted.size _) fun position =>
        law.returns (sorted.insertIdxIfInBounds position pivot)
    exact law.chains inserted ih

theorem holds_sortRun (descending : Bool) (length : Nat) (items : List α) :
    law.Holds (sortRun below descending length items) (sortRun image descending length items) :=
  law.holds_insertAll agree _ _

theorem holds_otherFirst (direction : Direction) (kept other : α) :
    law.Holds (otherFirst below direction kept other) (otherFirst image direction kept other) := by
  cases direction
  · exact agree other kept
  · exact agree kept other

theorem holds_countWins (direction : Direction) (merging : Merging α) (side : Side) (rivals : α × α) :
    law.Holds (countWins below direction merging side rivals)
      (countWins image direction merging side rivals) := by
  cases side
  · refine law.holds_gallop (fun item => ?_) direction merging.kept
    exact law.chains (law.holds_otherFirst agree direction item rivals.2) fun answer =>
      law.returns !answer
  · exact law.holds_gallop (law.holds_otherFirst agree direction rivals.1) direction merging.other

theorem holds_mergeOn (direction : Direction) (threshold : Nat) (pace : Pace)
    (merging : Merging α) :
    law.Holds (mergeOn below direction threshold pace merging)
      (mergeOn image direction threshold pace merging) := by
  -- The principle has a case for the last round, one for a single step, and two for leaps, which
  -- differ in why the pace settles on a leap.
  induction threshold, pace, merging using mergeOn.induct direction with
  | case1 threshold pace merging finished =>
    rw [mergeOn.eq_def below, mergeOn.eq_def image]
    split
    · exact law.returns _
    next rivals => rw [finished] at rivals; cases rivals
  | case2 threshold pace merging kept other rivals next keptWins otherWins settled left right =>
    rw [mergeOn.eq_def below, mergeOn.eq_def image]
    split
    next finished => rw [rivals] at finished; cases finished
    next found =>
      rw [rivals] at found
      cases found
      simp only [settled]
      refine law.chains (law.holds_otherFirst agree direction kept other) fun answer => ?_
      cases answer
      · exact right
      · exact left
  | case3 threshold pace merging kept other rivals next wins settled side ih
  | case4 threshold pace merging kept other rivals next following notSingly notSecond settled side
      ih =>
    rw [mergeOn.eq_def below, mergeOn.eq_def image]
    split
    next finished => rw [rivals] at finished; cases finished
    next found =>
      rw [rivals] at found
      cases found
      simp only [settled]
      refine law.chains (law.holds_countWins agree direction merging side (kept, other))
        fun count => ?_
      split
      · exact law.returns _
      next pair leapt => exact ih count pair leapt

theorem holds_mergeRuns (threshold : Nat) (left right : List α) :
    law.Holds (mergeRuns below threshold left right) (mergeRuns image threshold left right) := by
  cases right with
  | nil => exact law.returns (left, threshold)
  | cons first rest =>
    have inPlace (item : α) := law.holds_negated agree first item
    refine law.chains (law.holds_gallop inPlace .forward left) fun placed => ?_
    dsimp only
    split
    · exact law.returns _
    next last _ =>
      have behind (item : α) := law.holds_negated agree item last
      refine law.chains (law.holds_gallop behind .backward (first :: rest).reverse)
        fun count => ?_
      split
      · exact law.returns _
      · exact law.chains (law.holds_mergeOn agree _ threshold _ _) fun merged => law.returns _

theorem holds_collapse (site? : List Nat → Option Site) (threshold : Nat)
    (runs : List (Array α)) :
    law.Holds (collapse below site? threshold runs) (collapse image site? threshold runs) := by
  -- A merge leaves one run less, which the principle of the recursion hides behind attached runs.
  induction count : runs.length using Nat.strongRecOn generalizing threshold runs with
  | ind count ih =>
    rw [collapse.eq_def below, collapse.eq_def image]
    split
    next last previous rest _ =>
      refine law.chains (law.holds_mergeRuns agree threshold previous.toList last.toList)
        fun merged => ?_
      exact ih _ (by simp_all; omega) merged.2 (merged.1.toArray :: rest) rfl
    next last previous third rest _ =>
      refine law.chains (law.holds_mergeRuns agree threshold third.toList previous.toList)
        fun merged => ?_
      exact ih _ (by simp_all; omega) merged.2 (last :: merged.1.toArray :: rest) rfl
    next => exact law.returns _

theorem holds_sortRuns (shortest threshold : Nat) (runs : List (Array α)) (items : List α) :
    law.Holds (sortRuns below shortest threshold runs items)
      (sortRuns image shortest threshold runs items) := by
  induction threshold, runs, items using sortRuns.induct shortest with
  | case1 threshold runs =>
    rw [sortRuns.eq_def below, sortRuns.eq_def image]
    exact law.chains (law.holds_collapse agree pending? threshold runs) fun collapsed =>
      law.returns _
  | case2 threshold runs first rest ih =>
    rw [sortRuns.eq_def below, sortRuns.eq_def image]
    refine law.chains (law.holds_measureRun agree (first :: rest)) fun measured => ?_
    refine law.chains (law.holds_sortRun agree measured.1 measured.2 _) fun run => ?_
    refine law.chains (law.holds_collapse agree unbalanced? threshold (run :: runs))
      fun collapsed => ?_
    exact ih measured.2 collapsed.1 collapsed.2

theorem holds_sort (items : List α) : law.Holds (sort below items) (sort image items) :=
  law.holds_sortRuns agree (shortestRun items.length) worthwhile [] items

end Correspondence

end Collections.StableSort
