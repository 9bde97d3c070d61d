import Collections.StableSort
import Collections.Proofs.StableSort.Stability

set_option autoImplicit false

namespace Collections.StableSort

open Std

variable {α : Type}

section Counting

def Front (passes : α → Bool) (items : List α) : Prop :=
  items.Pairwise fun earlier later => passes later → passes earlier

def passing (passes : α → Bool) (items : List α) : Nat := (items.takeWhile passes).length

variable {passes : α → Bool} {items : List α}

theorem passing_le_length : passing passes items ≤ items.length :=
  (List.takeWhile_sublist passes).length_le

theorem take_passing : items.take (passing passes items) = items.takeWhile passes :=
  (List.prefix_iff_eq_take.1 (List.takeWhile_prefix passes)).symm

theorem drop_passing : items.drop (passing passes items) = items.dropWhile passes := by
  have whole : items.takeWhile passes ++ items.drop (passing passes items) =
      items.takeWhile passes ++ items.dropWhile passes := by
    rw [List.takeWhile_append_dropWhile, ← take_passing, List.take_append_drop]
  exact List.append_cancel_left whole

theorem Front.passes_iff (front : Front passes items) {position : Nat} {item : α}
    (found : items[position]? = some item) :
    passes item = true ↔ position < passing passes items := by
  induction items generalizing position with
  | nil => simp at found
  | cons first rest ih =>
    obtain ⟨leads, later⟩ := List.pairwise_cons.1 front
    by_cases passed : passes first
    · cases position with
      | zero => simp_all [passing]
      | succ position =>
        have next := ih later (by simpa using found)
        simpa [passing, passed] using next
    · have failed : ¬ passes item = true := by
        intro passedItem
        rcases List.mem_cons.1 (List.mem_of_getElem? found) with rfl | member
        · exact passed passedItem
        · exact passed (leads item member passedItem)
      simp [passing, passed, failed]

theorem narrow_eq (front : Front passes items) (direction : Direction) {low high : Nat}
    (least : low ≤ passing passes items) (most : passing passes items ≤ high)
    (inside : high ≤ items.length) :
    narrow (m := Id) passes direction items low high = passing passes items := by
  induction low, high using narrow.induct direction items with
  | case1 low high nonempty missing =>
    have := direction.middle_lt nonempty
    have outside := List.getElem?_eq_none_iff.1 missing
    omega
  | case2 low high nonempty item found right left =>
    have upper := direction.middle_lt nonempty
    have tested := front.passes_iff found
    rw [narrow]
    simp only [nonempty, ↓reduceDIte, found]
    change (if passes item = true then _ else _) = _
    split
    next passed => exact right (tested.1 passed) most inside
    next failed => exact left least (Nat.le_of_not_lt fun below => failed (tested.2 below)) (by omega)
  | case3 low high empty =>
    rw [narrow]
    simp only [empty, ↓reduceDIte]
    change low = _
    omega

theorem probe_eq (front : Front passes items) (direction : Direction) {last offset : Nat}
    (known : last < passing passes items) :
    probe (m := Id) passes direction items last offset = passing passes items := by
  induction last, offset using probe.induct items with
  | case1 last offset inside ih =>
    have tested := front.passes_iff (List.getElem?_eq_getElem inside)
    rw [probe]
    simp only [inside, ↓reduceDIte]
    change (if passes items[offset] = true then _ else _) = _
    split
    next passed => exact ih (tested.1 passed)
    next failed =>
      exact narrow_eq front direction known
        (Nat.le_of_not_lt fun below => failed (tested.2 below)) (Nat.le_of_lt inside)
  | case2 last offset outside =>
    rw [probe]
    simp only [outside, ↓reduceDIte]
    exact narrow_eq front direction known passing_le_length (Nat.le_refl _)

theorem gallop_eq (front : Front passes items) (direction : Direction) :
    gallop (m := Id) passes direction items = passing passes items := by
  cases items with
  | nil => rfl
  | cons first rest =>
    have found : (first :: rest)[0]? = some first := rfl
    have tested := front.passes_iff found
    change (if passes first = true then _ else _) = _
    split
    next passed => exact probe_eq front direction (tested.1 passed)
    next failed => exact (Nat.eq_zero_of_not_pos fun positive => failed (tested.2 positive)).symm

end Counting

theorem id_bind {β γ : Type} (value : β) (next : β → Id γ) :
    Bind.bind (m := Id) value next = next value := rfl

section Loop

variable (order : α → α → Ordering)

def below (left right : α) : Id Bool := order left right == .lt

def Direction.reading (direction : Direction) : α → α → Ordering :=
  match direction with
  | .forward => order
  | .backward => fun left right => order right left

def Direction.arrange (direction : Direction) (items : List α) : List α :=
  match direction with
  | .forward => items
  | .backward => items.reverse

instance Direction.reading_transCmp [TransCmp order] (direction : Direction) :
    TransCmp (direction.reading order) := by
  cases direction
  · exact inferInstanceAs (TransCmp order)
  · exact inferInstanceAs (TransCmp fun left right => order right left)

theorem otherFirst_eq (direction : Direction) (kept other : α) :
    otherFirst (below order) direction kept other = (direction.reading order other kept == .lt) := by
  cases direction <;> rfl

def Merging.outcome (merging : Merging α) : List α :=
  merging.taken.reverse ++ merged order merging.kept merging.other

/-- The runs of a merge. The last item that is kept aside goes behind all of the other run. -/
structure Merging.Sound (merging : Merging α) : Prop where
  kept : Ascending order merging.kept
  other : Ascending order merging.other
  last : ∀ item ∈ merging.kept.getLast?, ∀ otherItem ∈ merging.other, order otherItem item = .lt

theorem Merging.finish_eq (direction : Direction) (merging : Merging α) :
    merging.finish direction =
      direction.arrange (merging.taken.reverse ++ (merging.other ++ merging.kept)) := by
  cases direction <;> simp [finish, Direction.arrange, List.reverseAux_eq]

end Loop

namespace Merging

variable {order : α → α → Ordering}

def run (merging : Merging α) : Side → List α
  | .kept => merging.kept
  | .other => merging.other

def wins (order : α → α → Ordering) (rivals : α × α) : Side → α → Bool
  | .kept, item => !(order rivals.2 item == .lt)
  | .other, item => order item rivals.1 == .lt

theorem rivals?_eq_some {merging : Merging α} {kept other : α}
    (rivals : merging.rivals? = some (kept, other)) :
    ∃ next rest others, merging.kept = kept :: next :: rest ∧ merging.other = other :: others := by
  unfold rivals? at rivals
  split at rivals
  next keptRun otherRun =>
    cases rivals
    exact ⟨_, _, _, keptRun, otherRun⟩
  next => cases rivals

theorem Sound.take {merging : Merging α} (sound : merging.Sound order) (side : Side) (count : Nat) :
    (merging.take side count).Sound order := by
  cases side with
  | kept =>
    refine ⟨sound.kept.sublist (List.drop_sublist _ _), sound.other, fun item isLast => ?_⟩
    simp only [Merging.take, List.getLast?_drop] at isLast
    split at isLast
    · simp at isLast
    · exact sound.last item isLast
  | other =>
    refine ⟨sound.kept, sound.other.sublist (List.drop_sublist _ _), ?_⟩
    intro item isLast otherItem member
    exact sound.last item isLast otherItem (List.mem_of_mem_drop member)

variable [TransCmp order]

theorem Sound.outcome_of_finished {merging : Merging α} (sound : merging.Sound order)
    (finished : merging.rivals? = none) :
    merging.taken.reverse ++ (merging.other ++ merging.kept) = merging.outcome order := by
  obtain ⟨kept, other, taken⟩ := merging
  simp only [outcome]
  match kept, other with
  | [], other => simp
  | [last], other =>
    have behind : ∀ item ∈ other, ∀ lastItem ∈ [last], order item lastItem = .lt := by
      intro item member lastItem same
      obtain rfl := List.mem_singleton.1 same
      exact sound.last lastItem rfl item member
    have whole := merged_append_right [last] [] behind
    rw [List.append_nil] at whole
    rw [whole]
    simp
  | kept, [] => simp
  | _ :: _ :: _, _ :: _ => simp [rivals?] at finished

omit [TransCmp order] in
theorem outcome_take_kept {merging : Merging α} {count : Nat}
    (first : ∀ item ∈ merging.kept.take count, ∀ otherItem ∈ merging.other,
      (order item otherItem).isLE) :
    (merging.take .kept count).outcome order = merging.outcome order := by
  have whole := merged_append_left (merging.kept.drop count) merging.other first
  rw [List.take_append_drop] at whole
  simp [outcome, take, whole, List.reverseAux_eq]

theorem outcome_take_other {merging : Merging α} {count : Nat}
    (first : ∀ item ∈ merging.other.take count, ∀ keptItem ∈ merging.kept,
      order item keptItem = .lt) :
    (merging.take .other count).outcome order = merging.outcome order := by
  have whole := merged_append_right merging.kept (merging.other.drop count) first
  rw [List.take_append_drop] at whole
  simp [outcome, take, whole, List.reverseAux_eq]

theorem Sound.outcome_take {merging : Merging α} (sound : merging.Sound order) {pair : α × α}
    (rivals : merging.rivals? = some pair) {side : Side} {count : Nat}
    (leading : ∀ item ∈ (merging.run side).take count, wins order pair side item) :
    (merging.take side count).outcome order = merging.outcome order := by
  obtain ⟨next, rest, others, keptRun, otherRun⟩ := rivals?_eq_some rivals
  cases side with
  | kept =>
    refine outcome_take_kept fun item member otherItem inOther => ?_
    have notAbove : ¬ order pair.2 item = .lt := by simpa [wins] using leading item member
    have otherAscends := sound.other
    rw [otherRun] at inOther otherAscends
    exact TransCmp.isLE_trans ((isLE_iff_ne_lt order).2 notAbove) (otherAscends.head_isLE inOther)
  | other =>
    refine outcome_take_other fun item member keptItem inKept => ?_
    have below : order item pair.1 = .lt := by simpa [wins] using leading item member
    have keptAscends := sound.kept
    rw [keptRun] at inKept keptAscends
    exact TransCmp.lt_of_lt_of_isLE below (keptAscends.head_isLE inKept)

theorem Sound.front_wins {merging : Merging α} (sound : merging.Sound order) (pair : α × α)
    (side : Side) : Front (wins order pair side) (merging.run side) := by
  cases side with
  | kept =>
    refine sound.kept.imp fun {earlier later} ascends laterWins => ?_
    simp only [wins, Bool.not_eq_true', beq_eq_false_iff_ne] at laterWins ⊢
    exact fun lower => laterWins (TransCmp.lt_of_lt_of_isLE lower ascends)
  | other =>
    refine sound.other.imp fun {earlier later} ascends laterWins => ?_
    simp only [wins, beq_iff_eq] at laterWins ⊢
    exact TransCmp.lt_of_isLE_of_lt ascends laterWins

-- What a leap takes, and the item of the other run that goes behind it.
theorem Sound.outcome_leap {merging : Merging α} (sound : merging.Sound order) {pair next : α × α}
    (rivals : merging.rivals? = some pair) {side : Side} {count : Nat}
    (counted : count = passing (wins order pair side) (merging.run side))
    (leapt : (merging.take side count).rivals? = some next) :
    ((merging.take side count).take side.opposite 1).outcome order = merging.outcome order := by
  have all : ∀ item ∈ (merging.run side).take count, wins order pair side item := by
    rw [counted, take_passing]
    exact List.all_eq_true.1 List.all_takeWhile
  -- A leap is two takes: those that win, and the item of the rival that stopped them.
  refine Eq.trans ((sound.take side count).outcome_take leapt ?_) (sound.outcome_take rivals all)
  obtain ⟨_, _, _, keptRun, otherRun⟩ := rivals?_eq_some rivals
  obtain ⟨_, _, _, keptLeft, otherLeft⟩ := rivals?_eq_some leapt
  have stopped {item : α} {rest : List α} (left : (merging.run side).drop count = item :: rest) :
      wins order pair side item = false := by
    have ended := List.head?_dropWhile_not (wins order pair side) (merging.run side)
    rw [← drop_passing, ← counted, left] at ended
    exact ended
  intro item member
  cases side with
  | kept =>
    have failed := stopped keptLeft
    simp only [Merging.take] at otherLeft
    rw [otherRun] at otherLeft
    simp_all [Side.opposite, run, Merging.take, wins]
  | other =>
    have failed := stopped otherLeft
    simp only [Merging.take] at keptLeft
    rw [keptRun] at keptLeft
    simp_all [Side.opposite, run, Merging.take, wins]

end Merging

section Runs

variable {order : α → α → Ordering} [TransCmp order]

theorem countWins_eq (direction : Direction) {merging : Merging α}
    (sound : merging.Sound (direction.reading order)) (side : Side) (pair : α × α) :
    countWins (below order) direction merging side pair =
      passing (Merging.wins (direction.reading order) pair side) (merging.run side) := by
  have front := sound.front_wins pair side
  cases side with
  | kept =>
    have tests : (fun item => (do
        return !(← otherFirst (below order) direction item pair.2) : Id Bool)) =
        Merging.wins (direction.reading order) pair .kept := by
      funext item
      cases direction <;> rfl
    simp only [countWins]
    rw [tests]
    exact gallop_eq front direction
  | other =>
    have tests : (fun item => otherFirst (below order) direction pair.1 item) =
        Merging.wins (direction.reading order) pair .other := by
      funext item
      cases direction <;> rfl
    simp only [countWins]
    rw [tests]
    exact gallop_eq front direction

theorem finish_leap (direction : Direction) {merging : Merging α}
    (sound : merging.Sound (direction.reading order)) {pair : α × α}
    (rivals : merging.rivals? = some pair) {side : Side} {count : Nat}
    (counted : count = passing (Merging.wins (direction.reading order) pair side) (merging.run side))
    (finished : (merging.take side count).rivals? = none) :
    (merging.take side count).finish direction =
      direction.arrange (merging.outcome (direction.reading order)) := by
  rw [Merging.finish_eq, (sound.take side count).outcome_of_finished finished]
  refine congrArg direction.arrange (sound.outcome_take rivals ?_)
  rw [counted, take_passing]
  exact List.all_eq_true.1 List.all_takeWhile

theorem mergeOn_eq (direction : Direction) (threshold : Nat) (pace : Pace) (merging : Merging α)
    (sound : merging.Sound (direction.reading order)) :
    (mergeOn (below order) direction threshold pace merging).1 =
      direction.arrange (merging.outcome (direction.reading order)) := by
  -- Every round leaves the outcome of the merge as it is, so the outcome is the invariant.
  induction threshold, pace, merging using mergeOn.induct direction with
  | case1 threshold pace merging finished =>
    rw [mergeOn.eq_def]
    split
    · rw [← sound.outcome_of_finished finished]
      exact merging.finish_eq direction
    next rivals => rw [finished] at rivals; cases rivals
  | case2 threshold pace merging kept other rivals next keptWins otherWins settled takesOther takesKept =>
    rw [mergeOn.eq_def]
    split
    next finished => rw [rivals] at finished; cases finished
    next found =>
      rw [rivals] at found
      cases found
      simp only [settled]
      rw [otherFirst_eq]
      change (if (direction.reading order other kept == .lt) = true then _ else _ : _ × Nat).1 = _
      split
      next lower =>
        apply (takesOther (sound.take .other 1)).trans
        refine congrArg direction.arrange (sound.outcome_take rivals fun item member => ?_)
        obtain ⟨_, _, _, _, otherRun⟩ := Merging.rivals?_eq_some rivals
        simp_all [Merging.run, Merging.wins]
      next notLower =>
        apply (takesKept (sound.take .kept 1)).trans
        refine congrArg direction.arrange (sound.outcome_take rivals fun item member => ?_)
        obtain ⟨_, _, _, keptRun, _⟩ := Merging.rivals?_eq_some rivals
        simp_all [Merging.run, Merging.wins]
  | case3 threshold pace merging kept other rivals next wins settled side ih
  | case4 threshold pace merging kept other rivals next following notSingly notSecond settled side
      ih =>
    rw [mergeOn.eq_def]
    split
    next finished => rw [rivals] at finished; cases finished
    next found =>
      rw [rivals] at found
      cases found
      simp only [settled]
      rw [countWins_eq direction sound]
      generalize counted : passing _ _ = count
      rw [id_bind]
      split
      next finished => exact finish_leap direction sound rivals counted.symm finished
      next next leapt =>
        apply (ih count next leapt ((sound.take side count).take _ 1)).trans
        exact congrArg direction.arrange (sound.outcome_leap rivals counted.symm leapt)

theorem mergeOn_trimmed (direction : Direction) (threshold : Nat) {left right : List α} {last first : α}
    (leftAscends : Ascending order left) (rightAscends : Ascending order right)
    (isLast : left.getLast? = some last) (isFirst : right.head? = some first)
    (lower : ∀ item ∈ left, order first item = .lt) (upper : ∀ item ∈ right, order item last = .lt) :
    (mergeOn (below order) direction threshold (.singly 0 0)
      ((match direction with
        | .forward => { kept := left, other := right }
        | .backward => { kept := right.reverse, other := left.reverse } : Merging α).take .other 1)).1 =
      merged order left right := by
  cases direction with
  | forward =>
    have sound : Merging.Sound order { kept := left, other := right } :=
      ⟨leftAscends, rightAscends, fun item same otherItem member => by
        obtain rfl : last = item := by simpa [isLast] using same
        exact upper otherItem member⟩
    apply (mergeOn_eq .forward threshold _ _ (sound.take .other 1)).trans
    refine Merging.outcome_take_other fun item member keptItem inKept => ?_
    obtain rfl : item = first := by cases right <;> simp_all
    exact lower keptItem inKept
  | backward =>
    have sound : Merging.Sound (fun left right => order right left)
        { kept := right.reverse, other := left.reverse } :=
      ⟨rightAscends.reverse, leftAscends.reverse, fun item same otherItem member => by
        obtain rfl : first = item := by simpa [isFirst] using same
        exact lower otherItem (by simpa using member)⟩
    apply (mergeOn_eq .backward threshold _ _ (sound.take .other 1)).trans
    refine (congrArg List.reverse ?_).trans (merged_reverse leftAscends rightAscends)
    refine Merging.outcome_take_other fun item member keptItem inKept => ?_
    obtain rfl : item = last := by
      rw [← List.head?_reverse] at isLast
      cases reversed : left.reverse <;> simp_all
    exact upper keptItem (by simpa using inKept)

theorem front_not_above {items : List α} (ascending : Ascending order items) (item : α) :
    Front (fun other => !(order item other == .lt)) items := by
  refine ascending.imp fun {earlier later} ascends notAbove => ?_
  simp only [Bool.not_eq_true', beq_eq_false_iff_ne] at notAbove ⊢
  exact fun above => notAbove (TransCmp.lt_of_lt_of_isLE above ascends)

theorem front_not_below {items : List α} (ascending : Ascending order items) (item : α) :
    Front (fun other => !(order other item == .lt)) items.reverse := by
  refine ascending.reverse.imp fun {earlier later} descends notBelow => ?_
  simp only [Bool.not_eq_true', beq_eq_false_iff_ne] at notBelow ⊢
  exact fun below => notBelow (TransCmp.lt_of_isLE_of_lt descends below)

theorem above_of_dropped {items : List α} (ascending : Ascending order items) (item : α) {placed : Nat}
    (counted : passing (fun other => !(order item other == .lt)) items = placed) :
    ∀ other ∈ items.drop placed, order item other = .lt := by
  have ended := List.head?_dropWhile_not (fun other => !(order item other == .lt)) items
  rw [← drop_passing, counted] at ended
  have ascends : Ascending order (items.drop placed) := ascending.sublist (List.drop_sublist _ _)
  intro other member
  cases left : items.drop placed with
  | nil => simp [left] at member
  | cons head tail =>
    rw [left] at ended member ascends
    exact TransCmp.lt_of_lt_of_isLE (by simpa using ended) (ascends.head_isLE member)

theorem isLE_of_taken (order : α → α → Ordering) [TransCmp order] {items : List α} {item : α}
    {placed : Nat}
    (counted : passing (fun other => !(order item other == .lt)) items = placed) :
    ∀ other ∈ items.take placed, (order other item).isLE := by
  intro other member
  rw [← counted, take_passing] at member
  have passed := List.all_eq_true.1 List.all_takeWhile other member
  exact (isLE_iff_ne_lt order).2 (by simpa using passed)

theorem reverse_drop_reverse_sublist (items : List α) (count : Nat) :
    (items.reverse.drop count).reverse.Sublist items := by
  have shorter := List.reverse_sublist.2 (List.drop_sublist count items.reverse)
  rwa [List.reverse_reverse] at shorter

theorem isLE_last {items : List α} (ascending : Ascending order items) {last : α}
    (isLast : items.getLast? = some last) : ∀ item ∈ items, (order item last).isLE := by
  intro item member
  rw [← List.head?_reverse] at isLast
  have descends := ascending.reverse
  cases reversed : items.reverse with
  | nil => simp [reversed] at isLast
  | cons head tail =>
    obtain rfl : head = last := by simpa [reversed] using isLast
    rw [reversed] at descends
    exact descends.head_isLE (by rwa [← reversed, List.mem_reverse])

theorem merged_trimmed {left right : List α} {last : α} {count : Nat}
    (leftAscends : Ascending order left) (rightAscends : Ascending order right)
    (isLast : left.getLast? = some last)
    (counted : passing (fun other => !(order other last == .lt)) right.reverse = count) :
    merged order left right = merged order left (right.reverse.drop count).reverse ++
      (right.reverse.take count).reverse := by
  have above := isLE_of_taken (fun left right => order right left) counted
  have divided : right =
      (right.reverse.drop count).reverse ++ (right.reverse.take count).reverse := by
    rw [← List.reverse_append, List.take_append_drop, List.reverse_reverse]
  conv => lhs; rw [divided]
  refine merged_append_block leftAscends (divided ▸ rightAscends) fun item member other inBlock => ?_
  exact TransCmp.isLE_trans (isLE_last leftAscends isLast item member)
    (above other (by simpa using inBlock))

theorem mergeRuns_eq (threshold : Nat) {left right : List α} (leftAscends : Ascending order left)
    (rightAscends : Ascending order right) :
    (mergeRuns (below order) threshold left right).1 = merged order left right := by
  cases right with
  | nil => exact (merged_nil order left).symm
  | cons first rest =>
    simp only [mergeRuns]
    change (do
      let placed ← gallop (fun other => !(order first other == .lt)) .forward left
      _ : Id (List α × Nat)).1 = _
    rw [gallop_eq (front_not_above leftAscends first) .forward]
    generalize counted : passing _ left = placed
    -- What of the left run is not above the first item of the right one stays where it is.
    have inPlace : merged order left (first :: rest) =
        left.take placed ++ merged order (left.drop placed) (first :: rest) := by
      have whole := merged_append_left (left.drop placed) (first :: rest)
        fun item member other inRight => TransCmp.isLE_trans (isLE_of_taken order counted item member)
          (rightAscends.head_isLE inRight)
      rwa [List.take_append_drop] at whole
    have lower := above_of_dropped leftAscends first counted
    have leftAscends : Ascending order (left.drop placed) :=
      leftAscends.sublist (List.drop_sublist _ _)
    rw [inPlace]
    rw [id_bind]
    split
    next empty =>
      have empty : left.drop placed = [] := List.getLast?_eq_none_iff.1 empty
      have all := List.take_append_drop placed left
      rw [empty, List.append_nil] at all
      rw [empty, all]
      exact congrArg (left ++ ·) (nil_merged order (first :: rest)).symm
    next last isLast =>
      change (do
        let count ← gallop (fun other => !(order other last == .lt)) .backward (first :: rest).reverse
        _ : Id (List α × Nat)).1 = _
      rw [gallop_eq (front_not_below rightAscends last) .backward]
      generalize behind : passing _ (first :: rest).reverse = count
      -- So does what of the right run is not below the last item of the left one.
      rw [merged_trimmed leftAscends rightAscends isLast behind]
      have upper := above_of_dropped rightAscends.reverse last behind
      generalize wholeRun : first :: rest = right at *
      change (if (right.reverse.drop count).isEmpty = true then _ else _ : _ × Nat).1 = _
      split
      next empty =>
        have whole := List.take_append_drop count right.reverse
        rw [List.isEmpty_iff.1 empty, List.append_nil] at whole
        rw [List.isEmpty_iff.1 empty, whole, List.reverse_nil, merged_nil,
          List.reverse_reverse, ← List.append_assoc, List.take_append_drop]
        rfl
      next nonempty =>
        have isFirst : (right.reverse.drop count).reverse.head? = some first := by
          have remains : ¬ right.reverse.length ≤ count := by simpa using nonempty
          rw [List.head?_reverse, List.getLast?_drop, if_neg remains, List.getLast?_reverse,
            ← wholeRun, List.head?_cons]
        have trimmed (direction : Direction) := mergeOn_trimmed direction threshold leftAscends
          (rightAscends.sublist (reverse_drop_reverse_sublist right count)) isLast isFirst lower
          (by simpa using upper)
        rw [← List.append_assoc]
        -- The shorter run is kept aside, which decides the direction of the merge.
        by_cases shorter : (left.drop placed).length ≤ (right.reverse.drop count).length
        · simp only [shorter, ↓reduceIte]
          exact congrArg (left.take placed ++ · ++ (right.reverse.take count).reverse)
            (trimmed .forward)
        · simp only [shorter, ↓reduceIte]
          have inner := trimmed .backward
          simp only [List.reverse_reverse] at inner
          exact congrArg (left.take placed ++ · ++ (right.reverse.take count).reverse) inner

end Runs

end Collections.StableSort
