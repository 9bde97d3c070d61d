import Collections.Proofs.OrderedSet.Search

set_option autoImplicit false

namespace Collections

open OrderedSet

namespace Window

variable {start window : Window} {size : Nat}

/-- The windows that a search may get to, whatever it is answered. -/
inductive Reached (start : Window) : Window → Prop where
  | start : Reached start start
  | raise {window : Window} (earlier : Reached start window) (wide : window.low < window.high) :
      Reached start window.above
  | lower {window : Window} (earlier : Reached start window) (wide : window.low < window.high) :
      Reached start window.below

structure Halves (window : Window) : Prop where
  narrows : window.Narrows
  above : 2 * window.above.width ≤ window.width
  below : 2 * window.below.width ≤ window.width

theorem halves (wide : window.low < window.high) (inside : window.high ≤ size)
    (fits : size ≤ 1 <<< 31) : window.Halves where
  narrows := middle_inside wide inside fits
  above := by
    have sum : window.low + window.high < 1 <<< 32 := by omega
    simp only [Window.above, width, middle, Nat.mod_eq_of_lt sum]
    omega
  below := by
    have sum : window.low + window.high < 1 <<< 32 := by omega
    simp only [Window.below, width, middle, Nat.mod_eq_of_lt sum]
    omega

theorem Reached.high_le (fits : size ≤ 1 <<< 31) (reached : Reached ⟨0, size⟩ window) :
    window.high ≤ size := by
  induction reached with
  | start => exact Nat.le_refl size
  | raise _ _ ih => exact ih
  | lower _ wide ih => exact Nat.le_trans (Nat.le_of_lt (middle_inside wide ih fits).2) ih

theorem middle_lt (window : Window) : window.middle < 1 <<< 31 := by
  have cut : (window.low + window.high) % (1 <<< 32) < 1 <<< 32 := Nat.mod_lt _ (by decide)
  unfold middle
  omega

section Rising

def rising (size : Nat) : Nat → Window
  | 0 => ⟨0, size⟩
  | rounds + 1 => (rising size rounds).above

theorem rising_high (size rounds : Nat) : (rising size rounds).high = size := by
  induction rounds with
  | zero => rfl
  | succ rounds ih => exact ih

-- No middle gets past `2 ^ 31 - 1`, so the end of a larger set stays out of reach.
theorem rising_wide (large : 1 <<< 31 < size) (rounds : Nat) :
    (rising size rounds).low < (rising size rounds).high := by
  rw [rising_high]
  cases rounds with
  | zero => exact Nat.zero_lt_of_lt large
  | succ rounds =>
    have bound := middle_lt (rising size rounds)
    simp only [rising, above]
    omega

theorem reached_rising (large : 1 <<< 31 < size) (rounds : Nat) :
    Reached ⟨0, size⟩ (rising size rounds) := by
  induction rounds with
  | zero => exact .start
  | succ rounds ih => exact ih.raise (rising_wide large rounds)

theorem rising_width (narrows : ∀ rounds, (rising size rounds).Narrows) (rounds : Nat) :
    (rising size rounds).width + rounds ≤ size := by
  induction rounds with
  | zero => exact Nat.le_refl size
  | succ rounds ih =>
    have shrinks := (rising size rounds).width_above_lt (narrows rounds)
    simp only [rising]
    omega

theorem exists_rising_not_narrows (size : Nat) :
    ∃ rounds, ¬ (rising size rounds).Narrows := by
  refine Classical.not_forall.1 fun narrows => ?_
  have bound := rising_width narrows (size + 1)
  omega

end Rising

end Window

variable {Outside : Type}

def Callbacks.ComparisonFails (callbacks : Callbacks Outside) (failure : Failure) : Prop :=
  ∃ comparator left right before after,
    callbacks.reply comparator left right before = .error failure after

def Callbacks.AnswersBelow (callbacks : Callbacks Outside) (comparator : Option ComparatorId) : Prop :=
  ∀ left right before, Succeeds (callbacks.reply comparator left right) before fun reply after =>
    after.containers = before.containers ∧ reply.isBelow

namespace OrderedSet

theorem compareItem_ends (callbacks : Callbacks Outside) (set : Handle OrderedSet) (position : Nat)
    (value : Value) (before : State Outside) :
    Ends (compareItem callbacks set position value) before (fun _ _ => True)
      fun failure _ => callbacks.ComparisonFails failure := by
  let held := before.containers.sets.get set
  change Ends (callbacks.reply held.comparator (held.item position) value) before _ _
  unfold Ends
  split
  next => trivial
  next broke => exact ⟨_, _, _, _, _, broke⟩

theorem search_ends (callbacks : Callbacks Outside) (set : Handle OrderedSet) (value : Value)
    {size : Nat} (fits : size ≤ 1 <<< 31) (window : Window) (ordered : window.low ≤ size)
    (inside : window.high ≤ size) (before : State Outside) :
    Ends (search callbacks set value window) before (fun position _ => position ≤ size)
      fun failure _ => callbacks.ComparisonFails failure := by
  induction width : window.width using Nat.strongRecOn generalizing window before with
  | ind width ih =>
    rw [search.eq_def]
    split
    next wide =>
      have narrows := middle_inside wide inside fits
      have middleInside : window.middle < size := Nat.lt_of_lt_of_le narrows.2 inside
      rw [if_pos narrows]
      refine (compareItem_ends callbacks set _ value before).bind fun reply middle _ => ?_
      split
      next =>
        exact ih _ (width ▸ window.width_above_lt narrows) window.above middleInside inside middle rfl
      next =>
        exact ih _ (width ▸ window.width_below_lt narrows) window.below ordered
          (Nat.le_of_lt middleInside) middle rfl
    next => exact ordered

theorem search_endless {callbacks : Callbacks Outside} {set : Handle OrderedSet} {held : OrderedSet}
    (below : callbacks.AnswersBelow held.comparator) (value : Value) {size : Nat}
    (large : 1 <<< 31 < size) (rounds : Nat) {before : State Outside}
    (there : before.containers.sets.cell? set = some held) :
    Ends (search callbacks set value (.rising size rounds)) before (fun _ _ => False)
      fun failure _ => failure = .endless := by
  induction width : (Window.rising size rounds).width using Nat.strongRecOn
    generalizing rounds before with
  | ind width ih =>
    rw [search.eq_def, if_pos (Window.rising_wide large rounds)]
    split
    next narrows =>
      have answered : Succeeds (compareItem callbacks set (Window.rising size rounds).middle value)
          before fun reply after => after.containers = before.containers ∧ reply.isBelow :=
        Succeeds.bind_eq (state_eq there) (below _ value before)
      refine answered.ends.bind fun reply middle told => ?_
      rw [if_pos told.2]
      exact ih _ (width ▸ Window.width_above_lt _ narrows) (rounds + 1) (told.1 ▸ there) rfl
    next => rfl

/--
Every window that a search of so many items can have is halved by its middle, whatever comparisons
answer, if and only if there are at most `2 ^ 31` items. Then the search ends unless a comparison fails.
With more items, no end is reached by going above the middle again and again, which is what a search does
for a value that all items are below.
-/
theorem windows_halve_while_sums_fit (size : Nat) :
    ((∀ window, Window.Reached ⟨0, size⟩ window → window.low < window.high → window.Halves) ↔
      size ≤ 1 <<< 31) ∧
    ∀ {Outside : Type} (callbacks : Callbacks Outside) (set : Handle OrderedSet) (value : Value)
      (before : State Outside),
      (size ≤ 1 <<< 31 →
        Ends (search callbacks set value ⟨0, size⟩) before (fun position _ => position ≤ size)
          fun failure _ => callbacks.ComparisonFails failure) ∧
      (1 <<< 31 < size →
        (∀ rounds, (Window.rising size rounds).low < (Window.rising size rounds).high) ∧
        ∀ held, before.containers.sets.cell? set = some held →
          callbacks.AnswersBelow held.comparator →
            Ends (search callbacks set value ⟨0, size⟩) before (fun _ _ => False)
              fun failure _ => failure = .endless) := by
  refine ⟨⟨fun halve => Nat.le_of_not_lt fun large => ?_, fun fits window reached wide =>
    Window.halves wide (reached.high_le fits) fits⟩, fun callbacks set value before =>
      ⟨fun fits => ?_, fun large => ⟨Window.rising_wide large, fun held there below => ?_⟩⟩⟩
  · obtain ⟨rounds, notNarrow⟩ := Window.exists_rising_not_narrows size
    exact notNarrow (halve _ (Window.reached_rising large rounds)
      (Window.rising_wide large rounds)).narrows
  · exact search_ends callbacks set value fits ⟨0, size⟩ (Nat.zero_le size) (Nat.le_refl size) before
  · exact search_endless below value large 0 there

theorem windows_halve_while_sums_fit_of_three : 3 ≤ 1 <<< 31 ∧
    ∀ window, Window.Reached ⟨0, 3⟩ window → window.low < window.high → window.Halves :=
  ⟨by decide, (windows_halve_while_sums_fit 3).1.2 (by decide)⟩

theorem middle_in_front_of_window : (1 <<< 31) + 1 < 1 <<< 32 ∧
    ∃ window, Window.Reached ⟨0, (1 <<< 31) + 1⟩ window ∧ window.low < window.high ∧
      window.high ≤ (1 <<< 31) + 1 ∧ window.middle < window.low :=
  ⟨by decide, Window.rising ((1 <<< 31) + 1) 30, Window.reached_rising (by decide) 30, by decide⟩

end OrderedSet

end Collections
