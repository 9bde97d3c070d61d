import Collections.Callbacks
import Collections.Proofs.Outcome

set_option autoImplicit false

namespace Collections

variable {Outside : Type} {length : Action Outside Nat} {visit : Nat → Action Outside Unit}
  {count : Nat} {reached : Nat → State Outside → Prop} {failed : Failure → State Outside → Prop}

theorem visitFrom_ends
    (steady : ∀ position state, reached position state → length state = .ok count state)
    (visits : ∀ position state, position < count → reached position state →
      Ends (visit position) state (fun _ => reached (position + 1)) failed)
    (growths remaining position : Nat) (whole : position + remaining = count)
    (before : State Outside) (start : reached position before) :
    Ends (visitFrom length visit growths remaining position) before (fun _ => reached count)
      failed := by
  induction remaining generalizing position before with
  | zero =>
    obtain rfl : position = count := whole
    have measured : Ends length before (fun current after => current = position ∧ after = before)
        failed := Succeeds.ends ⟨position, before, steady position before start, rfl, rfl⟩
    cases growths <;>
    · rw [visitFrom]
      refine measured.bind fun current after same => ?_
      rw [same.1, same.2, if_neg (Nat.lt_irrefl position)]
      exact start
  | succ remaining ih =>
    rw [visitFrom]
    have measured : Ends length before (fun current after => current = count ∧ after = before)
        failed := Succeeds.ends ⟨count, before, steady position before start, rfl, rfl⟩
    refine measured.bind fun current after same => ?_
    have inside : position < count := by omega
    rw [same.1, same.2, if_pos inside]
    refine (visits position before inside start).bind fun _ middle there => ?_
    exact ih (position + 1) (by omega) middle there

theorem visitAll_ends (callbacks : Callbacks Outside)
    (steady : ∀ position state, reached position state → length state = .ok count state)
    (visits : ∀ position state, position < count → reached position state →
      Ends (visit position) state (fun _ => reached (position + 1)) failed)
    (before : State Outside) (start : reached 0 before) :
    Ends (callbacks.visitAll length visit) before (fun _ => reached count) failed := by
  have measured : Ends length before (fun current after => current = count ∧ after = before)
      failed := Succeeds.ends ⟨count, before, steady 0 before start, rfl, rfl⟩
  refine measured.bind fun current after same => ?_
  rw [same.1, same.2]
  exact visitFrom_ends steady visits callbacks.growths count 0 (Nat.zero_add count) before start

section Growing

variable {size left : State Outside → Nat}
  (measures : ∀ position state, reached position state → length state = .ok (size state) state)
  (visits : ∀ position state, position < size state → reached position state →
    Succeeds (visit position) state fun _ after => reached (position + 1) after ∧
      left after ≤ left state ∧ (size after ≤ size state ∨ left after < left state))

include measures visits

theorem visitFrom_grows (growths remaining position : Nat) (before : State Outside)
    (start : reached position before) (enough : left before ≤ growths)
    (measured : size before ≤ position + remaining ∨ left before < growths) :
    Succeeds (visitFrom length visit growths remaining position) before fun _ after =>
      ∃ position, reached position after ∧ size after ≤ position := by
  -- Each growth since the length was measured has taken from what is left, so another is allowed.
  induction growths, remaining, position using visitFrom.induct generalizing before with
  | case1 position growths remaining ih =>
    rw [visitFrom]
    apply Succeeds.bind_eq (measures position before start)
    split
    next inside =>
      refine (visits position before inside start).bind fun _ middle told => ?_
      obtain ⟨there, less, steady⟩ := told
      exact ih position middle there (by omega) (by omega)
    next past => exact Succeeds.of_pure ⟨position, start, by omega⟩
  | case2 position growths ih =>
    rw [visitFrom]
    apply Succeeds.bind_eq (measures position before start)
    split
    next inside => exact ih (size before) before start (by omega) (by omega)
    next past => exact Succeeds.of_pure ⟨position, start, by omega⟩
  | case3 position =>
    rw [visitFrom]
    apply Succeeds.bind_eq (measures position before start)
    rw [if_neg (by omega)]
    exact Succeeds.of_pure ⟨position, start, by omega⟩

theorem visitAll_grows (callbacks : Callbacks Outside) (before : State Outside)
    (start : reached 0 before) (enough : left before ≤ callbacks.growths) :
    Succeeds (callbacks.visitAll length visit) before fun _ after =>
      ∃ position, reached position after ∧ size after ≤ position := by
  apply Succeeds.bind_eq (measures 0 before start)
  exact visitFrom_grows measures visits _ _ 0 before start enough (.inl (by omega))

end Growing

section Keeping

variable {keeps : State Outside → Prop}
  (measures : ∀ state, keeps state → Ends length state (fun _ => keeps) (fun _ => keeps))
  (visits : ∀ position state, keeps state →
    Ends (visit position) state (fun _ => keeps) (fun _ => keeps))

include measures visits

theorem visitFrom_keeps (growths remaining position : Nat) (before : State Outside)
    (start : keeps before) :
    Ends (visitFrom length visit growths remaining position) before (fun _ => keeps)
      (fun _ => keeps) := by
  induction growths, remaining, position using visitFrom.induct generalizing before with
  | case1 position growths remaining ih =>
    rw [visitFrom]
    refine (measures before start).bind fun current middle kept => ?_
    split
    · exact (visits position middle kept).bind fun _ after kept => ih current after kept
    · exact kept
  | case2 position growths ih =>
    rw [visitFrom]
    refine (measures before start).bind fun current middle kept => ?_
    split
    · exact ih current middle kept
    · exact kept
  | case3 position =>
    rw [visitFrom]
    refine (measures before start).bind fun current middle kept => ?_
    split <;> exact kept

theorem visitAll_keeps {callbacks : Callbacks Outside} (before : State Outside)
    (start : keeps before) :
    Ends (callbacks.visitAll length visit) before (fun _ => keeps) (fun _ => keeps) :=
  (measures before start).bind fun current middle kept =>
    visitFrom_keeps measures visits callbacks.growths current 0 middle kept

end Keeping

end Collections
