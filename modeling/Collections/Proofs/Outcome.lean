import Collections.State

set_option autoImplicit false

namespace Collections

variable {Outside α β : Type}

def Succeeds (action : Action Outside α) (before : State Outside)
    (wanted : α → State Outside → Prop) : Prop :=
  ∃ result after, action before = .ok result after ∧ wanted result after

section Binding

variable {action : Action Outside α} {next : α → Action Outside β} {before middle : State Outside}

theorem bind_ok {result : α} (answered : action before = .ok result middle) :
    (action >>= next) before = next result middle := by
  change EStateM.bind action next before = _
  simp only [EStateM.bind, answered]

theorem bind_error {failure : Failure} (broke : action before = .error failure middle) :
    (action >>= next) before = .error failure middle := by
  change EStateM.bind action next before = _
  simp only [EStateM.bind, broke]

variable {handler : Failure → Action Outside α}

theorem tryCatch_ok {result : α} (answered : action before = .ok result middle) :
    tryCatch action handler before = .ok result middle := by
  change EStateM.tryCatch action handler before = _
  delta EStateM.tryCatch
  rw [answered]

-- What was done before the failure stays done.
theorem tryCatch_error {failure : Failure} (broke : action before = .error failure middle) :
    tryCatch action handler before = handler failure middle := by
  change EStateM.tryCatch action handler before = _
  delta EStateM.tryCatch
  rw [broke]
  rfl

end Binding

namespace Succeeds

variable {before : State Outside} {wanted : β → State Outside → Prop}

theorem of_pure {result : β} (holds : wanted result before) :
    Succeeds (pure result) before wanted :=
  ⟨result, before, rfl, holds⟩

theorem bind {action : Action Outside α} {next : α → Action Outside β}
    {reached : α → State Outside → Prop} (first : Succeeds action before reached)
    (second : ∀ result middle, reached result middle → Succeeds (next result) middle wanted) :
    Succeeds (action >>= next) before wanted := by
  obtain ⟨result, middle, answered, holds⟩ := first
  obtain ⟨last, after, finished, ends⟩ := second result middle holds
  exact ⟨last, after, (bind_ok answered).trans finished, ends⟩

theorem imp {action : Action Outside β} {reached : β → State Outside → Prop}
    (first : Succeeds action before reached)
    (implies : ∀ result after, reached result after → wanted result after) :
    Succeeds action before wanted := by
  obtain ⟨result, after, answered, holds⟩ := first
  exact ⟨result, after, answered, implies result after holds⟩

theorem bind_eq {action : Action Outside α} {next : α → Action Outside β} {result : α}
    {middle : State Outside} (answered : action before = .ok result middle)
    (second : Succeeds (next result) middle wanted) :
    Succeeds (action >>= next) before wanted := by
  unfold Succeeds
  rw [bind_ok answered]
  exact second

end Succeeds

def Ends (action : Action Outside α) (before : State Outside) (wanted : α → State Outside → Prop)
    (failed : Failure → State Outside → Prop) : Prop :=
  match action before with
  | .ok result after => wanted result after
  | .error failure after => failed failure after

theorem Succeeds.ends {action : Action Outside α} {before : State Outside}
    {wanted : α → State Outside → Prop} {failed : Failure → State Outside → Prop}
    (succeeds : Succeeds action before wanted) : Ends action before wanted failed := by
  obtain ⟨result, after, answered, holds⟩ := succeeds
  simpa only [Ends, answered] using holds

theorem Ends.succeeds {action : Action Outside α} {before : State Outside}
    {wanted : α → State Outside → Prop} (ends : Ends action before wanted fun _ _ => False) :
    Succeeds action before wanted := by
  unfold Ends at ends
  split at ends
  next result after answered => exact ⟨result, after, answered, ends⟩
  next => exact ends.elim

namespace Ends

variable {before : State Outside} {wanted : β → State Outside → Prop}
  {failed : Failure → State Outside → Prop}

theorem bind {action : Action Outside α} {next : α → Action Outside β}
    {reached : α → State Outside → Prop} (first : Ends action before reached failed)
    (second : ∀ result middle, reached result middle → Ends (next result) middle wanted failed) :
    Ends (action >>= next) before wanted failed := by
  unfold Ends at first ⊢
  cases answered : action before with
  | ok result middle =>
    rw [answered] at first
    rw [bind_ok answered]
    exact second result middle first
  | error failure middle =>
    rw [answered] at first
    rw [bind_error answered]
    exact first

theorem bind_eq {action : Action Outside α} {next : α → Action Outside β} {result : α}
    {middle : State Outside} (answered : action before = .ok result middle)
    (second : Ends (next result) middle wanted failed) :
    Ends (action >>= next) before wanted failed := by
  unfold Ends
  rw [bind_ok answered]
  exact second

theorem tryCatch {action : Action Outside β} {handler : Failure → Action Outside β}
    {broken : Failure → State Outside → Prop} (first : Ends action before wanted broken)
    (second : ∀ failure middle, broken failure middle → Ends (handler failure) middle wanted failed) :
    Ends (tryCatch action handler) before wanted failed := by
  unfold Ends at first ⊢
  cases answered : action before with
  | ok result middle =>
    rw [answered] at first
    rwa [tryCatch_ok answered]
  | error failure middle =>
    rw [answered] at first
    rw [tryCatch_error answered]
    exact second failure middle first

theorem imp {action : Action Outside β} {reached : β → State Outside → Prop}
    {broken : Failure → State Outside → Prop} (first : Ends action before reached broken)
    (answers : ∀ result after, reached result after → wanted result after)
    (fails : ∀ failure after, broken failure after → failed failure after) :
    Ends action before wanted failed := by
  unfold Ends at first ⊢
  split at first
  · exact answers _ _ first
  · exact fails _ _ first

end Ends

theorem Ends.and {action : Action Outside α} {before : State Outside}
    {wanted also : α → State Outside → Prop} {failed broken : Failure → State Outside → Prop}
    (first : Ends action before wanted failed) (second : Ends action before also broken) :
    Ends action before (fun result after => wanted result after ∧ also result after)
      (fun failure after => failed failure after ∧ broken failure after) := by
  unfold Ends at *
  split <;> simp_all

def attempt (action : Action Outside α) (before : State Outside) :
    Except Failure α × State Outside :=
  match action before with
  | .ok result after => (.ok result, after)
  | .error failure after => (.error failure, after)

theorem attempt_map {action : Action Outside α} {before : State Outside} (answer : α → β) :
    attempt (action >>= fun result => pure (answer result)) before =
      ((attempt action before).1.map answer, (attempt action before).2) := by
  unfold attempt
  cases answered : action before with
  | ok result after =>
    rw [bind_ok answered]
    rfl
  | error failure after =>
    rw [bind_error answered]
    rfl

theorem eq_error_of_attempt {action : Action Outside α} {before after : State Outside}
    {failure : Failure} (broke : attempt action before = (.error failure, after)) :
    action before = .error failure after := by
  unfold attempt at broke
  split at broke <;> simp_all

theorem eq_ok_of_attempt {action : Action Outside α} {before : State Outside} {result : α}
    (answers : (attempt action before).1.toOption = some result) :
    action before = .ok result (attempt action before).2 := by
  unfold attempt at answers ⊢
  split at answers
  next answered =>
    cases answers
    exact answered
  next => cases answers

theorem Ends.answered {action : Action Outside α} {before : State Outside} {result : α}
    {wanted : α → State Outside → Prop} {failed : Failure → State Outside → Prop}
    (ends : Ends action before wanted failed)
    (answers : (attempt action before).1.toOption = some result) :
    wanted result (attempt action before).2 := by
  unfold Ends at ends
  rwa [eq_ok_of_attempt answers] at ends

theorem Ends.attempt {action : Action Outside α} {before : State Outside}
    {wanted : α → State Outside → Prop} {failed : Failure → State Outside → Prop}
    (ends : Ends action before wanted failed) :
    (∃ result after, attempt action before = (.ok result, after) ∧ wanted result after) ∨
      ∃ failure after, attempt action before = (.error failure, after) ∧ failed failure after := by
  unfold Ends at ends
  unfold Collections.attempt
  split at ends
  next result after answered => exact .inl ⟨result, after, rfl, ends⟩
  next failure after broke => exact .inr ⟨failure, after, rfl, ends⟩

theorem Ends.leaves {action : Action Outside α} {before : State Outside}
    {holds : State Outside → Prop} (ends : Ends action before (fun _ => holds) fun _ => holds) :
    holds (Collections.attempt action before).2 := by
  rcases ends.attempt with ⟨_, after, ended, told⟩ | ⟨_, after, ended, told⟩ <;>
    exact ended ▸ told

theorem Ends.of_leaves {action : Action Outside α} {before : State Outside}
    {holds : State Outside → Prop} (left : holds (Collections.attempt action before).2) :
    Ends action before (fun _ => holds) fun _ => holds := by
  unfold Collections.attempt at left
  unfold Ends
  split at left <;> exact left

theorem Succeeds.and {action : Action Outside α} {before : State Outside}
    {wanted also : α → State Outside → Prop} {failed : Failure → State Outside → Prop}
    (first : Succeeds action before wanted) (second : Ends action before also failed) :
    Succeeds action before fun result after => wanted result after ∧ also result after := by
  obtain ⟨result, after, answered, holds⟩ := first
  simp only [Ends, answered] at second
  exact ⟨result, after, answered, holds, second⟩

end Collections
