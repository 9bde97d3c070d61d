import Collections.Proofs.Outcome

set_option autoImplicit false

namespace Collections

variable {Outside Command Answer : Type}

structure Event (Command Answer : Type) where
  command : Command
  outcome : Except Failure Answer

structure Usage (Outside Command Answer : Type) where
  perform : Command → Action Outside Answer
  Counts : Command → State Outside → Except Failure Answer → State Outside → Prop
  Between : State Outside → State Outside → Prop

namespace Usage

inductive Runs (usage : Usage Outside Command Answer) (start : State Outside) :
    List (Event Command Answer) → State Outside → Prop where
  | start : Runs usage start [] start
  | command {history : List (Event Command Answer)} {before after : State Outside}
      {command : Command} {outcome : Except Failure Answer} (earlier : Runs usage start history before)
      (done : attempt (usage.perform command) before = (outcome, after))
      (counts : usage.Counts command before outcome after) :
      Runs usage start (history ++ [⟨command, outcome⟩]) after
  | between {history : List (Event Command Answer)} {before after : State Outside}
      (earlier : Runs usage start history before) (meanwhile : usage.Between before after) :
      Runs usage start history after

theorem Runs.keeps {usage : Usage Outside Command Answer} {start : State Outside}
    (holds : List (Event Command Answer) → State Outside → Prop) (initially : holds [] start)
    (commands : ∀ history before command outcome after, holds history before →
      attempt (usage.perform command) before = (outcome, after) →
        usage.Counts command before outcome after → holds (history ++ [⟨command, outcome⟩]) after)
    (meanwhile : ∀ history before after, holds history before → usage.Between before after →
      holds history after)
    {history : List (Event Command Answer)} {final : State Outside}
    (run : usage.Runs start history final) : holds history final := by
  induction run with
  | start => exact initially
  | command _ done counts ih => exact commands _ _ _ _ _ ih done counts
  | between _ others ih => exact meanwhile _ _ _ ih others

section CarryingOut

variable (usage : Usage Outside Command Answer)

-- The commands are given one after another, with nothing in between.
def carryOut : List Command → State Outside → List (Event Command Answer) × State Outside
  | [], state => ([], state)
  | command :: rest, state =>
      let ended := attempt (usage.perform command) state
      let later := carryOut rest ended.2
      (⟨command, ended.1⟩ :: later.1, later.2)

def CountsAll : List Command → State Outside → Prop
  | [], _ => True
  | command :: rest, state =>
      let ended := attempt (usage.perform command) state
      usage.Counts command state ended.1 ended.2 ∧ CountsAll rest ended.2

instance CountsAll.decidable
    [∀ command before outcome after, Decidable (usage.Counts command before outcome after)] :
    ∀ commands state, Decidable (usage.CountsAll commands state)
  | [], _ => .isTrue trivial
  | _ :: rest, _ => @instDecidableAnd _ _ inferInstance (decidable rest _)

variable {usage} {start before : State Outside} {history : List (Event Command Answer)}

theorem Runs.carryOut (run : usage.Runs start history before) {commands : List Command}
    (counts : usage.CountsAll commands before) :
    usage.Runs start (history ++ (usage.carryOut commands before).1)
      (usage.carryOut commands before).2 := by
  induction commands generalizing history before with
  | nil =>
    rw [Usage.carryOut, List.append_nil]
    exact run
  | cons command rest ih =>
    have later := ih (run.command rfl counts.1) counts.2
    rw [List.append_assoc] at later
    exact later

theorem runs_carryOut {commands : List Command} (counts : usage.CountsAll commands start) :
    usage.Runs start (usage.carryOut commands start).1 (usage.carryOut commands start).2 :=
  Runs.start.carryOut counts

end CarryingOut

end Usage

end Collections
