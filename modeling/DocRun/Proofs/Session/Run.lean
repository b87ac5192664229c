import DocRun.Session

namespace DocRun.Session

-- A step of a run together with what was answered to it.
abbrev Entry := Step × Answer

-- The entries of a run, oldest first.
def State.history (state : State) (steps : List Step) : List Entry :=
  steps.zip (state.run steps).2

theorem State.run_cons (state : State) (step : Step) (steps : List Step) :
    state.run (step :: steps) =
      (((state.step step).1.run steps).1,
        (state.step step).2 :: ((state.step step).1.run steps).2) := rfl

theorem State.run_append (state : State) (steps more : List Step) :
    state.run (steps ++ more) =
      (((state.run steps).1.run more).1,
        (state.run steps).2 ++ ((state.run steps).1.run more).2) := by
  induction steps generalizing state with
  | nil => rfl
  | cons step steps ih => rw [List.cons_append, run_cons, run_cons, ih, List.cons_append]

theorem State.history_cons (state : State) (step : Step) (steps : List Step) :
    state.history (step :: steps) =
      (step, (state.step step).2) :: (state.step step).1.history steps := rfl

-- Edits reach the current settings only.
theorem State.run_edits (state : State) (edits : List Edit) :
    (state.run (edits.map .edit)).1 = { state with settings := state.settings.applyAll edits } := by
  induction edits generalizing state with
  | nil => rfl
  | cons edit edits ih =>
      rw [List.map_cons, State.run_cons, ih]
      rfl

end DocRun.Session
