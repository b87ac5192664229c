import DocRun.Proofs.Load.Flat

namespace DocRun.Load

section Place

variable {α : Type}

-- An item together with the settings that it finds.
abbrev Place (α : Type) := Settings × α

-- Every item at its place, where `next` says which settings an item leaves.
def places (next : Place α → Settings) (settings : Settings) : List α → List (Place α)
  | [] => []
  | item :: items => (settings, item) :: places next (next (settings, item)) items

-- The settings that all items leave.
def last (next : Place α → Settings) (settings : Settings) (items : List α) : Settings :=
  items.foldl (fun settings item => next (settings, item)) settings

-- The items up to and including the first one that fails, all of them if none does.
def upToError (error? : α → Option ConfigError) (items : List α) : List α :=
  items.take ((items.findIdx fun item => (error? item).isSome) + 1)

theorem upToError_cons (error? : α → Option ConfigError) (item : α) (items : List α) :
    upToError error? (item :: items) =
      if (error? item).isSome then [item] else item :: upToError error? items := by
  rw [upToError, List.findIdx_cons]
  cases (error? item).isSome <;> rfl

-- Items are worked through one after the other until one of them fails. What is shown and written
-- down on the way comes from the items up to that one, each at its place.
theorem Run.foldlM_eq {step : Settings → α → Run Settings} {next : Place α → Settings}
    {error? : Place α → Option ConfigError} {calls : Place α → List Call}
    {events : Place α → List Event}
    (h : ∀ place, step place.1 place.2 =
      ⟨(error? place).elim (.ok (next place)) .error, calls place, events place⟩)
    (settings : Settings) (items : List α) :
    items.foldlM step settings =
      ⟨((places next settings items).findSome? error?).elim
          (.ok (last next settings items)) .error,
        (upToError error? (places next settings items)).flatMap calls,
        (upToError error? (places next settings items)).flatMap events⟩ := by
  induction items generalizing settings with
  | nil => rfl
  | cons item items ih =>
      have hstep := h (settings, item)
      rw [List.foldlM_cons, places, upToError_cons, List.findSome?_cons]
      cases he : error? (settings, item) with
      | some error =>
          rw [he] at hstep
          rw [Run.bind_of_error _ (congrArg Run.result hstep), hstep]
          simp
      | none =>
          rw [he] at hstep
          rw [Run.bind_of_ok _ (congrArg Run.result hstep), hstep, ih]
          rfl

end Place

-- The settings that an action leaves if it does not fail.
def Action.leaves : Place Action → Settings
  | (settings, .edit change) => settings.apply change
  | (_, .reset) => {}
  | (settings, _) => settings

-- Why an action fails, if it does.
def Action.error? : Place Action → Option ConfigError
  | (_, .fail error) => some error
  | (settings, .check) =>
    match settings.build with
    | .ok _ => none
    | .error error => some error
  | _ => none

-- What an action shows.
def Action.calls : Place Action → List Call
  | (settings, .see) => [.seen settings.draft]
  | _ => []

-- The two events about the configuration that a build gives, the short one first.
def pair (config : Config) : List Event := [
  .initialized config.projectName config.tier,
  .details config.numThreads config.includePaths.length config.ignorePaths.length
    config.ignoreNames.length config.markdownPaths.length]

def Action.events : Place Action → List Event
  | (settings, .check) =>
    match settings.build with
    | .ok config => pair config
    | .error _ => []
  | _ => []

-- The actions of a source, each with the settings that it finds.
def Source.places (place : Place Source) : List (Place Action) :=
  Load.places Action.leaves place.1 place.2.actions

-- The actions that are reached: none behind the first that fails.
def Source.executed (place : Place Source) : List (Place Action) :=
  upToError Action.error? (places place)

def Source.error? (place : Place Source) : Option ConfigError :=
  (places place).findSome? Action.error?

def Source.leaves (place : Place Source) : Settings :=
  last Action.leaves place.1 place.2.actions

def Source.calls (place : Place Source) : List Call :=
  .name place.2.name :: .populate place.2.name :: (executed place).flatMap Action.calls

def Source.events (place : Place Source) : List Event :=
  .applying place.2.name :: (executed place).flatMap Action.events

theorem runAll_eq_foldlM (log : Log) (settings : Settings) (actions : List Action) :
    Action.runAll log settings actions = actions.foldlM (Action.run log) settings := by
  induction actions generalizing settings with
  | nil => rfl
  | cons action actions ih =>
      rw [Action.runAll, List.foldlM_cons]
      simp only [ih]

-- A source is announced before it is asked for its settings.
def Source.run (log : Log) (settings : Settings) (source : Source) : Run Settings := do
  announce log source
  source.populate log settings

theorem build_debug (settings : Settings) :
    build (.ofLevel .debug) settings =
      ⟨settings.build, [],
        match settings.build with
        | .ok config => pair config
        | .error _ => []⟩ := by
  unfold build
  cases settings.build <;> rfl

theorem Action.run_debug (place : Place Action) :
    Action.run (.ofLevel .debug) place.1 place.2 =
      ⟨(error? place).elim (.ok (leaves place)) .error, calls place, events place⟩ := by
  obtain ⟨settings, action⟩ := place
  cases action with
  | check =>
      simp only [Action.run, build_debug, error?, events, leaves, calls]
      cases settings.build <;> rfl
  | _ => rfl

theorem Source.populate_debug (place : Place Source) :
    place.2.populate (.ofLevel .debug) place.1 =
      ⟨(error? place).elim (.ok (leaves place)) .error,
        .populate place.2.name :: (executed place).flatMap Action.calls,
        (executed place).flatMap Action.events⟩ := by
  rw [Source.populate, runAll_eq_foldlM, Run.foldlM_eq Action.run_debug]
  rfl

theorem Source.run_debug (place : Place Source) :
    Source.run (.ofLevel .debug) place.1 place.2 =
      ⟨(error? place).elim (.ok (leaves place)) .error, calls place, events place⟩ := by
  rw [Source.run, populate_debug]
  rfl

end DocRun.Load
