import DocRun.Proofs.Load.Flat
import DocRun.Proofs.Session.Run

namespace DocRun.Load

open Session

-- The step of a session that does what an action does. There is none that fails on purpose.
def Action.step? : Action → Option Step
  | edit change => some (.edit change)
  | fail _ => none
  | see => some (.draft none)
  | reset => some .renew
  | check => some (.build none)

def stepsOf (actions : List Action) : List Step := actions.filterMap Action.step?

-- The draft that was answered to a step that asks for one.
def draft? (entry : Entry) : Option Config :=
  match entry.1, entry.2 with
  | .draft _, .config config => some config
  | _, _ => none

-- The drafts answered to a session that follows the actions.
def drafts (state : State) (actions : List Action) : List Config :=
  (state.history (stepsOf actions)).filterMap draft?

-- The actions can be followed to their end. None of them fails on purpose, and no check fails.
structure Passes (state : State) (actions : List Action) : Prop where
  unfailing : ∀ error, Action.fail error ∉ actions
  checked : ∀ error, Answer.failed error ∉ (state.run (stepsOf actions)).2

-- An action that cannot be followed any further.
inductive Stops (state : State) : Action → ConfigError → Prop
  | fail (error : ConfigError) : Stops state (.fail error) error
  | check {error : ConfigError} (h : (state.step (.build none)).2 = .failed error) :
      Stops state .check error

-- How a session answers a build.
def answerOf : Except ConfigError Config → Answer
  | .ok config => .config config
  | .error error => .failed error

theorem answerOf_injective {result other : Except ConfigError Config}
    (h : answerOf result = answerOf other) : result = other := by
  cases result <;> cases other
  · rw [Answer.failed.inj h]
  · exact nomatch h
  · exact nomatch h
  · rw [Answer.config.inj h]

theorem step_build (state : State) :
    state.step (.build none) = (state, answerOf state.settings.build) := by
  simp only [State.step]
  cases state.settings.build <;> rfl

theorem stepsOf_cons {action : Action} {step : Step} (h : action.step? = some step)
    (actions : List Action) : stepsOf (action :: actions) = step :: stepsOf actions :=
  List.filterMap_cons_some h

theorem drafts_cons {action : Action} {step : Step} (h : action.step? = some step)
    (state : State) (actions : List Action) :
    drafts state (action :: actions) =
      (draft? (step, (state.step step).2)).toList ++ drafts (state.step step).1 actions := by
  rw [drafts, stepsOf_cons h, State.history_cons, List.filterMap_cons]
  cases draft? (step, (state.step step).2) <;> rfl

theorem passes_nil (state : State) : Passes state [] where
  unfailing := fun _ => List.not_mem_nil
  checked := fun _ => List.not_mem_nil

theorem passes_cons {state : State} {action : Action} {actions : List Action} :
    Passes state (action :: actions) ↔
      ∃ step, action.step? = some step ∧ (∀ error, (state.step step).2 ≠ .failed error) ∧
        Passes (state.step step).1 actions := by
  constructor
  · rintro ⟨hu, hc⟩
    cases hs : action.step? with
    | none =>
        cases action with
        | fail error => exact absurd List.mem_cons_self (hu error)
        | _ => exact nomatch hs
    | some step =>
        rw [stepsOf_cons hs, State.run_cons] at hc
        refine ⟨step, rfl, ?_, ?_, ?_⟩
        · exact fun error he => hc error (he ▸ List.mem_cons_self)
        · exact fun error hm => hu error (List.mem_cons_of_mem _ hm)
        · exact fun error hm => hc error (List.mem_cons_of_mem _ hm)
  · rintro ⟨step, hs, ha, hp⟩
    refine ⟨?_, ?_⟩
    · intro error hm
      rcases List.mem_cons.mp hm with he | hm
      · rw [← he] at hs
        exact nomatch hs
      · exact hp.unfailing error hm
    · intro error hm
      rw [stepsOf_cons hs, State.run_cons] at hm
      rcases List.mem_cons.mp hm with he | hm
      · exact ha error he.symm
      · exact hp.checked error hm

-- An action either stops the load or has a step that is answered without an error.
theorem stops_or_follows (state : State) (action : Action) :
    (∃ error, Stops state action error) ∨
      ∃ step, action.step? = some step ∧ ∀ error, (state.step step).2 ≠ .failed error := by
  cases action with
  | fail error => exact .inl ⟨error, .fail error⟩
  | check =>
      have ha := congrArg Prod.snd (step_build state)
      cases hb : state.settings.build with
      | error error => exact .inl ⟨error, .check (by rw [ha, hb]; rfl)⟩
      | ok config =>
          refine .inr ⟨_, rfl, fun error he => ?_⟩
          rw [ha, hb] at he
          exact nomatch he
  | edit change => exact .inr ⟨_, rfl, fun _ he => nomatch he⟩
  | see => exact .inr ⟨_, rfl, fun _ he => nomatch he⟩
  | reset => exact .inr ⟨_, rfl, fun _ he => nomatch he⟩

theorem passes_or_stops (state : State) (actions : List Action) :
    Passes state actions ∨ ∃ done stop rest error, actions = done ++ stop :: rest ∧
      Passes state done ∧ Stops (state.run (stepsOf done)).1 stop error := by
  induction actions generalizing state with
  | nil => exact .inl (passes_nil state)
  | cons action actions ih =>
      obtain ⟨error, hs⟩ | ⟨step, hs, ha⟩ := stops_or_follows state action
      · exact .inr ⟨[], action, actions, error, rfl, passes_nil state, hs⟩
      · obtain hp | ⟨done, stop, rest, error, rfl, hp, ht⟩ := ih (state.step step).1
        · exact .inl (passes_cons.mpr ⟨step, hs, ha, hp⟩)
        · refine .inr ⟨action :: done, stop, rest, error, rfl,
            passes_cons.mpr ⟨step, hs, ha, hp⟩, ?_⟩
          rw [stepsOf_cons hs, State.run_cons]
          exact ht

-- One action leaves the settings that its step leaves, and shows what the step answers.
theorem Action.run_of_step (log : Log) {state : State} {action : Action} {step : Step}
    (hs : action.step? = some step) (ha : ∀ error, (state.step step).2 ≠ .failed error) :
    (action.run log state.settings).result = .ok (state.step step).1.settings ∧
      (action.run log state.settings).seen = (draft? (step, (state.step step).2)).toList := by
  cases action with
  | edit change =>
      obtain rfl := Option.some.inj hs
      exact ⟨rfl, rfl⟩
  | fail error => exact nomatch hs
  | see =>
      obtain rfl := Option.some.inj hs
      exact ⟨rfl, rfl⟩
  | reset =>
      obtain rfl := Option.some.inj hs
      exact ⟨rfl, rfl⟩
  | check =>
      obtain rfl := Option.some.inj hs
      rw [step_build] at ha ⊢
      cases hb : state.settings.build with
      | error error => exact absurd (congrArg answerOf hb) (ha error)
      | ok config =>
          have hr := (result_build log state.settings).trans hb
          have hq := seen_build log state.settings
          exact Run.agrees_of_silent (fun _ => (pure state.settings : Run Settings)) hr hq

theorem Action.run_of_stops (log : Log) {state : State} {action : Action} {error : ConfigError}
    (h : Stops state action error) :
    (action.run log state.settings).result = .error error ∧
      (action.run log state.settings).seen = [] := by
  cases h with
  | fail error => exact ⟨rfl, rfl⟩
  | check ha =>
      rw [step_build] at ha
      cases hb : state.settings.build with
      | ok config => rw [hb] at ha; exact nomatch ha
      | error other =>
          rw [hb] at ha
          obtain rfl := Answer.failed.inj ha
          have hr := (result_build log state.settings).trans hb
          refine ⟨?_, ?_⟩
          · rw [Action.run, Run.bind_of_error _ hr]
          · rw [Action.run, Run.seen_bind, hr, seen_build]
            rfl

-- Actions that can all be followed leave what the session leaves.
theorem Action.runAll_of_passes (log : Log) {state : State} {actions : List Action}
    (h : Passes state actions) :
    (runAll log state.settings actions).result =
        .ok (state.run (stepsOf actions)).1.settings ∧
      (runAll log state.settings actions).seen = drafts state actions := by
  induction actions generalizing state with
  | nil => exact ⟨rfl, rfl⟩
  | cons action actions ih =>
      obtain ⟨step, hs, ha, hp⟩ := passes_cons.mp h
      obtain ⟨hr, hd⟩ := run_of_step log hs ha
      obtain ⟨hresult, hdrafts⟩ := ih hp
      refine ⟨?_, ?_⟩
      · rw [runAll, Run.bind_of_ok _ hr, stepsOf_cons hs, State.run_cons]
        exact hresult
      · rw [runAll, Run.seen_bind, hr, hd, drafts_cons hs]
        exact congrArg _ hdrafts

theorem Action.runAll_of_stops (log : Log) {state : State} {done : List Action} {stop : Action}
    {error : ConfigError} (hp : Passes state done)
    (hs : Stops (state.run (stepsOf done)).1 stop error) (rest : List Action) :
    (runAll log state.settings (done ++ stop :: rest)).result = .error error ∧
      (runAll log state.settings (done ++ stop :: rest)).seen = drafts state done := by
  obtain ⟨hr, hd⟩ := runAll_of_passes log hp
  obtain ⟨he, hn⟩ := run_of_stops log hs
  refine ⟨?_, ?_⟩
  · rw [runAll_append, Run.bind_of_ok _ hr, runAll, Run.bind_of_error _ he]
  · rw [runAll_append, Run.seen_bind, hr, hd]
    simp only [runAll, Run.seen_bind, he, hn, List.append_nil]

theorem load_of_passes (log : Log) {sources : List Source}
    (h : Passes {} (actionsOf sources)) :
    (State.run {} (stepsOf (actionsOf sources) ++ [.build none])).2 =
        (State.run {} (stepsOf (actionsOf sources))).2 ++ [answerOf (load log sources).result] ∧
      (load log sources).seen = drafts {} (actionsOf sources) := by
  obtain ⟨hr, hd⟩ := Action.runAll_of_passes log h
  obtain ⟨hresult, hseen⟩ := load_agrees log sources
  refine ⟨?_, ?_⟩
  · rw [State.run_append, hresult, Run.bind_of_ok _ hr, result_build, State.run_cons, step_build]
    rfl
  · rw [hseen, Run.seen_bind, hr, hd]
    simp only [seen_build, List.append_nil]

theorem load_of_stops (log : Log) {sources : List Source} {done rest : List Action}
    {stop : Action} {error : ConfigError} (ha : actionsOf sources = done ++ stop :: rest)
    (hp : Passes {} done) (hs : Stops (State.run {} (stepsOf done)).1 stop error) :
    (load log sources).result = .error error ∧ (load log sources).seen = drafts {} done := by
  obtain ⟨hr, hd⟩ := Action.runAll_of_stops log hp hs rest
  obtain ⟨hresult, hseen⟩ := load_agrees log sources
  rw [ha] at hresult hseen
  refine ⟨?_, ?_⟩
  · rw [hresult, Run.bind_of_error _ hr]
  · rw [hseen, Run.seen_bind, hr, hd]
    simp only [List.append_nil]

-- The part of a source up to some action, and all that comes after it.
theorem gather_split (log : Log) (settings : Settings) (before after : List Source)
    (name : String) (head tail : List Action) :
    gather log settings (before ++ ⟨name, head ++ tail⟩ :: after) =
      gather log settings (before ++ [⟨name, head⟩]) >>= fun settings =>
        Action.runAll log settings tail >>= fun settings => gather log settings after := by
  have hname : announce log ⟨name, head ++ tail⟩ = announce log ⟨name, head⟩ := rfl
  simp only [gather_append, gather, Source.populate, Action.runAll_append, Run.bind_assoc,
    Run.pure_bind, hname]

-- What stands after the action at which a load stops might as well not be there.
theorem load_of_stops_eq (log : Log) {before after : List Source} {name : String}
    {done rest : List Action} {stop : Action} {error : ConfigError}
    (hp : Passes {} (actionsOf before ++ done))
    (hs : Stops (State.run {} (stepsOf (actionsOf before ++ done))).1 stop error) :
    load log (before ++ ⟨name, done ++ stop :: rest⟩ :: after) =
      load log (before ++ [⟨name, done ++ [stop]⟩]) := by
  have hsplit := gather_split log {} before after name (done ++ [stop]) rest
  have hflat : actionsOf (before ++ [⟨name, done ++ [stop]⟩]) =
      (actionsOf before ++ done) ++ stop :: [] := by
    simp only [actionsOf, List.flatMap_append, List.flatMap_singleton, List.append_assoc]
  have hr := (gather_agrees log {} (before ++ [⟨name, done ++ [stop]⟩])).1
  rw [hflat, (Action.runAll_of_stops log hp hs []).1] at hr
  rw [List.append_assoc, List.singleton_append] at hsplit
  simp only [load, hsplit, Run.bind_assoc]
  exact Run.bind_congr_of_error _ _ hr

-- A load is one session that follows the actions of all sources and ends with a build. It stops
-- at the first action that fails, and what it has shown until then is what the session has
-- answered. How the actions are divided among the sources does not matter.
theorem load_refines_session (log : Log) (sources : List Source) :
    (Passes {} (actionsOf sources) ∨ ∃ done stop rest error,
      actionsOf sources = done ++ stop :: rest ∧ Passes {} done ∧
        Stops (State.run {} (stepsOf done)).1 stop error) ∧
    (Passes {} (actionsOf sources) →
      (State.run {} (stepsOf (actionsOf sources) ++ [.build none])).2 =
          (State.run {} (stepsOf (actionsOf sources))).2 ++ [answerOf (load log sources).result] ∧
        (load log sources).seen = drafts {} (actionsOf sources)) ∧
    (∀ done stop rest error, actionsOf sources = done ++ stop :: rest → Passes {} done →
      Stops (State.run {} (stepsOf done)).1 stop error →
        (load log sources).result = .error error ∧
        (load log sources).seen = drafts {} done) ∧
    (∀ before name done stop rest after error,
      sources = before ++ ⟨name, done ++ stop :: rest⟩ :: after →
      Passes {} (actionsOf before ++ done) →
      Stops (State.run {} (stepsOf (actionsOf before ++ done))).1 stop error →
        load log sources = load log (before ++ [⟨name, done ++ [stop]⟩])) ∧
    ∀ (other : Log) (others : List Source), actionsOf others = actionsOf sources →
      (load other others).result = (load log sources).result ∧
      (load other others).seen = (load log sources).seen := by
  refine ⟨passes_or_stops {} (actionsOf sources), load_of_passes log, ?_, ?_, ?_⟩
  · intro done stop rest error ha hp hs
    exact load_of_stops log ha hp hs
  · rintro before name done stop rest after error rfl hp hs
    exact load_of_stops_eq log hp hs
  · intro other others ha
    obtain hp | ⟨done, stop, rest, error, hflat, hp, hs⟩ :=
      passes_or_stops {} (actionsOf sources)
    · obtain ⟨hr, hd⟩ := load_of_passes log hp
      obtain ⟨hor, hod⟩ := load_of_passes other (ha ▸ hp)
      rw [ha] at hor hod
      have hlast := List.append_cancel_left (hor.symm.trans hr)
      exact ⟨answerOf_injective (List.cons.inj hlast).1, hod.trans hd.symm⟩
    · obtain ⟨hr, hd⟩ := load_of_stops log hflat hp hs
      obtain ⟨hor, hod⟩ := load_of_stops other (ha.trans hflat) hp hs
      exact ⟨hor.trans hr.symm, hod.trans hd.symm⟩

-- The second source throws away what the first has set, so that its own check fails.
def untilCheck : List Action :=
  [.edit (.rootDir (.ofText "/src")), .see, .reset, .see]

def undone : List Source :=
  [⟨"first", [.edit (.rootDir (.ofText "/src")), .see]⟩, ⟨"second", [.reset, .see, .check, .see]⟩,
    ⟨"third", [.fail (.source "third" "unreached")]⟩]

theorem load_refines_session_undone :
    Passes {} untilCheck ∧
    Stops (State.run {} (stepsOf untilCheck)).1 .check (.missingField "root_dir") ∧
    (load (.ofLevel .off) undone).result = .error (.missingField "root_dir") ∧
    (load (.ofLevel .off) undone).seen = drafts {} untilCheck ∧
    (load (.ofLevel .debug) [⟨"only", actionsOf undone⟩]).seen = drafts {} untilCheck := by
  have hpasses : Passes {} untilCheck := by
    refine ⟨?_, ?_⟩
    · intro error hm
      simp [untilCheck] at hm
    · intro error hm
      simp [untilCheck, stepsOf, Action.step?, State.run, State.step] at hm
  have hstops : Stops (State.run {} (stepsOf untilCheck)).1 .check (.missingField "root_dir") :=
    .check rfl
  obtain ⟨-, -, hstop, -, hregroup⟩ := load_refines_session (.ofLevel .off) undone
  obtain ⟨hr, hd⟩ := hstop untilCheck .check _ _ rfl hpasses hstops
  have hsame := hregroup (.ofLevel .debug) [⟨"only", actionsOf undone⟩] (List.append_nil _)
  exact ⟨hpasses, hstops, hr, hd, hsame.2.trans hd⟩

end DocRun.Load
