import DocRun.Proofs.Load.Flat
import DocRun.Proofs.Session.Sound

namespace DocRun

namespace Load

-- A run that leaves tidy settings, if any, and has shown nothing but tidy drafts.
structure Run.Tidy (run : Run Settings) : Prop where
  result : ∀ settings, run.result = .ok settings → settings.Tidy
  seen : ∀ config ∈ run.seen, config.initialized = false ∧ config.Tidy

theorem Run.Tidy.bind {run : Run Settings} {next : Settings → Run Settings} (h : run.Tidy)
    (hn : ∀ settings, settings.Tidy → (next settings).Tidy) : (run >>= next).Tidy := by
  cases hr : run.result with
  | error error =>
      rw [bind_of_error _ hr]
      exact ⟨fun _ ho => (nomatch ho), h.seen⟩
  | ok value =>
      have ht := hn value (h.result value hr)
      refine ⟨?_, ?_⟩
      · rw [bind_of_ok _ hr]
        exact ht.result
      · intro config hc
        rw [seen_bind, hr] at hc
        exact (List.mem_append.mp hc).elim (h.seen config) (ht.seen config)

theorem Run.tidy_of_silent {run : Run Settings} {settings : Settings} (h : settings.Tidy)
    (hr : ∀ other, run.result = .ok other → other = settings) (hs : run.seen = []) :
    run.Tidy where
  result := fun other ho => hr other ho ▸ h
  seen := by
    rw [hs]
    exact fun config hc => absurd hc List.not_mem_nil

theorem Action.tidy_run (log : Log) {settings : Settings} (h : settings.Tidy) (action : Action) :
    (action.run log settings).Tidy := by
  cases action with
  | edit change =>
      exact Run.tidy_of_silent (h.apply change) (fun _ ho => (Except.ok.inj ho).symm) rfl
  | fail error => exact Run.tidy_of_silent h (fun _ ho => nomatch ho) rfl
  | see =>
      refine ⟨fun _ ho => Except.ok.inj ho ▸ h, ?_⟩
      intro config hc
      obtain rfl := List.mem_singleton.mp hc
      exact ⟨rfl, h⟩
  | reset =>
      exact Run.tidy_of_silent Settings.tidy_default (fun _ ho => (Except.ok.inj ho).symm) rfl
  | check =>
      refine Run.tidy_of_silent h ?_ ?_
      · intro other ho
        simp only [Action.run] at ho
        cases hb : (build log settings).result with
        | error error => rw [Run.bind_of_error _ hb] at ho; exact nomatch ho
        | ok config => rw [Run.bind_of_ok _ hb] at ho; exact (Except.ok.inj ho).symm
      · rw [Action.run, Run.seen_bind, seen_build]
        cases (build log settings).result <;> rfl

theorem Action.tidy_runAll (log : Log) {settings : Settings} (h : settings.Tidy)
    (actions : List Action) : (Action.runAll log settings actions).Tidy := by
  induction actions generalizing settings with
  | nil => exact Run.tidy_of_silent h (fun _ ho => (Except.ok.inj ho).symm) rfl
  | cons action actions ih => exact (Action.tidy_run log h action).bind fun _ ht => ih ht

theorem sound_load (log : Log) (sources : List Source) {config : Config}
    (h : (load log sources).result = .ok config) :
    config.initialized = true ∧ config.Sound := by
  have ht := Action.tidy_runAll log Settings.tidy_default (actionsOf sources)
  rw [(load_agrees log sources).1] at h
  cases hr : (Action.runAll log {} (actionsOf sources)).result with
  | error error => rw [Run.bind_of_error _ hr] at h; exact nomatch h
  | ok settings =>
      rw [Run.bind_of_ok _ hr] at h
      exact (ht.result settings hr).build ((result_build log settings).symm.trans h)

theorem draft_of_seen (log : Log) (sources : List Source) {config : Config}
    (h : Call.seen config ∈ (load log sources).calls) :
    config.initialized = false ∧ config.Tidy := by
  have ht := Action.tidy_runAll log Settings.tidy_default (actionsOf sources)
  rw [← Run.mem_seen_iff, (load_agrees log sources).2, Run.seen_bind] at h
  rcases List.mem_append.mp h with hm | hm
  · exact ht.seen config hm
  · split at hm
    case h_1 settings hr =>
      rw [seen_build] at hm
      exact absurd hm List.not_mem_nil
    case h_2 => exact absurd hm List.not_mem_nil

end Load

open Session in
-- The settings of a session are never marked, and what is kept in a slot is marked exactly if a
-- build has written it last. The mark stands for checks that hold wherever it is found, and no
-- empty version or homepage is found anywhere. The same goes for loads.
theorem marks_sound :
    (∀ steps : List Step,
      let state := (State.run {} steps).1
      let history := State.history {} steps
      (state.settings.draft.initialized = false ∧ state.settings.Tidy) ∧
      (∀ slot settings, state.savedSettings.get? slot = some settings →
        settings.draft.initialized = false ∧ settings.Tidy) ∧
      (∀ slot, state.configs.get? slot = none ↔ lastWrite slot history = none) ∧
      (∀ slot config, state.configs.get? slot = some config →
        config.Tidy ∧ (config.initialized = true → config.Ready) ∧
        (config.initialized = true ↔
          ∃ keep, lastWrite slot history = some (.build keep, .config config))) ∧
      ∀ entry ∈ history, entry.Sound) ∧
    ∀ (log : Load.Log) (sources : List Load.Source),
      (∀ config, (Load.load log sources).result = .ok config →
        config.initialized = true ∧ config.Tidy ∧ config.Ready) ∧
      ∀ config, .seen config ∈ (Load.load log sources).calls →
        config.initialized = false ∧ config.Tidy := by
  refine ⟨?_, ?_⟩
  · intro steps
    have h : (State.run {} steps).1.Sound (State.history {} steps) :=
      State.sound_empty.run steps
    refine ⟨⟨rfl, h.settings⟩, ?_, ?_, ?_, h.entries⟩
    · intro slot settings hg
      exact ⟨rfl, h.saved slot settings hg⟩
    · exact h.get?_eq_none_iff
    · intro slot config hg
      obtain ⟨hs, hm⟩ := h.marked hg
      exact ⟨hs.tidy, hs.ready, hm⟩
  · intro log sources
    refine ⟨?_, fun config => Load.draft_of_seen log sources⟩
    intro config hr
    obtain ⟨hi, hs⟩ := Load.sound_load log sources hr
    exact ⟨hi, hs.tidy, hs.ready hi⟩

-- A build that is kept, and a later one that fails and leaves the draft in its slot alone.
def Session.builtThenFailed : List Session.Step := [
  .edit (.rootDir (.ofText "/src")), .edit (.compileCommands (.ofText "/src/cc.json")),
  .edit (.projectName "p"), .edit (.outputDir (.ofText "/out")), .build (some "built"),
  .edit (.projectVersion ""), .draft (some "drafted"), .renew, .build (some "drafted")]

theorem marks_sound_builtThenFailed :
    ∃ built drafted,
      (Session.State.run {} Session.builtThenFailed).1.configs.get? "built" = some built ∧
      (Session.State.run {} Session.builtThenFailed).1.configs.get? "drafted" = some drafted ∧
      built.initialized = true ∧ built.Ready ∧ drafted.initialized = false ∧
      (∃ keep, Session.lastWrite "built" (Session.State.history {} Session.builtThenFailed) =
        some (.build keep, .config built)) ∧
      ¬ ∃ keep, Session.lastWrite "drafted" (Session.State.history {} Session.builtThenFailed) =
        some (.build keep, .config drafted) := by
  obtain ⟨-, -, -, hconfigs, -⟩ := marks_sound.1 Session.builtThenFailed
  obtain ⟨built, hb⟩ := Option.isSome_iff_exists.mp (show
    ((Session.State.run {} Session.builtThenFailed).1.configs.get? "built").isSome = true by
      decide +kernel)
  obtain ⟨drafted, hd⟩ := Option.isSome_iff_exists.mp (show
    ((Session.State.run {} Session.builtThenFailed).1.configs.get? "drafted").isSome = true by
      decide +kernel)
  have hi : ((Session.State.run {} Session.builtThenFailed).1.configs.get? "built").map
      (·.initialized) = some true := by decide +kernel
  have hn : ((Session.State.run {} Session.builtThenFailed).1.configs.get? "drafted").map
      (·.initialized) = some false := by decide +kernel
  rw [hb] at hi
  rw [hd] at hn
  have hinit := Option.some.inj hi
  have hnot := Option.some.inj hn
  obtain ⟨-, hready, hbuild⟩ := hconfigs "built" built hb
  obtain ⟨-, -, hdraft⟩ := hconfigs "drafted" drafted hd
  refine ⟨built, drafted, hb, hd, hinit, hready hinit, hnot, hbuild.mp hinit, ?_⟩
  exact fun he => Bool.false_ne_true (hnot.symm.trans (hdraft.mpr he))

end DocRun
