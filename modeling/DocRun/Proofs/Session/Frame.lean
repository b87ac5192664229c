import DocRun.Proofs.Session.Sound

namespace DocRun.Session

-- Steps that are there for their answer alone.
-- A build that names a slot is one of them in the states where it fails.
inductive Traceless (state : State) : Step → Prop
  | query (slot : Option String) (query : Query) : Traceless state (.query slot query)
  | debugSettings : Traceless state .debugSettings
  | same (left right : Option String) : Traceless state (.same left right)
  | blank : Traceless state (.blank none)
  | draft : Traceless state (.draft none)
  | build : Traceless state (.build none)
  | failed {slot : String} {error : ConfigError}
      (h : (state.step (.build (some slot))).2 = .failed error) :
      Traceless state (.build (some slot))

theorem Traceless.state_eq {state : State} {step : Step} (h : Traceless state step) :
    (state.step step).1 = state := by
  cases h with
  | query slot query =>
      simp only [State.step]
      cases state.config? slot <;> rfl
  | debugSettings => rfl
  | same left right =>
      simp only [State.step]
      cases state.config? left <;> cases state.config? right <;> rfl
  | blank => rfl
  | draft => rfl
  | build =>
      simp only [State.step]
      cases state.settings.build <;> rfl
  | failed hf =>
      simp only [State.step] at hf ⊢
      cases hb : state.settings.build with
      | error error => rfl
      | ok config =>
          rw [hb] at hf
          cases hf

theorem State.length_run (state : State) (steps : List Step) :
    (state.run steps).2.length = steps.length := by
  induction steps generalizing state with
  | nil => rfl
  | cons step steps ih => rw [run_cons, List.length_cons, List.length_cons, ih]

-- The steps after a traceless one start where it has started.
theorem Traceless.run_erase {state : State} {before : List Step} {step : Step}
    (h : Traceless (state.run before).1 step) (after : List Step) :
    (state.run (before ++ step :: after)).1 = (state.run (before ++ after)).1 ∧
      (state.run (before ++ step :: after)).2.eraseIdx before.length =
        (state.run (before ++ after)).2 := by
  simp only [State.run_append, State.run_cons, h.state_eq, true_and]
  have hlen := state.length_run before
  rw [List.eraseIdx_append_of_length_le (Nat.le_of_eq hlen), hlen, Nat.sub_self,
    List.eraseIdx_cons_zero]

@[simp]
theorem State.keep_savedSettings (state : State) (slot : Option String) (config : Config) :
    (state.keep slot config).savedSettings = state.savedSettings := by
  cases slot <;> rfl

-- Copies of the settings are written where a save asks for it and nowhere else.
theorem State.savedSettings_step (state : State) (step : Step) :
    (state.step step).1.savedSettings =
      match step with
      | .save slot => state.savedSettings.put slot state.settings
      | _ => state.savedSettings := by
  cases step with
  | edit _ | renew | save _ | debugSettings => rfl
  | restore slot =>
      simp only [State.step]
      cases state.savedSettings.get? slot <;> rfl
  | blank slot | draft slot => exact state.keep_savedSettings slot _
  | build slot =>
      simp only [State.step]
      cases state.settings.build with
      | error error => rfl
      | ok config => exact state.keep_savedSettings slot config
  | query slot query => rw [Traceless.state_eq (.query slot query)]
  | same left right => rw [Traceless.state_eq (.same left right)]

theorem State.saved_step {step : Step} {slot : String} (state : State) (h : step ≠ .save slot) :
    (state.step step).1.savedSettings.get? slot = state.savedSettings.get? slot := by
  rw [state.savedSettings_step step]
  cases step with
  | save other =>
      have hne : slot ≠ other := fun he => h (he ▸ rfl)
      exact Slots.get?_put_of_ne _ _ hne
  | _ => rfl

theorem Change.configs_of_not_writes {state next : State} {entry : Entry} {slot : String}
    (h : Change state entry next) (hw : entry.writes slot = false) :
    next.configs.get? slot = state.configs.get? slot := by
  cases h with
  | @keep other config hk =>
      have hne : other ≠ slot := by simpa [Entry.writes, hk] using hw
      exact Slots.get?_put_of_ne _ _ hne.symm
  | _ => rfl

theorem Change.configs_of_written {state next : State} {entry : Entry} {slot : String}
    {config : Config} (h : Change state entry next) (hw : entry.written? = some (slot, config)) :
    next.configs.get? slot = some config := by
  cases h with
  | keep hk =>
      obtain ⟨rfl, rfl⟩ := Prod.mk.inj (Option.some.inj (hk.symm.trans hw))
      exact Slots.get?_put_self _ _ _
  | edit _ hn | renew hn | restore _ hn | save _ hn | stay hn => exact nomatch hn.symm.trans hw

-- Until a save names it, a slot holds what it held before.
theorem State.saved_run (state : State) {slot : String} {steps : List Step}
    (h : Step.save slot ∉ steps) :
    (state.run steps).1.savedSettings.get? slot = state.savedSettings.get? slot := by
  induction steps generalizing state with
  | nil => rfl
  | cons step steps ih =>
      obtain ⟨hne, hrest⟩ := not_or.mp (mt List.mem_cons.mpr h)
      calc ((state.step step).1.run steps).1.savedSettings.get? slot
          _ = (state.step step).1.savedSettings.get? slot := ih _ hrest
          _ = state.savedSettings.get? slot := state.saved_step (Ne.symm hne)

theorem State.configs_run (state : State) {slot : String} {steps : List Step}
    (h : ∀ entry ∈ state.history steps, entry.writes slot = false) :
    (state.run steps).1.configs.get? slot = state.configs.get? slot := by
  induction steps generalizing state with
  | nil => rfl
  | cons step steps ih =>
      rw [State.history_cons] at h
      obtain ⟨hfirst, hrest⟩ := List.forall_mem_cons.mp h
      calc ((state.step step).1.run steps).1.configs.get? slot
          _ = (state.step step).1.configs.get? slot := ih _ hrest
          _ = state.configs.get? slot := (state.step_change step).configs_of_not_writes hfirst

theorem State.exists_writes_of_ne {state : State} {slot : String} {steps : List Step}
    (h : (state.run steps).1.configs.get? slot ≠ state.configs.get? slot) :
    ∃ entry ∈ state.history steps, entry.writes slot = true := by
  refine Classical.byContradiction fun hnone => h (state.configs_run fun entry hm => ?_)
  exact Bool.eq_false_iff.mpr fun hw => hnone ⟨entry, hm, hw⟩

-- A copy is of the settings at the time of the save, and no later edit reaches it.
theorem State.saved_run_of_save (state : State) {slot : String} {steps : List Step}
    (h : Step.save slot ∉ steps) :
    (state.run (.save slot :: steps)).1.savedSettings.get? slot = some state.settings :=
  calc ((state.step (.save slot)).1.run steps).1.savedSettings.get? slot
    _ = (state.step (.save slot)).1.savedSettings.get? slot := State.saved_run _ h
    _ = some state.settings := Slots.get?_put_self _ _ _

theorem State.configs_run_of_written {state : State} {step : Step} {slot : String}
    {config : Config} {steps : List Step}
    (hw : Entry.written? (step, (state.step step).2) = some (slot, config))
    (h : ∀ entry ∈ (state.step step).1.history steps, entry.writes slot = false) :
    (state.run (step :: steps)).1.configs.get? slot = some config :=
  calc ((state.step step).1.run steps).1.configs.get? slot
    _ = (state.step step).1.configs.get? slot := State.configs_run _ h
    _ = some config := (state.step_change step).configs_of_written hw

-- Deleting a traceless step is seen in its own answer only.
-- What a name holds is what the last write under it has put there.
theorem no_trace_without_write (state : State) (before after : List Step) :
    (∀ step, Traceless (state.run before).1 step →
      (state.run (before ++ step :: after)).1 = (state.run (before ++ after)).1 ∧
      (state.run (before ++ step :: after)).2.eraseIdx before.length =
        (state.run (before ++ after)).2) ∧
    (∀ slot, (state.run (before ++ after)).1.savedSettings.get? slot ≠
        (state.run before).1.savedSettings.get? slot → Step.save slot ∈ after) ∧
    (∀ slot, (state.run (before ++ after)).1.configs.get? slot ≠
        (state.run before).1.configs.get? slot →
      ∃ entry ∈ (state.run before).1.history after, entry.writes slot = true) ∧
    (∀ slot, Step.save slot ∉ after →
      (state.run (before ++ .save slot :: after)).1.savedSettings.get? slot =
        some (state.run before).1.settings) ∧
    (∀ step slot config,
      Entry.written? (step, ((state.run before).1.step step).2) = some (slot, config) →
      (∀ entry ∈ ((state.run before).1.step step).1.history after, entry.writes slot = false) →
      (state.run (before ++ step :: after)).1.configs.get? slot = some config) ∧
    (∀ edits : List Edit,
      (state.run (before ++ edits.map .edit)).1 =
        { (state.run before).1 with
          settings := (state.run before).1.settings.applyAll edits }) := by
  simp only [State.run_append state before]
  refine ⟨fun step h => ?_, fun slot h => ?_, fun slot h => ?_, fun slot h => ?_,
    fun step slot config hw h => ?_, fun edits => ?_⟩
  · have herase := h.run_erase after
    rwa [State.run_append, State.run_append] at herase
  · exact Classical.byContradiction fun hn => h (State.saved_run _ hn)
  · exact State.exists_writes_of_ne h
  · exact State.saved_run_of_save _ h
  · exact State.configs_run_of_written hw h
  · exact State.run_edits _ edits

-- The second build lacks all that a build needs. The draft after it takes the slot of the first.
def builtTwice : List Step := [
  .edit (.rootDir (.ofText "/src")), .edit (.compileCommands (.ofText "/src/cc.json")),
  .edit (.projectName "p"), .edit (.outputDir (.ofText "/out")), .save "first",
  .build (some "config"), .renew]

def draftedOver : List Step := [
  .edit (.projectName "q"), .draft (some "config"), .save "second", .restore "first"]

theorem no_trace_without_write_builtTwice :
    ∃ error,
      ((State.run {} builtTwice).1.step (.build (some "config"))).2 = .failed error ∧
      ((State.run {} (builtTwice ++ .build (some "config") :: draftedOver)).1 =
          (State.run {} (builtTwice ++ draftedOver)).1 ∧
        (State.run {} (builtTwice ++ .build (some "config") :: draftedOver)).2.eraseIdx
            builtTwice.length =
          (State.run {} (builtTwice ++ draftedOver)).2) ∧
      Step.save "second" ∈ draftedOver ∧
      (∃ entry ∈ (State.run {} builtTwice).1.history draftedOver,
        entry.writes "config" = true) ∧
      (State.run {} (builtTwice ++ .save "third" :: draftedOver)).1.savedSettings.get? "third" =
        some (State.run {} builtTwice).1.settings ∧
      (State.run {} (builtTwice ++ .blank (some "other") :: draftedOver)).1.configs.get? "other" =
        some .blank := by
  obtain ⟨herase, hsaved, hconfigs, hcopy, hkept, -⟩ :=
    no_trace_without_write {} builtTwice draftedOver
  obtain ⟨error, hfailed⟩ : ∃ error,
      ((State.run {} builtTwice).1.step (.build (some "config"))).2 = .failed error := ⟨_, rfl⟩
  refine ⟨error, hfailed, herase _ (.failed hfailed), hsaved "second" ?_, hconfigs "config" ?_,
    hcopy "third" ?_, hkept _ "other" .blank rfl ?_⟩
  · decide +kernel
  · decide +kernel
  · simp [draftedOver]
  · decide +kernel

end DocRun.Session
