import DocRun.Proofs.Config.Sound
import DocRun.Proofs.Session.Run

namespace DocRun.Session

-- Where a step keeps the configuration that it makes.
def Step.kept? : Step → Option String
  | blank slot | draft slot | build slot => slot
  | _ => none

-- The slot that an entry writes, and what it writes there. A build that fails writes nothing.
def Entry.written? (entry : Entry) : Option (String × Config) :=
  match entry.1.kept?, entry.2 with
  | some slot, .config config => some (slot, config)
  | _, _ => none

def Entry.writes (slot : String) (entry : Entry) : Bool :=
  entry.written?.map Prod.fst = some slot

-- The last entry that wrote a slot.
def lastWrite (slot : String) (history : List Entry) : Option Entry :=
  (history.filter (Entry.writes slot)).getLast?

def Step.builds : Step → Bool
  | build _ => true
  | _ => false

-- Steps that make a configuration, others at most show one.
def Step.makes : Step → Bool
  | blank _ | draft _ | build _ => true
  | _ => false

-- A configuration that is answered is sound.
-- Where the configuration is new, the mark is on it exactly if a build has made it.
def Entry.Sound (entry : Entry) : Prop :=
  ∀ config, entry.2 = .config config →
    config.Sound ∧ (entry.1.makes = true → config.initialized = entry.1.builds)

theorem Step.makes_of_kept {step : Step} {slot : String} (h : step.kept? = some slot) :
    step.makes = true := by
  cases step with
  | blank _ | draft _ | build _ => rfl
  | _ => exact nomatch h

theorem Entry.written?_eq_some_iff {entry : Entry} {slot : String} {config : Config} :
    entry.written? = some (slot, config) ↔
      entry.1.kept? = some slot ∧ entry.2 = .config config := by
  unfold Entry.written?
  constructor
  · intro h
    split at h
    case h_1 hk ha =>
      obtain ⟨rfl, rfl⟩ := Prod.mk.inj (Option.some.inj h)
      exact ⟨hk, ha⟩
    case h_2 => exact nomatch h
  · rintro ⟨hk, ha⟩
    rw [hk, ha]

theorem Entry.written?_of_not_kept (entry : Entry) (h : entry.1.kept? = none) :
    entry.written? = none := by
  rw [Entry.written?, h]

theorem Entry.Sound.written {entry : Entry} {slot : String} {config : Config} (h : entry.Sound)
    (hw : entry.written? = some (slot, config)) :
    config.Sound ∧ config.initialized = entry.1.builds := by
  obtain ⟨hk, ha⟩ := Entry.written?_eq_some_iff.mp hw
  obtain ⟨hs, hm⟩ := h config ha
  exact ⟨hs, hm (Step.makes_of_kept hk)⟩

theorem lastWrite_snoc_of_writes {slot : String} {entry : Entry} (history : List Entry)
    (h : entry.writes slot = true) : lastWrite slot (history ++ [entry]) = some entry := by
  rw [lastWrite, List.filter_append, List.filter_cons_of_pos h, List.filter_nil,
    List.getLast?_concat]

theorem lastWrite_snoc_of_not_writes {slot : String} {entry : Entry} (history : List Entry)
    (h : entry.writes slot = false) :
    lastWrite slot (history ++ [entry]) = lastWrite slot history := by
  rw [lastWrite, List.filter_append, List.filter_cons_of_neg (by rw [h]; exact Bool.false_ne_true),
    List.filter_nil, List.append_nil, lastWrite]

theorem mem_of_lastWrite {slot : String} {history : List Entry} {entry : Entry}
    (h : lastWrite slot history = some entry) : entry ∈ history ∧ entry.writes slot = true :=
  List.mem_filter.mp (List.mem_of_getLast? h)

-- What a step can do to a state. It writes one of its parts, or none.
inductive Change (state : State) (entry : Entry) : State → Prop
  | edit (edit : Edit) (hw : entry.written? = none) :
      Change state entry { state with settings := state.settings.apply edit }
  | renew (hw : entry.written? = none) : Change state entry { state with settings := {} }
  | restore {slot : String} {settings : Settings}
      (hg : state.savedSettings.get? slot = some settings) (hw : entry.written? = none) :
      Change state entry { state with settings := settings }
  | save (slot : String) (hw : entry.written? = none) :
      Change state entry
        { state with savedSettings := state.savedSettings.put slot state.settings }
  | keep {slot : String} {config : Config} (hw : entry.written? = some (slot, config)) :
      Change state entry { state with configs := state.configs.put slot config }
  | stay (hw : entry.written? = none) : Change state entry state

theorem Change.of_keep (state : State) {step : Step} {slot : Option String} {config : Config}
    (h : step.kept? = slot) : Change state (step, .config config) (state.keep slot config) := by
  cases slot with
  | none => exact .stay (Entry.written?_of_not_kept _ h)
  | some name => exact .keep (Entry.written?_eq_some_iff.mpr ⟨h, rfl⟩)

theorem State.step_change (state : State) (step : Step) :
    Change state (step, (state.step step).2) (state.step step).1 := by
  cases step with
  | edit edit => exact .edit edit rfl
  | renew => exact .renew rfl
  | save slot => exact .save slot rfl
  | restore slot =>
      simp only [State.step]
      cases hg : state.savedSettings.get? slot with
      | none => exact .stay rfl
      | some settings => exact .restore hg rfl
  | blank slot => exact .of_keep state rfl
  | draft slot => exact .of_keep state rfl
  | build slot =>
      simp only [State.step]
      cases state.settings.build with
      | error error => exact .stay (by cases slot <;> rfl)
      | ok config => exact .of_keep state rfl
  | query slot query =>
      simp only [State.step]
      cases state.config? slot <;> exact .stay rfl
  | debugSettings => exact .stay rfl
  | same left right =>
      simp only [State.step]
      cases state.config? left <;> cases state.config? right <;> exact .stay rfl

-- What holds of a session after the steps of its history.
structure State.Sound (history : List Entry) (state : State) : Prop where
  settings : state.settings.Tidy
  saved : ∀ slot settings, state.savedSettings.get? slot = some settings → settings.Tidy
  configs : ∀ slot, state.configs.get? slot =
    (lastWrite slot history).bind fun entry => entry.written?.map Prod.snd
  entries : ∀ entry ∈ history, entry.Sound

theorem State.sound_empty : State.Sound [] {} where
  settings := Settings.tidy_default
  saved := by
    intro slot settings h
    exact absurd h (Option.some_ne_none _).symm
  configs := fun _ => rfl
  entries := by
    intro entry h
    exact absurd h List.not_mem_nil

section

variable {history : List Entry} {state : State}

-- A configuration in a slot is the one that the last write has put there.
theorem State.Sound.exists_write (h : state.Sound history) {slot : String} {config : Config}
    (hc : state.configs.get? slot = some config) :
    ∃ entry, lastWrite slot history = some entry ∧ entry ∈ history ∧
      entry.written? = some (slot, config) := by
  rw [h.configs slot, Option.bind_eq_some_iff] at hc
  obtain ⟨entry, hl, hsnd⟩ := hc
  obtain ⟨⟨other, held⟩, hw, rfl⟩ := Option.map_eq_some_iff.mp hsnd
  obtain ⟨hm, hs⟩ := mem_of_lastWrite hl
  simp only [Entry.writes, hw, Option.map_some, decide_eq_true_eq, Option.some.injEq] at hs
  subst hs
  exact ⟨entry, hl, hm, hw⟩

theorem State.Sound.get?_eq_none_iff (h : state.Sound history) (slot : String) :
    state.configs.get? slot = none ↔ lastWrite slot history = none := by
  rw [h.configs slot, Option.bind_eq_none_iff]
  constructor
  · intro hn
    cases hl : lastWrite slot history with
    | none => rfl
    | some entry =>
        have hw := Option.map_eq_none_iff.mp (hn entry hl)
        have hs := (mem_of_lastWrite hl).2
        simp [Entry.writes, hw] at hs
  · intro hl entry he
    rw [hl] at he
    exact nomatch he

-- What a slot holds is sound, and marked exactly if the last write was a build.
theorem State.Sound.marked (h : state.Sound history) {slot : String} {config : Config}
    (hc : state.configs.get? slot = some config) :
    config.Sound ∧ (config.initialized = true ↔
      ∃ keep, lastWrite slot history = some (.build keep, .config config)) := by
  obtain ⟨⟨step, answer⟩, hl, hm, hw⟩ := h.exists_write hc
  obtain ⟨hs, hi⟩ := (h.entries _ hm).written hw
  obtain ⟨-, rfl⟩ := Entry.written?_eq_some_iff.mp hw
  refine ⟨hs, ?_⟩
  rw [hi, hl]
  constructor
  · intro hb
    cases step with
    | build keep => exact ⟨keep, rfl⟩
    | _ => exact nomatch hb
  · rintro ⟨keep, he⟩
    obtain ⟨rfl, -⟩ := Prod.mk.inj (Option.some.inj he)
    rfl

theorem State.Sound.config (h : state.Sound history) {slot : Option String} {config : Config}
    (hc : state.config? slot = .ok config) : config.Sound := by
  cases slot with
  | none =>
      obtain rfl := Except.ok.inj hc
      exact h.settings.draft
  | some slot =>
      simp only [State.config?] at hc
      split at hc
      case h_1 held hg =>
        obtain rfl := Except.ok.inj hc
        obtain ⟨entry, _, hm, hw⟩ := h.exists_write hg
        exact ((h.entries entry hm).written hw).1
      case h_2 => exact nomatch hc

theorem State.Sound.saved_put (h : state.Sound history) (name slot : String) (settings : Settings)
    (hg : (state.savedSettings.put name state.settings).get? slot = some settings) :
    settings.Tidy := by
  by_cases hn : slot = name
  · subst hn
    rw [Slots.get?_put_self] at hg
    obtain rfl := Option.some.inj hg
    exact h.settings
  · rw [Slots.get?_put_of_ne _ _ hn] at hg
    exact h.saved slot settings hg

theorem State.Sound.configs_of_not_written (h : state.Sound history) {entry : Entry}
    (hw : entry.written? = none) (slot : String) :
    state.configs.get? slot =
      (lastWrite slot (history ++ [entry])).bind fun entry => entry.written?.map Prod.snd := by
  rw [lastWrite_snoc_of_not_writes history (by rw [Entry.writes, hw]; rfl)]
  exact h.configs slot

theorem State.Sound.configs_put (h : state.Sound history) {entry : Entry} {name : String}
    {config : Config} (hw : entry.written? = some (name, config)) (slot : String) :
    (state.configs.put name config).get? slot =
      (lastWrite slot (history ++ [entry])).bind fun entry => entry.written?.map Prod.snd := by
  by_cases hn : slot = name
  · subst hn
    rw [lastWrite_snoc_of_writes history (by simp [Entry.writes, hw])]
    simp only [Slots.get?_put_self, Option.bind_some, hw, Option.map_some]
  · rw [lastWrite_snoc_of_not_writes history (by simpa [Entry.writes, hw] using Ne.symm hn),
      Slots.get?_put_of_ne _ _ hn]
    exact h.configs slot

theorem State.Sound.entries_snoc (h : state.Sound history) {entry : Entry} (he : entry.Sound) :
    ∀ other ∈ history ++ [entry], other.Sound := by
  intro other hm
  rcases List.mem_append.mp hm with hm | hm
  · exact h.entries other hm
  · obtain rfl := List.mem_singleton.mp hm
    exact he

theorem State.Sound.entry (h : state.Sound history) (step : Step) :
    Entry.Sound (step, (state.step step).2) := by
  intro config ha
  cases step with
  | blank slot =>
      obtain rfl := Answer.config.inj ha
      exact ⟨Config.sound_blank, fun _ => rfl⟩
  | draft slot =>
      obtain rfl := Answer.config.inj ha
      exact ⟨h.settings.draft, fun _ => rfl⟩
  | build slot =>
      simp only [State.step] at ha
      split at ha
      case h_1 built hb =>
        obtain rfl := Answer.config.inj ha
        obtain ⟨hi, hs⟩ := h.settings.build hb
        exact ⟨hs, fun _ => hi⟩
      case h_2 => exact nomatch ha
  | query slot query =>
      simp only [State.step] at ha
      split at ha
      case h_1 asked hc =>
        refine ⟨?_, nofun⟩
        cases query with
        | read =>
            obtain rfl := Answer.config.inj ha
            exact h.config hc
        | availableWorkers =>
            simp only [Query.answer] at ha
            split at ha <;> exact nomatch ha
        | _ => exact nomatch ha
      case h_2 => exact nomatch ha
  | restore slot =>
      simp only [State.step] at ha
      split at ha <;> exact nomatch ha
  | same left right =>
      simp only [State.step] at ha
      split at ha <;> exact nomatch ha
  | _ => exact nomatch ha

theorem State.Sound.change {next : State} {entry : Entry} (h : state.Sound history)
    (he : entry.Sound) (hc : Change state entry next) : next.Sound (history ++ [entry]) := by
  have hentries := h.entries_snoc he
  cases hc with
  | edit edit hw =>
      exact ⟨h.settings.apply edit, h.saved, h.configs_of_not_written hw, hentries⟩
  | renew hw => exact ⟨Settings.tidy_default, h.saved, h.configs_of_not_written hw, hentries⟩
  | restore hg hw =>
      exact ⟨h.saved _ _ hg, h.saved, h.configs_of_not_written hw, hentries⟩
  | save slot hw =>
      exact ⟨h.settings, h.saved_put slot, h.configs_of_not_written hw, hentries⟩
  | keep hw => exact ⟨h.settings, h.saved, h.configs_put hw, hentries⟩
  | stay hw => exact ⟨h.settings, h.saved, h.configs_of_not_written hw, hentries⟩

theorem State.Sound.step (h : state.Sound history) (step : Step) :
    (state.step step).1.Sound (history ++ [(step, (state.step step).2)]) :=
  h.change (h.entry step) (state.step_change step)

theorem State.Sound.run (h : state.Sound history) (steps : List Step) :
    (state.run steps).1.Sound (history ++ state.history steps) := by
  induction steps generalizing state history with
  | nil => rwa [show history ++ state.history [] = history from List.append_nil _]
  | cons step steps ih =>
      rw [State.history_cons, List.append_cons]
      exact ih (h.step step)

end

end DocRun.Session
