import DocRun.Config.View

namespace DocRun

theorem Path.isEmpty_iff {path : Path} : path.isEmpty = true ↔ path = .empty := by
  cases path
  simp [Path.isEmpty, Path.empty]

-- The version and the homepage are absent rather than empty.
structure Settings.Tidy (settings : Settings) : Prop where
  version : settings.projectVersion ≠ some ""
  homepage : settings.homepage ≠ some .empty

theorem Settings.tidy_default : Settings.Tidy {} where
  version := nofun
  homepage := nofun

theorem Settings.version_apply {settings : Settings} (h : settings.projectVersion ≠ some "")
    (edit : Edit) : (settings.apply edit).projectVersion ≠ some "" := by
  cases edit with
  | projectVersion value =>
      intro hv
      simp only [Settings.apply] at hv
      split at hv
      case isTrue he => exact Option.some_ne_none _ hv.symm
      case isFalse he => exact he (by rw [Option.some.inj hv]; rfl)
  | _ => exact h

theorem Settings.homepage_apply {settings : Settings} (h : settings.homepage ≠ some .empty)
    (edit : Edit) : (settings.apply edit).homepage ≠ some .empty := by
  cases edit with
  | homepage value =>
      intro hv
      simp only [Settings.apply] at hv
      split at hv
      case isTrue he => exact Option.some_ne_none _ hv.symm
      case isFalse he => exact he (Path.isEmpty_iff.mpr (Option.some.inj hv))
  | _ => exact h

-- No edit leaves an empty version or homepage behind.
theorem Settings.Tidy.apply {settings : Settings} (h : settings.Tidy) (edit : Edit) :
    (settings.apply edit).Tidy where
  version := version_apply h.version edit
  homepage := homepage_apply h.homepage edit

-- What a build has made sure of.
structure Config.Ready (config : Config) : Prop where
  rootDir : config.rootDir ≠ .empty
  compileCommands : config.compileCommands ≠ .empty
  projectName : config.projectName ≠ ""
  outputDir : config.outputDir ≠ .empty ↔ config.canSaveLocally = true
  tier : config.canSaveLocally = true ↔ config.tier = .full

-- Handed out by anyone, a configuration is tidy, and the mark is on it only if it is ready.
structure Config.Sound (config : Config) : Prop where
  tidy : config.Tidy
  ready : config.initialized = true → config.Ready

theorem Tier.canSaveLocally_iff {tier : Tier} : tier.canSaveLocally = true ↔ tier = .full := by
  cases tier <;> decide

theorem Settings.build_eq_ok {settings : Settings} {config : Config}
    (h : settings.build = .ok config) :
    config = { toSettings := settings, initialized := true } ∧ config.Ready := by
  unfold Settings.build at h
  by_cases hroot : settings.rootDir.isEmpty = true
  · rw [if_pos hroot] at h
    exact nomatch h
  rw [if_neg hroot] at h
  by_cases hcommands : settings.compileCommands.isEmpty = true
  · rw [if_pos hcommands] at h
    exact nomatch h
  rw [if_neg hcommands] at h
  by_cases hname : settings.projectName.isEmpty = true
  · rw [if_pos hname] at h
    exact nomatch h
  rw [if_neg hname] at h
  by_cases hneeded : (settings.tier.canSaveLocally && settings.outputDir.isEmpty) = true
  · rw [if_pos hneeded] at h
    exact nomatch h
  rw [if_neg hneeded] at h
  by_cases hunwanted : (!settings.tier.canSaveLocally && !settings.outputDir.isEmpty) = true
  · rw [if_pos hunwanted] at h
    exact nomatch h
  rw [if_neg hunwanted] at h
  obtain rfl := Except.ok.inj h
  refine ⟨rfl, ?_, ?_, ?_, ?_, Tier.canSaveLocally_iff⟩
  · exact fun he => hroot (Path.isEmpty_iff.mpr he)
  · exact fun he => hcommands (Path.isEmpty_iff.mpr he)
  · exact fun he => hname (String.isEmpty_iff.mpr he)
  · rw [Ne, ← Path.isEmpty_iff]
    simp only [Config.canSaveLocally]
    cases hs : settings.tier.canSaveLocally <;> cases ho : settings.outputDir.isEmpty <;>
      simp_all

theorem Settings.Tidy.draft {settings : Settings} (h : settings.Tidy) : settings.draft.Sound where
  tidy := h
  ready := nofun

theorem Config.sound_blank : Config.blank.Sound := Settings.tidy_default.draft

-- A build of tidy settings is sound and carries the mark.
theorem Settings.Tidy.build {settings : Settings} {config : Config} (h : settings.Tidy)
    (hb : settings.build = .ok config) : config.initialized = true ∧ config.Sound := by
  obtain ⟨rfl, hready⟩ := Settings.build_eq_ok hb
  exact ⟨rfl, h, fun _ => hready⟩

end DocRun
