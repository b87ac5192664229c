import DocRun.Config.View
import DocRun.Proofs.Settings.Replay

namespace DocRun

-- The two stages of a run. Each has its own view of a configuration.
inductive Stage where
  | indexing
  | rendering
  deriving DecidableEq

-- The stage that a field is meant for.
def Field.stage : Field → Stage
  | useSystemIncludes | numThreads | rootDir | compileCommands | includePaths | ignorePaths
  | ignoreNames | ignorePrivateMembers | fileLimit | dumpPayload => .indexing
  | tier | outputDir | projectName | projectVersion | timestamp | toolVersion | gitRepoUrl
  | gitDefaultBranch | homepage | markdownPaths | hideToolMenu => .rendering

-- Settings that agree on every field of a stage.
def Settings.AgreeOn (stage : Stage) (s t : Settings) : Prop :=
  ∀ field : Field, field.stage = stage → s.value field = t.value field

-- Configurations that a stage cannot tell apart, whatever number of threads is available.
def Config.SeenAlike (c d : Config) : Stage → Prop
  | .indexing => ∀ available : Count, c.indexing available = d.indexing available
  | .rendering => c.rendering = d.rendering

structure Config.DifferOnlyAt (field : Field) (c d : Config) : Prop where
  differ : c.value field ≠ d.value field
  agree : ∀ other : Field, other ≠ field → c.value other = d.value other

-- Read back with zero for an absent number, a count is the number that it was made from.
theorem Count.elim_ofNat? (n : Nat) : (Count.ofNat? n).elim 0 Subtype.val = n := by
  unfold Count.ofNat?
  split
  case isTrue => rfl
  case isFalse h => exact (Nat.eq_zero_of_not_pos h).symm

theorem Count.ofNat?_injective : Function.Injective Count.ofNat? := by
  have hleft : Function.LeftInverse (fun count => count.elim 0 Subtype.val) Count.ofNat? :=
    Count.elim_ofNat?
  exact hleft.injective

namespace Config

variable {c d : Config} {a b : Count}

-- At a single number of available threads, asking for just as many looks like not asking at all.
theorem ownThreads_of_workerThreads (hne : a ≠ b) (ha : c.workerThreads a = d.workerThreads a)
    (hb : c.workerThreads b = d.workerThreads b) : c.ownThreads = d.ownThreads := by
  unfold Config.workerThreads at ha hb
  cases hc : c.ownThreads with
  | none =>
      cases hd : d.ownThreads with
      | none => rfl
      | some count =>
          rw [hc, hd] at ha hb
          exact absurd (ha.trans hb.symm) hne
  | some count =>
      cases hd : d.ownThreads with
      | none =>
          rw [hc, hd] at ha hb
          exact absurd (ha.symm.trans hb) hne
      | some other =>
          rw [hc, hd] at ha
          exact congrArg some ha

theorem numThreads_of_ownThreads (h : c.ownThreads = d.ownThreads) :
    c.numThreads = d.numThreads :=
  UInt32.toNat_inj.mp (Count.ofNat?_injective h)

theorem fileLimit_of_indexedFileLimit (h : c.indexedFileLimit = d.indexedFileLimit) :
    c.fileLimit = d.fileLimit :=
  UInt32.toNat_inj.mp (Count.ofNat?_injective h)

theorem agreeOn_of_indexing (hne : a ≠ b) (ha : c.indexing a = d.indexing a)
    (hb : c.indexing b = d.indexing b) : c.AgreeOn .indexing d.toSettings := by
  have hthreads : c.ownThreads = d.ownThreads :=
    ownThreads_of_workerThreads hne (congrArg IndexingView.workerThreads ha)
      (congrArg IndexingView.workerThreads hb)
  have hlimit : c.indexedFileLimit = d.indexedFileLimit :=
    congrArg IndexingView.indexedFileLimit ha
  intro field hstage
  cases field with
  | useSystemIncludes => exact congrArg (FieldValue.flag ∘ IndexingView.useSystemIncludes) ha
  | numThreads => exact congrArg FieldValue.number (numThreads_of_ownThreads hthreads)
  | rootDir => exact congrArg (FieldValue.path ∘ IndexingView.rootDir) ha
  | compileCommands => exact congrArg (FieldValue.path ∘ IndexingView.compileCommands) ha
  | includePaths => exact congrArg (FieldValue.texts ∘ IndexingView.includePaths) ha
  | ignorePaths => exact congrArg (FieldValue.texts ∘ IndexingView.ignorePaths) ha
  | ignoreNames => exact congrArg (FieldValue.texts ∘ IndexingView.ignoreNames) ha
  | ignorePrivateMembers =>
      exact congrArg (FieldValue.flag ∘ IndexingView.ignorePrivateMembers) ha
  | fileLimit => exact congrArg FieldValue.number (fileLimit_of_indexedFileLimit hlimit)
  | dumpPayload => exact congrArg (FieldValue.flag ∘ IndexingView.dumpPayload) ha
  | _ => exact nomatch hstage

theorem agreeOn_of_rendering (h : c.rendering = d.rendering) :
    c.AgreeOn .rendering d.toSettings := by
  intro field hstage
  cases field with
  | tier => exact congrArg (FieldValue.tier ∘ RenderingView.tier) h
  | outputDir => exact congrArg (FieldValue.path ∘ RenderingView.outputDir) h
  | projectName => exact congrArg (FieldValue.text ∘ RenderingView.projectName) h
  | projectVersion => exact congrArg (FieldValue.textOrNone ∘ RenderingView.projectVersion) h
  | timestamp => exact congrArg (FieldValue.text ∘ RenderingView.timestamp) h
  | toolVersion => exact congrArg (FieldValue.text ∘ RenderingView.toolVersion) h
  | gitRepoUrl => exact congrArg (FieldValue.text ∘ RenderingView.gitRepoUrl) h
  | gitDefaultBranch => exact congrArg (FieldValue.text ∘ RenderingView.gitDefaultBranch) h
  | homepage => exact congrArg (FieldValue.pathOrNone ∘ RenderingView.homepage) h
  | markdownPaths => exact congrArg (FieldValue.paths ∘ RenderingView.markdownPaths) h
  | hideToolMenu => exact congrArg (FieldValue.flag ∘ RenderingView.hideToolMenu) h
  | _ => exact nomatch hstage

-- What a view computes, it computes from the fields of its stage.
theorem indexing_of_agreeOn (h : c.AgreeOn .indexing d.toSettings) (available : Count) :
    c.indexing available = d.indexing available := by
  have hincludes : c.useSystemIncludes = d.useSystemIncludes :=
    FieldValue.flag.inj (h .useSystemIncludes rfl)
  have hthreads : c.numThreads = d.numThreads := FieldValue.number.inj (h .numThreads rfl)
  have hroot : c.rootDir = d.rootDir := FieldValue.path.inj (h .rootDir rfl)
  have hcommands : c.compileCommands = d.compileCommands :=
    FieldValue.path.inj (h .compileCommands rfl)
  have hincluded : c.includePaths = d.includePaths := FieldValue.texts.inj (h .includePaths rfl)
  have hpaths : c.ignorePaths = d.ignorePaths := FieldValue.texts.inj (h .ignorePaths rfl)
  have hnames : c.ignoreNames = d.ignoreNames := FieldValue.texts.inj (h .ignoreNames rfl)
  have hprivate : c.ignorePrivateMembers = d.ignorePrivateMembers :=
    FieldValue.flag.inj (h .ignorePrivateMembers rfl)
  have hlimit : c.fileLimit = d.fileLimit := FieldValue.number.inj (h .fileLimit rfl)
  have hdump : c.dumpPayload = d.dumpPayload := FieldValue.flag.inj (h .dumpPayload rfl)
  simp only [Config.indexing, Config.workerThreads, Config.ownThreads, Config.indexedFileLimit,
    hincludes, hthreads, hroot, hcommands, hincluded, hpaths, hnames, hprivate, hlimit, hdump]

theorem rendering_of_agreeOn (h : c.AgreeOn .rendering d.toSettings) :
    c.rendering = d.rendering := by
  have htier : c.tier = d.tier := FieldValue.tier.inj (h .tier rfl)
  have houtput : c.outputDir = d.outputDir := FieldValue.path.inj (h .outputDir rfl)
  have hname : c.projectName = d.projectName := FieldValue.text.inj (h .projectName rfl)
  have hversion : c.projectVersion = d.projectVersion :=
    FieldValue.textOrNone.inj (h .projectVersion rfl)
  have htime : c.timestamp = d.timestamp := FieldValue.text.inj (h .timestamp rfl)
  have htool : c.toolVersion = d.toolVersion := FieldValue.text.inj (h .toolVersion rfl)
  have hurl : c.gitRepoUrl = d.gitRepoUrl := FieldValue.text.inj (h .gitRepoUrl rfl)
  have hbranch : c.gitDefaultBranch = d.gitDefaultBranch :=
    FieldValue.text.inj (h .gitDefaultBranch rfl)
  have hpage : c.homepage = d.homepage := FieldValue.pathOrNone.inj (h .homepage rfl)
  have hmarkdown : c.markdownPaths = d.markdownPaths :=
    FieldValue.paths.inj (h .markdownPaths rfl)
  have hmenu : c.hideToolMenu = d.hideToolMenu := FieldValue.flag.inj (h .hideToolMenu rfl)
  simp only [Config.rendering, Config.pageTitleSuffix, htier, houtput, hname, hversion, htime,
    htool, hurl, hbranch, hpage, hmarkdown, hmenu]

-- A stage sees its own fields, all of them, and nothing else.
theorem seenAlike_iff {stage : Stage} :
    c.SeenAlike d stage ↔ c.AgreeOn stage d.toSettings := by
  cases stage with
  | indexing =>
      constructor
      · intro h
        have hne : (⟨1, Nat.one_pos⟩ : Count) ≠ ⟨2, Nat.two_pos⟩ := by decide
        exact agreeOn_of_indexing hne (h _) (h _)
      · exact indexing_of_agreeOn
  | rendering => exact ⟨agreeOn_of_rendering, rendering_of_agreeOn⟩

end Config

-- Every field is meant for one of the two stages.
theorem Settings.eq_of_agreeOn {s t : Settings} (hi : s.AgreeOn .indexing t)
    (hr : s.AgreeOn .rendering t) : s = t := by
  apply Settings.ext_value
  intro field
  cases hstage : field.stage with
  | indexing => exact hi field hstage
  | rendering => exact hr field hstage

theorem Settings.agreeOn_apply {edit : Edit} {stage : Stage} (h : edit.field.stage ≠ stage)
    (settings : Settings) : (settings.apply edit).AgreeOn stage settings := by
  intro field hstage
  apply Settings.value_apply_of_ne
  rintro rfl
  exact h hstage

-- A difference in one field shows to the stage of the field and to no other.
theorem Config.DifferOnlyAt.seenAlike_iff {field : Field} {c d : Config}
    (h : DifferOnlyAt field c d) (stage : Stage) : c.SeenAlike d stage ↔ field.stage ≠ stage := by
  rw [Config.seenAlike_iff]
  constructor
  · intro hagree hstage
    exact h.differ (hagree field hstage)
  · intro hne other hstage
    apply h.agree
    rintro rfl
    exact hne hstage

-- An edit that makes a difference makes it in one field.
theorem Config.differOnlyAt_apply (config : Config) (edit : Edit)
    (h : config.value edit.field ≠ (config.apply edit).value edit.field) :
    DifferOnlyAt edit.field config (config.apply edit).draft where
  differ := h
  agree _ ho := (Settings.value_apply_of_ne config.toSettings (Ne.symm ho)).symm

-- The views of the two stages hold everything that can be set, and nothing twice. Only whether
-- threads were asked for takes a second look with another number of threads available.
theorem Config.views_partition :
    (∀ (c d : Config) (a b : Count), a ≠ b → c.rendering = d.rendering →
      c.indexing a = d.indexing a → c.indexing b = d.indexing b →
      c.toSettings = d.toSettings) ∧
    (∀ (settings : Settings) (edit : Edit),
      (∀ available : Count, (settings.apply edit).draft.indexing available =
        settings.draft.indexing available) ∨
      (settings.apply edit).draft.rendering = settings.draft.rendering) ∧
    ∀ (field : Field) (c d : Config), DifferOnlyAt field c d →
      ∀ stage : Stage, c.SeenAlike d stage ↔ field.stage ≠ stage := by
  refine ⟨?_, ?_, ?_⟩
  · intro c d a b hne hr ha hb
    exact Settings.eq_of_agreeOn (agreeOn_of_indexing hne ha hb) (agreeOn_of_rendering hr)
  · intro settings edit
    cases hstage : edit.field.stage with
    | indexing =>
        have hne : edit.field.stage ≠ .rendering := by rw [hstage]; decide
        exact .inr (rendering_of_agreeOn (Settings.agreeOn_apply hne settings))
    | rendering =>
        have hne : edit.field.stage ≠ .indexing := by rw [hstage]; decide
        exact .inl (indexing_of_agreeOn (Settings.agreeOn_apply hne settings))
  · intro field c d h stage
    exact h.seenAlike_iff stage

-- Settings made in one go, and the same settings built after a detour. Four threads were asked
-- for on the way and are asked for again at the end.
def Config.direct : Config := Settings.draft {
  rootDir := .ofText "/r", compileCommands := .ofText "/r/cc.json", outputDir := .ofText "/out"
  projectName := "p", includePaths := ["a", "b"] }

def Config.detoured : Config where
  toSettings := Settings.applyAll {} [
    .numThreads 4, .outputDir (.ofText "/out"), .includePaths ["a"], .projectVersion "1",
    .rootDir (.ofText "/r"), .compileCommands (.ofText "/r/cc.json"), .projectName "p",
    .addIncludePath "b", .projectVersion "", .numThreads 0]
  initialized := true

def Config.asking : Config := (Config.detoured.apply (.numThreads 4)).draft

def Count.four : Count := ⟨4, by decide⟩

def Count.eight : Count := ⟨8, by decide⟩

theorem Config.views_partition_detoured :
    direct ≠ detoured ∧ direct.rendering = detoured.rendering ∧
    direct.indexing .four = detoured.indexing .four ∧
    direct.indexing .eight = detoured.indexing .eight ∧
    direct.toSettings = detoured.toSettings ∧
    DifferOnlyAt .numThreads detoured asking ∧
    detoured.indexing .four = asking.indexing .four ∧
    ¬detoured.SeenAlike asking .indexing ∧ detoured.SeenAlike asking .rendering := by
  have hne : Count.four ≠ Count.eight := by decide
  have hr : direct.rendering = detoured.rendering := by decide +kernel
  have hfour : direct.indexing .four = detoured.indexing .four := by decide +kernel
  have height : direct.indexing .eight = detoured.indexing .eight := by decide +kernel
  have hthreads : detoured.value .numThreads ≠ asking.value .numThreads := by decide +kernel
  have honly : DifferOnlyAt .numThreads detoured asking :=
    detoured.differOnlyAt_apply (.numThreads 4) hthreads
  obtain ⟨hlossless, -, hdisjoint⟩ := Config.views_partition
  have hseen := hdisjoint .numThreads detoured asking honly
  exact ⟨by decide +kernel, hr, hfour, height, hlossless _ _ _ _ hne hr hfour height, honly,
    by decide +kernel, fun h => (hseen .indexing).mp h rfl, (hseen .rendering).mpr nofun⟩

end DocRun
