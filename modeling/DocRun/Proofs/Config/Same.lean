import DocRun.Proofs.Load.Levels
import DocRun.Proofs.Settings.Field
import DocRun.Proofs.Settings.Same
import DocRun.Config.Dump
import DocRun.Config.View

namespace DocRun

theorem FieldValue.Same.of_eq {v w : FieldValue} (h : v = w) : v.Same w := h ▸ .refl v

-- Where there is no path, being the same means being equal.
theorem FieldValue.Same.eq {v w : FieldValue} (h : v.Same w) (hp : v.allPaths = []) : v = w := by
  cases h with
  | refl => rfl
  | path h => exact absurd hp (List.cons_ne_nil _ _)
  | pathOrNone h => exact absurd hp (List.cons_ne_nil _ _)
  | paths h =>
      obtain rfl := hp
      rw [List.forall₂_nil_left_iff.mp h]

theorem FieldValue.Same.of_path {p q : Path} (h : (FieldValue.path p).Same (.path q)) :
    p.same q = true :=
  FieldValue.same_iff.mpr h

theorem FieldValue.Same.of_paths {ps qs : List Path}
    (h : (FieldValue.paths ps).Same (.paths qs)) :
    List.Forall₂ (fun p q : Path => p.same q = true) ps qs :=
  Path.sameAll_iff.mp (FieldValue.same_iff.mpr h)

theorem FieldValue.Same.of_pathOrNone {p q : Option Path}
    (h : (FieldValue.pathOrNone p).Same (.pathOrNone q)) : Option.Rel Path.Respelled p q := by
  cases h with
  | refl =>
      cases p with
      | none => exact .none
      | some p => exact .some (Path.same_iff_respelled.mp p.same_refl)
  | pathOrNone h => exact .some (Path.same_iff_respelled.mp h)

theorem FieldValue.Same.pathOrNone_of_rel {p q : Option Path} (h : Option.Rel Path.Respelled p q) :
    (FieldValue.pathOrNone p).Same (.pathOrNone q) := by
  cases h with
  | some h => exact .pathOrNone (Path.same_iff_respelled.mpr h)
  | none => exact .refl _

-- Settings that differ in the spelling of paths at most.
structure Settings.Respelled (s t : Settings) : Prop where
  useSystemIncludes : s.useSystemIncludes = t.useSystemIncludes
  numThreads : s.numThreads = t.numThreads
  tier : s.tier = t.tier
  rootDir : s.rootDir.Respelled t.rootDir
  compileCommands : s.compileCommands.Respelled t.compileCommands
  outputDir : s.outputDir.Respelled t.outputDir
  projectName : s.projectName = t.projectName
  projectVersion : s.projectVersion = t.projectVersion
  timestamp : s.timestamp = t.timestamp
  toolVersion : s.toolVersion = t.toolVersion
  gitRepoUrl : s.gitRepoUrl = t.gitRepoUrl
  gitDefaultBranch : s.gitDefaultBranch = t.gitDefaultBranch
  includePaths : s.includePaths = t.includePaths
  ignorePaths : s.ignorePaths = t.ignorePaths
  ignoreNames : s.ignoreNames = t.ignoreNames
  ignorePrivateMembers : s.ignorePrivateMembers = t.ignorePrivateMembers
  homepage : Option.Rel Path.Respelled s.homepage t.homepage
  markdownPaths : List.Forall₂ Path.Respelled s.markdownPaths t.markdownPaths
  hideToolMenu : s.hideToolMenu = t.hideToolMenu
  fileLimit : s.fileLimit = t.fileLimit
  dumpPayload : s.dumpPayload = t.dumpPayload

structure Config.Respelled (c d : Config) : Prop
    extends Settings.Respelled c.toSettings d.toSettings where
  initialized : c.initialized = d.initialized

section

variable {s t : Settings}

theorem Settings.Same.respelled (h : s.Same t) : s.Respelled t where
  useSystemIncludes := FieldValue.flag.inj ((h .useSystemIncludes).eq rfl)
  numThreads := FieldValue.number.inj ((h .numThreads).eq rfl)
  tier := FieldValue.tier.inj ((h .tier).eq rfl)
  rootDir := Path.same_iff_respelled.mp (h .rootDir).of_path
  compileCommands := Path.same_iff_respelled.mp (h .compileCommands).of_path
  outputDir := Path.same_iff_respelled.mp (h .outputDir).of_path
  projectName := FieldValue.text.inj ((h .projectName).eq rfl)
  projectVersion := FieldValue.textOrNone.inj ((h .projectVersion).eq rfl)
  timestamp := FieldValue.text.inj ((h .timestamp).eq rfl)
  toolVersion := FieldValue.text.inj ((h .toolVersion).eq rfl)
  gitRepoUrl := FieldValue.text.inj ((h .gitRepoUrl).eq rfl)
  gitDefaultBranch := FieldValue.text.inj ((h .gitDefaultBranch).eq rfl)
  includePaths := FieldValue.texts.inj ((h .includePaths).eq rfl)
  ignorePaths := FieldValue.texts.inj ((h .ignorePaths).eq rfl)
  ignoreNames := FieldValue.texts.inj ((h .ignoreNames).eq rfl)
  ignorePrivateMembers := FieldValue.flag.inj ((h .ignorePrivateMembers).eq rfl)
  homepage := (h .homepage).of_pathOrNone
  markdownPaths := (h .markdownPaths).of_paths.imp fun _ _ => Path.same_iff_respelled.mp
  hideToolMenu := FieldValue.flag.inj ((h .hideToolMenu).eq rfl)
  fileLimit := FieldValue.number.inj ((h .fileLimit).eq rfl)
  dumpPayload := FieldValue.flag.inj ((h .dumpPayload).eq rfl)

theorem Settings.Respelled.same (h : s.Respelled t) : s.Same t := by
  intro field
  cases field with
  | useSystemIncludes => exact .of_eq (congrArg FieldValue.flag h.useSystemIncludes)
  | numThreads => exact .of_eq (congrArg FieldValue.number h.numThreads)
  | tier => exact .of_eq (congrArg FieldValue.tier h.tier)
  | rootDir => exact .path (Path.same_iff_respelled.mpr h.rootDir)
  | compileCommands => exact .path (Path.same_iff_respelled.mpr h.compileCommands)
  | outputDir => exact .path (Path.same_iff_respelled.mpr h.outputDir)
  | projectName => exact .of_eq (congrArg FieldValue.text h.projectName)
  | projectVersion => exact .of_eq (congrArg FieldValue.textOrNone h.projectVersion)
  | timestamp => exact .of_eq (congrArg FieldValue.text h.timestamp)
  | toolVersion => exact .of_eq (congrArg FieldValue.text h.toolVersion)
  | gitRepoUrl => exact .of_eq (congrArg FieldValue.text h.gitRepoUrl)
  | gitDefaultBranch => exact .of_eq (congrArg FieldValue.text h.gitDefaultBranch)
  | includePaths => exact .of_eq (congrArg FieldValue.texts h.includePaths)
  | ignorePaths => exact .of_eq (congrArg FieldValue.texts h.ignorePaths)
  | ignoreNames => exact .of_eq (congrArg FieldValue.texts h.ignoreNames)
  | ignorePrivateMembers => exact .of_eq (congrArg FieldValue.flag h.ignorePrivateMembers)
  | homepage => exact .pathOrNone_of_rel h.homepage
  | markdownPaths => exact .paths (h.markdownPaths.imp fun _ _ => Path.same_iff_respelled.mpr)
  | hideToolMenu => exact .of_eq (congrArg FieldValue.flag h.hideToolMenu)
  | fileLimit => exact .of_eq (congrArg FieldValue.number h.fileLimit)
  | dumpPayload => exact .of_eq (congrArg FieldValue.flag h.dumpPayload)

end

-- Paths are equal exactly if one is a respelling of the other, and configurations are equal
-- exactly if they differ in nothing but the spelling of their paths.
theorem Config.same_up_to_spelling :
    (∀ p q : Path, p.same q = true ↔ Relation.EqvGen Path.Shortens p.bytes q.bytes) ∧
    ∀ c d : Config, c.same d = true ↔ c.Respelled d := by
  refine ⟨fun p q => Path.same_iff_respelled, fun c d => ?_⟩
  rw [Config.same_iff]
  constructor
  · rintro ⟨hi, hs⟩
    exact ⟨hs.respelled, hi⟩
  · intro h
    exact ⟨h.initialized, h.toRespelled.same⟩

theorem Path.isEmpty_eq_of_same {p q : Path} (h : p.same q = true) : p.isEmpty = q.isEmpty := by
  rw [Bool.eq_iff_iff, Path.isEmpty_iff, Path.isEmpty_iff]
  exact Path.eq_empty_iff_of_same h

section

variable {s t : Settings}

-- A build looks at paths only to see whether they are empty.
theorem Settings.Same.build (h : s.Same t) :
    (∃ error, s.build = .error error ∧ t.build = .error error) ∨
      s.build = .ok ⟨s, true⟩ ∧ t.build = .ok ⟨t, true⟩ := by
  have hroot : s.rootDir.isEmpty = t.rootDir.isEmpty :=
    Path.isEmpty_eq_of_same (h .rootDir).of_path
  have hcommands : s.compileCommands.isEmpty = t.compileCommands.isEmpty :=
    Path.isEmpty_eq_of_same (h .compileCommands).of_path
  have houtput : s.outputDir.isEmpty = t.outputDir.isEmpty :=
    Path.isEmpty_eq_of_same (h .outputDir).of_path
  unfold Settings.build
  rw [hroot, hcommands, houtput, h.respelled.projectName, h.respelled.tier]
  split
  · exact .inl ⟨_, rfl, rfl⟩
  split
  · exact .inl ⟨_, rfl, rfl⟩
  split
  · exact .inl ⟨_, rfl, rfl⟩
  split
  · exact .inl ⟨_, rfl, rfl⟩
  split
  · exact .inl ⟨_, rfl, rfl⟩
  · exact .inr ⟨rfl, rfl⟩

-- The events of a build hold no paths, only how many there are.
theorem Settings.Same.pair (h : s.Same t) : Load.pair ⟨s, true⟩ = Load.pair ⟨t, true⟩ := by
  have hr := h.respelled
  simp only [Load.pair, hr.projectName, hr.tier, hr.numThreads, hr.includePaths, hr.ignorePaths,
    hr.ignoreNames, hr.markdownPaths.length_eq]

theorem Settings.Same.log_build (h : s.Same t) (log : Load.Log) :
    (Load.build log s).log = (Load.build log t).log := by
  rw [Load.log_build, Load.log_build]
  obtain ⟨error, hs, ht⟩ | ⟨hs, ht⟩ := h.build
  · rw [hs, ht]
  · rw [hs, ht]
    exact congrArg (List.filter log.writes) h.pair

theorem Settings.Same.initialized (h : s.Same t) :
    Config.same ⟨s, true⟩ ⟨t, true⟩ = true :=
  Config.same_iff.mpr ⟨rfl, h⟩

end

theorem Config.views_of_same {c d : Config} (h : c.toSettings.Same d.toSettings) :
    c.pageTitleSuffix = d.pageTitleSuffix ∧
    (∀ available : Count, c.workerThreads available = d.workerThreads available) ∧
    c.indexedFileLimit = d.indexedFileLimit ∧ c.canSaveLocally = d.canSaveLocally := by
  have hr := h.respelled
  refine ⟨?_, fun available => ?_, ?_, ?_⟩
  · simp only [Config.pageTitleSuffix, hr.projectVersion, hr.projectName]
  · simp only [Config.workerThreads, Config.ownThreads, hr.numThreads]
  · simp only [Config.indexedFileLimit, hr.fileLimit]
  · simp only [Config.canSaveLocally, hr.tier]

-- One directory in two spellings. A dump shows the spelling.
def Config.bare : Config := Settings.draft { rootDir := .ofText "src" }

def Config.slashed : Config := Settings.draft { rootDir := .ofText "src/" }

theorem Config.dumps_differ :
    Config.bare.same Config.slashed = true ∧ ∃ dump other, Config.bare.dump = .ok dump ∧
      Config.slashed.dump = .ok other ∧ dump ≠ other := by
  have hbare : Config.bare.dump.isOk = true := by decide +kernel
  have hslashed : Config.slashed.dump.isOk = true := by decide +kernel
  have hne : Config.bare.dump ≠ Config.slashed.dump := by decide +kernel
  refine ⟨by decide +kernel, ?_⟩
  cases hb : Config.bare.dump with
  | error error =>
      rw [hb] at hbare
      exact nomatch hbare
  | ok dump =>
      cases hs : Config.slashed.dump with
      | error error =>
          rw [hs] at hslashed
          exact nomatch hslashed
      | ok other =>
          rw [hb, hs] at hne
          exact ⟨dump, other, rfl, rfl, fun he => hne (congrArg _ he)⟩

-- Equal drafts stay equal under equal setter calls, and builds of them fail alike or give equal
-- configurations with the same events. What is read off equal configurations is the same, except
-- for their dumps.
theorem Settings.equality_respected :
    (∀ (s t : Settings) (edits others : List Edit), s.draft.same t.draft = true →
      List.Forall₂ Edit.Same edits others →
      (s.applyAll edits).draft.same (t.applyAll others).draft = true ∧
      ∀ log : Load.Log,
        ((∃ error, (Load.build log (s.applyAll edits)).result = .error error ∧
            (Load.build log (t.applyAll others)).result = .error error) ∨
          ∃ c d : Config, (Load.build log (s.applyAll edits)).result = .ok c ∧
            (Load.build log (t.applyAll others)).result = .ok d ∧
            c.initialized = true ∧ d.initialized = true ∧ c.same d = true ∧
            Load.pair c = Load.pair d) ∧
        (Load.build log (s.applyAll edits)).log = (Load.build log (t.applyAll others)).log) ∧
    (∀ c d : Config, c.same d = true →
      c.pageTitleSuffix = d.pageTitleSuffix ∧
      (∀ available : Count, c.workerThreads available = d.workerThreads available) ∧
      c.indexedFileLimit = d.indexedFileLimit ∧ c.canSaveLocally = d.canSaveLocally) ∧
    ∃ c d : Config, c.same d = true ∧ ∃ dump other, c.dump = .ok dump ∧ d.dump = .ok other ∧
      dump ≠ other := by
  refine ⟨?_, ?_, ?_⟩
  · intro s t edits others hst he
    have h := (Settings.same_draft_iff.mp hst).applyAll he
    refine ⟨Settings.same_draft_iff.mpr h, fun log => ⟨?_, h.log_build log⟩⟩
    rw [Load.result_build, Load.result_build]
    obtain hfailed | ⟨hs, ht⟩ := h.build
    · exact .inl hfailed
    · exact .inr ⟨_, _, hs, ht, rfl, rfl, h.initialized, h.pair⟩
  · exact fun c d h => Config.views_of_same (Config.same_iff.mp h).2
  · exact ⟨Config.bare, Config.slashed, Config.dumps_differ⟩

-- Calls with paths in two spellings. The homepage is set and not cleared by either.
def Edit.spelled : List Edit := [
  .rootDir (.ofText "/src//lib/"), .compileCommands (.ofText "./cc.json"), .projectName "p",
  .outputDir (.ofText "/out/./html"), .homepage (.ofText "./."), .markdownPaths [.ofText "a/b"],
  .addMarkdownPath (.ofText "c/.")]

def Edit.respelled : List Edit := [
  .rootDir (.ofText "//src/lib"), .compileCommands (.ofText "././cc.json"), .projectName "p",
  .outputDir (.ofText "/out/html/."), .homepage (.ofText "."), .markdownPaths [.ofText "a//b"],
  .addMarkdownPath (.ofText "c")]

theorem Edit.spelled_same : List.Forall₂ Edit.Same Edit.spelled Edit.respelled :=
  .cons (.rootDir (by decide +kernel)) <| .cons (.compileCommands (by decide +kernel)) <|
    .cons (.refl _) <| .cons (.outputDir (by decide +kernel)) <|
    .cons (.homepage (by decide +kernel)) <|
    .cons (.markdownPaths (.cons (by decide +kernel) .nil)) <|
    .cons (.addMarkdownPath (by decide +kernel)) .nil

theorem Settings.equality_respected_spelled :
    (Settings.draft {}).same (Settings.draft {}) = true ∧
    List.Forall₂ Edit.Same Edit.spelled Edit.respelled ∧
    ∃ c d : Config,
      (Load.build (.ofLevel .debug) (Settings.applyAll {} Edit.spelled)).result = .ok c ∧
      (Load.build (.ofLevel .debug) (Settings.applyAll {} Edit.respelled)).result = .ok d ∧
      c.same d = true ∧ Load.pair c = Load.pair d ∧ c.pageTitleSuffix = d.pageTitleSuffix := by
  have hempty : (Settings.draft {}).same (Settings.draft {}) = true := by decide +kernel
  obtain ⟨hbuilds, hviews, -⟩ := Settings.equality_respected
  obtain ⟨-, hlog⟩ := hbuilds {} {} _ _ hempty Edit.spelled_same
  obtain ⟨error, hs, -⟩ | ⟨c, d, hs, ht, -, -, hsame, hpair⟩ := (hlog (.ofLevel .debug)).1
  · have hok : (Settings.applyAll {} Edit.spelled).build.isOk = true := by decide +kernel
    rw [Load.result_build] at hs
    rw [hs] at hok
    exact nomatch hok
  · exact ⟨hempty, Edit.spelled_same, c, d, hs, ht, hsame, hpair, (hviews c d hsame).1⟩

end DocRun
