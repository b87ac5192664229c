import DocRun.Proofs.Config.Sound
import Mathlib.Data.Finset.Card

namespace DocRun

-- What a build looks at.
inductive Check where
  | rootDir
  | compileCommands
  | projectName
  | outputDir
  deriving DecidableEq

namespace Check

def all : Finset Check := {rootDir, compileCommands, projectName, outputDir}

-- The order of the checks.
def rank : Check → Nat
  | rootDir => 0
  | compileCommands => 1
  | projectName => 2
  | outputDir => 3

-- An output directory is wanted for the full tier and for no other.
def Violated (settings : Settings) : Check → Prop
  | rootDir => settings.rootDir = .empty
  | compileCommands => settings.compileCommands = .empty
  | projectName => settings.projectName = ""
  | outputDir => settings.outputDir = .empty ↔ settings.tier = .full

instance (settings : Settings) : DecidablePred (Violated settings)
  | rootDir => inferInstanceAs (Decidable (settings.rootDir = .empty))
  | compileCommands => inferInstanceAs (Decidable (settings.compileCommands = .empty))
  | projectName => inferInstanceAs (Decidable (settings.projectName = ""))
  | outputDir => inferInstanceAs (Decidable (settings.outputDir = .empty ↔ settings.tier = .full))

def error (settings : Settings) : Check → ConfigError
  | rootDir => .missingField "root_dir"
  | compileCommands => .missingField "compile_commands_json"
  | projectName => .missingField "project_name"
  | outputDir =>
    if settings.tier = .full then .missingField "output_dir"
    else .localSaveNotPermitted settings.tier

-- The first check that is violated.
structure First (settings : Settings) (check : Check) : Prop where
  violated : check.Violated settings
  earlier : ∀ other : Check, other.rank < check.rank → ¬other.Violated settings

theorem mem_all (check : Check) : check ∈ all := by
  cases check <;> decide

-- The check that an error comes from.
def ofError? : ConfigError → Option Check
  | .missingField "root_dir" => some rootDir
  | .missingField "compile_commands_json" => some compileCommands
  | .missingField "project_name" => some projectName
  | .missingField "output_dir" => some outputDir
  | .localSaveNotPermitted _ => some outputDir
  | _ => none

theorem ofError?_error (settings : Settings) (check : Check) :
    ofError? (check.error settings) = some check := by
  cases check with
  | outputDir => by_cases htier : settings.tier = .full <;> simp [error, ofError?, htier]
  | _ => rfl

theorem rank_injective {check other : Check} (h : check.rank = other.rank) : check = other := by
  cases check <;> cases other <;> first | rfl | exact absurd h (by decide)

theorem First.unique {settings : Settings} {check other : Check} (hc : check.First settings)
    (ho : other.First settings) : check = other := by
  apply rank_injective
  have hle : ¬other.rank < check.rank := fun h => hc.earlier other h ho.violated
  have hge : ¬check.rank < other.rank := fun h => ho.earlier check h hc.violated
  omega

end Check

-- A build goes through the checks in their order and stops at the first that is violated.
theorem Settings.build_cases (settings : Settings) :
    (∀ check : Check, ¬check.Violated settings) ∧
      settings.build = .ok { toSettings := settings, initialized := true } ∨
    ∃ check : Check, check.First settings ∧ settings.build = .error (check.error settings) := by
  have hsave : settings.tier.canSaveLocally = decide (settings.tier = .full) := by
    cases settings.tier <;> rfl
  have hempty : settings.outputDir.isEmpty = decide (settings.outputDir = .empty) := by
    rw [Bool.eq_iff_iff, Path.isEmpty_iff, decide_eq_true_eq]
  simp only [Settings.build, Path.isEmpty_iff, String.isEmpty_iff]
  by_cases hroot : settings.rootDir = .empty
  · refine .inr ⟨.rootDir, ⟨hroot, ?_⟩, if_pos hroot⟩
    exact fun other ho => absurd ho (Nat.not_lt_zero _)
  rw [if_neg hroot]
  by_cases hcommands : settings.compileCommands = .empty
  · refine .inr ⟨.compileCommands, ⟨hcommands, ?_⟩, if_pos hcommands⟩
    intro other ho
    cases other with
    | rootDir => exact hroot
    | _ => exact absurd ho (by decide)
  rw [if_neg hcommands]
  by_cases hname : settings.projectName = ""
  · refine .inr ⟨.projectName, ⟨hname, ?_⟩, if_pos hname⟩
    intro other ho
    cases other with
    | rootDir => exact hroot
    | compileCommands => exact hcommands
    | _ => exact absurd ho (by decide)
  rw [if_neg hname]
  have hbefore : ∀ other : Check, other.rank < Check.outputDir.rank →
      ¬other.Violated settings := by
    intro other ho
    cases other with
    | rootDir => exact hroot
    | compileCommands => exact hcommands
    | projectName => exact hname
    | outputDir => exact absurd ho (by decide)
  rw [hsave, hempty]
  by_cases hdir : settings.outputDir = .empty ↔ settings.tier = .full
  · refine .inr ⟨.outputDir, ⟨hdir, hbefore⟩, ?_⟩
    by_cases htier : settings.tier = .full
    · simp [Check.error, Field.key, htier, hdir.mpr htier]
    · simp [Check.error, htier, mt hdir.mp htier]
  · refine .inl ⟨?_, ?_⟩
    · intro check
      cases check with
      | rootDir => exact hroot
      | compileCommands => exact hcommands
      | projectName => exact hname
      | outputDir => exact hdir
    · by_cases htier : settings.tier = .full
      · have hset : settings.outputDir ≠ .empty := fun he => hdir ⟨fun _ => htier, fun _ => he⟩
        simp [htier, hset]
      · have hunset : settings.outputDir = .empty := by
          by_contra he
          exact hdir ⟨fun h => absurd h he, fun h => absurd h htier⟩
        simp [htier, hunset]

-- The fixes of what a build reports: anything for what is missing, and no output directory where
-- none is permitted.
inductive Repairs : ConfigError → Edit → Prop
  | rootDir {path : Path} (h : path ≠ .empty) :
      Repairs (.missingField "root_dir") (.rootDir path)
  | compileCommands {path : Path} (h : path ≠ .empty) :
      Repairs (.missingField "compile_commands_json") (.compileCommands path)
  | projectName {name : String} (h : name ≠ "") :
      Repairs (.missingField "project_name") (.projectName name)
  | outputDir {path : Path} (h : path ≠ .empty) :
      Repairs (.missingField "output_dir") (.outputDir path)
  | unwanted (tier : Tier) : Repairs (.localSaveNotPermitted tier) (.outputDir .empty)

-- Fixes one after the other, each of what the build before it has reported.
inductive Repaired : Settings → List Edit → Settings → Prop
  | refl (settings : Settings) : Repaired settings [] settings
  | step {settings last : Settings} {error : ConfigError} {edit : Edit} {edits : List Edit}
      (hb : settings.build = .error error) (hr : Repairs error edit)
      (h : Repaired (settings.apply edit) edits last) : Repaired settings (edit :: edits) last

section

variable {settings : Settings}

theorem Settings.build_eq_ok_iff {config : Config} : settings.build = .ok config ↔
    (∀ check : Check, ¬check.Violated settings) ∧
      config = { settings.draft with initialized := true } := by
  obtain ⟨hnone, hb⟩ | ⟨check, hf, hb⟩ := settings.build_cases
  · rw [hb, Except.ok.injEq, eq_comm, and_iff_right hnone]
    rfl
  · rw [hb]
    exact ⟨nofun, fun h => absurd hf.violated (h.1 check)⟩

theorem Settings.build_eq_error_iff {error : ConfigError} : settings.build = .error error ↔
    ∃ check : Check, check.First settings ∧ error = check.error settings := by
  obtain ⟨hnone, hb⟩ | ⟨check, hf, hb⟩ := settings.build_cases
  · rw [hb]
    exact ⟨nofun, fun ⟨check, hf, _⟩ => absurd hf.violated (hnone check)⟩
  · rw [hb, Except.error.injEq]
    constructor
    · exact fun he => ⟨check, hf, he.symm⟩
    · rintro ⟨other, ho, rfl⟩
      rw [hf.unique ho]

theorem Check.none_violated_iff : (∀ check : Check, ¬check.Violated settings) ↔
    settings.rootDir ≠ .empty ∧ settings.compileCommands ≠ .empty ∧ settings.projectName ≠ "" ∧
      (settings.outputDir ≠ .empty ↔ settings.tier = .full) := by
  constructor
  · exact fun h => ⟨h .rootDir, h .compileCommands, h .projectName, not_iff.mp (h .outputDir)⟩
  · rintro ⟨hroot, hcommands, hname, hdir⟩ check
    cases check with
    | rootDir => exact hroot
    | compileCommands => exact hcommands
    | projectName => exact hname
    | outputDir => exact not_iff.mpr hdir

-- A fix settles the check that was reported and touches no other.
theorem Check.violated_of_repairs {check : Check} {edit : Edit}
    (hr : Repairs (check.error settings) edit) (other : Check) :
    other.Violated (settings.apply edit) ↔ other.Violated settings ∧ other ≠ check := by
  have hcheck := ofError?_error settings check
  generalize he : check.error settings = error at hr hcheck
  cases hr with
  | rootDir h =>
      obtain rfl := Option.some.inj hcheck
      cases other <;> simp [Violated, Settings.apply, h]
  | compileCommands h =>
      obtain rfl := Option.some.inj hcheck
      cases other <;> simp [Violated, Settings.apply, h]
  | projectName h =>
      obtain rfl := Option.some.inj hcheck
      cases other <;> simp [Violated, Settings.apply, h]
  | outputDir h =>
      obtain rfl := Option.some.inj hcheck
      have htier : settings.tier = .full := by
        by_contra htier
        rw [error, if_neg htier] at he
        cases he
      cases other <;> simp [Violated, Settings.apply, h, htier]
  | unwanted tier =>
      obtain rfl := Option.some.inj hcheck
      have htier : settings.tier ≠ .full := by
        intro htier
        rw [error, if_pos htier] at he
        cases he
      cases other <;> simp [Violated, Settings.apply, htier]

-- So the next build can only get further.
theorem Check.First.rank_lt {check later : Check} {edit : Edit} (hf : check.First settings)
    (hr : Repairs (check.error settings) edit) (hl : later.First (settings.apply edit)) :
    check.rank < later.rank := by
  obtain ⟨hv, hne⟩ := (violated_of_repairs hr later).mp hl.violated
  have hle : ¬later.rank < check.rank := fun h => hf.earlier later h hv
  have hrank : later.rank ≠ check.rank := fun h => hne (rank_injective h)
  omega

theorem Check.exists_repairs (settings : Settings) (check : Check) :
    ∃ edit, Repairs (check.error settings) edit := by
  have hdot : (⟨[Path.dot]⟩ : Path) ≠ .empty := by decide
  have hname : "a" ≠ "" := by decide
  cases check with
  | rootDir => exact ⟨_, .rootDir hdot⟩
  | compileCommands => exact ⟨_, .compileCommands hdot⟩
  | projectName => exact ⟨_, .projectName hname⟩
  | outputDir =>
      by_cases htier : settings.tier = .full
      · rw [error, if_pos htier]
        exact ⟨_, .outputDir hdot⟩
      · rw [error, if_neg htier]
        exact ⟨_, .unwanted settings.tier⟩

-- What is still to be fixed.
def Settings.openChecks (settings : Settings) : Finset Check :=
  Check.all.filter (Check.Violated settings)

theorem Settings.mem_openChecks {check : Check} :
    check ∈ settings.openChecks ↔ check.Violated settings := by
  simp only [openChecks, Finset.mem_filter, Check.mem_all, true_and]

theorem Settings.card_openChecks_le (settings : Settings) : settings.openChecks.card ≤ 4 := by
  have hall : Check.all.card = 4 := rfl
  exact hall ▸ Finset.card_filter_le Check.all (Check.Violated settings)

theorem Check.First.card_openChecks {check : Check} {edit : Edit} (hf : check.First settings)
    (hr : Repairs (check.error settings) edit) :
    (settings.apply edit).openChecks.card + 1 = settings.openChecks.card := by
  have herase : (settings.apply edit).openChecks = settings.openChecks.erase check := by
    ext other
    rw [Finset.mem_erase, Settings.mem_openChecks, Settings.mem_openChecks,
      violated_of_repairs hr other, and_comm]
  rw [herase, Finset.card_erase_add_one (Settings.mem_openChecks.mpr hf.violated)]

-- Every fix leaves one thing less to be fixed.
theorem Repaired.card_openChecks {edits : List Edit} {last : Settings}
    (h : Repaired settings edits last) :
    last.openChecks.card + edits.length = settings.openChecks.card := by
  induction h with
  | refl settings => rfl
  | step hb hr h ih =>
      obtain ⟨check, hf, rfl⟩ := Settings.build_eq_error_iff.mp hb
      have hcard := hf.card_openChecks hr
      rw [List.length_cons]
      omega

theorem Settings.exists_repaired (settings : Settings) :
    ∃ edits last config, Repaired settings edits last ∧ last.build = .ok config := by
  induction hn : settings.openChecks.card generalizing settings with
  | zero =>
      have hnone : ∀ check : Check, ¬check.Violated settings := by
        intro check hv
        rw [← mem_openChecks, Finset.card_eq_zero.mp hn] at hv
        exact Finset.notMem_empty check hv
      exact ⟨[], settings, _, .refl settings, build_eq_ok_iff.mpr ⟨hnone, rfl⟩⟩
  | succ n ih =>
      obtain ⟨hnone, hb⟩ | ⟨check, hf, hb⟩ := settings.build_cases
      · exact ⟨[], settings, _, .refl settings, hb⟩
      · obtain ⟨edit, hr⟩ := Check.exists_repairs settings check
        have hcard := hf.card_openChecks hr
        obtain ⟨edits, last, config, hl, hc⟩ := ih (settings.apply edit) (by omega)
        exact ⟨edit :: edits, last, config, .step hb hr hl, hc⟩

end

-- A build succeeds if nothing is missing and no output directory is given to a tier that must not
-- have one, and then only the mark is new. Otherwise it reports the first check that is violated.
-- Each fix of what was reported gets the next build further, so that whatever is chosen for the
-- fixes, four of them at most are made before a build succeeds.
theorem Settings.repairs_converge (settings : Settings) :
    ((∃ config, settings.build = .ok config) ↔
      settings.rootDir ≠ .empty ∧ settings.compileCommands ≠ .empty ∧ settings.projectName ≠ "" ∧
        (settings.outputDir ≠ .empty ↔ settings.tier = .full)) ∧
    (∀ config, settings.build = .ok config →
      config = { settings.draft with initialized := true }) ∧
    (∀ error, settings.build = .error error ↔
      ∃ check : Check, check.First settings ∧ error = check.error settings) ∧
    (∀ (check later : Check) (edit : Edit), check.First settings →
      Repairs (check.error settings) edit → later.First (settings.apply edit) →
      check.rank < later.rank) ∧
    ∀ edits last, Repaired settings edits last → edits.length ≤ 4 ∧
      ∃ more final config, Repaired last more final ∧ edits.length + more.length ≤ 4 ∧
        final.build = .ok config := by
  refine ⟨?_, fun config h => (build_eq_ok_iff.mp h).2, fun error => build_eq_error_iff,
    fun check later edit hf hr hl => hf.rank_lt hr hl, ?_⟩
  · rw [← Check.none_violated_iff]
    constructor
    · exact fun ⟨config, hb⟩ => (build_eq_ok_iff.mp hb).1
    · exact fun hnone => ⟨_, build_eq_ok_iff.mpr ⟨hnone, rfl⟩⟩
  · intro edits last h
    obtain ⟨more, final, config, hf, hc⟩ := last.exists_repaired
    have hle := settings.card_openChecks_le
    have hfirst := h.card_openChecks
    have hsecond := hf.card_openChecks
    exact ⟨by omega, more, final, config, hf, by omega, hc⟩

-- Nothing is given but an output directory, and that to a tier that must not have one.
def Settings.unwanted : Settings where
  tier := .online
  outputDir := .ofText "/out"

def Edit.fourFixes : List Edit := [
  .rootDir (.ofText "/r"), .compileCommands (.ofText "/c"), .projectName "p", .outputDir .empty]

theorem Settings.repairs_converge_unwanted :
    Check.First Settings.unwanted .rootDir ∧
    Check.First (Settings.unwanted.apply (.rootDir (.ofText "/r"))) .compileCommands ∧
    Check.rootDir.rank < Check.compileCommands.rank ∧
    Repaired Settings.unwanted Edit.fourFixes (Settings.unwanted.applyAll Edit.fourFixes) ∧
    Edit.fourFixes.length ≤ 4 ∧
    ∃ config, (Settings.unwanted.applyAll Edit.fourFixes).build = .ok config := by
  have hroot : Path.ofText "/r" ≠ .empty := by decide
  have hcommands : Path.ofText "/c" ≠ .empty := by decide
  have hfirst : Check.First Settings.unwanted .rootDir :=
    ⟨rfl, fun other ho => absurd ho (Nat.not_lt_zero _)⟩
  have hsecond : Check.First (Settings.unwanted.apply (.rootDir (.ofText "/r")))
      .compileCommands := by
    refine ⟨rfl, fun other ho => ?_⟩
    cases other with
    | rootDir => exact hroot
    | _ => exact absurd ho (by decide)
  have hrun : Repaired Settings.unwanted Edit.fourFixes
      (Settings.unwanted.applyAll Edit.fourFixes) :=
    .step rfl (.rootDir hroot) (.step rfl (.compileCommands hcommands)
      (.step rfl (.projectName (by decide)) (.step rfl (.unwanted .online) (.refl _))))
  obtain ⟨-, -, -, hprogress, hruns⟩ := Settings.repairs_converge Settings.unwanted
  obtain ⟨hsucceeds, -⟩ := Settings.repairs_converge (Settings.unwanted.applyAll Edit.fourFixes)
  exact ⟨hfirst, hsecond, hprogress _ _ _ hfirst (.rootDir hroot) hsecond, hrun,
    (hruns _ _ hrun).1, hsucceeds.mpr ⟨hroot, hcommands, by decide, by decide⟩⟩

end DocRun
