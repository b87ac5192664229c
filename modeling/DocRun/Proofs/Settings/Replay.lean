import DocRun.Proofs.Config.Sound
import DocRun.Proofs.Session.Run
import DocRun.Settings.Edit
import Mathlib.Data.List.DropRight

namespace DocRun

-- The value that an edit puts in the place of the old one. The four edits that append give none.
def Edit.given? : Edit → Option FieldValue
  | useSystemIncludes value => some (.flag value)
  | numThreads value => some (.number value)
  | tier value => some (.tier value)
  | rootDir value => some (.path value)
  | compileCommands value => some (.path value)
  | outputDir value => some (.path value)
  | projectName value => some (.text value)
  | projectVersion value => some (.textOrNone (if value = "" then none else some value))
  | timestamp value => some (.text value)
  | toolVersion value => some (.text value)
  | gitRepoUrl value => some (.text value)
  | gitDefaultBranch value => some (.text value)
  | includePaths values => some (.texts values)
  | ignorePaths values => some (.texts values)
  | ignoreNames values => some (.texts values)
  | ignorePrivateMembers value => some (.flag value)
  | homepage value => some (.pathOrNone (if value = .empty then none else some value))
  | markdownPaths values => some (.paths values)
  | hideToolMenu value => some (.flag value)
  | fileLimit value => some (.number value)
  | dumpPayload value => some (.flag value)
  | addIncludePath _ | addIgnorePath _ | addIgnoreName _ | addMarkdownPath _ => none

-- What is appended to a list of texts, and to a list of paths.
def Edit.addedText? : Edit → Option String
  | addIncludePath value | addIgnorePath value | addIgnoreName value => some value
  | _ => none

def Edit.addedPath? : Edit → Option Path
  | addMarkdownPath value => some value
  | _ => none

-- A list and behind it what the edits append, in their order. Nothing else grows.
def FieldValue.extend (edits : List Edit) : FieldValue → FieldValue
  | texts values => .texts (values ++ edits.filterMap Edit.addedText?)
  | paths values => .paths (values ++ edits.filterMap Edit.addedPath?)
  | value => value

-- What a field holds before any edit.
def Field.initial : Field → FieldValue
  | useSystemIncludes => .flag true
  | ignorePrivateMembers | hideToolMenu | dumpPayload => .flag false
  | numThreads | fileLimit => .number 0
  | tier => .tier .full
  | rootDir | compileCommands | outputDir => .path .empty
  | projectName | timestamp | toolVersion | gitRepoUrl | gitDefaultBranch => .text ""
  | projectVersion => .textOrNone none
  | homepage => .pathOrNone none
  | includePaths | ignorePaths | ignoreNames => .texts []
  | markdownPaths => .paths []

-- The edits of one field, in their order.
def Field.own (field : Field) (edits : List Edit) : List Edit :=
  edits.filter fun edit => edit.field = field

-- What the edits of one field make of its first value: the last value that they give, if any, and
-- what they append to it from then on.
def FieldValue.replay (first : FieldValue) (edits : List Edit) : FieldValue :=
  ((edits.filterMap Edit.given?).getLast?.getD first).extend
    (edits.rtakeWhile fun edit => edit.given?.isNone)

theorem FieldValue.extend_nil (value : FieldValue) : value.extend [] = value := by
  cases value <;> simp [extend]

theorem FieldValue.extend_append (value : FieldValue) (edits more : List Edit) :
    value.extend (edits ++ more) = (value.extend edits).extend more := by
  cases value <;> simp [extend, List.append_assoc]

theorem FieldValue.replay_of_given (first : FieldValue) (edits : List Edit) {edit : Edit}
    {value : FieldValue} (h : edit.given? = some value) :
    first.replay (edits ++ [edit]) = value := by
  have hlast : ((edits ++ [edit]).filterMap Edit.given?).getLast? = some value := by
    rw [List.filterMap_append, List.filterMap_cons_some h]
    exact List.getLast?_concat
  rw [replay, hlast, List.rtakeWhile_concat_neg _ _ _ (by simp [h])]
  exact extend_nil value

theorem FieldValue.replay_of_added (first : FieldValue) (edits : List Edit) {edit : Edit}
    (h : edit.given? = none) :
    first.replay (edits ++ [edit]) = (first.replay edits).extend [edit] := by
  have hlast : (edits ++ [edit]).filterMap Edit.given? = edits.filterMap Edit.given? := by
    rw [List.filterMap_append, List.filterMap_cons_none h]
    exact List.append_nil _
  rw [replay, hlast, List.rtakeWhile_concat_pos _ _ _ (by simp [h])]
  exact extend_append _ _ _

theorem Settings.value_apply_of_ne (settings : Settings) {edit : Edit} {field : Field}
    (h : edit.field ≠ field) : (settings.apply edit).value field = settings.value field := by
  -- Every edit against every field: where it is the field of the edit, `h` excludes the case.
  cases edit <;> cases field <;> first | rfl | exact absurd rfl h

theorem Settings.value_apply_of_given (settings : Settings) {edit : Edit} {value : FieldValue}
    (h : edit.given? = some value) : (settings.apply edit).value edit.field = value := by
  cases edit with
  | projectVersion text =>
      rw [← Option.some.inj h]
      simp only [apply, Edit.field, Settings.value, String.isEmpty_iff]
  | homepage path =>
      rw [← Option.some.inj h]
      simp only [apply, Edit.field, Settings.value, Path.isEmpty_iff]
  | addIncludePath _ | addIgnorePath _ | addIgnoreName _ | addMarkdownPath _ => cases h
  | _ => exact Option.some.inj h

theorem Settings.value_apply_of_added (settings : Settings) {edit : Edit}
    (h : edit.given? = none) :
    (settings.apply edit).value edit.field = (settings.value edit.field).extend [edit] := by
  cases edit with
  | addIncludePath _ | addIgnorePath _ | addIgnoreName _ | addMarkdownPath _ => rfl
  | _ => cases h

theorem Settings.applyAll_append (settings : Settings) (edits more : List Edit) :
    settings.applyAll (edits ++ more) = (settings.applyAll edits).applyAll more :=
  List.foldl_append

theorem Settings.value_applyAll (settings : Settings) (edits : List Edit) (field : Field) :
    (settings.applyAll edits).value field = (settings.value field).replay (field.own edits) := by
  induction edits using List.reverseRecOn with
  | nil => exact (FieldValue.extend_nil _).symm
  | append_singleton edits edit ih =>
      rw [applyAll_append]
      change ((settings.applyAll edits).apply edit).value field = _
      by_cases hf : edit.field = field
      · subst hf
        have hown : edit.field.own (edits ++ [edit]) = edit.field.own edits ++ [edit] := by
          simp [Field.own]
        rw [hown]
        cases hg : edit.given? with
        | some value => rw [value_apply_of_given _ hg, FieldValue.replay_of_given _ _ hg]
        | none => rw [value_apply_of_added _ hg, FieldValue.replay_of_added _ _ hg, ih]
      · have hown : field.own (edits ++ [edit]) = field.own edits := by
          simp [Field.own, hf]
        rw [value_apply_of_ne _ hf, hown, ih]

theorem Settings.value_default (field : Field) : Settings.value {} field = field.initial := by
  cases field <;> rfl

open Session in
-- A draft holds in every field what the edits of that field make of its default. How they are
-- mixed with the edits of other fields makes no difference.
theorem draft_replays (edits : List Edit) :
    (State.run {} (edits.map .edit ++ [.draft none])).2.getLast? =
      some (.config (Settings.applyAll {} edits).draft) ∧
    (Settings.applyAll {} edits).draft.initialized = false ∧
    (∀ field : Field, (Settings.applyAll {} edits).draft.value field =
      field.initial.replay (field.own edits)) ∧
    ∀ others : List Edit, (∀ field : Field, field.own others = field.own edits) →
      (Settings.applyAll {} others).draft = (Settings.applyAll {} edits).draft := by
  have hvalue : ∀ (edits : List Edit) (field : Field),
      (Settings.applyAll {} edits).value field = field.initial.replay (field.own edits) := by
    intro edits field
    rw [Settings.value_applyAll, Settings.value_default]
  refine ⟨?_, rfl, hvalue edits, ?_⟩
  · rw [State.run_append, State.run_edits]
    exact List.getLast?_concat
  · intro others h
    have hsame : Settings.applyAll {} others = Settings.applyAll {} edits := by
      apply Settings.ext_value
      intro field
      rw [hvalue others, hvalue edits, h field]
    rw [hsame]

-- A version that is cleared, and a list that is replaced between two additions. The second time
-- the edits of the version come in other places.
def Edit.clearedVersion : List Edit := [
  .addIncludePath "a", .projectVersion "1", .includePaths ["b"], .projectVersion "",
  .addIncludePath "c"]

def Edit.clearedEarlier : List Edit := [
  .projectVersion "1", .projectVersion "", .addIncludePath "a", .includePaths ["b"],
  .addIncludePath "c"]

theorem draft_replays_cleared :
    (∀ field : Field, field.own Edit.clearedEarlier = field.own Edit.clearedVersion) ∧
    (Settings.applyAll {} Edit.clearedEarlier).draft =
      (Settings.applyAll {} Edit.clearedVersion).draft ∧
    (Settings.applyAll {} Edit.clearedVersion).draft.value .includePaths = .texts ["b", "c"] ∧
    (Settings.applyAll {} Edit.clearedVersion).draft.value .projectVersion = .textOrNone none := by
  have hown : ∀ field : Field,
      field.own Edit.clearedEarlier = field.own Edit.clearedVersion := by
    intro field
    cases field <;> rfl
  obtain ⟨-, -, hvalue, hmixed⟩ := draft_replays Edit.clearedVersion
  exact ⟨hown, hmixed _ hown, hvalue .includePaths, hvalue .projectVersion⟩

end DocRun
