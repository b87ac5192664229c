import DocRun.Config.Same
import DocRun.Proofs.Path
import DocRun.Proofs.Settings.Replay
import Mathlib.Data.List.Forall2

namespace DocRun

theorem Path.sameAll_iff {ps qs : List Path} :
    Path.sameAll ps qs = true ↔ List.Forall₂ (fun p q : Path => p.same q = true) ps qs := by
  induction ps generalizing qs with
  | nil =>
      cases qs with
      | nil => exact ⟨fun _ => .nil, fun _ => rfl⟩
      | cons q qs => exact ⟨nofun, nofun⟩
  | cons p ps ih =>
      cases qs with
      | nil => exact ⟨nofun, nofun⟩
      | cons q qs => rw [Path.sameAll, Bool.and_eq_true, ih, List.forall₂_cons]

theorem Path.sameAll_refl (ps : List Path) :
    List.Forall₂ (fun p q : Path => p.same q = true) ps ps :=
  List.forall₂_same.mpr fun path _ => path.same_refl

-- What two records that are the same can hold at one field.
inductive FieldValue.Same : FieldValue → FieldValue → Prop
  | refl (value : FieldValue) : Same value value
  | path {p q : Path} (h : p.same q = true) : Same (.path p) (.path q)
  | pathOrNone {p q : Path} (h : p.same q = true) :
      Same (.pathOrNone (some p)) (.pathOrNone (some q))
  | paths {ps qs : List Path} (h : List.Forall₂ (fun p q : Path => p.same q = true) ps qs) :
      Same (.paths ps) (.paths qs)

theorem FieldValue.same_refl (value : FieldValue) : value.same value = true := by
  cases value with
  | path p => exact p.same_refl
  | pathOrNone value =>
      cases value with
      | none => rfl
      | some p => exact p.same_refl
  | paths ps => exact Path.sameAll_iff.mpr (Path.sameAll_refl ps)
  | _ => exact decide_eq_true rfl

theorem FieldValue.same_iff {v w : FieldValue} : v.same w = true ↔ v.Same w := by
  constructor
  · intro h
    unfold FieldValue.same at h
    split at h
    case h_1 => exact .path h
    case h_2 => exact .pathOrNone h
    case h_3 => exact .paths (Path.sameAll_iff.mp h)
    case h_4 =>
      obtain rfl := of_decide_eq_true h
      exact .refl _
  · intro h
    cases h with
    | refl => exact v.same_refl
    | path h => exact h
    | pathOrNone h => exact h
    | paths h => exact Path.sameAll_iff.mpr h

-- Settings whose drafts are equal.
def Settings.Same (s t : Settings) : Prop := ∀ field : Field, (s.value field).Same (t.value field)

theorem Config.same_iff {c d : Config} :
    c.same d = true ↔ c.initialized = d.initialized ∧ c.toSettings.Same d.toSettings := by
  simp only [Config.same, Bool.and_eq_true, decide_eq_true_eq, List.all_eq_true]
  constructor
  · rintro ⟨hi, hv⟩
    exact ⟨hi, fun field => FieldValue.same_iff.mp (hv field field.mem_all)⟩
  · rintro ⟨hi, hv⟩
    exact ⟨hi, fun field _ => FieldValue.same_iff.mpr (hv field)⟩

theorem Settings.same_draft_iff {s t : Settings} : s.draft.same t.draft = true ↔ s.Same t := by
  rw [Config.same_iff]
  exact and_iff_right rfl

-- Calls of one setter that differ in the spelling of paths at most.
inductive Edit.Same : Edit → Edit → Prop
  | refl (edit : Edit) : Same edit edit
  | rootDir {p q : Path} (h : p.same q = true) : Same (.rootDir p) (.rootDir q)
  | compileCommands {p q : Path} (h : p.same q = true) :
      Same (.compileCommands p) (.compileCommands q)
  | outputDir {p q : Path} (h : p.same q = true) : Same (.outputDir p) (.outputDir q)
  | homepage {p q : Path} (h : p.same q = true) : Same (.homepage p) (.homepage q)
  | markdownPaths {ps qs : List Path}
      (h : List.Forall₂ (fun p q : Path => p.same q = true) ps qs) :
      Same (.markdownPaths ps) (.markdownPaths qs)
  | addMarkdownPath {p q : Path} (h : p.same q = true) :
      Same (.addMarkdownPath p) (.addMarkdownPath q)

section

variable {s t : Settings} {edit other : Edit}

theorem Edit.Same.field (h : edit.Same other) : edit.field = other.field := by
  cases h <;> rfl

-- The empty path is the only spelling of itself, so that both homepages are cleared or none is.
theorem FieldValue.same_homepage {p q : Path} (h : p.same q = true) :
    Same (.pathOrNone (if p = .empty then none else some p))
      (.pathOrNone (if q = .empty then none else some q)) := by
  by_cases hp : p = .empty
  · rw [if_pos hp, if_pos ((Path.eq_empty_iff_of_same h).mp hp)]
    exact .refl _
  · rw [if_neg hp, if_neg fun hq => hp ((Path.eq_empty_iff_of_same h).mpr hq)]
    exact .pathOrNone h

theorem Edit.Same.given (h : edit.Same other) :
    Option.Rel FieldValue.Same edit.given? other.given? := by
  cases h with
  | refl =>
      cases edit.given? with
      | none => exact .none
      | some value => exact .some (.refl value)
  | rootDir h => exact .some (.path h)
  | compileCommands h => exact .some (.path h)
  | outputDir h => exact .some (.path h)
  | homepage h => exact .some (FieldValue.same_homepage h)
  | markdownPaths h => exact .some (.paths h)
  | addMarkdownPath h => exact .none

theorem Edit.Same.addedTexts (h : edit.Same other) :
    [edit].filterMap Edit.addedText? = [other].filterMap Edit.addedText? := by
  cases h <;> rfl

theorem Edit.Same.addedPaths (h : edit.Same other) :
    List.Forall₂ (fun p q : Path => p.same q = true) ([edit].filterMap Edit.addedPath?)
      ([other].filterMap Edit.addedPath?) := by
  cases h with
  | refl => exact Path.sameAll_refl _
  | addMarkdownPath h => exact .cons h .nil
  | _ => exact .nil

theorem FieldValue.Same.extend {v w : FieldValue} (h : v.Same w) (he : edit.Same other) :
    (v.extend [edit]).Same (w.extend [other]) := by
  cases h with
  | refl =>
      cases v with
      | texts values =>
          rw [FieldValue.extend, FieldValue.extend, he.addedTexts]
          exact .refl _
      | paths values => exact .paths (List.rel_append (Path.sameAll_refl values) he.addedPaths)
      | _ => exact .refl _
  | path h => exact .path h
  | pathOrNone h => exact .pathOrNone h
  | paths h => exact .paths (List.rel_append h he.addedPaths)

-- One setter call on each side.
theorem Settings.Same.apply (h : s.Same t) (he : edit.Same other) :
    (s.apply edit).Same (t.apply other) := by
  intro field
  by_cases hf : edit.field = field
  · subst hf
    have hgiven := he.given
    generalize hv : edit.given? = given at hgiven
    generalize hw : other.given? = given' at hgiven
    cases hgiven with
    | some hsame =>
        rw [value_apply_of_given s hv, he.field, value_apply_of_given t hw]
        exact hsame
    | none =>
        rw [value_apply_of_added s hv, he.field, value_apply_of_added t hw]
        exact (h _).extend he
  · rw [value_apply_of_ne s hf, value_apply_of_ne t (he.field ▸ hf)]
    exact h field

-- Two runs of setter calls side by side.
theorem Settings.Same.applyAll {edits others : List Edit} (h : s.Same t)
    (he : List.Forall₂ Edit.Same edits others) : (s.applyAll edits).Same (t.applyAll others) := by
  induction he generalizing s t with
  | nil => exact h
  | cons hfirst _ ih => exact ih (h.apply hfirst)

end

end DocRun
