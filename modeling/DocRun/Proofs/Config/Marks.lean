import DocRun.Proofs.Config.Outline
import DocRun.Proofs.Outline.Places

namespace DocRun

open Quoted (Mark marks marks_append)
open Outline (Name isNameChar)

-- What is shown for a text, character by character, and for a path.
def textMarks (text : String) : List Mark := text.toList.map .char

def Path.marks (path : Path) : List Mark := (Utf8.pieces path.bytes).flatMap Quoted.marksOf

-- The byte that is shown by its number.
def Quoted.Mark.byte? : Mark → Option UInt8
  | .char _ => none
  | .byte b => some b

-- The bytes that are no part of a character.
def Utf8.Piece.strays : Utf8.Piece → List UInt8
  | .scalar _ => []
  | .stray bytes => bytes

def Path.strays (path : Path) : List UInt8 := (Utf8.pieces path.bytes).flatMap Utf8.Piece.strays

namespace Outline

-- What stands between the quotes of a part of a shown value, whatever comes after it.
def Shows (text : List Char) (ms : List Mark) : Prop :=
  ∀ rest, marks (inner (text ++ rest)) = ms ++ marks (inner rest)

theorem Shows.nil : Shows [] [] := fun _ => rfl

theorem Shows.append {s t : List Char} {ms ns : List Mark} (hs : Shows s ms) (ht : Shows t ns) :
    Shows (s ++ t) (ms ++ ns) := by
  intro rest
  rw [List.append_assoc, hs, ht, List.append_assoc]

theorem Shows.cons {c : Char} (hc : c ≠ '"') {text : List Char} {ms : List Mark}
    (h : Shows text ms) : Shows (c :: text) ms := by
  intro rest
  rw [List.cons_append, inner_cons hc, h]

theorem Shows.of_name {text : List Char} (h : Name text) : Shows text [] := by
  obtain ⟨-, hc⟩ := h
  induction text with
  | nil => exact .nil
  | cons c text ih =>
      obtain ⟨hc, htext⟩ := List.forall_mem_cons.mp hc
      exact (ih htext).cons (ne_of_isNameChar hc (by decide))

-- A label and brackets add nothing.
theorem Shows.enclosed {text : List Char} {ms : List Mark} (h : Shows text ms)
    {label : List Char} (hl : Shows label []) {opening closing : Char} (ho : opening ≠ '"')
    (hc : closing ≠ '"') : Shows (label ++ opening :: text ++ [closing]) ms := by
  have hall := (hl.append (h.cons ho)).append (Shows.nil.cons hc)
  rwa [List.nil_append, List.append_nil] at hall

theorem Shows.eq {text : List Char} {ms : List Mark} (h : Shows text ms) :
    marks (inner text) = ms := by
  have ht := h []
  rwa [List.append_nil, show inner [] = [] from rfl, Quoted.marks_nil, List.append_nil] at ht

section

variable (hidden : Char → Bool)

theorem shows_literal (ms : List Mark) :
    Shows ('"' :: ms.flatMap (Mark.text hidden) ++ ['"']) ms := by
  intro rest
  simp only [List.cons_append, List.append_assoc, List.nil_append]
  rw [inner_literal (Quoted.Body.marks hidden ms), marks_append]

theorem shows_ofText (text : String) : Shows (bare (.ofText hidden text)) (textMarks text) := by
  have h := shows_literal hidden (textMarks text)
  rwa [textMarks, List.flatMap_map] at h

theorem shows_ofPath (path : Path) : Shows (bare (.ofPath hidden path)) path.marks := by
  have h := shows_literal hidden path.marks
  rwa [Path.marks, ← Quoted.flatMap_piece] at h

end

theorem shows_word {text : String} (h : Proper (.word text)) : Shows (bare (.word text)) [] := by
  cases h with
  | word h => exact .of_name h

theorem shows_flag (value : Bool) : Shows (bare (.flag value)) [] := by
  cases value
  · exact shows_word (proper_flag false)
  · exact shows_word (proper_flag true)

theorem shows_items {α : Type} {outline : α → Outline} {ms : α → List Mark}
    (h : ∀ item, Shows (bare (outline item)) (ms item)) (items : List α) :
    Shows (bareItems (items.map outline)) (items.flatMap ms) := by
  induction items with
  | nil => exact .nil
  | cons item items ih => exact ((h item).append ih).cons (by decide)

theorem shows_list {α : Type} {outline : α → Outline} {ms : α → List Mark}
    (h : ∀ item, Shows (bare (outline item)) (ms item)) (items : List α) :
    Shows (bare (.list (items.map outline))) (items.flatMap ms) := by
  cases items with
  | nil => exact Shows.nil.enclosed .nil (by decide) (by decide)
  | cons item items =>
      exact ((h item).append (shows_items h items)).enclosed .nil (by decide) (by decide)

theorem shows_optional {α : Type} {outline : α → Outline} {ms : α → List Mark}
    (h : ∀ item, Shows (bare (outline item)) (ms item)) (value : Option α) :
    Shows (bare (.optional (value.map outline))) (value.toList.flatMap ms) := by
  cases value with
  | none => exact shows_word (.word (by simp [Name, isNameChar]))
  | some item =>
      have hsome : Name "Some".toList := by simp [Name, isNameChar]
      rw [Option.toList_some, List.flatMap_singleton]
      exact (h item).enclosed (.of_name hsome) (by decide) (by decide)

theorem shows_field {name : String} {content : Outline} {ms : List Mark} (hn : Name name.toList)
    (h : Shows (bare content) ms) : Shows (bareField (name, content)) ms :=
  (Shows.of_name hn).append (h.cons (by decide))

theorem shows_fields {α : Type} {field : α → String × Outline} {ms : α → List Mark}
    (h : ∀ x, Shows (bareField (field x)) (ms x)) (xs : List α) :
    Shows (bareFields (xs.map field)) (xs.flatMap ms) := by
  induction xs with
  | nil => exact .nil
  | cons x xs ih => exact ((h x).append ih).cons (by decide)

end Outline

-- The marks of all texts and paths in a value.
def FieldValue.marks : FieldValue → List Mark
  | text value => textMarks value
  | textOrNone value => value.toList.flatMap textMarks
  | texts values => values.flatMap textMarks
  | path value => value.marks
  | pathOrNone value => value.toList.flatMap Path.marks
  | paths values => values.flatMap Path.marks
  | _ => []

def Settings.marks (settings : Settings) : List Mark :=
  Field.all.flatMap fun field => (settings.value field).marks

section

variable (hidden : Char → Bool)

theorem FieldValue.shows (value : FieldValue) :
    Outline.Shows (value.outline hidden).bare value.marks := by
  cases value with
  | flag value => exact Outline.shows_flag value
  | number value => exact Outline.shows_word ((FieldValue.number value).proper_outline hidden)
  | tier value => exact Outline.shows_word ((FieldValue.tier value).proper_outline hidden)
  | path value => exact Outline.shows_ofPath hidden value
  | text value => exact Outline.shows_ofText hidden value
  | textOrNone value => exact Outline.shows_optional (Outline.shows_ofText hidden) value
  | pathOrNone value => exact Outline.shows_optional (Outline.shows_ofPath hidden) value
  | texts values => exact Outline.shows_list (Outline.shows_ofText hidden) values
  | paths values => exact Outline.shows_list (Outline.shows_ofPath hidden) values

theorem Config.shows (config : Config) :
    Outline.Shows (config.outline hidden).bare config.marks := by
  have hmark : Name "initialized".toList := by simp [Name, isNameChar]
  have hinitialized := Outline.shows_field hmark
    ((FieldValue.flag config.initialized).shows hidden)
  have hfields := Outline.shows_fields (fun field : Field =>
    Outline.shows_field field.name_key ((config.value field).shows hidden)) Field.all
  have hname : Name "Config".toList := by simp [Name, isNameChar]
  have hopen : '{' ≠ '"' := by decide
  have hclose : '}' ≠ '"' := by decide
  have hall := (hinitialized.append hfields).enclosed (.of_name hname) hopen hclose
  rw [Config.outline, Outline.bare]
  exact hall

-- On one line or on many, what is shown between quotes are the texts and the paths of all fields.
theorem Config.marks_inner (config : Config) :
    marks (Outline.inner (config.outline hidden).inline) = config.marks ∧
    marks (Outline.inner ((config.outline hidden).stacked 0)) = config.marks := by
  have hproper := config.proper_outline hidden
  have hmarks := (config.shows hidden).eq
  constructor
  · rwa [← Outline.inner_squeeze, Outline.squeeze_inline_eq hproper]
  · rwa [← Outline.inner_clean, Outline.clean_stacked_eq hproper 0]

end

theorem filterMap_textMarks (text : String) : (textMarks text).filterMap Mark.byte? = [] := by
  rw [textMarks, List.filterMap_map]
  exact List.filterMap_eq_nil_iff.mpr fun c _ => rfl

theorem Path.filterMap_marks (path : Path) : path.marks.filterMap Mark.byte? = path.strays := by
  rw [Path.marks, Path.strays, List.filterMap_flatMap]
  congr 1
  funext piece
  cases piece with
  | scalar c => rfl
  | stray bytes =>
      rw [Quoted.marksOf, List.filterMap_map]
      exact List.filterMap_some

theorem FieldValue.filterMap_marks (value : FieldValue) :
    value.marks.filterMap Mark.byte? = value.allPaths.flatMap Path.strays := by
  cases value <;>
    simp [FieldValue.marks, FieldValue.allPaths, List.filterMap_flatMap, filterMap_textMarks,
      Path.filterMap_marks]

theorem Settings.flatMap_allPaths (settings : Settings) :
    (Field.all.flatMap fun field => (settings.value field).allPaths) = settings.allPaths := by
  simp [Field.all, Settings.value, FieldValue.allPaths, Settings.allPaths]

theorem Settings.filterMap_marks (settings : Settings) :
    settings.marks.filterMap Mark.byte? = settings.allPaths.flatMap Path.strays := by
  simp only [Settings.marks, List.filterMap_flatMap, FieldValue.filterMap_marks]
  rw [← List.flatMap_assoc, Settings.flatMap_allPaths]

end DocRun
