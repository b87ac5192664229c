import DocRun.Json.Writer
import DocRun.Proofs.Json.Literal
import DocRun.Proofs.Json.Number
import DocRun.Proofs.Outline.Places

namespace DocRun.Json

open Outline (isPlain isGap)

-- Numbers and words are made of these.
def isWordChar (c : Char) : Bool :=
  0x20 < c.toNat && c.toNat < 0x7F && c ≠ '"' && c ≠ ','

theorem ne_of_isWordChar {c d : Char} (hc : isWordChar c = true) (hd : isWordChar d = false) :
    c ≠ d := by
  rintro rfl
  exact Bool.false_ne_true (hd.symm.trans hc)

theorem isPlain_of_isWordChar {c : Char} (h : isWordChar c = true) : isPlain c = true := by
  have hspace := ne_of_isWordChar h (d := ' ') (by decide)
  have hline := ne_of_isWordChar h (d := '\n') (by decide)
  have hquote := ne_of_isWordChar h (d := '"') (by decide)
  have hcomma := ne_of_isWordChar h (d := ',') (by decide)
  simp [isPlain, isGap, hspace, hline, hquote, hcomma]

theorem visible_of_isWordChar {c : Char} (h : isWordChar c = true) :
    0x20 < c.toNat ∧ c.toNat < 0x7F := by
  simp only [isWordChar, Bool.and_eq_true, decide_eq_true_eq] at h
  exact h.1.1

section Words

-- All characters of a text are such.
def Word (text : List Char) : Prop := ∀ c ∈ text, isWordChar c = true

instance (text : List Char) : Decidable (Word text) :=
  List.decidableBAll (fun c => isWordChar c = true) text

theorem word_ofNat (n : Nat) : Word (Decimal.ofNat n) := by
  intro c hc
  have hd := Number.isDigit_iff.mp (Number.isDigit_of_mem_ofNat hc)
  have hrange : 0x30 ≤ c.toNat ∧ c.toNat ≤ 0x39 := Char.isDigit_iff_toNat.mp hd
  have hne : ∀ d : Char, d.isDigit = false → c ≠ d := by
    rintro d hn rfl
    exact Bool.false_ne_true (hn.symm.trans hd)
  have hquote := hne '"' (by decide)
  have hcomma := hne ',' (by decide)
  simp only [isWordChar, Bool.and_eq_true, decide_eq_true_eq]
  exact ⟨⟨⟨by omega, by omega⟩, hquote⟩, hcomma⟩

theorem word_ofInt (n : Int) : Word (Decimal.ofInt n) := by
  rw [Decimal.ofInt]
  split
  · exact List.forall_mem_cons.mpr ⟨by decide, word_ofNat _⟩
  · exact word_ofNat _

theorem word_zeros (n : Int) : Word (Decimal.zeros n) := by
  intro c hc
  rw [List.eq_of_mem_replicate hc]
  decide

theorem Word.append {s t : List Char} (hs : Word s) (ht : Word t) : Word (s ++ t) :=
  List.forall_mem_append.mpr ⟨hs, ht⟩

theorem Word.cons {c : Char} {text : List Char} (hc : isWordChar c = true) (h : Word text) :
    Word (c :: text) :=
  List.forall_mem_cons.mpr ⟨hc, h⟩

theorem Word.take {text : List Char} (h : Word text) (n : Nat) : Word (text.take n) :=
  fun c hc => h c (List.mem_of_mem_take hc)

theorem Word.drop {text : List Char} (h : Word text) (n : Nat) : Word (text.drop n) :=
  fun c hc => h c (List.mem_of_mem_drop hc)

theorem word_render (x : Decimal.Number) : Word x.render := by
  have hdigits := word_ofNat x.digits
  have hpoint : isWordChar '.' = true := by decide
  simp only [Decimal.Number.render]
  split
  · have hend : Word ['.', '0'] := by decide
    exact (hdigits.append (word_zeros _)).append hend
  split
  · exact (hdigits.take _).append (.cons hpoint (hdigits.drop _))
  split
  · have hstart : Word ['0', '.'] := by decide
    exact (hstart.append (word_zeros _)).append hdigits
  · refine Word.append (.append (hdigits.take 1) ?_) (.cons (by decide) (word_ofInt _))
    split
    · decide
    · exact .cons hpoint (hdigits.drop 1)

theorem word_renderFloat (x : Float) : Word (Decimal.renderFloat x) := by
  simp only [Decimal.renderFloat]
  refine Word.append ?_ ?_
  · split <;> decide
  split
  · split
    · decide
    · exact word_render _
  · exact word_render _

theorem word_nullText : Word nullText := by decide

theorem word_writeBool (value : Bool) : Word (writeBool value) := by
  cases value <;> decide

theorem word_writeFloat (x : Float) : Word (writeFloat x) := by
  rw [writeFloat]
  split
  · exact word_renderFloat x
  · exact word_nullText

end Words

end DocRun.Json

namespace DocRun.Json.Literal

open Quoted (Body)

theorem ne_line_of_le {c : Char} (h : 0x20 ≤ c.toNat) : c ≠ '\n' := by
  rintro rfl
  exact absurd h (by decide)

theorem body_escape (c : Char) : Body (escape c) := by
  obtain ⟨letter, he, hletter, -⟩ | ⟨he, hlow⟩ | ⟨he, hquote, hback, hlow⟩ := escape_cases c
  · rw [he]
    exact .escaped (ne_line_of_le hletter) .nil
  · have hdigits : Body (Hex.lower c.toNat) := Body.of_digits fun d hd =>
      Hex.isSome_value?_of_mem_lower (by omega) hd
    have hzero : Body ['0', '0'] := Body.of_digits
      (List.forall_mem_cons.mpr ⟨rfl, List.forall_mem_singleton.mpr rfl⟩)
    rw [he]
    exact .escaped (by decide) (hzero.append hdigits)
  · rw [he]
    exact .single hquote hback (ne_line_of_le hlow)

-- Nothing that is written for a character is a control character.
theorem le_of_mem_escape {c d : Char} (h : d ∈ escape c) : 0x20 ≤ d.toNat := by
  obtain ⟨letter, he, hletter, -⟩ | ⟨he, hlow⟩ | ⟨he, -, -, hlow⟩ := escape_cases c
  · rw [he] at h
    simp only [List.mem_cons, List.not_mem_nil, or_false] at h
    obtain rfl | rfl := h
    · decide
    · exact hletter
  · rw [he] at h
    simp only [List.mem_cons] at h
    obtain rfl | rfl | rfl | rfl | hd := h
    · decide
    · decide
    · decide
    · decide
    · exact Hex.le_of_isSome_value? (Hex.isSome_value?_of_mem_lower (by omega) hd)
  · rw [he, List.mem_singleton] at h
    rwa [h]

theorem body_escapes (text : List Char) : Body (text.flatMap escape) := by
  induction text with
  | nil => exact .nil
  | cons c text ih => exact (body_escape c).append ih

theorem literal_write (text : List Char) : Quoted.Literal (write text) :=
  ⟨_, body_escapes text, rfl⟩

end DocRun.Json.Literal

namespace DocRun.Json

open Outline (Marked inner squeeze squeeze_cons squeeze_comma squeeze_gap squeeze_literal
  squeeze_spaces inner_squeeze)

section Squeeze

theorem squeeze_word {text : List Char} (h : Word text) (rest : List Char) :
    squeeze (text ++ rest) = text ++ squeeze rest := by
  induction text with
  | nil => rfl
  | cons c text ih =>
      obtain ⟨hc, htext⟩ := List.forall_mem_cons.mp h
      rw [List.cons_append, squeeze_cons (isPlain_of_isWordChar hc), ih htext, List.cons_append]

theorem squeeze_newLine (depth : Nat) (rest : List Char) :
    squeeze (newLine depth ++ rest) = squeeze rest := by
  rw [newLine, List.cons_append, squeeze_gap rfl, squeeze_spaces]

mutual

-- Outside of the literals the gaps are all that is added to a compact text.
theorem squeeze_pretty (value : Json) (depth : Nat) (rest : List Char) :
    squeeze (pretty depth value ++ rest) = compact value ++ squeeze rest := by
  cases value with
  | null => exact squeeze_word word_nullText rest
  | bool value => exact squeeze_word (word_writeBool value) rest
  | int value => exact squeeze_word (word_ofInt value) rest
  | float value => exact squeeze_word (word_writeFloat value) rest
  | str text => exact squeeze_literal (Literal.literal_write text.toList) rest
  | arr items =>
      cases items with
      | nil =>
          simp only [pretty, compact, List.cons_append, List.nil_append]
          rw [squeeze_cons rfl, squeeze_cons rfl]
      | cons item items =>
          simp only [pretty, compact, List.append_assoc, List.cons_append, List.nil_append]
          rw [squeeze_cons rfl, squeeze_newLine, squeeze_pretty item, squeeze_prettyItems items,
            squeeze_newLine, squeeze_cons rfl]
  | obj members =>
      cases members with
      | nil =>
          simp only [pretty, compact, List.cons_append, List.nil_append]
          rw [squeeze_cons rfl, squeeze_cons rfl]
      | cons member members =>
          simp only [pretty, compact, List.append_assoc, List.cons_append, List.nil_append]
          rw [squeeze_cons rfl, squeeze_newLine, squeeze_prettyMember member,
            squeeze_prettyMembers members, squeeze_newLine, squeeze_cons rfl]

theorem squeeze_prettyItems (items : List Json) (depth : Nat) (rest : List Char) :
    squeeze (prettyItems depth items ++ rest) = compactItems items ++ squeeze rest := by
  cases items with
  | nil => rfl
  | cons item items =>
      simp only [prettyItems, compactItems, List.append_assoc, List.cons_append]
      rw [squeeze_comma, squeeze_newLine, squeeze_pretty item, squeeze_prettyItems items]

theorem squeeze_prettyMember (member : String × Json) (depth : Nat) (rest : List Char) :
    squeeze (prettyMember depth member ++ rest) = compactMember member ++ squeeze rest := by
  obtain ⟨key, value⟩ := member
  simp only [prettyMember, compactMember, List.append_assoc, List.cons_append]
  rw [squeeze_literal (Literal.literal_write key.toList), squeeze_cons rfl, squeeze_gap rfl,
    squeeze_pretty value]

theorem squeeze_prettyMembers (members : List (String × Json)) (depth : Nat)
    (rest : List Char) :
    squeeze (prettyMembers depth members ++ rest) = compactMembers members ++ squeeze rest := by
  cases members with
  | nil => rfl
  | cons member members =>
      simp only [prettyMembers, compactMembers, List.append_assoc, List.cons_append]
      rw [squeeze_comma, squeeze_newLine, squeeze_prettyMember member,
        squeeze_prettyMembers members]

end

theorem squeeze_pretty_eq (value : Json) (depth : Nat) :
    squeeze (pretty depth value) = compact value := by
  have h := squeeze_pretty value depth []
  rwa [List.append_nil, show squeeze [] = [] from rfl, List.append_nil] at h

end Squeeze

section Marked

-- Only visible characters of ASCII outside of literals, and no control character inside.
abbrev Tight (text : List Char) : Prop :=
  Marked (fun c => 0x20 < c.toNat ∧ c.toNat < 0x7F) (fun c => 0x20 ≤ c.toNat) text

theorem Word.tight {text : List Char} (h : Word text) : Tight text :=
  .of_chars fun c hc =>
    ⟨ne_of_isWordChar (h c hc) (by decide), visible_of_isWordChar (h c hc)⟩

theorem tight_write (text : List Char) : Tight (Literal.write text) := by
  refine .literal (Literal.body_escapes text) (fun d hd => ?_) .nil
  obtain ⟨c, -, hc⟩ := List.mem_flatMap.mp hd
  exact Literal.le_of_mem_escape hc

mutual

theorem tight_compact (value : Json) : Tight (compact value) := by
  cases value with
  | null => exact word_nullText.tight
  | bool value => exact (word_writeBool value).tight
  | int value => exact (word_ofInt value).tight
  | float value => exact (word_writeFloat value).tight
  | str text => exact tight_write text.toList
  | arr items =>
      have hclose : Tight [']'] := .char (by decide) (by decide) .nil
      cases items with
      | nil => exact .char (by decide) (by decide) hclose
      | cons item items =>
          have hitems := (tight_compact item).append (tight_compactItems items)
          exact .append (.char (by decide) (by decide) hitems) hclose
  | obj members =>
      have hclose : Tight ['}'] := .char (by decide) (by decide) .nil
      cases members with
      | nil => exact .char (by decide) (by decide) hclose
      | cons member members =>
          have hmembers := (tight_compactMember member).append (tight_compactMembers members)
          exact .append (.char (by decide) (by decide) hmembers) hclose

theorem tight_compactItems (items : List Json) : Tight (compactItems items) := by
  cases items with
  | nil => exact .nil
  | cons item items =>
      exact .char (by decide) (by decide) ((tight_compact item).append (tight_compactItems items))

theorem tight_compactMember (member : String × Json) : Tight (compactMember member) := by
  obtain ⟨key, value⟩ := member
  exact (tight_write key.toList).append (.char (by decide) (by decide) (tight_compact value))

theorem tight_compactMembers (members : List (String × Json)) :
    Tight (compactMembers members) := by
  cases members with
  | nil => exact .nil
  | cons member members =>
      exact .char (by decide) (by decide)
        ((tight_compactMember member).append (tight_compactMembers members))

end

-- The literals are the same in both layouts.
theorem inner_pretty (value : Json) (depth : Nat) :
    inner (pretty depth value) = inner (compact value) := by
  rw [← inner_squeeze, squeeze_pretty_eq]

theorem getLast?_pretty_obj (members : List (String × Json)) (depth : Nat) :
    (pretty depth (.obj members)).getLast? = some '}' := by
  cases members with
  | nil => rfl
  | cons member members => rw [pretty, List.getLast?_concat]

end Marked

end DocRun.Json
