import DocRun.Proofs.Except
import DocRun.Proofs.Json.RoundTrip
import DocRun.Proofs.Utf8
import Mathlib.Data.List.TakeWhile

namespace DocRun.Json

-- What may stand between two tokens.
def Blank (space : List Char) : Prop := ∀ c ∈ space, c = ' ' ∨ c = '\t' ∨ c = '\n' ∨ c = '\r'

theorem blank_nil : Blank [] := fun _ hc => absurd hc List.not_mem_nil

theorem isSpace_iff {c : Char} :
    isSpace c = true ↔ c = ' ' ∨ c = '\t' ∨ c = '\n' ∨ c = '\r' := by
  simp only [isSpace, Bool.or_eq_true, decide_eq_true_eq, or_assoc]

theorem skipSpace_append {space : List Char} (h : Blank space) (text : List Char) :
    skipSpace (space ++ text) = skipSpace text :=
  List.dropWhile_append_of_pos fun c hc => isSpace_iff.mpr (h c hc)

theorem skipSpace_append_cons {space : List Char} (h : Blank space) {c : Char}
    (hc : isSpace c = false) (rest : List Char) : skipSpace (space ++ c :: rest) = c :: rest := by
  rw [skipSpace_append h, skipSpace_cons hc]

theorem skipSpace_eq_nil_iff {text : List Char} : skipSpace text = [] ↔ Blank text := by
  rw [skipSpace, List.dropWhile_eq_nil_iff]
  exact forall₂_congr fun _ _ => isSpace_iff

theorem skipSpace_eq_cons_iff {c : Char} (hc : isSpace c = false) {text rest : List Char} :
    skipSpace text = c :: rest ↔ ∃ space, Blank space ∧ text = space ++ c :: rest := by
  constructor
  · intro h
    refine ⟨text.takeWhile isSpace, fun _ hm => isSpace_iff.mp (List.mem_takeWhile_imp hm), ?_⟩
    rw [← h]
    exact List.takeWhile_append_dropWhile.symm
  · rintro ⟨space, hs, rfl⟩
    exact skipSpace_append_cons hs hc rest

theorem readLetters_eq_ok_iff {letters text rest : List Char} :
    readLetters letters text = .ok rest ↔ text = letters ++ rest := by
  induction letters generalizing text with
  | nil => exact ⟨Except.ok.inj, congrArg _⟩
  | cons letter letters ih =>
      cases text with
      | nil => exact ⟨(nomatch ·), (nomatch ·)⟩
      | cons c text =>
          rw [readLetters, List.cons_append, List.cons.injEq]
          by_cases hc : c = letter
          · rw [if_pos hc, ih]
            exact (and_iff_right hc).symm
          · rw [if_neg hc]
            exact ⟨(nomatch ·), fun h => absurd h.1 hc⟩

end DocRun.Json

namespace DocRun.Json.Literal

-- The letters that may follow a backslash, each with the character that it stands for.
def shortEscapes : List (Char × Char) := [
  ('"', '"'), ('\\', '\\'), ('/', '/'), ('b', '\x08'), ('f', '\x0c'), ('n', '\n'), ('r', '\r'),
  ('t', '\t')]

-- Four digits of either case.
inductive Quad : Nat → List Char → Prop
  | digits {i j k l : Nat} {a b c d : Char} (ha : Hex.IsDigit i a) (hb : Hex.IsDigit j b)
      (hc : Hex.IsDigit k c) (hd : Hex.IsDigit l d) :
      Quad (i * 0x1000 + j * 0x100 + k * 0x10 + l) [a, b, c, d]

-- The ways to write one character between quotes. Beyond U+FFFF the digits give the two halves of
-- its surrogate pair. No character is a surrogate, so that no half stands alone.
inductive SpellsChar (c : Char) : List Char → Prop
  | plain (hquote : c ≠ '"') (hback : c ≠ '\\') (hlow : 0x20 ≤ c.toNat) : SpellsChar c [c]
  | short {letter : Char} (h : (letter, c) ∈ shortEscapes) : SpellsChar c ['\\', letter]
  | digits {digits : List Char} (h : Quad c.toNat digits) : SpellsChar c ('\\' :: 'u' :: digits)
  | pair {lead trail : List Char} (h : 0x10000 ≤ c.toNat)
      (hlead : Quad (0xD800 + (c.toNat - 0x10000) / 0x400) lead)
      (htrail : Quad (0xDC00 + (c.toNat - 0x10000) % 0x400) trail) :
      SpellsChar c ('\\' :: 'u' :: lead ++ '\\' :: 'u' :: trail)

-- What may stand between the quotes of a literal, for the text that it holds.
inductive Spells : List Char → List Char → Prop
  | nil : Spells [] []
  | cons {c : Char} {body first rest : List Char} (hc : SpellsChar c first)
      (h : Spells body rest) : Spells (c :: body) (first ++ rest)

-- A text that needs no escape spells itself.
theorem spells_of_plain {text : List Char}
    (h : ∀ c ∈ text, c ≠ '"' ∧ c ≠ '\\' ∧ 0x20 ≤ c.toNat) : Spells text text := by
  induction text with
  | nil => exact .nil
  | cons c text ih =>
      obtain ⟨⟨hquote, hback, hlow⟩, htext⟩ := List.forall_mem_cons.mp h
      exact .cons (.plain hquote hback hlow) (ih htext)

theorem short?_eq_some_iff {letter c : Char} :
    short? letter = some c ↔ (letter, c) ∈ shortEscapes := by
  unfold short?
  split <;> simp_all [shortEscapes, eq_comm]

theorem readUnit_quad {n : Nat} {digits : List Char} (h : Quad n digits) (rest : List Char) :
    readUnit (digits ++ rest) = .ok (n, rest) := by
  cases h with
  | digits ha hb hc hd =>
      simp only [List.cons_append, List.nil_append, readUnit, Hex.value?_eq_some_iff.mpr ha,
        Hex.value?_eq_some_iff.mpr hb, Hex.value?_eq_some_iff.mpr hc, Hex.value?_eq_some_iff.mpr hd]

theorem quad_of_readUnit {text rest : List Char} {n : Nat} (h : readUnit text = .ok (n, rest)) :
    ∃ digits, text = digits ++ rest ∧ Quad n digits := by
  unfold readUnit at h
  split at h
  · split at h
    · rename_i ha hb hc hd
      obtain ⟨rfl, rfl⟩ := Prod.mk.inj (Except.ok.inj h)
      exact ⟨_, rfl, .digits (Hex.value?_eq_some_iff.mp ha) (Hex.value?_eq_some_iff.mp hb)
        (Hex.value?_eq_some_iff.mp hc) (Hex.value?_eq_some_iff.mp hd)⟩
    · exact nomatch h
  · split at h <;> exact nomatch h

theorem lt_of_quad {n : Nat} {digits : List Char} (h : Quad n digits) : n < 0x10000 := by
  cases h with
  | digits ha hb hc hd =>
      have := ha.1
      have := hb.1
      have := hc.1
      have := hd.1
      omega

theorem isLeading_iff {n : Nat} : isLeading n = true ↔ 0xD800 ≤ n ∧ n ≤ 0xDBFF := by
  simp [isLeading]

theorem isTrailing_iff {n : Nat} : isTrailing n = true ↔ 0xDC00 ≤ n ∧ n ≤ 0xDFFF := by
  simp [isTrailing]

theorem readTrail_quad (lead : Nat) {n : Nat} {digits : List Char} (h : Quad n digits)
    (ht : isTrailing n = true) (rest : List Char) :
    readTrail lead ('\\' :: 'u' :: digits ++ rest) = .ok (scalarOfPair lead n, rest) := by
  simp only [List.cons_append, readTrail, readUnit_quad h rest, bind, Except.bind, ht, if_true]

-- A character has one surrogate pair at most, and the pair gives it back.
theorem scalarOfPair_eq {c : Char} (h : 0x10000 ≤ c.toNat) :
    scalarOfPair (0xD800 + (c.toNat - 0x10000) / 0x400) (0xDC00 + (c.toNat - 0x10000) % 0x400) =
      c := by
  apply Utf8.ofNat_eq_char
  omega

-- The two halves of a pair are told apart.
theorem isLeading_lead (c : Char) :
    isLeading (0xD800 + (c.toNat - 0x10000) / 0x400) = true ∧
      isTrailing (0xD800 + (c.toNat - 0x10000) / 0x400) = false := by
  have hvalid := Utf8.toNat_valid c
  rw [Bool.eq_false_iff, Ne, isLeading_iff, isTrailing_iff]
  omega

theorem isTrailing_trail (c : Char) :
    isTrailing (0xDC00 + (c.toNat - 0x10000) % 0x400) = true := by
  rw [isTrailing_iff]
  omega

theorem toNat_scalarOfPair {lead trail : Nat} (hl : isLeading lead = true)
    (ht : isTrailing trail = true) :
    (scalarOfPair lead trail).toNat = 0x10000 + (lead - 0xD800) * 0x400 + (trail - 0xDC00) := by
  rw [isLeading_iff] at hl
  rw [isTrailing_iff] at ht
  apply Utf8.toNat_ofNat_char
  right
  omega

theorem readItem_of_spellsChar {c : Char} {text : List Char} (h : SpellsChar c text)
    (rest : List Char) : readItem (text ++ rest) = .ok (some c, rest) := by
  have hvalid := Utf8.toNat_valid c
  cases h with
  | plain hquote hback hlow => exact readItem_of_plain hquote hback (by omega) rest
  | @short letter h =>
      have hu : letter ≠ 'u' := by
        rintro rfl
        simp [shortEscapes] at h
      have hs := short?_eq_some_iff.mpr h
      have he : readEscape (letter :: rest) = .ok (c, rest) := by
        unfold readEscape
        split <;> simp_all
      simp only [List.cons_append, List.nil_append, readItem, he]
      rfl
  | digits h =>
      have htrail : isTrailing c.toNat = false := by
        rw [Bool.eq_false_iff, Ne, isTrailing_iff]
        omega
      have hlead : isLeading c.toNat = false := by
        rw [Bool.eq_false_iff, Ne, isLeading_iff]
        omega
      simp only [List.cons_append, readItem, readEscape, readUnicode, readUnit_quad h rest, htrail,
        hlead, bind, Except.bind, Char.ofNat_toNat]
      rfl
  | pair h hlead htrail =>
      obtain ⟨hl, hn⟩ := isLeading_lead c
      have hread := readTrail_quad (0xD800 + (c.toNat - 0x10000) / 0x400) htrail
        (isTrailing_trail c) rest
      rw [scalarOfPair_eq h] at hread
      simp only [List.cons_append, List.append_assoc] at hread ⊢
      simp only [readItem, readEscape, readUnicode, readUnit_quad hlead, hn, hl, bind, Except.bind,
        if_true, hread]
      rfl

theorem read_of_spells {body text : List Char} (h : Spells body text) (rest : List Char) :
    read (text ++ '"' :: rest) = .ok (body, rest) := by
  induction h with
  | nil => exact read_of_quote rfl
  | cons hc h ih =>
      rw [List.append_assoc, read_of_char (readItem_of_spellsChar hc _), ih]
      rfl

theorem trail_of_readTrail {lead : Nat} {text rest : List Char} {c : Char}
    (h : readTrail lead text = .ok (c, rest)) :
    ∃ trail digits, text = '\\' :: 'u' :: digits ++ rest ∧ Quad trail digits ∧
      isTrailing trail = true ∧ c = scalarOfPair lead trail := by
  unfold readTrail at h
  split at h
  · exact nomatch h
  · exact nomatch h
  · obtain ⟨⟨trail, left⟩, hu, ht⟩ := bind_eq_ok_iff.mp h
    obtain ⟨digits, rfl, hq⟩ := quad_of_readUnit hu
    dsimp only at ht
    by_cases htrail : isTrailing trail = true
    · rw [if_pos htrail] at ht
      obtain ⟨rfl, rfl⟩ := Prod.mk.inj (Except.ok.inj ht)
      exact ⟨trail, digits, rfl, hq, htrail, rfl⟩
    · rw [if_neg htrail] at ht
      exact nomatch ht
  · exact nomatch h

theorem spellsChar_of_readUnicode {text rest : List Char} {c : Char}
    (h : readUnicode text = .ok (c, rest)) :
    ∃ spelled, '\\' :: 'u' :: text = spelled ++ rest ∧ SpellsChar c spelled := by
  obtain ⟨⟨unit, left⟩, hu, hc⟩ := bind_eq_ok_iff.mp h
  obtain ⟨digits, rfl, hq⟩ := quad_of_readUnit hu
  have hlt := lt_of_quad hq
  dsimp only at hc
  by_cases htrail : isTrailing unit = true
  · rw [if_pos htrail] at hc
    exact nomatch hc
  rw [if_neg htrail] at hc
  by_cases hlead : isLeading unit = true
  · rw [if_pos hlead] at hc
    obtain ⟨trail, digits', rfl, hq', ht, hpair⟩ := trail_of_readTrail hc
    have hn := toNat_scalarOfPair hlead ht
    rw [← hpair] at hn
    rw [isLeading_iff] at hlead
    rw [isTrailing_iff] at ht
    have hl : 0xD800 + (c.toNat - 0x10000) / 0x400 = unit := by omega
    have hr : 0xDC00 + (c.toNat - 0x10000) % 0x400 = trail := by omega
    exact ⟨'\\' :: 'u' :: digits ++ '\\' :: 'u' :: digits', by simp,
      .pair (by omega) (hl ▸ hq) (hr ▸ hq')⟩
  · rw [if_neg hlead] at hc
    obtain ⟨rfl, rfl⟩ := Prod.mk.inj (Except.ok.inj hc)
    rw [isLeading_iff] at hlead
    rw [isTrailing_iff] at htrail
    have hn : (Char.ofNat unit).toNat = unit := Utf8.toNat_ofNat_char (by
      rw [Nat.isValidChar]
      omega)
    exact ⟨'\\' :: 'u' :: digits, rfl, .digits (hn.symm ▸ hq)⟩

theorem spellsChar_of_readEscape {text rest : List Char} {c : Char}
    (h : readEscape text = .ok (c, rest)) :
    ∃ spelled, '\\' :: text = spelled ++ rest ∧ SpellsChar c spelled := by
  unfold readEscape at h
  split at h
  · exact nomatch h
  · exact spellsChar_of_readUnicode h
  · split at h
    · rename_i hs
      obtain ⟨rfl, rfl⟩ := Prod.mk.inj (Except.ok.inj h)
      exact ⟨_, rfl, .short (short?_eq_some_iff.mp hs)⟩
    · exact nomatch h

theorem spellsChar_of_readItem {text rest : List Char} {c : Char}
    (h : readItem text = .ok (some c, rest)) :
    ∃ spelled, text = spelled ++ rest ∧ SpellsChar c spelled := by
  unfold readItem at h
  split at h
  · exact nomatch h
  · exact nomatch h
  · obtain ⟨⟨d, left⟩, he, hc⟩ := bind_eq_ok_iff.mp h
    obtain ⟨hd, rfl⟩ := Prod.mk.inj (Except.ok.inj hc)
    obtain rfl := Option.some.inj hd
    exact spellsChar_of_readEscape he
  · rename_i d left hquote hback
    by_cases hlow : d.toNat < 0x20
    · rw [if_pos hlow] at h
      exact nomatch h
    · rw [if_neg hlow] at h
      obtain ⟨hd, rfl⟩ := Prod.mk.inj (Except.ok.inj h)
      obtain rfl := Option.some.inj hd
      exact ⟨[d], rfl, .plain hquote hback (by omega)⟩

theorem eq_quote_of_readItem {text rest : List Char} (h : readItem text = .ok (none, rest)) :
    text = '"' :: rest := by
  unfold readItem at h
  split at h
  · exact nomatch h
  · rw [(Prod.mk.inj (Except.ok.inj h)).2]
  · obtain ⟨_, _, hc⟩ := bind_eq_ok_iff.mp h
    exact nomatch (Prod.mk.inj (Except.ok.inj hc)).1
  · split at h <;> exact nomatch h

theorem spells_of_read {text body rest : List Char} (h : read text = .ok (body, rest)) :
    ∃ spelled, text = spelled ++ '"' :: rest ∧ Spells body spelled := by
  fun_induction read text generalizing body with
  | case1 => exact nomatch h
  | case2 text left hi =>
      obtain ⟨rfl, rfl⟩ := Prod.mk.inj (Except.ok.inj h)
      exact ⟨[], eq_quote_of_readItem hi, .nil⟩
  | case3 => exact nomatch h
  | case4 text c left hi body' left' hr ih =>
      obtain ⟨rfl, rfl⟩ := Prod.mk.inj (Except.ok.inj h)
      obtain ⟨first, rfl, hc⟩ := spellsChar_of_readItem hi
      obtain ⟨spelled, rfl, hs⟩ := ih hr
      exact ⟨first ++ spelled, (List.append_assoc _ _ _).symm, .cons hc hs⟩

-- The reader accepts exactly the spellings of a text and gives that text.
theorem read_eq_ok_iff {text body rest : List Char} :
    read text = .ok (body, rest) ↔
      ∃ spelled, text = spelled ++ '"' :: rest ∧ Spells body spelled := by
  constructor
  · exact spells_of_read
  · rintro ⟨spelled, rfl, h⟩
    exact read_of_spells h rest

end DocRun.Json.Literal
