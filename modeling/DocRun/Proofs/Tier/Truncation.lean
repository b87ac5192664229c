import DocRun.Proofs.Json.Waiting
import DocRun.Proofs.Tier.Grammar

namespace DocRun.Tier

open Json (Blank Takes)
open Json.Literal (Spells)

-- A text that holds a tier up to the character that closes it, which is the second quote of the
-- name or the brace of the object.
inductive Unclosed (tier : Tier) : List Char → Char → Prop
  | name {before literal : List Char} (hb : Blank before)
      (hl : Spells tier.name.toList literal) :
      Unclosed tier (before ++ '"' :: literal) '"'
  | member {before s₁ literal s₂ s₃ s₄ : List Char} (hb : Blank before) (h₁ : Blank s₁)
      (hl : Spells tier.name.toList literal) (h₂ : Blank s₂) (h₃ : Blank s₃) (h₄ : Blank s₄) :
      Unclosed tier (before ++ '{' :: (s₁ ++ '"' :: (literal ++ '"' :: (s₂ ++ ':' ::
        (s₃ ++ 'n' :: 'u' :: 'l' :: 'l' :: s₄))))) '}'

theorem Written.exists_unclosed {tier : Tier} {text : List Char} (h : Written tier text) :
    ∃ body close after, Unclosed tier body close ∧ Blank after ∧
      text = body ++ close :: after := by
  cases h with
  | name hb hl ha => exact ⟨_, _, _, .name hb hl, ha, by simp⟩
  | member hb h₁ hl h₂ h₃ h₄ ha => exact ⟨_, _, _, .member hb h₁ hl h₂ h₃ h₄, ha, by simp⟩

section

variable {tier : Tier} {literal : List Char} (hl : Spells tier.name.toList literal)

include hl

theorem takes_name :
    Takes (.fault .endOfText) readName (literal ++ ['"']) (tier, ·) where
  whole := fun rest => readName_eq_ok_iff.mpr ⟨literal, by simp, hl⟩
  part := by
    intro part hp hne
    rw [readName, (Json.Literal.takes_read hl).part part hp hne]
    rfl

theorem takes_key {space : List Char} (hs : Blank space) :
    Takes (.fault .endOfText) readKey (space ++ '"' :: (literal ++ ['"'])) (tier, ·) := by
  have hquote : Takes (.fault .endOfText) readKey ('"' :: (literal ++ ['"'])) (tier, ·) :=
    .cons rfl (takes_name hl)
  refine hquote.after_space hs (List.cons_ne_nil _ _) fun text => ?_
  simp only [readKey, Json.skipSpace_skipSpace]

end

section

variable {space : List Char} (hs : Blank space)

include hs

theorem takes_mark {mark : Char} (hm : Json.isSpace mark = false) :
    Takes (.fault .endOfText) (readMark mark) (space ++ [mark]) fun rest => rest := by
  have hmark : Takes (.fault .endOfText) (readMark mark) [mark] fun rest => rest :=
    .cons rfl (.nil fun rest => (readMark_eq_ok_iff hm).mpr ⟨[], Json.blank_nil, rfl⟩)
  refine hmark.after_space hs (List.cons_ne_nil _ _) fun text => ?_
  simp only [readMark, Json.skipSpace_skipSpace]

theorem takes_null :
    Takes (.fault .endOfText) readNull (space ++ ['n', 'u', 'l', 'l']) fun rest => rest := by
  have hword : Takes (.fault .endOfText) (fun text => readNull ('n' :: text)) ['u', 'l', 'l']
      fun rest => rest := {
    whole := fun rest => readNull_eq_ok_iff.mpr ⟨[], Json.blank_nil, rfl⟩
    part := by
      intro part hp hne
      have hletters := (Json.takes_letters ['u', 'l', 'l']).part part hp hne
      exact congrArg TextError.ofFault hletters }
  have hnull : Takes (.fault .endOfText) readNull ['n', 'u', 'l', 'l'] fun rest => rest :=
    .cons rfl hword
  refine hnull.after_space hs (List.cons_ne_nil _ _) fun text => ?_
  simp only [readNull, Json.skipSpace_skipSpace]

end

theorem takes_member {tier : Tier} {s₁ literal s₂ s₃ s₄ : List Char} (h₁ : Blank s₁)
    (hl : Spells tier.name.toList literal) (h₂ : Blank s₂) (h₃ : Blank s₃) (h₄ : Blank s₄) :
    Takes (.fault .endOfText) readMember
      ((s₁ ++ '"' :: (literal ++ ['"'])) ++ ((s₂ ++ [':']) ++ ((s₃ ++ ['n', 'u', 'l', 'l']) ++
        (s₄ ++ ['}'])))) (tier, ·) := by
  have hbrace : Json.isSpace '}' = false := by decide
  have hcolon : Json.isSpace ':' = false := by decide
  have hclosed := (takes_mark h₄ hbrace).map fun rest => (tier, rest)
  exact (takes_key hl h₁).bind ((takes_mark h₂ hcolon).bind ((takes_null h₃).bind hclosed))

theorem Unclosed.takes {tier : Tier} {body : List Char} {close : Char}
    (h : Unclosed tier body close) :
    Takes (.fault .endOfText) readTier (body ++ [close]) (tier, ·) := by
  have hskip : ∀ text, readTier (Json.skipSpace text) = readTier text := by
    intro text
    simp only [readTier, Json.skipSpace_skipSpace]
  cases h with
  | @name before literal hb hl =>
      have hquote : Takes (.fault .endOfText) readTier ('"' :: (literal ++ ['"'])) (tier, ·) :=
        .cons rfl (takes_name hl)
      have htakes := hquote.after_space hb (List.cons_ne_nil _ _) hskip
      simpa using htakes
  | @member before s₁ literal s₂ s₃ s₄ hb h₁ hl h₂ h₃ h₄ =>
      have hopened : Takes (.fault .endOfText) readTier ('{' :: _) (tier, ·) :=
        .cons rfl (takes_member h₁ hl h₂ h₃ h₄)
      have htakes := hopened.after_space hb (List.cons_ne_nil _ _) hskip
      simpa using htakes

section

variable {tier : Tier} {body : List Char} {close : Char} (h : Unclosed tier body close)

include h

theorem Unclosed.readTier_closed (after : List Char) :
    readTier (body ++ close :: after) = .ok (tier, after) := by
  have hwhole := h.takes.whole after
  rwa [List.append_assoc] at hwhole

theorem Unclosed.ofText_eq_ok_iff {after : List Char} :
    ofText (body ++ close :: after) = .ok tier ↔ Blank after := by
  rw [Tier.ofText_eq_ok_iff, h.readTier_closed]
  constructor
  · rintro ⟨rest, hr, he⟩
    rwa [(Prod.mk.inj (Except.ok.inj he)).2]
  · exact fun ha => ⟨after, ha, rfl⟩

theorem Unclosed.ofText_malformed {after : List Char} (ha : ¬Blank after) :
    ofText (body ++ close :: after) = .error (.fault .malformed) := by
  have hne : ¬(Json.skipSpace after).isEmpty = true := by
    rwa [List.isEmpty_iff, Json.skipSpace_eq_nil_iff]
  rw [ofText, h.readTier_closed]
  exact if_neg hne

theorem Unclosed.ofText_part {part : List Char} (hp : part <+: body) :
    ofText part = .error (.fault .endOfText) := by
  have hshort : part ≠ body ++ [close] := by
    rintro rfl
    have hle := hp.length_le
    rw [List.length_append, List.length_singleton] at hle
    omega
  rw [ofText, h.takes.part part (hp.trans (List.prefix_append body [close])) hshort]
  rfl

end

theorem blank_append_iff {s t : List Char} : Blank (s ++ t) ↔ Blank s ∧ Blank t :=
  List.forall_mem_append

-- A text that holds a tier has a character that closes it. Cut off before that one it has ended too
-- early, cut off behind it still holds the tier, and nothing but space may be added.
theorem ofText_cut_or_extended {text : List Char} {tier : Tier} (h : ofText text = .ok tier) :
    (∃ body close after, Unclosed tier body close ∧ text = body ++ close :: after) ∧
    ∀ body close after, Unclosed tier body close → text = body ++ close :: after →
      (∀ part, part <+: body → ofText part = .error (.fault .endOfText)) ∧
      (∀ part, body ++ [close] <+: part → part <+: text → ofText part = .ok tier) ∧
      (∀ more, Blank more → ofText (text ++ more) = .ok tier) ∧
      ∀ more, ¬Blank more → ofText (text ++ more) = .error (.fault .malformed) := by
  constructor
  · obtain ⟨body, close, after, hu, -, he⟩ := (accepts_iff_written.mp h).exists_unclosed
    exact ⟨body, close, after, hu, he⟩
  · rintro body close after hu rfl
    have ha : Blank after := hu.ofText_eq_ok_iff.mp h
    refine ⟨fun part hp => hu.ofText_part hp, ?_, ?_, ?_⟩
    · rintro part ⟨left, rfl⟩ hp
      rw [List.append_assoc] at hp ⊢
      have hleft := List.cons_prefix_cons.mp ((List.prefix_append_right_inj body).mp hp)
      exact hu.ofText_eq_ok_iff.mpr fun c hc => ha c (hleft.2.subset hc)
    · intro more hm
      rw [List.append_assoc]
      exact hu.ofText_eq_ok_iff.mpr (blank_append_iff.mpr ⟨ha, hm⟩)
    · intro more hm
      rw [List.append_assoc]
      exact hu.ofText_malformed fun hall => hm (blank_append_iff.mp hall).2

-- A cut between the digits of a letter, one directly behind the closing brace, and a brace too
-- many.
theorem ofText_cut_or_extended_digits :
    ofText "\x7b\"\\u0066ull\":null\x7d\n".toList = .ok .full ∧
    ofText "\x7b\"\\u00".toList = .error (.fault .endOfText) ∧
    ofText "\x7b\"\\u0066ull\":null\x7d".toList = .ok .full ∧
    ofText "\x7b\"\\u0066ull\":null\x7d\n\x7d".toList = .error (.fault .malformed) := by
  have hf : Json.Literal.Quad 'f'.toNat ['0', '0', '6', '6'] :=
    .digits (i := 0) (j := 0) (k := 6) (l := 6) (by decide) (by decide) (by decide) (by decide)
  have hrest : Spells "ull".toList "ull".toList := Json.Literal.spells_of_plain (by simp)
  have hname : Spells (name .full).toList "\\u0066ull".toList := .cons (.digits hf) hrest
  have hline : Blank ['\n'] := by
    simp [Blank]
  have hu : Unclosed .full "\x7b\"\\u0066ull\":null".toList '}' :=
    .member Json.blank_nil Json.blank_nil hname Json.blank_nil Json.blank_nil Json.blank_nil
  have htext : ofText "\x7b\"\\u0066ull\":null\x7d\n".toList = .ok .full :=
    hu.ofText_eq_ok_iff.mpr hline
  obtain ⟨hcut, hclosed, -, hmore⟩ := (ofText_cut_or_extended htext).2 _ _ ['\n'] hu rfl
  refine ⟨htext, hcut _ ⟨"66ull\":null".toList, rfl⟩, hclosed _ List.prefix_rfl ⟨['\n'], rfl⟩,
    hmore ['}'] ?_⟩
  simp [Blank]

end DocRun.Tier
