import DocRun.Proofs.Json.Spelling
import DocRun.Tier.Text

namespace DocRun.Tier

open Json (Blank)
open Json.Literal (Spells)

-- The texts that hold a tier. The name is a string, or the key of an object's only member.
inductive Written (tier : Tier) : List Char → Prop
  | name {before literal after : List Char} (hb : Blank before)
      (hl : Spells tier.name.toList literal) (ha : Blank after) :
      Written tier (before ++ '"' :: (literal ++ '"' :: after))
  | member {before s₁ literal s₂ s₃ s₄ after : List Char} (hb : Blank before)
      (h₁ : Blank s₁) (hl : Spells tier.name.toList literal) (h₂ : Blank s₂) (h₃ : Blank s₃)
      (h₄ : Blank s₄) (ha : Blank after) :
      Written tier (before ++ '{' :: (s₁ ++ '"' :: (literal ++ '"' :: (s₂ ++ ':' ::
        (s₃ ++ 'n' :: 'u' :: 'l' :: 'l' :: (s₄ ++ '}' :: after))))))

theorem ofName_eq_ok_iff {name : String} {tier : Tier} :
    ofName name = .ok tier ↔ name = tier.name := by
  unfold ofName
  constructor
  · intro h
    split at h
    · rename_i found hf
      rw [← Except.ok.inj h, name_of_ofName? hf]
    · exact nomatch h
  · rintro rfl
    rw [ofName?_name]

-- What is said of a name does not depend on how its letters are spelt.
theorem readName_of_read {text body rest : List Char}
    (h : Json.Literal.read text = .ok (body, rest)) :
    readName text = (TextError.ofProblem (ofName (String.ofList body))).map (·, rest) := by
  simp only [readName, h, TextError.ofFault, Except.mapError, bind, Except.bind]
  cases TextError.ofProblem (ofName (String.ofList body)) <;> rfl

theorem readName_eq_ok_iff {text rest : List Char} {tier : Tier} :
    readName text = .ok (tier, rest) ↔
      ∃ literal, text = literal ++ '"' :: rest ∧ Spells tier.name.toList literal := by
  rw [← Json.Literal.read_eq_ok_iff]
  constructor
  · intro h
    obtain ⟨⟨body, left⟩, hr, h⟩ := bind_eq_ok_iff.mp h
    obtain ⟨found, hn, h⟩ := bind_eq_ok_iff.mp h
    obtain ⟨rfl, rfl⟩ := Prod.mk.inj (Except.ok.inj h)
    have hname := ofName_eq_ok_iff.mp (mapError_eq_ok_iff.mp hn)
    rw [mapError_eq_ok_iff.mp hr, ← hname, String.toList_ofList]
  · intro h
    have hn : ofName (String.ofList tier.name.toList) = .ok tier :=
      ofName_eq_ok_iff.mpr String.ofList_toList
    rw [readName_of_read h, hn]
    rfl

theorem readKey_eq_ok_iff {text rest : List Char} {tier : Tier} :
    readKey text = .ok (tier, rest) ↔ ∃ space literal, Blank space ∧
      text = space ++ '"' :: (literal ++ '"' :: rest) ∧ Spells tier.name.toList literal := by
  have hquote : Json.isSpace '"' = false := by decide
  constructor
  · intro h
    unfold readKey at h
    split at h
    · rename_i left hs
      obtain ⟨space, hb, rfl⟩ := (Json.skipSpace_eq_cons_iff hquote).mp hs
      obtain ⟨literal, rfl, hl⟩ := readName_eq_ok_iff.mp h
      exact ⟨space, literal, hb, rfl, hl⟩
    · exact nomatch h
  · rintro ⟨space, literal, hb, rfl, hl⟩
    unfold readKey
    rw [Json.skipSpace_append_cons hb hquote]
    exact readName_eq_ok_iff.mpr ⟨literal, rfl, hl⟩

theorem readNull_eq_ok_iff {text rest : List Char} :
    readNull text = .ok rest ↔
      ∃ space, Blank space ∧ text = space ++ 'n' :: 'u' :: 'l' :: 'l' :: rest := by
  have hn : Json.isSpace 'n' = false := by decide
  constructor
  · intro h
    unfold readNull at h
    split at h
    · rename_i left hs
      obtain ⟨space, hb, rfl⟩ := (Json.skipSpace_eq_cons_iff hn).mp hs
      obtain rfl := Json.readLetters_eq_ok_iff.mp (mapError_eq_ok_iff.mp h)
      exact ⟨space, hb, rfl⟩
    · exact nomatch h
  · rintro ⟨space, hb, rfl⟩
    unfold readNull
    rw [Json.skipSpace_append_cons hb hn]
    exact mapError_eq_ok_iff.mpr (Json.readLetters_eq_ok_iff.mpr rfl)

theorem readMark_eq_ok_iff {mark : Char} (hm : Json.isSpace mark = false)
    {text rest : List Char} :
    readMark mark text = .ok rest ↔ ∃ space, Blank space ∧ text = space ++ mark :: rest := by
  rw [← Json.skipSpace_eq_cons_iff hm]
  unfold readMark
  constructor
  · intro h
    split at h
    · exact nomatch h
    · rename_i c left hs
      split at h
      · rename_i hc
        rw [hs, hc, Except.ok.inj h]
      · exact nomatch h
  · intro hs
    simp only [hs, if_true]

theorem readMember_eq_ok_iff {text rest : List Char} {tier : Tier} :
    readMember text = .ok (tier, rest) ↔ ∃ s₁ literal s₂ s₃ s₄,
      Blank s₁ ∧ Spells tier.name.toList literal ∧ Blank s₂ ∧ Blank s₃ ∧ Blank s₄ ∧
      text = s₁ ++ '"' :: (literal ++ '"' :: (s₂ ++ ':' ::
        (s₃ ++ 'n' :: 'u' :: 'l' :: 'l' :: (s₄ ++ '}' :: rest)))) := by
  have hcolon : Json.isSpace ':' = false := by decide
  have hbrace : Json.isSpace '}' = false := by decide
  constructor
  · intro h
    obtain ⟨⟨found, r₁⟩, hk, h⟩ := bind_eq_ok_iff.mp h
    obtain ⟨r₂, hc, h⟩ := bind_eq_ok_iff.mp h
    obtain ⟨r₃, hn, h⟩ := bind_eq_ok_iff.mp h
    obtain ⟨r₄, hb, h⟩ := bind_eq_ok_iff.mp h
    obtain ⟨rfl, rfl⟩ := Prod.mk.inj (Except.ok.inj h)
    obtain ⟨s₁, literal, h₁, rfl, hl⟩ := readKey_eq_ok_iff.mp hk
    obtain ⟨s₂, h₂, rfl⟩ := (readMark_eq_ok_iff hcolon).mp hc
    obtain ⟨s₃, h₃, rfl⟩ := readNull_eq_ok_iff.mp hn
    obtain ⟨s₄, h₄, rfl⟩ := (readMark_eq_ok_iff hbrace).mp hb
    exact ⟨s₁, literal, s₂, s₃, s₄, h₁, hl, h₂, h₃, h₄, rfl⟩
  · rintro ⟨s₁, literal, s₂, s₃, s₄, h₁, hl, h₂, h₃, h₄, rfl⟩
    refine bind_eq_ok_iff.mpr ⟨_, readKey_eq_ok_iff.mpr ⟨s₁, literal, h₁, rfl, hl⟩, ?_⟩
    refine bind_eq_ok_iff.mpr ⟨_, (readMark_eq_ok_iff hcolon).mpr ⟨s₂, h₂, rfl⟩, ?_⟩
    refine bind_eq_ok_iff.mpr ⟨_, readNull_eq_ok_iff.mpr ⟨s₃, h₃, rfl⟩, ?_⟩
    exact bind_eq_ok_iff.mpr ⟨_, (readMark_eq_ok_iff hbrace).mpr ⟨s₄, h₄, rfl⟩, rfl⟩

theorem readTier_eq_ok_iff {text rest : List Char} {tier : Tier} :
    readTier text = .ok (tier, rest) ↔
      (∃ before left, Blank before ∧ text = before ++ '"' :: left ∧
        readName left = .ok (tier, rest)) ∨
      ∃ before left, Blank before ∧ text = before ++ '{' :: left ∧
        readMember left = .ok (tier, rest) := by
  have hquote : Json.isSpace '"' = false := by decide
  have hbrace : Json.isSpace '{' = false := by decide
  constructor
  · intro h
    unfold readTier at h
    split at h
    · exact nomatch h
    · rename_i left hs
      obtain ⟨before, hb, rfl⟩ := (Json.skipSpace_eq_cons_iff hquote).mp hs
      exact .inl ⟨before, left, hb, rfl, h⟩
    · rename_i left hs
      obtain ⟨before, hb, rfl⟩ := (Json.skipSpace_eq_cons_iff hbrace).mp hs
      exact .inr ⟨before, left, hb, rfl, h⟩
    · exact nomatch h
  · rintro (⟨before, left, hb, rfl, h⟩ | ⟨before, left, hb, rfl, h⟩)
    · rw [readTier, Json.skipSpace_append_cons hb hquote]
      exact h
    · rw [readTier, Json.skipSpace_append_cons hb hbrace]
      exact h

theorem ofText_eq_ok_iff {text : List Char} {tier : Tier} :
    ofText text = .ok tier ↔ ∃ after, Blank after ∧ readTier text = .ok (tier, after) := by
  constructor
  · intro h
    obtain ⟨⟨found, after⟩, hr, h⟩ := bind_eq_ok_iff.mp h
    dsimp only at h
    split at h
    · rename_i he
      rw [← Except.ok.inj h]
      exact ⟨after, Json.skipSpace_eq_nil_iff.mp (List.isEmpty_iff.mp he), hr⟩
    · exact nomatch h
  · rintro ⟨after, ha, hr⟩
    have he : (Json.skipSpace after).isEmpty = true :=
      List.isEmpty_iff.mpr (Json.skipSpace_eq_nil_iff.mpr ha)
    exact bind_eq_ok_iff.mpr ⟨_, hr, if_pos he⟩

theorem accepts_iff_written {text : List Char} {tier : Tier} :
    ofText text = .ok tier ↔ Written tier text := by
  rw [ofText_eq_ok_iff]
  constructor
  · rintro ⟨after, ha, hr⟩
    obtain ⟨before, left, hb, rfl, h⟩ | ⟨before, left, hb, rfl, h⟩ := readTier_eq_ok_iff.mp hr
    · obtain ⟨literal, rfl, hl⟩ := readName_eq_ok_iff.mp h
      exact .name hb hl ha
    · obtain ⟨s₁, literal, s₂, s₃, s₄, h₁, hl, h₂, h₃, h₄, rfl⟩ := readMember_eq_ok_iff.mp h
      exact .member hb h₁ hl h₂ h₃ h₄ ha
  · intro hw
    cases hw with
    | @name before literal after hb hl ha =>
        exact ⟨after, ha, readTier_eq_ok_iff.mpr
          (.inl ⟨before, _, hb, rfl, readName_eq_ok_iff.mpr ⟨literal, rfl, hl⟩⟩)⟩
    | @member before s₁ literal s₂ s₃ s₄ after hb h₁ hl h₂ h₃ h₄ ha =>
        exact ⟨after, ha, readTier_eq_ok_iff.mpr (.inr ⟨before, _, hb, rfl,
          readMember_eq_ok_iff.mpr ⟨s₁, literal, s₂, s₃, s₄, h₁, hl, h₂, h₃, h₄, rfl⟩⟩)⟩

-- A text is read as a tier exactly if it is written as one. Of all other texts it is said why not.
theorem ofText_accepts_written (text : List Char) :
    (∀ tier, ofText text = .ok tier ↔ Written tier text) ∧
    ((∀ tier, ¬Written tier text) ↔
      (∃ problem, ofText text = .error (.data problem)) ∨
        ofText text = .error (.fault .endOfText) ∨ ofText text = .error (.fault .malformed)) := by
  refine ⟨fun tier => accepts_iff_written, ?_⟩
  simp only [← accepts_iff_written]
  cases hr : ofText text with
  | ok tier => simp
  | error error =>
      cases error with
      | data problem => simp
      | fault fault => cases fault <;> simp

-- The name in three ways of writing a letter, with space wherever it may stand.
theorem ofText_accepts_written_escaped :
    Written .full "\n\x7b \"\\u0066u\\u006C\\u006c\"\t: null\r\x7d ".toList ∧
    ofText "\n\x7b \"\\u0066u\\u006C\\u006c\"\t: null\r\x7d ".toList = .ok .full := by
  have hf : Json.Literal.Quad 'f'.toNat ['0', '0', '6', '6'] :=
    .digits (i := 0) (j := 0) (k := 6) (l := 6) (by decide) (by decide) (by decide) (by decide)
  have hupper : Json.Literal.Quad 'l'.toNat ['0', '0', '6', 'C'] :=
    .digits (i := 0) (j := 0) (k := 6) (l := 12) (by decide) (by decide) (by decide) (by decide)
  have hlower : Json.Literal.Quad 'l'.toNat ['0', '0', '6', 'c'] :=
    .digits (i := 0) (j := 0) (k := 6) (l := 12) (by decide) (by decide) (by decide) (by decide)
  have hu : Json.Literal.SpellsChar 'u' ['u'] := .plain (by decide) (by decide) (by decide)
  have hname : Spells (name .full).toList _ :=
    .cons (.digits hf) (.cons hu (.cons (.digits hupper) (.cons (.digits hlower) .nil)))
  have hblank : ∀ c, c = ' ' ∨ c = '\t' ∨ c = '\n' ∨ c = '\r' → Blank [c] := by
    intro c hc d hd
    rwa [List.mem_singleton.mp hd]
  have hwritten : Written .full
      "\n\x7b \"\\u0066u\\u006C\\u006c\"\t: null\r\x7d ".toList :=
    .member (hblank '\n' (by decide)) (hblank ' ' (by decide)) hname (hblank '\t' (by decide))
      (hblank ' ' (by decide)) (hblank '\r' (by decide)) (hblank ' ' (by decide))
  exact ⟨hwritten, ((ofText_accepts_written _).1 .full).mpr hwritten⟩

end DocRun.Tier
