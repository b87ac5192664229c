import DocRun.Proofs.Tier.Grammar

namespace DocRun.Tier

open Json (Blank)
open Json.Literal (Spells)

-- A text that is refused for what it holds. The message is the same whatever counts as hidden.
def Refused (text : List Char) (message : String) : Prop :=
  ∃ problem, ofText text = .error (.data problem) ∧
    ∀ hidden, Problem.message hidden problem = message

theorem ofName_of_ne {name : String} (h : ∀ tier : Tier, tier.name ≠ name) :
    ofName name = .error (.unknownName name) := by
  have hnone : ofName? name = none := by
    rw [ofName?, List.find?_eq_none]
    intro tier _
    simpa using h tier
  rw [ofName, hnone]

-- Nothing is read any more once there is a problem.
theorem refused_of_readTier {text : List Char} {problem : Problem} {message : String}
    (h : readTier text = .error (.data problem))
    (hm : ∀ hidden, problem.message hidden = message) : Refused text message := by
  refine ⟨problem, ?_, hm⟩
  rw [ofText, h]
  rfl

section

variable {before gap literal : List Char} (hb : Blank before) (hg : Blank gap)

include hb

theorem readTier_quote (rest : List Char) :
    readTier (before ++ '"' :: rest) = readName rest := by
  rw [readTier, Json.skipSpace_append_cons hb (by decide)]
  rfl

theorem readTier_brace (rest : List Char) :
    readTier (before ++ '{' :: rest) = readMember rest := by
  rw [readTier, Json.skipSpace_append_cons hb (by decide)]
  rfl

omit hb

include hg

theorem readKey_quote (rest : List Char) : readKey (gap ++ '"' :: rest) = readName rest := by
  rw [readKey, Json.skipSpace_append_cons hg (by decide)]
  rfl

-- A list and an object are known by their brackets, and what they hold is not read.
theorem readNull_bracket (rest : List Char) :
    readNull (gap ++ '[' :: rest) = .error (.data (.unexpected .sequence .unit)) := by
  rw [readNull, Json.skipSpace_append_cons hg (by decide)]
  rfl

theorem readNull_brace (rest : List Char) :
    readNull (gap ++ '{' :: rest) = .error (.data (.unexpected .map .unit)) := by
  rw [readNull, Json.skipSpace_append_cons hg (by decide)]
  rfl

end

section

variable {name : String} {literal : List Char}

theorem readName_unknown (hn : ∀ tier : Tier, tier.name ≠ name) (hl : Spells name.toList literal)
    (rest : List Char) :
    readName (literal ++ '"' :: rest) = .error (.data (.unknownName name)) := by
  rw [readName_of_read (Json.Literal.read_of_spells hl rest), String.ofList_toList,
    ofName_of_ne hn]
  rfl

-- The value is all that is left to look at behind a key that names a tier.
theorem readMember_of_readNull {tier : Tier} (hl : Spells tier.name.toList literal)
    {s₁ s₂ value : List Char} (h₁ : Blank s₁) (h₂ : Blank s₂) {error : TextError}
    (h : readNull value = .error error) :
    readMember (s₁ ++ '"' :: (literal ++ '"' :: (s₂ ++ ':' :: value))) = .error error := by
  have hkey : readKey (s₁ ++ '"' :: (literal ++ '"' :: (s₂ ++ ':' :: value))) =
      .ok (tier, s₂ ++ ':' :: value) :=
    readKey_eq_ok_iff.mpr ⟨s₁, literal, h₁, rfl, hl⟩
  have hcolon : readMark ':' (s₂ ++ ':' :: value) = .ok value :=
    (readMark_eq_ok_iff (by decide)).mpr ⟨s₂, h₂, rfl⟩
  simp only [readMember, hkey, hcolon, h, bind, Except.bind]

end

-- A name that is no tier is reported however it is spelt, and a value that is a list or an object
-- is reported behind every key that is a tier. What comes after makes no difference, be it
-- malformed or missing.
theorem refused_at_first_problem :
    (∀ (name : String) (literal before gap rest : List Char),
      (∀ tier : Tier, tier.name ≠ name) → Spells name.toList literal → Blank before → Blank gap →
      Refused (before ++ '"' :: (literal ++ '"' :: rest))
        ("unknown variant `" ++ name ++ "`, expected one of `full`, `online`, `server`") ∧
      Refused (before ++ '{' :: (gap ++ '"' :: (literal ++ '"' :: rest)))
        ("unknown variant `" ++ name ++ "`, expected one of `full`, `online`, `server`")) ∧
    ∀ (tier : Tier) (literal before s₁ s₂ s₃ rest : List Char), Spells tier.name.toList literal →
      Blank before → Blank s₁ → Blank s₂ → Blank s₃ →
      Refused
        (before ++ '{' :: (s₁ ++ '"' :: (literal ++ '"' :: (s₂ ++ ':' :: (s₃ ++ '[' :: rest)))))
        "invalid type: sequence, expected unit" ∧
      Refused
        (before ++ '{' :: (s₁ ++ '"' :: (literal ++ '"' :: (s₂ ++ ':' :: (s₃ ++ '{' :: rest)))))
        "invalid type: map, expected unit" := by
  refine ⟨?_, ?_⟩
  · intro name literal before gap rest hn hl hb hg
    have hname := readName_unknown hn hl rest
    have hstring := (readTier_quote hb _).trans hname
    have hkey : readMember (gap ++ '"' :: (literal ++ '"' :: rest)) =
        .error (.data (.unknownName name)) := by
      rw [readMember, readKey_quote hg, hname]
      rfl
    have hobject := (readTier_brace hb _).trans hkey
    exact ⟨refused_of_readTier hstring fun _ => rfl, refused_of_readTier hobject fun _ => rfl⟩
  · intro tier literal before s₁ s₂ s₃ rest hl hb h₁ h₂ h₃
    have hlist := readMember_of_readNull hl h₁ h₂ (readNull_bracket h₃ rest)
    have hobject := readMember_of_readNull hl h₁ h₂ (readNull_brace h₃ rest)
    constructor
    · exact refused_of_readTier ((readTier_brace hb _).trans hlist) fun _ => rfl
    · exact refused_of_readTier ((readTier_brace hb _).trans hobject) fun _ => rfl

-- A name with a character beyond U+FFFF, written as a surrogate pair, and a list that is not
-- closed.
theorem refused_at_first_problem_pair :
    (∀ tier : Tier, tier.name ≠ "a😀") ∧
    Spells "a😀".toList "a\\ud83d\\uDE00".toList ∧
    Refused "\t\"a\\ud83d\\uDE00\"]".toList
      "unknown variant `a😀`, expected one of `full`, `online`, `server`" ∧
    Refused "\t\x7b\"a\\ud83d\\uDE00\"]".toList
      "unknown variant `a😀`, expected one of `full`, `online`, `server`" ∧
    Refused "\x7b\"full\" :\n[1,".toList "invalid type: sequence, expected unit" ∧
    Refused "\x7b\"full\" :\n\x7b1,".toList "invalid type: map, expected unit" := by
  have hname : ∀ tier : Tier, tier.name ≠ "a😀" := by
    intro tier
    cases tier <;> decide
  have ha : Json.Literal.SpellsChar 'a' ['a'] := .plain (by decide) (by decide) (by decide)
  have hlead : Json.Literal.Quad 0xD83D ['d', '8', '3', 'd'] :=
    .digits (i := 13) (j := 8) (k := 3) (l := 13) (by decide) (by decide) (by decide) (by decide)
  have htrail : Json.Literal.Quad 0xDE00 ['D', 'E', '0', '0'] :=
    .digits (i := 13) (j := 14) (k := 0) (l := 0) (by decide) (by decide) (by decide) (by decide)
  have hface : Json.Literal.SpellsChar '😀' "\\ud83d\\uDE00".toList :=
    .pair (c := '😀') (by decide) hlead htrail
  have hpair : Spells "a😀".toList "a\\ud83d\\uDE00".toList := .cons ha (.cons hface .nil)
  have hfull : Spells (name .full).toList "full".toList :=
    Json.Literal.spells_of_plain (by simp [name])
  have htab : Blank ['\t'] := by
    simp [Blank]
  have hspace : Blank [' '] := by
    simp [Blank]
  have hline : Blank ['\n'] := by
    simp [Blank]
  obtain ⟨hunknown, hvalue⟩ := refused_at_first_problem
  obtain ⟨hstring, hkey⟩ := hunknown "a😀" _ ['\t'] [] [']'] hname hpair htab Json.blank_nil
  obtain ⟨hlist, hobject⟩ := hvalue .full _ [] [] [' '] ['\n'] ['1', ','] hfull Json.blank_nil
    Json.blank_nil hspace hline
  exact ⟨hname, hpair, hstring, hkey, hlist, hobject⟩

end DocRun.Tier
