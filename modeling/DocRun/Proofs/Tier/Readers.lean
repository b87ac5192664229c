import DocRun.Proofs.Json.Opening
import DocRun.Proofs.Tier.Grammar

namespace DocRun.Json

-- What a reader says of the value does not depend on how a fraction is rounded, be it that the
-- value is none or that it is not looked into.
def Legible : Json → Prop
  | .int value => -0x8000000000000000 ≤ value ∧ value < 0x10000000000000000
  | .float _ => False
  | _ => True

-- Strings, and objects with one legible member.
def Naming : Json → Prop
  | .str _ => True
  | .obj [(_, value)] => value.Legible
  | _ => False

-- All other values. A number is never infinite, and where the one member is a whole number it is
-- legible.
def Nameless : Json → Prop
  | .str _ => False
  | .obj [(_, .float x)] => x.isFinite = true
  | .obj [_] => False
  | _ => True

end DocRun.Json

namespace DocRun.Tier

open Json (Blank Opens Rendered)

theorem readNull_of_ne {gap : List Char} (hg : Blank gap) {c : Char}
    (hs : Json.isSpace c = false) (hn : c ≠ 'n') (text : List Char) :
    readNull (gap ++ c :: text) = .error (unexpectedValue .unit (c :: text)) := by
  unfold readNull
  rw [Json.skipSpace_append_cons hg hs]
  split
  · rename_i heq
    exact absurd (List.cons.inj heq).1 hn
  · rfl

theorem readNull_nullText {gap : List Char} (hg : Blank gap) (rest : List Char) :
    readNull (gap ++ (Json.nullText ++ rest)) = .ok rest :=
  readNull_eq_ok_iff.mpr ⟨gap, hg, rfl⟩

theorem unexpectedValue_scalar {c : Char} (harr : c ≠ '[') (hobj : c ≠ '{')
    {text rest : List Char} {value : Json} (h : Json.readScalar (c :: text) = .ok (value, rest))
    (wanted : Wanted) :
    unexpectedValue wanted (c :: text) = .data (.unexpected value.shape wanted) := by
  unfold unexpectedValue
  split
  · rename_i heq
    exact absurd (List.cons.inj heq).1 harr
  · rename_i heq
    exact absurd (List.cons.inj heq).1 hobj
  · rw [h]

-- A value other than null is said to be out of place, by its kind and its content.
theorem readNull_legible {value : Json} {text : List Char} (h : Opens value text)
    (hl : value.Legible) (hne : value ≠ .null) {gap rest : List Char} (hg : Blank gap)
    (hr : Json.Number.Ends rest) :
    readNull (gap ++ (text ++ rest)) = .error (.data (.unexpected value.shape .unit)) := by
  cases h with
  | null => exact absurd rfl hne
  | bool value =>
      cases value with
      | true => exact readNull_of_ne hg (by decide) (by decide) _
      | false => exact readNull_of_ne hg (by decide) (by decide) _
  | int value =>
      have hread := Json.readScalar_int hl.1 hl.2 hr
      obtain ⟨c, tail, hc, hs⟩ := Json.exists_cons_ofInt value
      rw [hc, List.cons_append] at hread ⊢
      rw [readNull_of_ne hg (Json.isSpace_of_startsWith hs) (Json.ne_of_startsWith hs (by decide)),
        unexpectedValue_scalar (Json.ne_of_startsWith hs (by decide))
          (Json.ne_of_startsWith hs (by decide)) hread]
  | float value => exact hl.elim
  | str text =>
      have hread := Json.readScalar_str text rest
      rw [Json.Literal.write, List.cons_append, List.cons_append] at hread ⊢
      rw [readNull_of_ne hg (by decide) (by decide),
        unexpectedValue_scalar (by decide) (by decide) hread]
  | arr items text => exact readNull_of_ne hg (by decide) (by decide) _
  | obj members text => exact readNull_of_ne hg (by decide) (by decide) _

-- Only the word itself is taken for null, and nothing behind it is taken with it.
theorem rest_of_readNull {value : Json} {text : List Char} (h : Opens value text)
    {gap rest left : List Char} (hg : Blank gap)
    (hread : readNull (gap ++ (text ++ rest)) = .ok left) :
    text = Json.nullText ∧ left = rest := by
  obtain ⟨c, tail, rfl, hs⟩ := h.starts
  by_cases hn : c = 'n'
  · rw [hs.letter hn, readNull_nullText hg] at hread
    exact ⟨hs.letter hn, (Except.ok.inj hread).symm⟩
  · rw [List.cons_append, readNull_of_ne hg hs.space hn] at hread
    exact nomatch hread

theorem readName_write (name : String) (rest : List Char) :
    readName (name.toList.flatMap Json.Literal.escape ++ '"' :: rest) =
      (TextError.ofProblem (ofName name)).map (·, rest) := by
  rw [readName_of_read (Json.Literal.read_escapes name.toList rest), String.ofList_toList]

theorem readKey_write (key : String) {before : List Char} (hb : Blank before) (rest : List Char) :
    readKey (before ++ (Json.Literal.write key.toList ++ rest)) =
      (TextError.ofProblem (ofName key)).map (·, rest) := by
  unfold readKey
  rw [Json.skipSpace_append hb, Json.skipSpace_write, Json.Literal.write_append]
  exact readName_write key rest

-- What comes behind the key of a member does not matter unless the key is a name.
theorem ofText_member (key : String) {before : List Char} (hb : Blank before) (left : List Char) :
    ofText ('{' :: (before ++ (Json.Literal.write key.toList ++ ':' :: left))) = (do
      let tier ← TextError.ofProblem (ofName key)
      let rest ← readNull left
      let rest ← readMark '}' rest
      if (Json.skipSpace rest).isEmpty then .ok tier else .error (.fault .malformed)) := by
  have hcolon : readMark ':' (':' :: left) = .ok left :=
    (readMark_eq_ok_iff (by decide)).mpr ⟨[], Json.blank_nil, rfl⟩
  simp only [ofText, readTier, Json.skipSpace_cons (c := '{') (by decide), readMember,
    readKey_write key hb]
  cases TextError.ofProblem (ofName key) with
  | error error => rfl
  | ok tier =>
      simp only [Except.map, bind, Except.bind, hcolon]
      cases readNull left with
      | error error => rfl
      | ok rest =>
          dsimp only
          cases readMark '}' rest <;> rfl

theorem ofText_write (name : String) :
    ofText (Json.Literal.write name.toList) = TextError.ofProblem (ofName name) := by
  have hwrite := Json.Literal.write_append name.toList []
  rw [List.append_nil] at hwrite
  simp only [ofText, readTier, hwrite, Json.skipSpace_cons (c := '"') (by decide), readName_write]
  cases TextError.ofProblem (ofName name) <;> rfl

-- The one member of an object, with any space around its parts.
theorem ofText_legible (key : String) {value : Json} {text : List Char} (h : Opens value text)
    (hl : value.Legible) {before gap after : List Char} (hb : Blank before) (hg : Blank gap)
    (ha : Blank after) :
    ofText ('{' :: (before ++ (Json.Literal.write key.toList ++ ':' ::
      (gap ++ (text ++ (after ++ ['}'])))))) =
      TextError.ofProblem (ofJson (.obj [(key, value)])) := by
  rw [ofText_member key hb]
  have hbrace : readMark '}' (after ++ ['}']) = .ok [] :=
    (readMark_eq_ok_iff (by decide)).mpr ⟨after, ha, rfl⟩
  cases hn : ofName key with
  | error problem => simp only [ofJson, hn, TextError.ofProblem, Except.mapError, bind, Except.bind]
  | ok tier =>
      by_cases hnull : value = .null
      · subst hnull
        cases h
        simp only [ofJson, hn, TextError.ofProblem, Except.mapError, bind, Except.bind,
          readNull_nullText hg, hbrace]
        exact if_pos rfl
      · have hread := readNull_legible h hl hnull hg (Json.ends_of_blank ha [])
        have hjson : ofJson (.obj [(key, value)]) = .error (.unexpected value.shape .unit) := by
          simp only [ofJson, hn, bind, Except.bind]
        simp only [hjson, TextError.ofProblem, Except.mapError, bind, Except.bind, hread]

-- A member that no closing brace can be found behind.
theorem ofText_unclosed (key : String) {before left : List Char} (hb : Blank before)
    (h : ∀ rest, readNull left = .ok rest → ∃ error, readMark '}' rest = .error error) :
    ∃ error, ofText ('{' :: (before ++ (Json.Literal.write key.toList ++ ':' :: left))) =
      .error error := by
  rw [ofText_member key hb]
  cases TextError.ofProblem (ofName key) with
  | error error => exact ⟨error, rfl⟩
  | ok tier =>
      cases hread : readNull left with
      | error error => exact ⟨error, rfl⟩
      | ok rest =>
          obtain ⟨error, he⟩ := h rest hread
          exact ⟨error, by simp only [bind, Except.bind, he]⟩

theorem ofText_continued (key : String) {value : Json} {text : List Char} (h : Opens value text)
    {before gap : List Char} (hb : Blank before) (hg : Blank gap) (rest : List Char) :
    ∃ error, ofText ('{' :: (before ++ (Json.Literal.write key.toList ++ ':' ::
      (gap ++ (text ++ ',' :: rest))))) = .error error := by
  apply ofText_unclosed key hb
  intro left hread
  obtain rfl := (rest_of_readNull h hg hread).2
  exact ⟨.fault .malformed, rfl⟩

theorem ofText_float (key : String) {x : Float} (hf : x.isFinite = true) {before gap : List Char}
    (hb : Blank before) (hg : Blank gap) (rest : List Char) :
    ∃ error, ofText ('{' :: (before ++ (Json.Literal.write key.toList ++ ':' ::
      (gap ++ (Json.writeFloat x ++ rest))))) = .error error := by
  apply ofText_unclosed key hb
  intro left hread
  obtain ⟨c, tail, hc, hs⟩ := Decimal.exists_cons_renderFloat x
  have hnull := (rest_of_readNull (.float x) hg hread).1
  rw [Json.writeFloat, if_pos hf, hc] at hnull
  exact absurd (List.cons.inj hnull).1 (Json.ne_of_startsWith hs (by decide))

-- Neither a string nor an object.
theorem ofText_malformed {c : Char} (hs : Json.isSpace c = false) (hquote : c ≠ '"')
    (hbrace : c ≠ '{') (text : List Char) : ofText (c :: text) = .error (.fault .malformed) := by
  have hread : readTier (c :: text) = .error (.fault .malformed) := by
    unfold readTier
    rw [Json.skipSpace_cons hs]
    split
    · rename_i heq
      exact nomatch heq
    · rename_i heq
      exact absurd (List.cons.inj heq).1 hquote
    · rename_i heq
      exact absurd (List.cons.inj heq).1 hbrace
    · rfl
  simp only [ofText, hread, bind, Except.bind]

theorem ofBytes_encode (name : String) : ofBytes (Utf8.encode name.toList) = ofName name := by
  have hfind : (all.find? fun tier => Utf8.encode tier.name.toList = Utf8.encode name.toList) =
      ofName? name := by
    unfold ofName?
    congr 1
    funext tier
    simp only [decide_eq_decide]
    constructor
    · exact fun h => String.toList_inj.mp (Utf8.encode_injective h)
    · exact fun h => h ▸ rfl
  rw [ofBytes, hfind, ofName, Utf8.lossy_encode, String.ofList_toList]

theorem ofText_naming {value : Json} {text : List Char} (h : Rendered value text)
    (hn : value.Naming) : ofText text = TextError.ofProblem (ofJson value) := by
  cases h with
  | other h hobj =>
      cases h with
      | str name => exact ofText_write name
      | obj members text => exact absurd rfl (hobj members)
      | _ => exact hn.elim
  | empty => exact hn.elim
  | single key hb hg h ha => exact ofText_legible key h hn hb hg ha
  | several => exact hn.elim

theorem ofText_nameless {value : Json} {text : List Char} (h : Rendered value text)
    (hn : value.Nameless) : ∃ error, ofText text = .error error := by
  cases h with
  | other h hobj =>
      obtain ⟨c, tail, rfl, hs⟩ := h.starts
      have hquote : c ≠ '"' := by
        intro hc
        obtain ⟨name, rfl⟩ := hs.quote hc
        exact hn.elim
      have hbrace : c ≠ '{' := by
        intro hc
        obtain ⟨members, rfl⟩ := hs.brace hc
        exact hobj members rfl
      exact ⟨_, ofText_malformed hs.space hquote hbrace tail⟩
  | empty => exact ⟨.fault .malformed, rfl⟩
  | single key hb hg h ha =>
      cases h with
      | float x => exact ofText_float key hn hb hg _
      | _ => exact hn.elim
  | several key member members hb hg h rest => exact ofText_continued key h hb hg rest

theorem ofJson_nameless {value : Json} (h : value.Nameless) :
    ∃ problem, ofJson value = .error problem := by
  cases value with
  | str text => exact h.elim
  | obj members =>
      match members, h with
      | [], _ => exact ⟨_, rfl⟩
      | [(key, .float x)], _ =>
          cases hn : ofName key with
          | error problem => exact ⟨problem, by simp only [ofJson, hn, bind, Except.bind]⟩
          | ok tier =>
              exact ⟨.unexpected (.float x) .unit, by
                simp only [ofJson, hn, bind, Except.bind, Json.shape]⟩
      | _ :: _ :: _, _ => exact ⟨_, rfl⟩
  | _ => exact ⟨_, rfl⟩

-- A value, either of its texts and, for a string, its bytes are read as the same tier or are
-- refused for the same reason. Where there is no tier to be found, all of them are refused.
theorem readers_agree :
    (∀ value : Json, value.Naming → ∀ text ∈ [value.compact, value.pretty 0],
      ofText text = TextError.ofProblem (ofJson value)) ∧
    (∀ value : Json, value.Nameless →
      (∃ problem, ofJson value = .error problem) ∧
      ∀ text ∈ [value.compact, value.pretty 0], ∃ error, ofText text = .error error) ∧
    ∀ name : String, ofBytes (Utf8.encode name.toList) = ofJson (.str name) := by
  have hrendered : ∀ value : Json, ∀ text ∈ [value.compact, value.pretty 0],
      Rendered value text := by
    intro value text ht
    rcases List.mem_cons.mp ht with rfl | ht
    · exact Json.rendered_compact value
    · obtain rfl := List.mem_singleton.mp ht
      exact Json.rendered_pretty value
  refine ⟨?_, ?_, ofBytes_encode⟩
  · intro value hn text ht
    exact ofText_naming (hrendered value text ht) hn
  · intro value hn
    exact ⟨ofJson_nameless hn, fun text ht => ofText_nameless (hrendered value text ht) hn⟩

-- A key that is a name, with a value that needs escapes, and two members that are each a tier.
theorem readers_agree_escaped :
    Json.Naming (.obj [("full", .str "\"\n")]) ∧
    ofText "\x7b\"full\":\"\\\"\\n\"\x7d".toList =
      .error (.data (.unexpected (.str "\"\n") .unit)) ∧
    Json.Nameless (.obj [("full", .null), ("online", .null)]) ∧
    (∃ error, ofText "\x7b\"full\":null,\"online\":null\x7d".toList = .error error) ∧
    ofBytes (Utf8.encode "fuell".toList) = .error (.unknownName "fuell") := by
  obtain ⟨hnaming, hnameless, hbytes⟩ := readers_agree
  refine ⟨trivial, ?_, trivial, ?_, hbytes "fuell"⟩
  · exact hnaming (.obj [("full", .str "\"\n")]) trivial _ List.mem_cons_self
  · exact (hnameless (.obj [("full", .null), ("online", .null)]) trivial).2 _ List.mem_cons_self

end DocRun.Tier
