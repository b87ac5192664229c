import DocRun.Proofs.Text.Hex
import DocRun.Proofs.Utf8
import DocRun.Text.Quoted

namespace DocRun

namespace Quoted

-- What stands between the quotes: characters, and stray bytes one by one.
inductive Mark where
  | char (c : Char)
  | byte (b : UInt8)

def Mark.text (hidden : Char → Bool) : Mark → List Char
  | char c => escape hidden c
  | byte b => strayByte b

def Mark.bytes : Mark → List UInt8
  | char c => String.utf8EncodeChar c
  | byte b => [b]

def marksOf : Utf8.Piece → List Mark
  | .scalar c => [.char c]
  | .stray bytes => bytes.map .byte

-- The first mark of a text, and the text after it.
def readMark : List Char → Option (Mark × List Char)
  | '\\' :: '0' :: rest => some (.char '\x00', rest)
  | '\\' :: 't' :: rest => some (.char '\t', rest)
  | '\\' :: 'r' :: rest => some (.char '\r', rest)
  | '\\' :: 'n' :: rest => some (.char '\n', rest)
  | '\\' :: '\\' :: rest => some (.char '\\', rest)
  | '\\' :: '"' :: rest => some (.char '"', rest)
  | '\\' :: 'u' :: '{' :: rest =>
    some (.char (Char.ofNat (Hex.ofDigits (rest.takeWhile (· ≠ '}')))),
      (rest.dropWhile (· ≠ '}')).tail)
  | '\\' :: 'x' :: a :: b :: rest => some (.byte (UInt8.ofNat (Hex.ofDigits [a, b])), rest)
  | c :: rest => some (.char c, rest)
  | [] => none

theorem readMark_of_ne {c : Char} (h : c ≠ '\\') (rest : List Char) :
    readMark (c :: rest) = some (.char c, rest) := by
  unfold readMark
  split <;> simp_all

theorem readMark_number (c : Char) (rest : List Char) :
    readMark ('\\' :: 'u' :: '{' :: (Nat.toDigits 16 c.toNat ++ '}' :: rest)) =
      some (.char c, rest) := by
  have hd : ∀ d ∈ Nat.toDigits 16 c.toNat, decide (d ≠ '}') = true := fun d hm =>
    decide_eq_true (Hex.ne_of_isSome_value? (Hex.isSome_value?_of_mem_toDigits hm) rfl)
  simp only [readMark, List.takeWhile_append_of_pos hd, List.dropWhile_append_of_pos hd]
  simp [Hex.ofDigits_toDigits, Char.ofNat_toNat]

theorem readMark_strayByte (b : UInt8) (rest : List Char) :
    readMark (strayByte b ++ rest) = some (.byte b, rest) := by
  have hb := b.toNat_lt
  have hhigh := Hex.value?_toUpper_digitChar (d := b.toNat / 16) (by omega)
  have hlow := Hex.value?_toUpper_digitChar (d := b.toNat % 16) (by omega)
  have hn : Hex.ofDigits (Hex.upper b.toNat) = b.toNat := by
    simp only [Hex.upper, Hex.lower, Hex.ofDigits, List.map_cons, List.map_nil, List.foldl_cons,
      List.foldl_nil, hhigh, hlow, Option.getD_some]
    omega
  simp only [Hex.upper, Hex.lower, List.map_cons, List.map_nil] at hn
  simp only [strayByte, Hex.upper, Hex.lower, List.map_cons, List.map_nil, List.cons_append,
    List.nil_append, readMark, hn, UInt8.ofNat_toNat]

-- A character is shown by a letter behind a backslash, by its number, or as it is.
theorem escape_cases (hidden : Char → Bool) (c : Char) :
    (∃ letter, escape hidden c = ['\\', letter] ∧ letter ≠ '\n' ∧
      ∀ rest, readMark ('\\' :: letter :: rest) = some (.char c, rest)) ∨
    escape hidden c = '\\' :: 'u' :: '{' :: (Nat.toDigits 16 c.toNat ++ ['}']) ∨
    escape hidden c = [c] ∧ c ≠ '"' ∧ c ≠ '\\' ∧ c ≠ '\n' := by
  unfold escape
  by_cases hnul : c = '\x00'
  · subst hnul
    exact .inl ⟨'0', rfl, by decide, fun _ => rfl⟩
  rw [if_neg hnul]
  by_cases htab : c = '\t'
  · subst htab
    exact .inl ⟨'t', rfl, by decide, fun _ => rfl⟩
  rw [if_neg htab]
  by_cases hreturn : c = '\r'
  · subst hreturn
    exact .inl ⟨'r', rfl, by decide, fun _ => rfl⟩
  rw [if_neg hreturn]
  by_cases hline : c = '\n'
  · subst hline
    exact .inl ⟨'n', rfl, by decide, fun _ => rfl⟩
  rw [if_neg hline]
  by_cases hback : c = '\\'
  · subst hback
    exact .inl ⟨'\\', rfl, by decide, fun _ => rfl⟩
  rw [if_neg hback]
  by_cases hquote : c = '"'
  · subst hquote
    exact .inl ⟨'"', rfl, by decide, fun _ => rfl⟩
  rw [if_neg hquote]
  by_cases hhidden : hidden c = true
  · exact .inr (.inl (if_pos hhidden))
  · exact .inr (.inr ⟨if_neg hhidden, hquote, hback, hline⟩)

-- Whatever is shown for a mark is read as that mark, whichever characters are hidden.
theorem readMark_text (hidden : Char → Bool) (mark : Mark) (rest : List Char) :
    readMark (mark.text hidden ++ rest) = some (mark, rest) := by
  cases mark with
  | byte b => exact readMark_strayByte b rest
  | char c =>
      rw [Mark.text]
      obtain ⟨letter, he, _, hread⟩ | he | ⟨he, _, hback, _⟩ := escape_cases hidden c
      · rw [he]
        exact hread rest
      · rw [he]
        simp only [List.cons_append, List.append_assoc, List.nil_append]
        exact readMark_number c rest
      · rw [he]
        exact readMark_of_ne hback rest

theorem length_of_readMark {text rest : List Char} {mark : Mark} :
    readMark text = some (mark, rest) → rest.length < text.length := by
  fun_cases readMark text with
  | case7 rest =>
      rintro ⟨⟩
      have hlen := (List.dropWhile_suffix (l := rest) (· ≠ '}')).length_le
      simp only [List.length_cons, List.length_tail]
      omega
  | case10 => exact nofun
  | _ =>
      rintro ⟨⟩
      simp only [List.length_cons]
      omega

-- All marks of a text, from left to right.
def marks (text : List Char) : List Mark :=
  match _h : readMark text with
  | some (mark, rest) => mark :: marks rest
  | none => []
termination_by text.length
decreasing_by exact length_of_readMark _h

theorem marks_of_readMark {text rest : List Char} {mark : Mark}
    (h : readMark text = some (mark, rest)) : marks text = mark :: marks rest := by
  rw [marks]
  split
  · rename_i he
    obtain ⟨rfl, rfl⟩ := Prod.mk.inj (Option.some.inj (he.symm.trans h))
    rfl
  · rename_i he
    exact nomatch he.symm.trans h

theorem marks_append (hidden : Char → Bool) (ms : List Mark) (rest : List Char) :
    marks (ms.flatMap (Mark.text hidden) ++ rest) = ms ++ marks rest := by
  induction ms with
  | nil => rfl
  | cons m ms ih =>
      rw [List.flatMap_cons, List.append_assoc, marks_of_readMark (readMark_text hidden m _), ih,
        List.cons_append]

theorem marks_nil : marks [] = [] := by
  rw [marks]
  rfl

theorem marks_injective (hidden : Char → Bool) {ms ns : List Mark}
    (h : ms.flatMap (Mark.text hidden) = ns.flatMap (Mark.text hidden)) : ms = ns := by
  have hm := marks_append hidden ms []
  rwa [h, marks_append, marks_nil, List.append_nil, List.append_nil, eq_comm] at hm

theorem flatMap_piece (hidden : Char → Bool) (pieces : List Utf8.Piece) :
    pieces.flatMap (piece hidden) = (pieces.flatMap marksOf).flatMap (Mark.text hidden) := by
  rw [List.flatMap_assoc]
  congr 1
  funext p
  cases p with
  | scalar c => exact (List.append_nil _).symm
  | stray bytes => rw [piece, marksOf, List.flatMap_map]; rfl

theorem flatMap_bytes (pieces : List Utf8.Piece) :
    (pieces.flatMap marksOf).flatMap Mark.bytes = pieces.flatMap Utf8.Piece.bytes := by
  rw [List.flatMap_assoc]
  congr 1
  funext p
  cases p with
  | scalar c => exact List.append_nil _
  | stray bytes =>
      rw [marksOf, List.flatMap_map]
      exact List.flatMap_singleton' bytes

theorem text_injective (hidden : Char → Bool) {s t : List Char}
    (h : text hidden s = text hidden t) : s = t := by
  have hb := List.append_cancel_right (List.cons.inj h).2
  have hm : (s.map Mark.char).flatMap (Mark.text hidden) =
      (t.map Mark.char).flatMap (Mark.text hidden) := by
    rw [List.flatMap_map, List.flatMap_map]
    exact hb
  exact (List.map_inj_right fun _ _ => Mark.char.inj).mp (marks_injective hidden hm)

-- The marks give back every byte, stray or not.
theorem bytes_injective (hidden : Char → Bool) {s t : List UInt8}
    (h : bytes hidden s = bytes hidden t) : s = t := by
  have hb := List.append_cancel_right (List.cons.inj h).2
  rw [flatMap_piece, flatMap_piece] at hb
  have hm := congrArg (List.flatMap Mark.bytes) (marks_injective hidden hb)
  rwa [flatMap_bytes, flatMap_bytes, Utf8.pieces_bytes, Utf8.pieces_bytes] at hm

-- The inside of a literal on one line. A backslash always stands before a character of its own.
inductive Body : List Char → Prop
  | nil : Body []
  | char {c : Char} {rest : List Char} (hquote : c ≠ '"') (hback : c ≠ '\\') (hline : c ≠ '\n')
      (h : Body rest) : Body (c :: rest)
  | escaped {c : Char} {rest : List Char} (hline : c ≠ '\n') (h : Body rest) :
      Body ('\\' :: c :: rest)

theorem Body.append {s t : List Char} (hs : Body s) (ht : Body t) : Body (s ++ t) := by
  induction hs with
  | nil => exact ht
  | char hquote hback hline _ ih => exact .char hquote hback hline ih
  | escaped hline _ ih => exact .escaped hline ih

theorem Body.ne_line {body : List Char} (h : Body body) : ∀ c ∈ body, c ≠ '\n' := by
  induction h with
  | nil => exact fun c hc => absurd hc List.not_mem_nil
  | char _ _ hline _ ih => exact List.forall_mem_cons.mpr ⟨hline, ih⟩
  | escaped hline _ ih =>
      exact List.forall_mem_cons.mpr ⟨by decide, List.forall_mem_cons.mpr ⟨hline, ih⟩⟩

theorem Body.of_digits {digits : List Char} (h : ∀ c ∈ digits, (Hex.value? c).isSome = true) :
    Body digits := by
  induction digits with
  | nil => exact .nil
  | cons c digits ih =>
      have hc := h c List.mem_cons_self
      exact .char (Hex.ne_of_isSome_value? hc rfl) (Hex.ne_of_isSome_value? hc rfl)
        (Hex.ne_of_isSome_value? hc rfl) (ih fun d hd => h d (List.mem_cons_of_mem _ hd))

theorem Body.single {c : Char} (hquote : c ≠ '"') (hback : c ≠ '\\') (hline : c ≠ '\n') :
    Body [c] :=
  .char hquote hback hline .nil

theorem Body.mark (hidden : Char → Bool) (mark : Mark) : Body (mark.text hidden) := by
  cases mark with
  | byte b =>
      have hb := b.toNat_lt
      have hd : Body (Hex.upper b.toNat) := Body.of_digits fun c hc => by
        simp only [Hex.upper, Hex.lower, List.map_cons, List.map_nil, List.mem_cons,
          List.not_mem_nil, or_false] at hc
        rcases hc with rfl | rfl
        · rw [Hex.value?_toUpper_digitChar (by omega)]; rfl
        · rw [Hex.value?_toUpper_digitChar (by omega)]; rfl
      exact .escaped (by decide) hd
  | char c =>
      rw [Mark.text]
      obtain ⟨letter, he, hline, _⟩ | he | ⟨he, hquote, hback, hline⟩ := escape_cases hidden c
      · rw [he]
        exact .escaped hline .nil
      · have hd := Body.of_digits fun d => Hex.isSome_value?_of_mem_toDigits (n := c.toNat)
        have hclose : Body ['}'] := .single (by decide) (by decide) (by decide)
        rw [he]
        exact .escaped (by decide)
          (.char (by decide) (by decide) (by decide) (hd.append hclose))
      · rw [he]
        exact .single hquote hback hline

theorem Body.marks (hidden : Char → Bool) (marks : List Mark) :
    Body (marks.flatMap (Mark.text hidden)) := by
  induction marks with
  | nil => exact .nil
  | cons m marks ih => exact (Body.mark hidden m).append ih

-- A quote inside is always escaped, so that the first one that is not ends the literal.
theorem Body.split {s t rest other : List Char} (hs : Body s) (ht : Body t)
    (h : s ++ '"' :: rest = t ++ '"' :: other) : s = t ∧ rest = other := by
  induction hs generalizing t with
  | nil =>
      cases ht with
      | nil => exact ⟨rfl, (List.cons.inj h).2⟩
      | char hquote _ _ _ => exact absurd (List.cons.inj h).1.symm hquote
      | escaped _ _ => exact absurd (List.cons.inj h).1 (by decide)
  | char hquote hback _ _ ih =>
      cases ht with
      | nil => exact absurd (List.cons.inj h).1 hquote
      | char _ _ _ ht =>
          obtain ⟨rfl, htail⟩ := List.cons.inj h
          obtain ⟨rfl, hrest⟩ := ih ht htail
          exact ⟨rfl, hrest⟩
      | escaped _ _ => exact absurd (List.cons.inj h).1 hback
  | escaped _ _ ih =>
      cases ht with
      | nil => exact absurd (List.cons.inj h).1 (by decide)
      | char _ hback _ _ => exact absurd (List.cons.inj h).1.symm hback
      | escaped _ ht =>
          obtain ⟨rfl, htail⟩ := List.cons.inj (List.cons.inj h).2
          obtain ⟨rfl, hrest⟩ := ih ht htail
          exact ⟨rfl, hrest⟩

-- A body between quotes.
def Literal (text : List Char) : Prop := ∃ body, Body body ∧ text = '"' :: body ++ ['"']

theorem literal_text (hidden : Char → Bool) (body : List Char) : Literal (text hidden body) := by
  refine ⟨_, Body.marks hidden (body.map .char), ?_⟩
  rw [List.flatMap_map]
  rfl

theorem literal_bytes (hidden : Char → Bool) (body : List UInt8) :
    Literal (bytes hidden body) := by
  refine ⟨_, Body.marks hidden ((Utf8.pieces body).flatMap marksOf), ?_⟩
  rw [← flatMap_piece]
  rfl

theorem Literal.split {s t rest other : List Char} (hs : Literal s) (ht : Literal t)
    (h : s ++ rest = t ++ other) : s = t ∧ rest = other := by
  obtain ⟨body, hb, rfl⟩ := hs
  obtain ⟨inside, hi, rfl⟩ := ht
  simp only [List.cons_append, List.append_assoc, List.nil_append] at h
  obtain ⟨rfl, hrest⟩ := hb.split hi (List.cons.inj h).2
  exact ⟨rfl, hrest⟩

end Quoted

end DocRun
