import DocRun.Utf8

namespace DocRun.Utf8

-- The bytes that a piece was cut from.
def Piece.bytes : Piece → List UInt8
  | .scalar c => String.utf8EncodeChar c
  | .stray bytes => bytes

theorem toNat_byte {n : Nat} (h : n < 0x100) : (UInt8.ofNat n).toNat = n :=
  UInt8.toNat_ofNat_of_lt' h

theorem ofNat_eq_byte {a : UInt8} {n : Nat} (h : a.toNat = n) : UInt8.ofNat n = a := by
  subst h
  exact UInt8.ofNat_toNat

theorem toNat_ofNat_char {n : Nat} (h : n.isValidChar) : (Char.ofNat n).toNat = n := by
  rw [Char.ofNat, dif_pos h]
  rfl

theorem ofNat_eq_char {c : Char} {n : Nat} (h : n = c.toNat) : Char.ofNat n = c := by
  subst h
  exact Char.ofNat_toNat c

-- No character is a surrogate or lies above U+10FFFF.
theorem toNat_valid (c : Char) : c.toNat < 0xD800 ∨ 0xDFFF < c.toNat ∧ c.toNat < 0x110000 :=
  c.valid

theorem isTail_iff {b : UInt8} : isTail b = true ↔ 0x80 ≤ b.toNat ∧ b.toNat ≤ 0xBF := by
  simp [isTail, UInt8.le_iff_toNat_le]

theorem isSecondOfThree_iff {a b : UInt8} : isSecondOfThree a b = true ↔
    0x80 ≤ b.toNat ∧ b.toNat ≤ 0xBF ∧ (a.toNat = 0xE0 → 0xA0 ≤ b.toNat) ∧
      (a.toNat = 0xED → b.toNat ≤ 0x9F) := by
  simp only [isSecondOfThree, isTail, UInt8.le_iff_toNat_le, ← UInt8.toNat_inj, UInt8.reduceToNat]
  split
  · simp; omega
  · split
    · simp; omega
    · simp; omega

theorem isSecondOfFour_iff {a b : UInt8} : isSecondOfFour a b = true ↔
    0x80 ≤ b.toNat ∧ b.toNat ≤ 0xBF ∧ (a.toNat = 0xF0 → 0x90 ≤ b.toNat) ∧
      (a.toNat = 0xF4 → b.toNat ≤ 0x8F) := by
  simp only [isSecondOfFour, isTail, UInt8.le_iff_toNat_le, ← UInt8.toNat_inj, UInt8.reduceToNat]
  split
  · simp; omega
  · split
    · simp; omega
    · simp; omega

theorem encodeChar_ofNat {n : Nat} (h : n.isValidChar) :
    String.utf8EncodeChar (Char.ofNat n) =
      if n ≤ 0x7F then [UInt8.ofNat n]
      else if n ≤ 0x7FF then [UInt8.ofNat (n / 64 % 0x20 + 0xC0), UInt8.ofNat (n % 0x40 + 0x80)]
      else if n ≤ 0xFFFF then
        [UInt8.ofNat (n / 4096 % 0x10 + 0xE0), UInt8.ofNat (n / 64 % 0x40 + 0x80),
          UInt8.ofNat (n % 0x40 + 0x80)]
      else
        [UInt8.ofNat (n / 262144 % 0x08 + 0xF0), UInt8.ofNat (n / 4096 % 0x40 + 0x80),
          UInt8.ofNat (n / 64 % 0x40 + 0x80), UInt8.ofNat (n % 0x40 + 0x80)] := by
  simp only [String.utf8EncodeChar, Char.toNat_val, toNat_ofNat_char h]

theorem encodeChar_of_lt {n : Nat} (h : n < 0x80) :
    String.utf8EncodeChar (Char.ofNat n) = [UInt8.ofNat n] := by
  have hv : n.isValidChar := by
    left
    omega
  rw [encodeChar_ofNat hv, if_pos (by omega)]

-- An encoding has up to four bytes, and the first of them continues no other.
theorem exists_cons_encodeChar (c : Char) :
    ∃ a tails, String.utf8EncodeChar c = a :: tails ∧ tails.length ≤ 3 ∧ isTail a = false := by
  have hv := toNat_valid c
  simp only [String.utf8EncodeChar, Char.toNat_val, Bool.eq_false_iff, Ne, isTail_iff]
  split
  · have ha := toNat_byte (n := c.toNat) (by omega)
    exact ⟨_, [], rfl, Nat.zero_le 3, by omega⟩
  split
  · have ha := toNat_byte (n := c.toNat / 64 % 0x20 + 0xC0) (by omega)
    exact ⟨_, [_], rfl, Nat.le_add_left 1 2, by omega⟩
  split
  · have ha := toNat_byte (n := c.toNat / 4096 % 0x10 + 0xE0) (by omega)
    exact ⟨_, [_, _], rfl, Nat.le_add_left 2 1, by omega⟩
  · have ha := toNat_byte (n := c.toNat / 262144 % 0x08 + 0xF0) (by omega)
    exact ⟨_, [_, _, _], rfl, Nat.le_refl 3, by omega⟩

-- The windows on the second byte keep out the overlong forms, the surrogates and what lies above
-- U+10FFFF, so that every completed form is the encoding of its own scalar value.
theorem encodeChar_scalarOfTwo {a b : UInt8} (ha : 0xC2 ≤ a.toNat) (ha' : a.toNat < 0xE0)
    (hb : isTail b) : String.utf8EncodeChar (scalarOfTwo a b) = [a, b] := by
  rw [isTail_iff] at hb
  have hv : (a.toNat % 0x20 * 0x40 + b.toNat % 0x40).isValidChar := by
    left
    omega
  rw [scalarOfTwo, encodeChar_ofNat hv, if_neg (by omega), if_pos (by omega)]
  rw [ofNat_eq_byte (a := a) (by omega), ofNat_eq_byte (a := b) (by omega)]

theorem encodeChar_scalarOfThree {a b c : UInt8} (ha : 0xE0 ≤ a.toNat) (ha' : a.toNat < 0xF0)
    (hb : isSecondOfThree a b) (hc : isTail c) :
    String.utf8EncodeChar (scalarOfThree a b c) = [a, b, c] := by
  rw [isTail_iff] at hc
  rw [isSecondOfThree_iff] at hb
  have hv : (a.toNat % 0x10 * 0x1000 + b.toNat % 0x40 * 0x40 + c.toNat % 0x40).isValidChar := by
    unfold Nat.isValidChar
    omega
  rw [scalarOfThree, encodeChar_ofNat hv, if_neg (by omega), if_neg (by omega), if_pos (by omega)]
  rw [ofNat_eq_byte (a := a) (by omega), ofNat_eq_byte (a := b) (by omega),
    ofNat_eq_byte (a := c) (by omega)]

theorem encodeChar_scalarOfFour {a b c d : UInt8} (ha : 0xF0 ≤ a.toNat) (ha' : a.toNat < 0xF5)
    (hb : isSecondOfFour a b) (hc : isTail c) (hd : isTail d) :
    String.utf8EncodeChar (scalarOfFour a b c d) = [a, b, c, d] := by
  rw [isTail_iff] at hc hd
  rw [isSecondOfFour_iff] at hb
  have hv : (a.toNat % 0x08 * 0x40000 + b.toNat % 0x40 * 0x1000 + c.toNat % 0x40 * 0x40
      + d.toNat % 0x40).isValidChar := by
    right
    omega
  rw [scalarOfFour, encodeChar_ofNat hv, if_neg (by omega), if_neg (by omega), if_neg (by omega)]
  rw [ofNat_eq_byte (a := a) (by omega), ofNat_eq_byte (a := b) (by omega),
    ofNat_eq_byte (a := c) (by omega), ofNat_eq_byte (a := d) (by omega)]

theorem afterTwo_bytes {a : UInt8} (ha : 0xC2 ≤ a.toNat) (ha' : a.toNat < 0xE0)
    (rest : List UInt8) : (afterTwo a rest).1.bytes ++ (afterTwo a rest).2 = a :: rest := by
  fun_cases afterTwo a rest <;> simp_all [Piece.bytes, encodeChar_scalarOfTwo]

theorem afterThree_bytes {a : UInt8} (ha : 0xE0 ≤ a.toNat) (ha' : a.toNat < 0xF0)
    (rest : List UInt8) : (afterThree a rest).1.bytes ++ (afterThree a rest).2 = a :: rest := by
  fun_cases afterThree a rest <;> simp_all [Piece.bytes, encodeChar_scalarOfThree]

theorem afterFour_bytes {a : UInt8} (ha : 0xF0 ≤ a.toNat) (ha' : a.toNat < 0xF5)
    (rest : List UInt8) : (afterFour a rest).1.bytes ++ (afterFour a rest).2 = a :: rest := by
  fun_cases afterFour a rest <;> simp_all [Piece.bytes, encodeChar_scalarOfFour]

-- A piece and what is left of the bytes are all of the bytes.
theorem next_bytes (a : UInt8) (rest : List UInt8) :
    (next a rest).1.bytes ++ (next a rest).2 = a :: rest := by
  simp only [next, UInt8.lt_iff_toNat_lt, UInt8.reduceToNat]
  split
  · rw [Piece.bytes, encodeChar_of_lt (by omega), ofNat_eq_byte rfl]
    rfl
  split
  · rfl
  split
  · exact afterTwo_bytes (by omega) (by omega) rest
  split
  · exact afterThree_bytes (by omega) (by omega) rest
  split
  · exact afterFour_bytes (by omega) (by omega) rest
  · rfl

theorem pieces_bytes (bytes : List UInt8) : (pieces bytes).flatMap Piece.bytes = bytes := by
  fun_induction pieces bytes with
  | case1 => rfl
  | case2 a rest ih => rw [List.flatMap_cons, ih, next_bytes]

theorem next_one {c : Char} (h : c.toNat ≤ 0x7F) (rest : List UInt8) :
    next (UInt8.ofNat c.toNat) rest = (.scalar c, rest) := by
  have ha := toNat_byte (n := c.toNat) (by omega)
  simp only [next, UInt8.lt_iff_toNat_lt, ha, UInt8.reduceToNat]
  rw [if_pos (by omega), ofNat_eq_char rfl]

theorem next_two {a b : UInt8} {c : Char} (ha : a.toNat = c.toNat / 64 + 0xC0)
    (hb : b.toNat = c.toNat % 64 + 0x80) (h : 0x7F < c.toNat) (h' : c.toNat ≤ 0x7FF)
    (rest : List UInt8) : next a (b :: rest) = (.scalar c, rest) := by
  simp only [next, UInt8.lt_iff_toNat_lt, UInt8.reduceToNat]
  rw [if_neg (by omega), if_neg (by omega), if_pos (by omega)]
  rw [afterTwo, if_pos (isTail_iff.mpr (by omega)), scalarOfTwo, ofNat_eq_char (c := c) (by omega)]

theorem next_three {a b d : UInt8} {c : Char} (ha : a.toNat = c.toNat / 4096 + 0xE0)
    (hb : b.toNat = c.toNat / 64 % 64 + 0x80) (hd : d.toNat = c.toNat % 64 + 0x80)
    (h : 0x7FF < c.toNat) (h' : c.toNat ≤ 0xFFFF) (rest : List UInt8) :
    next a (b :: d :: rest) = (.scalar c, rest) := by
  have hv := toNat_valid c
  simp only [next, UInt8.lt_iff_toNat_lt, UInt8.reduceToNat]
  rw [if_neg (by omega), if_neg (by omega), if_neg (by omega), if_pos (by omega)]
  simp only [afterThree]
  rw [if_pos (isSecondOfThree_iff.mpr (by omega)), if_pos (isTail_iff.mpr (by omega)),
    scalarOfThree, ofNat_eq_char (c := c) (by omega)]

theorem next_four {a b d e : UInt8} {c : Char} (ha : a.toNat = c.toNat / 262144 + 0xF0)
    (hb : b.toNat = c.toNat / 4096 % 64 + 0x80) (hd : d.toNat = c.toNat / 64 % 64 + 0x80)
    (he : e.toNat = c.toNat % 64 + 0x80) (h : 0xFFFF < c.toNat) (rest : List UInt8) :
    next a (b :: d :: e :: rest) = (.scalar c, rest) := by
  have hv := toNat_valid c
  simp only [next, UInt8.lt_iff_toNat_lt, UInt8.reduceToNat]
  rw [if_neg (by omega), if_neg (by omega), if_neg (by omega), if_neg (by omega),
    if_pos (by omega)]
  simp only [afterFour]
  rw [if_pos (isSecondOfFour_iff.mpr (by omega)), if_pos (isTail_iff.mpr (by omega)),
    if_pos (isTail_iff.mpr (by omega)), scalarOfFour, ofNat_eq_char (c := c) (by omega)]

-- The encoding of a character is cut off as one piece, whatever comes after it.
theorem pieces_encodeChar (c : Char) (rest : List UInt8) :
    pieces (String.utf8EncodeChar c ++ rest) = .scalar c :: pieces rest := by
  have hv := toNat_valid c
  simp only [String.utf8EncodeChar, Char.toNat_val]
  split
  · rw [List.cons_append, pieces, List.nil_append, next_one (by omega)]
  split
  · have ha := toNat_byte (n := c.toNat / 64 % 0x20 + 0xC0) (by omega)
    have hb := toNat_byte (n := c.toNat % 0x40 + 0x80) (by omega)
    simp only [List.cons_append, List.nil_append]
    rw [pieces, next_two (c := c) (by omega) hb (by omega) (by omega)]
  split
  · have ha := toNat_byte (n := c.toNat / 4096 % 0x10 + 0xE0) (by omega)
    have hb := toNat_byte (n := c.toNat / 64 % 0x40 + 0x80) (by omega)
    have hd := toNat_byte (n := c.toNat % 0x40 + 0x80) (by omega)
    simp only [List.cons_append, List.nil_append]
    rw [pieces, next_three (c := c) (by omega) hb hd (by omega) (by omega)]
  · have ha := toNat_byte (n := c.toNat / 262144 % 0x08 + 0xF0) (by omega)
    have hb := toNat_byte (n := c.toNat / 4096 % 0x40 + 0x80) (by omega)
    have hd := toNat_byte (n := c.toNat / 64 % 0x40 + 0x80) (by omega)
    have he := toNat_byte (n := c.toNat % 0x40 + 0x80) (by omega)
    simp only [List.cons_append, List.nil_append]
    rw [pieces, next_four (c := c) (by omega) hb hd he (by omega)]

theorem pieces_encode_append (text : List Char) (v : List UInt8) :
    pieces (encode text ++ v) = text.map .scalar ++ pieces v := by
  induction text with
  | nil => rfl
  | cons c text ih =>
      rw [encode, List.flatMap_cons, List.append_assoc, pieces_encodeChar, List.map_cons,
        List.cons_append]
      exact congrArg _ ih

theorem pieces_encode (text : List Char) : pieces (encode text) = text.map .scalar := by
  have h := pieces_encode_append text []
  rwa [List.append_nil, pieces, List.append_nil] at h

theorem encode_injective {s t : List Char} (h : encode s = encode t) : s = t := by
  have hp := congrArg pieces h
  rw [pieces_encode, pieces_encode] at hp
  exact (List.map_inj_right (fun _ _ => Piece.scalar.inj)).mp hp

-- A text of ASCII takes one byte for each character.
theorem encode_of_ascii {text : List Char} (h : ∀ c ∈ text, c.toNat < 0x80) :
    encode text = text.map fun c => UInt8.ofNat c.toNat := by
  induction text with
  | nil => rfl
  | cons c text ih =>
      obtain ⟨hc, htext⟩ := List.forall_mem_cons.mp h
      have hone := encodeChar_of_lt hc
      rw [Char.ofNat_toNat] at hone
      rw [List.map_cons, ← ih htext, encode, List.flatMap_cons, hone]
      rfl

theorem lossy_encode (text : List Char) : lossy (encode text) = text := by
  rw [lossy, pieces_encode, List.map_map]
  exact List.map_id text

theorem decode?_encode (text : List Char) : decode? (encode text) = some text := by
  rw [decode?, pieces_encode]
  induction text with
  | nil => rfl
  | cons c text ih => simp [List.mapM_cons, ih, Piece.char?]

-- Pieces without a stray byte are the encodings of their characters.
theorem encode_of_mapM_char? {ps : List Piece} {text : List Char}
    (h : ps.mapM Piece.char? = some text) : ps.flatMap Piece.bytes = encode text := by
  induction ps generalizing text with
  | nil =>
      simp only [List.mapM_nil, Option.pure_def, Option.some.injEq] at h
      subst h
      rfl
  | cons p ps ih =>
      cases p with
      | scalar c =>
          simp only [List.mapM_cons, Piece.char?, Option.bind_eq_bind, Option.bind_some,
            Option.bind_eq_some_iff, Option.pure_def, Option.some.injEq] at h
          obtain ⟨text, ht, rfl⟩ := h
          rw [List.flatMap_cons, ih ht]
          rfl
      | stray bytes => simp [List.mapM_cons, Piece.char?] at h

-- Decoding succeeds on the encodings of texts and on nothing else.
theorem decode?_eq_some_iff {bytes : List UInt8} {text : List Char} :
    decode? bytes = some text ↔ bytes = encode text := by
  constructor
  · intro h
    rw [← pieces_bytes bytes]
    exact encode_of_mapM_char? h
  · rintro rfl
    exact decode?_encode text

end DocRun.Utf8
