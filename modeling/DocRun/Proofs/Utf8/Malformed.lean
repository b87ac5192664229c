import DocRun.Proofs.Utf8
import Mathlib.Data.List.TakeWhile

namespace DocRun.Utf8

-- A byte that carries the six lowest bits of a number.
def tailOf (n : Nat) : UInt8 := UInt8.ofNat (n % 0x40 + 0x80)

-- The bits of a number spread over one to four bytes. Not every number is a character, and for a
-- character only the shortest of its forms is its encoding.
inductive Form : Nat → List UInt8 → Prop
  | one {n : Nat} (h : n < 0x80) : Form n [UInt8.ofNat n]
  | two {n : Nat} (h : n < 0x800) : Form n [UInt8.ofNat (n / 0x40 + 0xC0), tailOf n]
  | three {n : Nat} (h : n < 0x10000) :
      Form n [UInt8.ofNat (n / 0x1000 + 0xE0), tailOf (n / 0x40), tailOf n]
  | four {n : Nat} (h : n < 0x200000) :
      Form n [UInt8.ofNat (n / 0x40000 + 0xF0), tailOf (n / 0x1000), tailOf (n / 0x40), tailOf n]

-- What no encoding of a text can start with, followed by anything.
inductive Malformed : List UInt8 → Prop
  | surrogate {n : Nat} {form : List UInt8} (rest : List UInt8) (hf : Form n form)
      (h : 0xD800 ≤ n) (h' : n ≤ 0xDFFF) : Malformed (form ++ rest)
  | overlong {n : Nat} {form shorter : List UInt8} (rest : List UInt8) (hf : Form n form)
      (hs : Form n shorter) (h : shorter.length < form.length) : Malformed (form ++ rest)
  | above {n : Nat} {form : List UInt8} (rest : List UInt8) (hf : Form n form)
      (h : 0x10FFFF < n) : Malformed (form ++ rest)
  -- a form that breaks off before its last byte
  | truncated {n : Nat} {form : List UInt8} (count : Nat) (rest : List UInt8) (hf : Form n form)
      (h : 0 < count) (h' : count < form.length) (hr : ∀ b ∈ rest.head?, isTail b = false) :
      Malformed (form.take count ++ rest)
  | tail {b : UInt8} (rest : List UInt8) (h : isTail b = true) : Malformed (b :: rest)
  -- a byte that starts no form
  | unused {b : UInt8} (rest : List UInt8) (h : 0xF8 ≤ b.toNat) : Malformed (b :: rest)

-- The length of a form, which its first byte gives away.
def width (a : UInt8) : Nat :=
  if a.toNat < 0x80 then 1
  else if a.toNat < 0xC0 then 0
  else if a.toNat < 0xE0 then 2
  else if a.toNat < 0xF0 then 3
  else if a.toNat < 0xF8 then 4
  else 0

-- The number that a form spreads.
def number : List UInt8 → Nat
  | [a] => a.toNat
  | [a, b] => a.toNat % 0x20 * 0x40 + b.toNat % 0x40
  | [a, b, c] => a.toNat % 0x10 * 0x1000 + b.toNat % 0x40 * 0x40 + c.toNat % 0x40
  | [a, b, c, d] =>
    a.toNat % 0x08 * 0x40000 + b.toNat % 0x40 * 0x1000 + c.toNat % 0x40 * 0x40 + d.toNat % 0x40
  | _ => 0

theorem width_cases (a : UInt8) :
    a.toNat < 0x80 ∧ width a = 1 ∨ 0x80 ≤ a.toNat ∧ a.toNat < 0xC0 ∧ width a = 0 ∨
      0xC0 ≤ a.toNat ∧ a.toNat < 0xE0 ∧ width a = 2 ∨
      0xE0 ≤ a.toNat ∧ a.toNat < 0xF0 ∧ width a = 3 ∨
      0xF0 ≤ a.toNat ∧ a.toNat < 0xF8 ∧ width a = 4 ∨ 0xF8 ≤ a.toNat ∧ width a = 0 := by
  unfold width
  split
  · omega
  split
  · omega
  split
  · omega
  split
  · omega
  split
  · omega
  · omega

theorem toNat_tailOf (n : Nat) : (tailOf n).toNat = n % 0x40 + 0x80 :=
  toNat_byte (by omega)

theorem isTail_tailOf (n : Nat) : isTail (tailOf n) = true := by
  have hn := toNat_tailOf n
  rw [isTail_iff]
  omega

theorem Form.shape {n : Nat} {form : List UInt8} (h : Form n form) :
    ∃ a tails, form = a :: tails ∧ tails.length + 1 = width a ∧ ∀ b ∈ tails, isTail b = true := by
  cases h with
  | one h =>
      have ha := toNat_byte (n := n) (by omega)
      have hw := width_cases (UInt8.ofNat n)
      exact ⟨_, [], rfl, by rw [List.length_nil]; omega, by simp⟩
  | two h =>
      have ha := toNat_byte (n := n / 0x40 + 0xC0) (by omega)
      have hw := width_cases (UInt8.ofNat (n / 0x40 + 0xC0))
      exact ⟨_, _, rfl, by simp only [List.length_cons, List.length_nil]; omega,
        by simp [isTail_tailOf]⟩
  | three h =>
      have ha := toNat_byte (n := n / 0x1000 + 0xE0) (by omega)
      have hw := width_cases (UInt8.ofNat (n / 0x1000 + 0xE0))
      exact ⟨_, _, rfl, by simp only [List.length_cons, List.length_nil]; omega,
        by simp [isTail_tailOf]⟩
  | four h =>
      have ha := toNat_byte (n := n / 0x40000 + 0xF0) (by omega)
      have hw := width_cases (UInt8.ofNat (n / 0x40000 + 0xF0))
      exact ⟨_, _, rfl, by simp only [List.length_cons, List.length_nil]; omega,
        by simp [isTail_tailOf]⟩

theorem Form.number_eq {n : Nat} {form : List UInt8} (h : Form n form) : number form = n := by
  cases h with
  | one h => exact toNat_byte (by omega)
  | two h =>
      have ha := toNat_byte (n := n / 0x40 + 0xC0) (by omega)
      rw [number, ha, toNat_tailOf]
      omega
  | three h =>
      have ha := toNat_byte (n := n / 0x1000 + 0xE0) (by omega)
      rw [number, ha, toNat_tailOf, toNat_tailOf]
      omega
  | four h =>
      have ha := toNat_byte (n := n / 0x40000 + 0xF0) (by omega)
      rw [number, ha, toNat_tailOf, toNat_tailOf, toNat_tailOf]
      omega

theorem form_encodeChar (c : Char) : Form c.toNat (String.utf8EncodeChar c) := by
  have hv := toNat_valid c
  simp only [String.utf8EncodeChar, Char.toNat_val]
  split
  · exact .one (by omega)
  split
  · rw [Nat.mod_eq_of_lt (a := c.toNat / 64) (by omega)]
    exact .two (by omega)
  split
  · rw [Nat.mod_eq_of_lt (a := c.toNat / 4096) (by omega)]
    exact .three (by omega)
  · rw [Nat.mod_eq_of_lt (a := c.toNat / 262144) (by omega)]
    exact .four (by omega)

-- The encoding of a character is the shortest form of its number.
theorem length_encodeChar_le {c : Char} {form : List UInt8} (h : Form c.toNat form) :
    (String.utf8EncodeChar c).length ≤ form.length := by
  generalize hn : c.toNat = n at h
  rw [← Char.ofNat_toNat c, hn]
  have hv : n.isValidChar := hn ▸ c.valid
  have hform : form.length = 1 ∧ n < 0x80 ∨ form.length = 2 ∧ n < 0x800 ∨
      form.length = 3 ∧ n < 0x10000 ∨ form.length = 4 := by
    cases h <;> simp [*]
  rw [encodeChar_ofNat hv]
  split
  · simp only [List.length_cons, List.length_nil]
    omega
  split
  · simp only [List.length_cons, List.length_nil]
    omega
  split
  · simp only [List.length_cons, List.length_nil]
    omega
  · simp only [List.length_cons, List.length_nil]
    omega

-- A form is told by its first byte where it ends.
theorem Form.split {m n : Nat} {form other rest more : List UInt8} (hf : Form m form)
    (ho : Form n other) (h : form ++ rest = other ++ more) : form = other ∧ m = n := by
  obtain ⟨a, tails, rfl, ha, -⟩ := hf.shape
  obtain ⟨b, others, rfl, hb, -⟩ := ho.shape
  obtain ⟨hfirst, htails⟩ := List.cons.inj h
  have hlen : tails.length = others.length := by
    rw [hfirst] at ha
    omega
  have hform : a :: tails = b :: others := by
    rw [hfirst, (List.append_inj htails hlen).1]
  refine ⟨hform, ?_⟩
  rw [← hf.number_eq, hform, ho.number_eq]

theorem Malformed.ne_encodeChar {bytes : List UInt8} (h : Malformed bytes) (c : Char)
    (more : List UInt8) : bytes ≠ String.utf8EncodeChar c ++ more := by
  have hv := toNat_valid c
  intro he
  cases h with
  | surrogate rest hf h h' =>
      obtain ⟨-, rfl⟩ := hf.split (form_encodeChar c) he
      omega
  | overlong rest hf hs h =>
      obtain ⟨rfl, rfl⟩ := hf.split (form_encodeChar c) he
      have hle := length_encodeChar_le hs
      omega
  | above rest hf h =>
      obtain ⟨-, rfl⟩ := hf.split (form_encodeChar c) he
      omega
  | @truncated n form count rest hf h h' hr =>
      obtain ⟨a, tails, rfl, ha, -⟩ := hf.shape
      obtain ⟨b, others, hc, hb, htail⟩ := (form_encodeChar c).shape
      obtain ⟨count, rfl⟩ : ∃ k, count = k + 1 := ⟨count - 1, by omega⟩
      rw [hc, List.take_succ_cons, List.cons_append, List.cons_append] at he
      obtain ⟨rfl, htails⟩ := List.cons.inj he
      rw [List.length_cons] at h'
      have hlen : (tails.take count).length = count := by
        rw [List.length_take]
        omega
      -- the encoding has a tail where the form breaks off
      have hnext := congrArg (·[count]?) htails
      have hcount : count < others.length := by omega
      simp only [List.getElem?_append_right (Nat.le_of_eq hlen), hlen, Nat.sub_self,
        List.getElem?_append_left hcount, List.getElem?_eq_getElem hcount,
        ← List.head?_eq_getElem?] at hnext
      have hmem := htail _ (List.getElem_mem hcount)
      rw [hr _ hnext] at hmem
      exact Bool.false_ne_true hmem
  | @tail a rest h =>
      obtain ⟨b, others, hc, hb, -⟩ := (form_encodeChar c).shape
      rw [hc, List.cons_append] at he
      have hw := width_cases a
      rw [isTail_iff] at h
      rw [← (List.cons.inj he).1] at hb
      omega
  | @unused a rest h =>
      obtain ⟨b, others, hc, hb, -⟩ := (form_encodeChar c).shape
      rw [hc, List.cons_append] at he
      have hw := width_cases a
      rw [← (List.cons.inj he).1] at hb
      omega

theorem form_of_tails (a : UInt8) (tails : List UInt8) (hw : tails.length + 1 = width a)
    (ht : ∀ b ∈ tails, isTail b = true) : Form (number (a :: tails)) (a :: tails) := by
  have ha := width_cases a
  simp only [isTail_iff] at ht
  match tails with
  | [] =>
      rw [List.length_nil] at hw
      have hf : Form a.toNat _ := .one (by omega)
      rw [UInt8.ofNat_toNat] at hf
      exact hf
  | [b] =>
      rw [List.length_singleton] at hw
      have hb := ht b (by simp)
      generalize hn : number [a, b] = n
      rw [number] at hn
      have hf : Form n _ := .two (by omega)
      rw [tailOf, ofNat_eq_byte (a := a) (by omega), ofNat_eq_byte (a := b) (by omega)] at hf
      exact hf
  | [b, c] =>
      rw [List.length_cons, List.length_singleton] at hw
      have hb := ht b (by simp)
      have hc := ht c (by simp)
      generalize hn : number [a, b, c] = n
      rw [number] at hn
      have hf : Form n _ := .three (by omega)
      rw [tailOf, tailOf, ofNat_eq_byte (a := a) (by omega), ofNat_eq_byte (a := b) (by omega),
        ofNat_eq_byte (a := c) (by omega)] at hf
      exact hf
  | [b, c, d] =>
      rw [List.length_cons, List.length_cons, List.length_singleton] at hw
      have hb := ht b (by simp)
      have hc := ht c (by simp)
      have hd := ht d (by simp)
      generalize hn : number [a, b, c, d] = n
      rw [number] at hn
      have hf : Form n _ := .four (by omega)
      rw [tailOf, tailOf, tailOf, ofNat_eq_byte (a := a) (by omega),
        ofNat_eq_byte (a := b) (by omega), ofNat_eq_byte (a := c) (by omega),
        ofNat_eq_byte (a := d) (by omega)] at hf
      exact hf
  | _ :: _ :: _ :: _ :: more =>
      simp only [List.length_cons] at hw
      omega

-- Any tails would complete the form, and those that are there are a start of it.
theorem malformed_of_missing {a : UInt8} {tails rest : List UInt8} (hw : tails.length + 1 < width a)
    (ht : ∀ b ∈ tails, isTail b = true) (hr : ∀ b ∈ rest.head?, isTail b = false) :
    Malformed (a :: (tails ++ rest)) := by
  have hmissing : (List.replicate (width a - 1 - tails.length) (tailOf 0)).length =
      width a - 1 - tails.length := List.length_replicate
  have hform := form_of_tails a (tails ++ List.replicate (width a - 1 - tails.length) (tailOf 0))
    (by rw [List.length_append, hmissing]; omega) fun b hb => by
      rcases List.mem_append.mp hb with hb | hb
      · exact ht b hb
      · rw [List.eq_of_mem_replicate hb]
        exact isTail_tailOf 0
  have hbroken := Malformed.truncated (tails.length + 1) rest hform (by omega)
    (by rw [List.length_cons, List.length_append, hmissing]; omega) hr
  rwa [List.take_succ_cons, List.take_left, List.cons_append] at hbroken

-- A byte that starts a form is followed by the rest of one, or the form breaks off.
theorem malformed_or_form (a : UInt8) (rest : List UInt8) :
    Malformed (a :: rest) ∨ ∃ n form more, Form n form ∧ a :: rest = form ++ more := by
  have hw := width_cases a
  by_cases ht : 0x80 ≤ a.toNat ∧ a.toNat ≤ 0xBF
  · exact .inl (.tail rest (isTail_iff.mpr ht))
  by_cases hu : 0xF8 ≤ a.toNat
  · exact .inl (.unused rest hu)
  have hrest : rest.takeWhile isTail ++ rest.dropWhile isTail = rest :=
    List.takeWhile_append_dropWhile
  have htails : ∀ b ∈ rest.takeWhile isTail, isTail b = true := fun b hb =>
    List.mem_takeWhile_imp hb
  have hnext : ∀ b ∈ (rest.dropWhile isTail).head?, isTail b = false := by
    intro b hb
    have hhead := List.head?_dropWhile_not isTail rest
    rw [hb] at hhead
    exact hhead
  generalize rest.takeWhile isTail = tails, rest.dropWhile isTail = after at hrest htails hnext
  subst hrest
  by_cases hlen : tails.length + 1 < width a
  · exact .inl (malformed_of_missing hlen htails hnext)
  · right
    have hform := form_of_tails a (tails.take (width a - 1)) (by rw [List.length_take]; omega)
      fun b hb => htails b (List.mem_of_mem_take hb)
    refine ⟨_, _, tails.drop (width a - 1) ++ after, hform, ?_⟩
    rw [List.cons_append, ← List.append_assoc, List.take_append_drop]

theorem Form.eq_of_length_eq {n : Nat} {form other : List UInt8} (hf : Form n form)
    (ho : Form n other) (h : form.length = other.length) : form = other := by
  cases hf with
  | one => cases ho with
    | one => rfl
    | _ => simp at h
  | two => cases ho with
    | two => rfl
    | _ => simp at h
  | three => cases ho with
    | three => rfl
    | _ => simp at h
  | four => cases ho with
    | four => rfl
    | _ => simp at h

-- A form that is no encoding of a character has one of three faults.
theorem malformed_or_encodeChar {n : Nat} {form : List UInt8} (h : Form n form)
    (rest : List UInt8) : Malformed (form ++ rest) ∨ ∃ c, form = String.utf8EncodeChar c := by
  by_cases hs : 0xD800 ≤ n ∧ n ≤ 0xDFFF
  · exact .inl (.surrogate rest h hs.1 hs.2)
  by_cases ha : 0x10FFFF < n
  · exact .inl (.above rest h ha)
  have hv : n.isValidChar := by
    unfold Nat.isValidChar
    omega
  have hn := toNat_ofNat_char hv
  have hc := form_encodeChar (Char.ofNat n)
  rw [hn] at hc
  by_cases hl : (String.utf8EncodeChar (Char.ofNat n)).length < form.length
  · exact .inl (.overlong rest h hc hl)
  · have hle := length_encodeChar_le (hn.symm ▸ h)
    exact .inr ⟨Char.ofNat n, h.eq_of_length_eq hc (by omega)⟩

theorem encode_cons (c : Char) (text : List Char) :
    encode (c :: text) = String.utf8EncodeChar c ++ encode text := rfl

theorem Form.ne_nil {n : Nat} {form : List UInt8} (h : Form n form) : form ≠ [] := by
  obtain ⟨a, tails, rfl, -⟩ := h.shape
  exact List.cons_ne_nil a tails

theorem Malformed.ne_nil {bytes : List UInt8} (h : Malformed bytes) : bytes ≠ [] := by
  cases h with
  | surrogate rest hf _ _ => exact List.append_ne_nil_of_left_ne_nil hf.ne_nil rest
  | overlong rest hf _ _ => exact List.append_ne_nil_of_left_ne_nil hf.ne_nil rest
  | above rest hf _ => exact List.append_ne_nil_of_left_ne_nil hf.ne_nil rest
  | truncated count rest hf h _ _ =>
      have hstart := mt List.take_eq_nil_iff.mp (not_or.mpr ⟨Nat.ne_of_gt h, hf.ne_nil⟩)
      exact List.append_ne_nil_of_left_ne_nil hstart rest
  | tail rest _ => exact List.cons_ne_nil _ rest
  | unused rest _ => exact List.cons_ne_nil _ rest

theorem malformed_or_encoded (a : UInt8) (rest : List UInt8) :
    Malformed (a :: rest) ∨ ∃ c more, a :: rest = String.utf8EncodeChar c ++ more := by
  obtain hm | ⟨n, form, more, hf, he⟩ := malformed_or_form a rest
  · exact .inl hm
  · rw [he]
    obtain hm | ⟨c, rfl⟩ := malformed_or_encodeChar hf more
    · exact .inl hm
    · exact .inr ⟨c, more, rfl⟩

theorem Malformed.append_ne_encode {rest : List UInt8} (h : Malformed rest)
    (before text : List Char) : encode before ++ rest ≠ encode text := by
  induction before generalizing text with
  | nil =>
      cases text with
      | nil => exact h.ne_nil
      | cons c text => exact h.ne_encodeChar c (encode text)
  | cons c before ih =>
      rw [encode_cons, List.append_assoc]
      intro he
      cases text with
      | nil => exact (form_encodeChar c).ne_nil (List.append_eq_nil_iff.mp he).1
      | cons d text =>
          rw [encode_cons] at he
          obtain ⟨hcd, -⟩ := (form_encodeChar c).split (form_encodeChar d) he
          rw [hcd] at he
          exact ih text (List.append_cancel_left he)

-- Bytes are the encoding of a text unless something malformed comes after the encoding of a part.
theorem ne_encode_iff {bytes : List UInt8} : (∀ text, bytes ≠ encode text) ↔
    ∃ before rest, bytes = encode before ++ rest ∧ Malformed rest := by
  constructor
  · intro h
    induction hl : bytes.length using Nat.strongRecOn generalizing bytes with
    | ind n ih =>
        subst hl
        cases bytes with
        | nil => exact absurd rfl (h [])
        | cons a rest =>
            obtain hm | ⟨c, more, he⟩ := malformed_or_encoded a rest
            · exact ⟨[], a :: rest, rfl, hm⟩
            · have hlen : more.length < (a :: rest).length := by
                rw [he, List.length_append]
                have hpos := List.length_pos_iff.mpr (form_encodeChar c).ne_nil
                omega
              have hmore : ∀ text, more ≠ encode text := by
                rintro text rfl
                exact h (c :: text) he
              obtain ⟨before, left, rfl, hm⟩ := ih more.length hlen hmore rfl
              refine ⟨c :: before, left, ?_, hm⟩
              rw [he, encode_cons, List.append_assoc]
  · rintro ⟨before, rest, rfl, hm⟩ text
    exact hm.append_ne_encode before text

end DocRun.Utf8
