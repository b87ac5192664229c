import DocRun.Decimal.Basic
import DocRun.Json.Number

namespace DocRun.Json.Number

-- A text that cannot make the number before it longer.
def Ends : List Char → Prop
  | [] => True
  | c :: _ => isDigit c = false ∧ c ≠ '.' ∧ c ≠ 'e' ∧ c ≠ 'E'

theorem isDigit_iff {c : Char} : isDigit c = true ↔ c.isDigit = true := by
  simp [isDigit, Char.isDigit_iff_toNat, Char.le_def, UInt32.le_iff_toNat_le]

theorem isDigit_of_mem_ofNat {n : Nat} {c : Char} (h : c ∈ Decimal.ofNat n) : isDigit c = true :=
  isDigit_iff.mpr (Nat.isDigit_of_mem_toDigits (by decide) (by decide) h)

theorem takeWhile_append_of_ends {digits rest : List Char} (h : ∀ c ∈ digits, isDigit c = true)
    (hr : Ends rest) : (digits ++ rest).takeWhile isDigit = digits := by
  rw [List.takeWhile_append_of_pos h]
  cases rest with
  | nil => simp
  | cons c rest => simp [hr.1]

theorem dropWhile_append_of_ends {digits rest : List Char} (h : ∀ c ∈ digits, isDigit c = true)
    (hr : Ends rest) : (digits ++ rest).dropWhile isDigit = rest := by
  rw [List.dropWhile_append_of_pos h]
  cases rest with
  | nil => simp
  | cons c rest => simp [hr.1]

-- The values of the digits of a number.
def digitsOf (n : Nat) : List Nat := (Decimal.ofNat n).map digitValue

theorem leadingDigits_ofNat (n : Nat) {rest : List Char} (hr : Ends rest) :
    leadingDigits (Decimal.ofNat n ++ rest) = (digitsOf n, rest) := by
  have hd : ∀ c ∈ Decimal.ofNat n, isDigit c = true := fun c hc => isDigit_of_mem_ofNat hc
  rw [leadingDigits, takeWhile_append_of_ends hd hr, dropWhile_append_of_ends hd hr, digitsOf]

theorem digitsOf_ne_nil (n : Nat) : digitsOf n ≠ [] := by
  simp [digitsOf, Decimal.ofNat]

theorem readDigits_ofNat (n : Nat) {rest : List Char} (hr : Ends rest) :
    readDigits (Decimal.ofNat n ++ rest) = .ok (digitsOf n, rest) := by
  rw [readDigits, leadingDigits_ofNat n hr]
  cases h : digitsOf n with
  | nil => exact absurd h (digitsOf_ne_nil n)
  | cons d ds => rfl

theorem ofDigits_digitsOf (n : Nat) : ofDigits (digitsOf n) = n := by
  have h := Nat.ofDigitChars_ten_toDigits (n := n)
  rw [Nat.ofDigitChars_eq_foldl] at h
  rw [ofDigits, digitsOf, Decimal.ofNat, List.foldl_map]
  simpa [digitValue, Nat.mul_comm] using h

theorem le_foldl_digits (digits : List Nat) (n : Nat) :
    n ≤ digits.foldl (fun n digit => n * 10 + digit) n := by
  induction digits generalizing n with
  | nil => exact Nat.le_refl n
  | cons d ds ih =>
      have h := ih (n * 10 + d)
      simp only [List.foldl_cons]
      omega

-- As long as the number fits, no digit is turned into an exponent.
theorem foldl_addWhole (digits : List Nat) (n : Nat)
    (h : digits.foldl (fun n digit => n * 10 + digit) n < 0x10000000000000000) :
    digits.foldl Scaled.addWhole ⟨n, 0⟩ =
      ⟨digits.foldl (fun n digit => n * 10 + digit) n, 0⟩ := by
  induction digits generalizing n with
  | nil => rfl
  | cons d ds ih =>
      simp only [List.foldl_cons] at h ⊢
      have hle := le_foldl_digits ds (n * 10 + d)
      have hfits : fits (n * 10 + d) = true := by
        simp only [fits, decide_eq_true_eq]
        omega
      simp only [Scaled.addWhole, hfits, decide_true, Bool.and_self, if_true]
      exact ih _ h

theorem ofWhole_digitsOf {n : Nat} (h : n < 0x10000000000000000) :
    Scaled.ofWhole (digitsOf n) = ⟨n, 0⟩ := by
  have hn : (digitsOf n).foldl (fun n digit => n * 10 + digit) 0 = n := ofDigits_digitsOf n
  rw [Scaled.ofWhole, foldl_addWhole _ _ (by rwa [hn]), hn]

theorem exists_cons_ofNat (n : Nat) : ∃ c cs, Decimal.ofNat n = c :: cs ∧ isDigit c = true := by
  cases h : Decimal.ofNat n with
  | nil => exact absurd h Nat.toDigits_ne_nil
  | cons c cs => exact ⟨c, cs, rfl, isDigit_of_mem_ofNat (by rw [h]; exact List.mem_cons_self)⟩

-- Only zero itself starts with the digit zero.
theorem digitValue_head_ofNat {n : Nat} (h : 0 < n) {c : Char} {cs : List Char}
    (hc : Decimal.ofNat n = c :: cs) : digitValue c ≠ 0 := by
  induction n using Nat.strongRecOn generalizing cs with
  | ind n ih =>
      rw [Decimal.ofNat, Nat.toDigits_eq_if (by decide)] at hc
      split at hc
      · rename_i hlt
        have hall : ∀ d < 10, 0 < d → digitValue (Nat.digitChar d) ≠ 0 := by decide
        obtain ⟨rfl, _⟩ := List.cons.inj hc
        exact hall n hlt h
      · obtain ⟨c', cs', hc', _⟩ := exists_cons_ofNat (n / 10)
        have htail := hc'
        rw [Decimal.ofNat] at hc'
        rw [hc', List.cons_append] at hc
        obtain ⟨rfl, _⟩ := List.cons.inj hc
        exact ih (n / 10) (by omega) (by omega) htail

theorem digitsOf_zero : digitsOf 0 = [0] := by
  decide

theorem readTail_of_ends (negative : Bool) (x : Scaled) {rest : List Char} (hr : Ends rest) :
    readTail negative x rest = ofWhole negative x rest := by
  cases rest with
  | nil => rfl
  | cons c rest =>
      obtain ⟨_, hdot, he, hE⟩ := hr
      unfold readTail
      split <;> simp_all

theorem readUnsigned_ofNat (negative : Bool) {n : Nat} (h : n < 0x10000000000000000)
    {rest : List Char} (hr : Ends rest) :
    readUnsigned negative (Decimal.ofNat n ++ rest) = ofWhole negative ⟨n, 0⟩ rest := by
  simp only [readUnsigned, readDigits_ofNat n hr, bind, Except.bind, ofWhole_digitsOf h,
    readTail_of_ends negative _ hr]
  split
  · rename_i d ds hd
    rcases Nat.eq_zero_or_pos n with rfl | hn
    · simp [digitsOf_zero] at hd
    · obtain ⟨c, cs, hc, _⟩ := exists_cons_ofNat n
      rw [digitsOf, hc, List.map_cons] at hd
      exact absurd (List.cons.inj hd).1 (digitValue_head_ofNat hn hc)
  · rfl

theorem read_of_digit {c : Char} (h : isDigit c = true) (text : List Char) :
    read (c :: text) = readUnsigned false (c :: text) := by
  unfold read
  split
  · simp_all [isDigit]
  · rfl

-- An integer that is kept as such comes back from its decimal text.
theorem ofWhole_true {n : Nat} (hzero : n ≠ 0) (hsize : ¬0x8000000000000000 < n)
    (rest : List Char) :
    ofWhole true ⟨n, 0⟩ rest = .ok (.int (-n), rest) := by
  have hsmall : ¬(decide (n = 0) || decide (0x8000000000000000 < n)) = true := by
    rw [Bool.or_eq_true, decide_eq_true_eq, decide_eq_true_eq]
    omega
  simp only [ofWhole, ne_eq, not_true_eq_false, if_false, Bool.not_true, Bool.false_eq_true,
    hsmall]

theorem ofWhole_false (n : Nat) (rest : List Char) :
    ofWhole false ⟨n, 0⟩ rest = .ok (.int n, rest) := rfl

theorem read_ofInt {n : Int} (h : -0x8000000000000000 ≤ n) (h' : n < 0x10000000000000000)
    {rest : List Char} (hr : Ends rest) : read (Decimal.ofInt n ++ rest) = .ok (.int n, rest) := by
  unfold Decimal.ofInt
  split
  · rename_i hn
    have hzero : n.natAbs ≠ 0 := by omega
    have hsize : ¬0x8000000000000000 < n.natAbs := by omega
    have hneg : -(n.natAbs : Int) = n := by omega
    rw [List.cons_append, read, readUnsigned_ofNat true (by omega) hr,
      ofWhole_true hzero hsize, hneg]
  · rename_i hn
    have hpos : (n.natAbs : Int) = n := by omega
    obtain ⟨c, cs, hc, hd⟩ := exists_cons_ofNat n.natAbs
    rw [hc, List.cons_append, read_of_digit hd, ← List.cons_append, ← hc,
      readUnsigned_ofNat false (by omega) hr, ofWhole_false, hpos]

end DocRun.Json.Number
