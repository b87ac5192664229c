import DocRun.Text.Hex

namespace DocRun.Hex

-- The number that hexadecimal digits stand for.
def ofDigits (digits : List Char) : Nat :=
  digits.foldl (fun n c => n * 16 + (value? c).getD 0) 0

theorem value?_digitChar {d : Nat} (h : d < 16) : value? (Nat.digitChar d) = some d := by
  revert d
  decide

theorem value?_toUpper_digitChar {d : Nat} (h : d < 16) :
    value? (Nat.digitChar d).toUpper = some d := by
  revert d
  decide

-- A digit with the value is written as one of two characters, which are the same below ten.
def IsDigit (n : Nat) (c : Char) : Prop :=
  n < 16 ∧ (c = Nat.digitChar n ∨ c = (Nat.digitChar n).toUpper)

instance (n : Nat) (c : Char) : Decidable (IsDigit n c) :=
  inferInstanceAs (Decidable (_ ∧ _))

theorem toNat_lt_of_value? {c : Char} {n : Nat} (h : value? c = some n) : c.toNat < 0x67 := by
  have hnine : c ≤ '9' → c.toNat ≤ 0x39 := id
  have hlower : c ≤ 'f' → c.toNat ≤ 0x66 := id
  have hupper : c ≤ 'F' → c.toNat ≤ 0x46 := id
  unfold value? at h
  split at h
  case isTrue hc =>
    have := hnine hc.2
    omega
  case isFalse =>
    split at h
    case isTrue hc =>
      have := hlower hc.2
      omega
    case isFalse =>
      split at h
      case isTrue hc =>
        have := hupper hc.2
        omega
      case isFalse => exact nomatch h

theorem value?_eq_some_iff {c : Char} {n : Nat} : value? c = some n ↔ IsDigit n c := by
  constructor
  · intro h
    have hall : ∀ k < 0x67, ∀ d ∈ value? (Char.ofNat k), IsDigit d (Char.ofNat k) := by decide
    have hc := hall c.toNat (toNat_lt_of_value? h)
    rw [Char.ofNat_toNat] at hc
    exact hc n h
  · rintro ⟨hn, rfl | rfl⟩
    · exact value?_digitChar hn
    · exact value?_toUpper_digitChar hn

theorem ofDigits_toDigits (n : Nat) : ofDigits (Nat.toDigits 16 n) = n := by
  induction n using Nat.strongRecOn with
  | ind n ih =>
      rw [Nat.toDigits_eq_if (by decide)]
      split
      case isTrue h => simp [ofDigits, value?_digitChar h]
      case isFalse h =>
        have hlast : n % 16 < 16 := Nat.mod_lt n (by decide)
        have hq := ih (n / 16) (by omega)
        simp only [ofDigits] at hq
        simp only [ofDigits, List.foldl_append, List.foldl_cons, List.foldl_nil, hq,
          value?_digitChar hlast, Option.getD_some]
        omega

theorem isSome_value?_of_mem_toDigits {n : Nat} {c : Char} (h : c ∈ Nat.toDigits 16 n) :
    (value? c).isSome = true := by
  induction n using Nat.strongRecOn with
  | ind n ih =>
      rw [Nat.toDigits_eq_if (by decide)] at h
      split at h
      case isTrue hn =>
        rw [List.mem_singleton.mp h, value?_digitChar hn]
        rfl
      case isFalse hn =>
        rcases List.mem_append.mp h with hm | hm
        · exact ih (n / 16) (by omega) hm
        · rw [List.mem_singleton.mp hm, value?_digitChar (Nat.mod_lt n (by decide))]
          rfl

theorem isSome_value?_of_mem_lower {n : Nat} (h : n < 0x100) {c : Char} (hc : c ∈ lower n) :
    (value? c).isSome = true := by
  have hhigh := value?_digitChar (d := n / 16) (by omega)
  have hlow := value?_digitChar (d := n % 16) (by omega)
  simp only [lower, List.mem_cons, List.not_mem_nil, or_false] at hc
  obtain rfl | rfl := hc
  · rw [hhigh, Option.isSome_some]
  · rw [hlow, Option.isSome_some]

-- No digit is a control character.
theorem le_of_isSome_value? {c : Char} (h : (value? c).isSome = true) : 0x20 ≤ c.toNat := by
  obtain ⟨n, hn⟩ := Option.isSome_iff_exists.mp h
  obtain ⟨hlt, hc⟩ := value?_eq_some_iff.mp hn
  have hall : ∀ d < 16,
      0x20 ≤ (Nat.digitChar d).toNat ∧ 0x20 ≤ (Nat.digitChar d).toUpper.toNat := by
    decide
  obtain rfl | rfl := hc
  · exact (hall n hlt).1
  · exact (hall n hlt).2

theorem ne_of_isSome_value? {c d : Char} (hc : (value? c).isSome = true) (hd : value? d = none) :
    c ≠ d := by
  rintro rfl
  rw [hd] at hc
  exact absurd hc Bool.false_ne_true

end DocRun.Hex
