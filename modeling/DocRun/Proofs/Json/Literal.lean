import DocRun.Json.Literal
import DocRun.Proofs.Text.Hex

namespace DocRun.Json.Literal

theorem read_of_quote {text rest : List Char} (h : readItem text = .ok (none, rest)) :
    read text = .ok ([], rest) := by
  rw [read]
  split
  · simp_all
  · simp_all
  · simp_all

theorem read_of_char {text rest : List Char} {c : Char} (h : readItem text = .ok (some c, rest)) :
    read text = (read rest).map fun found => (c :: found.1, found.2) := by
  rw [read]
  split
  · simp_all
  · simp_all
  · rename_i h'
    simp only [h, Except.ok.injEq, Prod.mk.injEq, Option.some.injEq] at h'
    obtain ⟨rfl, rfl⟩ := h'
    cases read rest <;> rfl

-- Control characters without a letter of their own are written with four digits.
theorem readUnicode_lower {c : Char} (h : c.toNat < 0x20) (rest : List Char) :
    readUnicode ('0' :: '0' :: (Hex.lower c.toNat ++ rest)) = .ok (c, rest) := by
  have hz : Hex.value? '0' = some 0 := by decide
  have hhigh := Hex.value?_digitChar (d := c.toNat / 16) (by omega)
  have hlow := Hex.value?_digitChar (d := c.toNat % 16) (by omega)
  have hunit : readUnit ('0' :: '0' :: (Hex.lower c.toNat ++ rest)) = .ok (c.toNat, rest) := by
    simp only [readUnit, Hex.lower, List.cons_append, List.nil_append, hz, hhigh, hlow]
    congr 2
    omega
  have htrail : isTrailing c.toNat = false := by
    simp [isTrailing]
    omega
  have hlead : isLeading c.toNat = false := by
    simp [isLeading]
    omega
  simp only [readUnicode, hunit, htrail, hlead, bind, Except.bind, Char.ofNat_toNat]
  rfl

-- A character that needs no escape is read as it stands.
theorem readItem_of_plain {c : Char} (hquote : c ≠ '"') (hback : c ≠ '\\')
    (hlow : ¬c.toNat < 0x20) (rest : List Char) : readItem (c :: rest) = .ok (some c, rest) := by
  unfold readItem
  split <;> simp_all

-- A character is written by a letter behind a backslash, by four digits, or as it is.
theorem escape_cases (c : Char) :
    (∃ letter, escape c = ['\\', letter] ∧ 0x20 ≤ letter.toNat ∧
      ∀ rest, readItem ('\\' :: letter :: rest) = .ok (some c, rest)) ∨
    (escape c = '\\' :: 'u' :: '0' :: '0' :: Hex.lower c.toNat ∧ c.toNat < 0x20) ∨
    (escape c = [c] ∧ c ≠ '"' ∧ c ≠ '\\' ∧ 0x20 ≤ c.toNat) := by
  unfold escape
  by_cases hquote : c = '"'
  · subst hquote
    exact .inl ⟨'"', rfl, by decide, fun _ => rfl⟩
  rw [if_neg hquote]
  by_cases hback : c = '\\'
  · subst hback
    exact .inl ⟨'\\', rfl, by decide, fun _ => rfl⟩
  rw [if_neg hback]
  by_cases hbackspace : c = '\x08'
  · subst hbackspace
    exact .inl ⟨'b', rfl, by decide, fun _ => rfl⟩
  rw [if_neg hbackspace]
  by_cases htab : c = '\t'
  · subst htab
    exact .inl ⟨'t', rfl, by decide, fun _ => rfl⟩
  rw [if_neg htab]
  by_cases hline : c = '\n'
  · subst hline
    exact .inl ⟨'n', rfl, by decide, fun _ => rfl⟩
  rw [if_neg hline]
  by_cases hpage : c = '\x0c'
  · subst hpage
    exact .inl ⟨'f', rfl, by decide, fun _ => rfl⟩
  rw [if_neg hpage]
  by_cases hreturn : c = '\r'
  · subst hreturn
    exact .inl ⟨'r', rfl, by decide, fun _ => rfl⟩
  rw [if_neg hreturn]
  by_cases hlow : c.toNat < 0x20
  · exact .inr (.inl ⟨if_pos hlow, hlow⟩)
  · exact .inr (.inr ⟨if_neg hlow, hquote, hback, Nat.le_of_not_lt hlow⟩)

-- Whatever is written for a character is read as that character.
theorem readItem_escape (c : Char) (rest : List Char) :
    readItem (escape c ++ rest) = .ok (some c, rest) := by
  obtain ⟨letter, he, -, hread⟩ | ⟨he, hlow⟩ | ⟨he, hquote, hback, hlow⟩ := escape_cases c
  · rw [he]
    exact hread rest
  · rw [he]
    simp only [List.cons_append, readItem, readEscape, readUnicode_lower hlow]
    rfl
  · rw [he]
    exact readItem_of_plain hquote hback (Nat.not_lt.mpr hlow) rest

theorem write_append (text rest : List Char) :
    write text ++ rest = '"' :: (text.flatMap escape ++ '"' :: rest) := by
  rw [write, List.append_assoc]
  rfl

theorem read_escapes (text rest : List Char) :
    read (text.flatMap escape ++ '"' :: rest) = .ok (text, rest) := by
  induction text with
  | nil => exact read_of_quote rfl
  | cons c text ih =>
      rw [List.flatMap_cons, List.append_assoc, read_of_char (readItem_escape c _), ih]
      rfl

end DocRun.Json.Literal
