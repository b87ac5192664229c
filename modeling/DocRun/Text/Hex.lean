namespace DocRun.Hex

def value? (c : Char) : Option Nat :=
  if '0' ≤ c ∧ c ≤ '9' then some (c.toNat - '0'.toNat)
  else if 'a' ≤ c ∧ c ≤ 'f' then some (c.toNat - 'a'.toNat + 10)
  else if 'A' ≤ c ∧ c ≤ 'F' then some (c.toNat - 'A'.toNat + 10)
  else none

-- A byte as two lowercase digits.
def lower (n : Nat) : List Char := [Nat.digitChar (n / 16), Nat.digitChar (n % 16)]

def upper (n : Nat) : List Char := (lower n).map Char.toUpper

end DocRun.Hex
