namespace DocRun.Utf8

-- One part of a byte sequence. A scalar value stands for its whole encoding,
-- stray bytes are a longest start of an encoding that is never finished, or a byte that starts none.
inductive Piece where
  | scalar (c : Char)
  | stray (bytes : List UInt8)
  deriving DecidableEq, Repr

def isTail (b : UInt8) : Bool := 0x80 ≤ b && b ≤ 0xBF

-- E0 leaves out the overlong forms and ED the surrogates.
def isSecondOfThree (a b : UInt8) : Bool :=
  if a = 0xE0 then 0xA0 ≤ b && b ≤ 0xBF
  else if a = 0xED then 0x80 ≤ b && b ≤ 0x9F
  else isTail b

-- F0 leaves out the overlong forms and F4 what lies above U+10FFFF.
def isSecondOfFour (a b : UInt8) : Bool :=
  if a = 0xF0 then 0x90 ≤ b && b ≤ 0xBF
  else if a = 0xF4 then 0x80 ≤ b && b ≤ 0x8F
  else isTail b

def scalarOfTwo (a b : UInt8) : Char :=
  Char.ofNat (a.toNat % 0x20 * 0x40 + b.toNat % 0x40)

def scalarOfThree (a b c : UInt8) : Char :=
  Char.ofNat (a.toNat % 0x10 * 0x1000 + b.toNat % 0x40 * 0x40 + c.toNat % 0x40)

def scalarOfFour (a b c d : UInt8) : Char :=
  Char.ofNat (a.toNat % 0x08 * 0x40000 + b.toNat % 0x40 * 0x1000 + c.toNat % 0x40 * 0x40
    + d.toNat % 0x40)

def afterTwo (a : UInt8) : List UInt8 → Piece × List UInt8
  | [] => (.stray [a], [])
  | b :: rest =>
    if isTail b then (.scalar (scalarOfTwo a b), rest) else (.stray [a], b :: rest)

def afterThree (a : UInt8) : List UInt8 → Piece × List UInt8
  | [] => (.stray [a], [])
  | b :: rest =>
    if isSecondOfThree a b then
      match rest with
      | [] => (.stray [a, b], [])
      | c :: rest =>
        if isTail c then (.scalar (scalarOfThree a b c), rest) else (.stray [a, b], c :: rest)
    else (.stray [a], b :: rest)

def afterFour (a : UInt8) : List UInt8 → Piece × List UInt8
  | [] => (.stray [a], [])
  | b :: rest =>
    if isSecondOfFour a b then
      match rest with
      | [] => (.stray [a, b], [])
      | c :: rest =>
        if isTail c then
          match rest with
          | [] => (.stray [a, b, c], [])
          | d :: rest =>
            if isTail d then (.scalar (scalarOfFour a b c d), rest)
            else (.stray [a, b, c], d :: rest)
        else (.stray [a, b], c :: rest)
    else (.stray [a], b :: rest)

def next (a : UInt8) (rest : List UInt8) : Piece × List UInt8 :=
  if a < 0x80 then (.scalar (Char.ofNat a.toNat), rest)
  else if a < 0xC2 then (.stray [a], rest)
  else if a < 0xE0 then afterTwo a rest
  else if a < 0xF0 then afterThree a rest
  else if a < 0xF5 then afterFour a rest
  else (.stray [a], rest)

theorem length_next_le (a : UInt8) (rest : List UInt8) : (next a rest).2.length ≤ rest.length := by
  unfold next afterTwo afterThree afterFour
  repeat' split
  all_goals simp only [List.length_cons, List.length_nil]; omega

def pieces : List UInt8 → List Piece
  | [] => []
  | a :: rest => (next a rest).1 :: pieces (next a rest).2
termination_by bytes => bytes.length
decreasing_by exact Nat.lt_succ_of_le (length_next_le a rest)

def Piece.char? : Piece → Option Char
  | .scalar c => some c
  | .stray _ => none

-- U+FFFD stands for stray bytes, once for each run that `next` takes together.
def Piece.lossyChar : Piece → Char
  | .scalar c => c
  | .stray _ => '\uFFFD'

def decode? (bytes : List UInt8) : Option (List Char) :=
  (pieces bytes).mapM Piece.char?

def lossy (bytes : List UInt8) : List Char :=
  (pieces bytes).map Piece.lossyChar

def encode (text : List Char) : List UInt8 :=
  text.flatMap String.utf8EncodeChar

end DocRun.Utf8
