import DocRun.Json.Basic

namespace DocRun.Json.Number

def isDigit (c : Char) : Bool := '0' ≤ c && c ≤ '9'

def digitValue (c : Char) : Nat := c.toNat - '0'.toNat

def leadingDigits (text : List Char) : List Nat × List Char :=
  ((text.takeWhile isDigit).map digitValue, text.dropWhile isDigit)

-- The number `significand * 10 ^ exponent`. Only 64 bits of significand are kept.
structure Scaled where
  significand : Nat
  exponent : Int
  deriving DecidableEq, Repr

def fits (n : Nat) : Bool := n < 0x10000000000000000

-- Digits before the point. From the first one that no longer fits they only raise the exponent.
def Scaled.addWhole (x : Scaled) (digit : Nat) : Scaled :=
  if x.exponent = 0 && fits (x.significand * 10 + digit) then
    { x with significand := x.significand * 10 + digit }
  else { x with exponent := x.exponent + 1 }

def Scaled.ofWhole (digits : List Nat) : Scaled := digits.foldl Scaled.addWhole ⟨0, 0⟩

-- Digits after the point. From the first one that no longer fits they are ignored.
def Scaled.addFraction (x : Scaled) : List Nat → Scaled
  | [] => x
  | digit :: digits =>
    if fits (x.significand * 10 + digit) then
      Scaled.addFraction ⟨x.significand * 10 + digit, x.exponent - 1⟩ digits
    else x

def powerOfTen (k : Nat) : Float := Float.ofScientific 1 false k

-- A quotient by a power of ten beyond the largest one takes several divisions.
def divideByPower (x : Float) (k : Nat) : Float :=
  if k ≤ 308 then x / powerOfTen k
  else if x == 0 then x
  else divideByPower (x / powerOfTen 308) (k - 308)
termination_by k

-- The significand is rounded first, then multiplied or divided once.
def Scaled.magnitude? (x : Scaled) : Option Float :=
  let start := x.significand.toUInt64.toFloat
  if x.exponent < 0 then some (divideByPower start x.exponent.natAbs)
  else if x.exponent ≤ 308 then
    let product := start * powerOfTen x.exponent.natAbs
    if product.isInf then none else some product
  else if x.significand = 0 then some start
  else none

def signed (negative : Bool) (x : Float) : Float := if negative then -x else x

-- A number written with a point, an exponent or too many digits is a floating-point number.
def ofScaled (negative : Bool) (x : Scaled) (rest : List Char) :
    Except Fault (Json × List Char) :=
  match x.magnitude? with
  | some magnitude => .ok (.float (signed negative magnitude), rest)
  | none => .error .malformed

-- An integer is kept as such from -2^63 to 2^64-1. Minus zero is no integer.
def ofWhole (negative : Bool) (x : Scaled) (rest : List Char) :
    Except Fault (Json × List Char) :=
  if x.exponent ≠ 0 then ofScaled negative x rest
  else if !negative then .ok (.int x.significand, rest)
  else if x.significand = 0 || 0x8000000000000000 < x.significand then ofScaled negative x rest
  else .ok (.int (-x.significand), rest)

def readDigits (text : List Char) : Except Fault (List Nat × List Char) :=
  match leadingDigits text with
  | ([], []) => .error .endOfText
  | ([], _ :: _) => .error .malformed
  | found => .ok found

def ofDigits (digits : List Nat) : Nat := digits.foldl (fun n digit => n * 10 + digit) 0

def readExponentSign : List Char → Bool × List Char
  | '+' :: rest => (false, rest)
  | '-' :: rest => (true, rest)
  | rest => (false, rest)

-- What follows `e`. An exponent of more than 31 bits leaves only zero in range, or nothing.
def readExponent (negative : Bool) (x : Scaled) (text : List Char) :
    Except Fault (Json × List Char) := do
  let (down, rest) := readExponentSign text
  let (digits, rest) ← readDigits rest
  let size := ofDigits digits
  if size < 0x80000000 then
    ofScaled negative { x with exponent := if down then x.exponent - size else x.exponent + size }
      rest
  else if x.significand ≠ 0 && !down then .error .malformed
  else .ok (.float (signed negative 0), rest)

def readFraction (negative : Bool) (x : Scaled) (text : List Char) :
    Except Fault (Json × List Char) := do
  let (digits, rest) ← readDigits text
  let x := x.addFraction digits
  match rest with
  | 'e' :: rest => readExponent negative x rest
  | 'E' :: rest => readExponent negative x rest
  | rest => ofScaled negative x rest

def readTail (negative : Bool) (x : Scaled) : List Char → Except Fault (Json × List Char)
  | '.' :: rest => readFraction negative x rest
  | 'e' :: rest => readExponent negative x rest
  | 'E' :: rest => readExponent negative x rest
  | rest => ofWhole negative x rest

-- A leading zero stands alone.
def readUnsigned (negative : Bool) (text : List Char) : Except Fault (Json × List Char) := do
  let (digits, rest) ← readDigits text
  match digits with
  | 0 :: _ :: _ => .error .malformed
  | _ => readTail negative (Scaled.ofWhole digits) rest

def read : Reader Json
  | '-' :: rest => readUnsigned true rest
  | text => readUnsigned false text

def startsWith (c : Char) : Bool := c = '-' || isDigit c

end DocRun.Json.Number
