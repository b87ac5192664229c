import DocRun.Decimal.Basic

namespace DocRun.Decimal

-- The reals that round to one positive floating-point number, over one denominator.
-- The ends belong to them when the number's significand is even.
structure Interval where
  below : Nat
  value : Nat
  above : Nat
  denominator : Nat
  closed : Bool
  deriving DecidableEq, Repr

-- The step to the next smaller number is half as wide at a power of two.
def Interval.ofBinary (significand : Nat) (exponent : Int) : Interval :=
  let scale := Nat.pow 2 exponent.toNat
  let value := 4 * significand * scale
  let narrow := significand = 0x10000000000000 ∧ -1074 < exponent
  { below := value - (if narrow then 1 else 2) * scale
    value := value
    above := value + 2 * scale
    denominator := 4 * Nat.pow 2 (-exponent).toNat
    closed := significand % 2 = 0 }

def Interval.inUnits (range : Interval) (unit : Int) : Interval :=
  let scale := Nat.pow 10 (-unit).toNat
  { below := range.below * scale
    value := range.value * scale
    above := range.above * scale
    denominator := range.denominator * Nat.pow 10 unit.toNat
    closed := range.closed }

def Interval.contains (range : Interval) (n : Nat) : Bool :=
  let point := n * range.denominator
  if range.closed then range.below ≤ point && point ≤ range.above
  else range.below < point && point < range.above

-- Of two that are equally near the value the even one is taken.
def Interval.nearest? (range : Interval) : Option Nat :=
  let low := range.value / range.denominator
  let high := low + 1
  match range.contains low, range.contains high with
  | true, true =>
    let doubled := 2 * range.value
    let middle := (low + high) * range.denominator
    if doubled < middle || (doubled = middle && low % 2 = 0) then some low else some high
  | true, false => some low
  | false, true => some high
  | false, false => none

structure Number where
  digits : Nat
  exponent : Int
  deriving DecidableEq, Repr

-- The powers of ten from 308 down to -324, the coarsest grid first.
def units : List Int := (List.range 633).map fun (i : Nat) => 308 - (i : Int)

-- The fewest digits that read back: the first grid with a point in the interval.
def shortest (range : Interval) : Number :=
  (units.findSome? fun unit => (range.inUnits unit).nearest?.map (Number.mk · unit)).getD ⟨0, 0⟩

def zeros (n : Int) : List Char := List.replicate n.toNat '0'

-- Positional between 10^-5 and 10^16 and with at least one digit after the point,
-- otherwise with an exponent.
def Number.render (x : Number) : List Char :=
  let digits := ofNat x.digits
  let point := digits.length + x.exponent
  if 0 ≤ x.exponent ∧ point ≤ 16 then digits ++ zeros x.exponent ++ ['.', '0']
  else if 0 < point ∧ point ≤ 16 then digits.take point.toNat ++ '.' :: digits.drop point.toNat
  else if -5 < point ∧ point ≤ 0 then ['0', '.'] ++ zeros (-point) ++ digits
  else
    let fraction := if digits.length = 1 then [] else '.' :: digits.drop 1
    digits.take 1 ++ fraction ++ 'e' :: ofInt (point - 1)

def renderFloat (x : Float) : List Char :=
  let bits := x.toBits.toNat
  let exponent : Nat := bits / 0x10000000000000 % 0x800
  let fraction := bits % 0x10000000000000
  let sign := if bits / 0x8000000000000000 = 1 then ['-'] else []
  let magnitude :=
    if exponent = 0 then
      if fraction = 0 then ['0', '.', '0']
      else (shortest (.ofBinary fraction (-1074))).render
    else (shortest (.ofBinary (fraction + 0x10000000000000) ((exponent : Int) - 1075))).render
  sign ++ magnitude

end DocRun.Decimal
