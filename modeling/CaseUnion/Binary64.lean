import CaseUnion.Decimal

/-!
# Binary floating point of 64 bits

A number is its bit pattern, so two numbers can be told apart even where they compare equal.  `same`
is the comparison of the number format: no number that is not a number equals anything, and the two
zeros are equal.
-/

namespace CaseUnion

/-- A floating point number by its bits: sign, eleven bits of exponent, 52 bits of fraction. -/
structure Binary64 where
  /-- The bits, the sign first. -/
  bits : UInt64
deriving DecidableEq, Repr

namespace Binary64

/-- Whether the sign bit is set. -/
def isNegative (x : Binary64) : Bool := x.bits >>> 63 == 1

/-- The exponent as it is stored, with its bias. -/
def exponent (x : Binary64) : Nat := (x.bits >>> 52 &&& 0x7ff).toNat

/-- The bits of the fraction as a number. -/
def fraction (x : Binary64) : Nat := (x.bits &&& 0xfffffffffffff).toNat

/-- Whether this is not a number. -/
def isNaN (x : Binary64) : Bool := x.exponent == 0x7ff && x.fraction != 0

/-- Whether this is one of the two infinities. -/
def isInfinite (x : Binary64) : Bool := x.exponent == 0x7ff && x.fraction == 0

/-- Whether this is one of the two zeros. -/
def isZero (x : Binary64) : Bool := x.exponent == 0 && x.fraction == 0

/-- Equality of numbers: equal bits or two zeros, and no number that is not a number. -/
def same (x y : Binary64) : Bool :=
  !x.isNaN && !y.isNaN && (x.bits == y.bits || (x.isZero && y.isZero))

/-- The numbers that round to a finite number, without its sign. -/
def interval (x : Binary64) : Interval :=
  if x.exponent == 0 then
    .around x.fraction (-1074) false
  else
    .around (x.fraction + 0x10000000000000) ((x.exponent : Int) - 1075)
      (x.fraction == 0 && x.exponent != 1)

/-- Digits with the point after the first `whole` of them, which may lie outside; at least one digit
on each side. -/
def positional (digits : List Char) (whole : Int) : String :=
  let zeros (n : Int) := List.replicate n.toNat '0'
  let count := digits.length
  let before := if whole ≤ 0 then ['0'] else digits.take whole.toNat ++ zeros (whole - count)
  let after := if (count : Int) ≤ whole then ['0'] else zeros (-whole) ++ digits.drop whole.toNat
  String.ofList (before ++ '.' :: after)

/-- One digit before the point, the others after it, and the power of ten. -/
def scientific (digits : List Char) (power : Int) : String :=
  String.ofList (digits.take 1)
    ++ (if digits.length ≤ 1 then "" else "." ++ String.ofList (digits.drop 1))
    ++ "e" ++ toString power

/-- The text of a number: its shortest decimal, positional from `0.0001` up to below `10 ^ 16`. -/
def text (x : Binary64) : String :=
  let sign := if x.isNegative then "-" else ""
  if x.isNaN then "NaN"
  else if x.isInfinite then sign ++ "inf"
  else if x.isZero then sign ++ "0.0"
  else
    let d := x.interval.shortest
    let padded := Nat.toDigits 10 d.digits
    let digits := (padded.reverse.dropWhile (· == '0')).reverse
    let whole : Int := d.scale + padded.length
    sign ++
      if -3 ≤ whole && whole ≤ 16 then positional digits whole else scientific digits (whole - 1)

/-! ## Examples -/

/-- The number `1.5`. -/
def oneAndAHalf : Binary64 := ⟨0x3ff8000000000000⟩

/-- The zero whose sign bit is not set. -/
def zero : Binary64 := ⟨0⟩

/-- The zero whose sign bit is set. -/
def negativeZero : Binary64 := ⟨0x8000000000000000⟩

/-- Something that is not a number. -/
def nan : Binary64 := ⟨0x7ff8000000000000⟩

example : zero.same negativeZero = true := by decide +kernel

example : nan.same nan = false := by decide +kernel

example : oneAndAHalf.text = "1.5" := by decide +kernel

example : negativeZero.text = "-0.0" := by decide +kernel

/-- Of `1125899906842624.2` and `1125899906842624.3`, equally near, the greater. -/
example : Binary64.text ⟨0x4310000000000001⟩ = "1125899906842624.3" := by decide +kernel

end Binary64

end CaseUnion
