/-!
# Shortest decimals

A binary fraction `mantissa · 2 ^ exponent` stands for every real number that rounds to it.  Its
shortest decimal is the number `digits · 10 ^ scale` with the fewest digits among those, and the
nearest of them to the fraction, the greater of two that are equally near.  One decimal grid after
the other is tried, from one digit to seventeen, and on each the two neighbours of the fraction.
All comparisons are between natural numbers.
-/

namespace CaseUnion

/-- The number `digits · 10 ^ scale`. -/
structure Decimal where
  /-- The digits, read as one number. -/
  digits : Nat
  /-- The power of ten. -/
  scale : Int
deriving DecidableEq, Repr

/-- The number `units · 2 ^ exponent`. -/
structure Dyadic where
  /-- How many units there are. -/
  units : Nat
  /-- The power of two that is the unit. -/
  exponent : Int
deriving DecidableEq, Repr

/-- Both numbers over one denominator. -/
def Decimal.crossed (d : Decimal) (x : Dyadic) : Nat × Nat :=
  (d.digits * Nat.pow 10 d.scale.toNat * Nat.pow 2 (-x.exponent).toNat,
    x.units * Nat.pow 2 x.exponent.toNat * Nat.pow 10 (-d.scale).toNat)

/-- The numbers that round to a fraction: the fraction and the ends of its interval in quarters of
its last place, and whether the ends belong to it. -/
structure Interval where
  /-- The lower end. -/
  lower : Dyadic
  /-- The fraction itself. -/
  middle : Dyadic
  /-- The upper end. -/
  upper : Dyadic
  /-- Whether the ends round to the fraction too. -/
  closed : Bool
deriving Repr

/-- The interval of `mantissa · 2 ^ exponent`.  Below a power of two the neighbour is half as far
away. -/
def Interval.around (mantissa : Nat) (exponent : Int) (atPower : Bool) : Interval where
  lower := ⟨4 * mantissa - (if atPower then 1 else 2), exponent - 2⟩
  middle := ⟨4 * mantissa, exponent - 2⟩
  upper := ⟨4 * mantissa + 2, exponent - 2⟩
  closed := mantissa % 2 == 0

/-- Whether a decimal rounds to the fraction. -/
def Interval.contains (i : Interval) (d : Decimal) : Bool :=
  let low := d.crossed i.lower
  let high := d.crossed i.upper
  if i.closed then low.2 ≤ low.1 && high.1 ≤ high.2 else low.2 < low.1 && high.1 < high.2

/-- The power of ten just above a fraction, as an exponent. -/
def Dyadic.magnitude (x : Dyadic) : Int :=
  let candidates := (List.range 660).map fun n : Nat => (n : Int) - 340
  (candidates.find? fun p =>
    let sides := Decimal.crossed ⟨1, p⟩ x
    sides.2 < sides.1).getD 0

/-- The nearer of the two neighbours on the grid `10 ^ scale` that round to the fraction.  The
greater wins a tie. -/
def Interval.onGrid (i : Interval) (scale : Int) : Option Decimal :=
  let sides := Decimal.crossed ⟨1, scale⟩ i.middle
  let below : Decimal := ⟨sides.2 / sides.1, scale⟩
  let above : Decimal := ⟨sides.2 / sides.1 + 1, scale⟩
  let rest := sides.2 % sides.1
  match i.contains below, i.contains above with
  | true, true =>
    if 2 * rest < sides.1 then some below else some above
  | true, false => some below
  | false, true => some above
  | false, false => none

/-- The decimal with the fewest digits that rounds to the fraction. -/
def Interval.shortest (i : Interval) : Decimal :=
  let top := i.middle.magnitude
  ((List.range 17).findSome? fun n : Nat => i.onGrid (top - 1 - (n : Int))).getD ⟨0, 0⟩

end CaseUnion
