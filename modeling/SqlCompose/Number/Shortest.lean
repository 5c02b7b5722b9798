import SqlCompose.Number.Binary64

/-!
# Shortest decimal form of a binary number

The shortest decimal number that reads back as a given binary number, and of those the nearest. The
search tries one digit, two digits and so on; on each decimal grid only the two neighbours of the
value have to be tested. Everything is exact arithmetic on natural numbers over a common
denominator.
-/
namespace SqlCompose.Number

/-- A positive value with the interval of reals that round to it, as numerators over one
denominator. -/
structure RoundingInterval where
  low : Nat
  value : Nat
  high : Nat
  denominator : Nat
  /-- Whether the ends belong to the interval. -/
  closed : Bool

/-- The decimal number `digits · 10^exponent`. -/
structure DecimalDigits where
  digits : Nat
  exponent : Int
deriving DecidableEq

/-- The interval of a finite positive number. The unit is a quarter of its last place, so that the
halfway points are whole. -/
def Binary64.interval (x : Binary64) : RoundingInterval :=
  let m := x.significand
  let scale := 1 <<< x.power.toNat
  let below := if x.narrowBelow then 1 else 2
  { low := (4 * m - below) * scale
    value := 4 * m * scale
    high := (4 * m + 2) * scale
    denominator := 4 <<< (-x.power).toNat
    closed := m % 2 == 0 }

namespace RoundingInterval

/-- The number of decimal digits before the point; zero or negative when the value is below one
tenth. -/
def magnitude (i : RoundingInterval) : Int :=
  if i.denominator ≤ i.value then (toString (i.value / i.denominator)).length
  else
    let steps := (toString (i.denominator / i.value)).length
    if i.denominator ≤ i.value * Nat.pow 10 (steps - 1) then 2 - steps else 1 - steps

/-- Whether `digits · 10^exponent` lies in the interval. -/
def contains (i : RoundingInterval) (d : DecimalDigits) : Bool :=
  let lifted := d.digits * Nat.pow 10 d.exponent.toNat * i.denominator
  let unit := Nat.pow 10 (-d.exponent).toNat
  if i.closed then decide (i.low * unit ≤ lifted ∧ lifted ≤ i.high * unit)
  else decide (i.low * unit < lifted ∧ lifted < i.high * unit)

/-- The neighbours of the value on the grid of the multiples of `10^exponent`, and whether the upper
one is the nearer; of two equally near the even one is taken. -/
def neighbours (i : RoundingInterval) (exponent : Int) : DecimalDigits × DecimalDigits × Bool :=
  let lifted := i.value * Nat.pow 10 (-exponent).toNat
  let unit := Nat.pow 10 exponent.toNat * i.denominator
  let lower := lifted / unit
  let rest := lifted % unit
  let upperNearer := decide (unit < 2 * rest) || (2 * rest == unit && lower % 2 == 1)
  (⟨lower, exponent⟩, ⟨lower + 1, exponent⟩, upperNearer)

/-- The best number of the grid inside the interval. -/
def onGrid (i : RoundingInterval) (exponent : Int) : Option DecimalDigits :=
  let (lower, upper, upperNearer) := i.neighbours exponent
  match i.contains lower, i.contains upper with
  | true, true => some (if upperNearer then upper else lower)
  | true, false => some lower
  | false, true => some upper
  | false, false => none

/-- The first grid that meets the interval, from the coarsest on; seventeen digits always do. -/
def shortest (i : RoundingInterval) : DecimalDigits :=
  let magnitude := i.magnitude
  ((List.range 17).findSome? fun (n : Nat) => i.onGrid (magnitude - (n + 1 : Nat))).getD
    (i.neighbours (magnitude - 17)).1

end RoundingInterval

end SqlCompose.Number
