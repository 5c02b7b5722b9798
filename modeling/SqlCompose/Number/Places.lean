import SqlCompose.Number.FloatText
import SqlCompose.Number.Rounded
import SqlCompose.Text.Hex

/-!
# Numbers to given places

Finite binary numbers with as many digits behind the point as are asked for, positionally, with an
exponent, or as either of them. What lies behind the last digit is rounded exactly, and a half goes
to the even neighbour. A sign is not written here.
-/
namespace SqlCompose.Number.Binary64

/-- A number without its sign over a power of ten, as a quotient of whole numbers. -/
def overPower (x : Binary64) (places : Int) : Nat × Nat :=
  ((x.significand <<< x.power.toNat) * Nat.pow 10 places.toNat,
    (1 <<< (-x.power).toNat) * Nat.pow 10 (-places).toNat)

/-- The digits of a number up to so many places behind the point. -/
def upTo (x : Binary64) (places : Int) : Nat :=
  Decimal.nearestEven (x.overPower places).1 (x.overPower places).2

/-- Enough places for the smallest number to have a digit before the point. -/
def deepestPlace : Nat := 345

/-- The exponent of the leading digit of a number that is not zero. -/
def leadingExponent (x : Binary64) : Int :=
  let (top, bottom) := x.overPower deepestPlace
  (digitCount (top / bottom) : Int) - 1 - deepestPlace

/-- Digits with a point before the last `places` of them. The point stays without digits behind it
if `pointed`. -/
def withPoint (pointed : Bool) (places : Nat) (digits : String) : String :=
  let ds := digits.toList
  let whole := String.ofList (ds.take (ds.length - places))
  if places = 0 then (if pointed then whole ++ "." else whole)
  else whole ++ "." ++ String.ofList (ds.drop (ds.length - places))

/-- A number without an exponent. -/
def positional (pointed : Bool) (places : Nat) (x : Binary64) : String :=
  withPoint pointed places (Text.zeroPadded (places + 1) (x.upTo places))

/-- A digit before the point, `places` digits behind it, and the exponent. -/
def normalized (places : Nat) (x : Binary64) : Nat × Int :=
  if x.isZero then (0, 0)
  else
    let e := x.leadingExponent
    let n := x.upTo (places - e)
    if places + 1 < digitCount n then (n / 10, e + 1) else (n, e)

/-- A number with an exponent. -/
def scientific (pointed : Bool) (places : Nat) (x : Binary64) : String :=
  let (n, e) := x.normalized places
  withPoint pointed places (Text.zeroPadded (places + 1) n) ++ "e" ++ exponentText e

/-- A number with `count` digits, with an exponent only if it is far from one. Unless `pointed`, it
has no zeros at the end. -/
def general (pointed : Bool) (count : Nat) (x : Binary64) : String :=
  let (n, e) := x.normalized (count - 1)
  let digits := (Text.zeroPadded count n).toList
  let digits := if pointed then digits else digits.take 1 ++ trimZeros count (digits.drop 1)
  if -4 ≤ e ∧ e < count then
    let digits := List.replicate (-e).toNat '0' ++ digits
    let digits := digits ++ List.replicate (e.toNat + 1 - digits.length) '0'
    withPoint pointed (digits.length - (e.toNat + 1)) (String.ofList digits)
  else
    withPoint pointed (digits.length - 1) (String.ofList digits) ++ "e" ++ exponentText e

end SqlCompose.Number.Binary64
