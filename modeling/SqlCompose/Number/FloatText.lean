import SqlCompose.Number.Decimal
import SqlCompose.Number.Shortest
import SqlCompose.Text.Hex

/-!
# Text of binary numbers

A finite number is written with its shortest digits, positionally while the exponent lies between
10^-4 and 10^15 and with an exponent of at least two digits elsewhere. A positional number keeps a
digit after the point. In the hexadecimal text the bits of the fraction are thirteen digits before a
power of two, so that nothing is rounded.
-/
namespace SqlCompose.Number

/-- The exponents of the leading digit that are written positionally. -/
def positionalFrom : Int := -4

/-- The first exponent of the leading digit that is no longer written positionally. -/
def positionalBelow : Int := 16

/-- The digits without zeros at the end, at most `count` of which are dropped. -/
def trimZeros : Nat → List Char → List Char
  | 0, ds => ds
  | count + 1, ds => if ds.getLast? = some '0' then trimZeros count ds.dropLast else ds

/-- A sign and at least two digits. -/
def exponentText (e : Int) : String :=
  let digits := toString e.natAbs
  (if e < 0 then "-" else "+") ++ (if digits.length < 2 then "0" ++ digits else digits)

/-- Digits without leading or trailing zeros, with the point after `point` digits. -/
def layOut (digits : List Char) (point : Int) : String :=
  let exponent := point - 1
  if positionalFrom ≤ exponent ∧ exponent < positionalBelow then
    if point ≤ 0 then
      "0." ++ String.ofList (List.replicate (-point).toNat '0' ++ digits)
    else
      let whole := digits.take point.toNat ++ List.replicate (point.toNat - digits.length) '0'
      let fraction := digits.drop point.toNat
      String.ofList whole ++ "." ++ (if fraction.isEmpty then "0" else String.ofList fraction)
  else
    let fraction := digits.drop 1
    String.ofList (digits.take 1)
      ++ (if fraction.isEmpty then "" else "." ++ String.ofList fraction)
      ++ "e" ++ exponentText exponent

/-- The text of a number. -/
def Binary64.text (x : Binary64) : String :=
  let sign := if x.negative then "-" else ""
  if x.isNaN then "nan"
  else if x.isInfinite then sign ++ "inf"
  else if x.isZero then sign ++ "0.0"
  else
    let d := x.interval.shortest
    let digits := (toString d.digits).toList
    sign ++ layOut (trimZeros digits.length digits) (digits.length + d.exponent)

/-! ## Hexadecimal text -/

/-- The power of two behind the leading digit of a number that is not zero. -/
def Binary64.leadingPower (x : Binary64) : Int := (max 1 x.exponentField : Nat) - 1023

/-- The hexadecimal text of a number. Numbers near zero, which have no leading one, start with a zero.
-/
def Binary64.hexText (x : Binary64) : String :=
  let sign := if x.negative then "-" else ""
  if !x.isFinite then x.text
  else if x.isZero then sign ++ "0x0.0p+0"
  else
    sign ++ (if x.exponentField = 0 then "0x0." else "0x1.")
      ++ String.ofList (Text.hexDigits 13 x.fractionField) ++ "p" ++ Decimal.signed x.leadingPower

end SqlCompose.Number
