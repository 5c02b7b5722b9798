import SqlCompose.Number.Exact
import SqlCompose.Number.FloatText
import SqlCompose.Number.Numeral

/-!
# Binary and complex arithmetic

Sums, products, quotients, remainders and powers of binary floating point numbers. Each result is
the number nearest to the exact one. A remainder has the sign of the divisor, and a quotient of two
whole numbers is rounded once, however large they are. Complex numbers with binary parts: their
text, sums, products, quotients and powers. A power with a small whole exponent is a product, and
any other goes by length and angle.
-/
namespace SqlCompose.Number

/-! ## Binary arithmetic -/

namespace Binary64

/-- A number as one to be worked with. -/
def toFloat (x : Binary64) : Float := Float.ofBits x.bits

/-- A number that was worked with. -/
def ofFloat (x : Float) : Binary64 := ⟨x.toBits⟩

/-- The number nearest to `± m · 2^q`. -/
def ofScaled (negative : Bool) (m : Nat) (q : Int) : Binary64 :=
  let (k, odd) := Exact.strip 2 m
  ⟨signBit negative ||| ((Float.ofNat odd).scaleB (q + k)).toBits⟩

/-- The number nearest to a quotient of whole numbers. Enough bits are kept to round only once. -/
def ofQuotient (a b : Int) : Binary64 :=
  let shift := 70 + b.natAbs.log2 - a.natAbs.log2
  let top := a.natAbs <<< shift
  let kept := 2 * (top / b.natAbs) + (if top % b.natAbs = 0 then 0 else 1)
  ofScaled (decide (a < 0) != decide (b < 0)) kept (-(shift : Int) - 1)

/-- The remainder of a division toward zero of two finite numbers. -/
def remainder (x y : Binary64) : Binary64 :=
  let base := min x.power y.power
  let a := x.significand <<< (x.power - base).toNat
  let b := y.significand <<< (y.power - base).toNat
  ofScaled x.negative (a % b) base

/-- The remainder with the sign of the divisor, which is not zero. -/
def modulo (x y : Binary64) : Binary64 :=
  if x.isNaN || y.isNaN || x.isInfinite then notANumber false
  else
    let r := if y.isInfinite then x else remainder x y
    if r.isZero then ofScaled y.negative 0 0
    else if r.negative = y.negative then r
    else ofFloat (r.toFloat + y.toFloat)

end Binary64

/-! ## Complex numbers -/

/-- A complex number. -/
structure Complex where
  re : Binary64
  im : Binary64
deriving DecidableEq, Inhabited

namespace Complex

/-- A number of two parts that were worked with. -/
def ofParts (re im : Float) : Complex := ⟨.ofFloat re, .ofFloat im⟩

/-- A real number. -/
def ofReal (x : Binary64) : Complex := ⟨x, .ofFloat 0⟩

def isZero (z : Complex) : Bool := z.re.isZero && z.im.isZero

/-! ## Text -/

/-- The text of a part, without a fraction if it has none. -/
def partText (x : Binary64) : String :=
  let text := x.text.toList
  String.ofList (if ['.', '0'].isSuffixOf text then text.take (text.length - 2) else text)

/-- The text of a part with its sign. -/
def signedText (x : Binary64) : String :=
  if x.negative && !x.isNaN then partText x else "+" ++ partText x

/-- The text of a number. Where the real part is zero and has no sign, only the other one is shown.
-/
def text (z : Complex) : String :=
  if z.re.isZero && !z.re.negative then partText z.im ++ "j"
  else "(" ++ partText z.re ++ signedText z.im ++ "j)"

/-- What stands before and after the sign between two parts. One after the mark of an exponent is
the sign of that. -/
def splitParts (previous : Char) : List Char → Option (List Char × List Char)
  | [] => none
  | c :: cs =>
    match splitParts c cs with
    | some (re, im) => some (c :: re, im)
    | none =>
      if (c = '+' ∨ c = '-') ∧ previous ∉ ['(', 'e', 'E'] then some ([], c :: cs) else none

/-- The number that a part spells, in which no blanks may stand. -/
def part? (cs : List Char) : Option Binary64 :=
  if cs.any isPad then none else Binary64.ofText? (String.ofList cs)

/-- The number that the part before the imaginary unit spells. A sign alone stands for one. -/
def unitPart? (cs : List Char) : Option Binary64 :=
  part? (if cs = [] ∨ cs = ['+'] ∨ cs = ['-'] then cs ++ ['1'] else cs)

/-- The number that a text spells, which may stand in parentheses. -/
def ofText? (s : String) : Option Complex := do
  let cs := stripped isPad s.toList
  let cs := if cs.head? = some '(' ∧ cs.getLast? = some ')' then stripped isPad cs.tail.dropLast
    else cs
  if cs.getLast? = some 'j' ∨ cs.getLast? = some 'J' then
    match splitParts '(' cs.dropLast with
    | some (re, im) => return ⟨← part? re, ← unitPart? im⟩
    | none => return ⟨.ofFloat 0, ← unitPart? cs.dropLast⟩
  else return ofReal (← part? cs)

/-! ## Arithmetic -/

/-- Why a result does not exist. -/
inductive Fault
  | zeroDivisor
  | tooLarge
deriving DecidableEq

def add (z w : Complex) : Complex :=
  ofParts (z.re.toFloat + w.re.toFloat) (z.im.toFloat + w.im.toFloat)

def sub (z w : Complex) : Complex :=
  ofParts (z.re.toFloat - w.re.toFloat) (z.im.toFloat - w.im.toFloat)

def neg (z : Complex) : Complex := ofParts (-z.re.toFloat) (-z.im.toFloat)

def mul (z w : Complex) : Complex :=
  let (a, b, c, d) := (z.re.toFloat, z.im.toFloat, w.re.toFloat, w.im.toFloat)
  ofParts (a * c - b * d) (a * d + b * c)

/-- A quotient. The larger part of the divisor is divided out of the smaller one. -/
def div (z w : Complex) : Except Fault Complex :=
  let (a, b, c, d) := (z.re.toFloat, z.im.toFloat, w.re.toFloat, w.im.toFloat)
  if w.isZero then .error .zeroDivisor
  else if d.abs ≤ c.abs then
    let ratio := d / c
    let divisor := c + d * ratio
    .ok (ofParts ((a + b * ratio) / divisor) ((b - a * ratio) / divisor))
  else if c.abs ≤ d.abs then
    let ratio := c / d
    let divisor := c * ratio + d
    .ok (ofParts ((a * ratio + b) / divisor) ((b * ratio - a) / divisor))
  else .ok ⟨.notANumber false, .notANumber false⟩

/-! ## Powers -/

/-- The length of the longer side of a right angle is at least that of the other one. The square
root of the sum of their squares is corrected by what it misses. -/
def diagonal (long short : Float) : Float :=
  let h := (long * long + short * short).sqrt
  let missed :=
    if h ≤ 2 * short then
      let d := h - short
      long * (2 * d - long) + (d - 2 * (long - short)) * d
    else
      let d := h - long
      2 * d * (long - 2 * short) + ((4 * d - short) * short + d * d)
  h - missed / (2 * h)

/-- A power of two. -/
def twoTo (k : Int) : Float := (1 : Float).scaleB k

/-- The length of a number. Parts that are very large or very small are brought closer to one. -/
def length (z : Complex) : Float :=
  let (a, b) := (z.re.toFloat.abs, z.im.toFloat.abs)
  let (long, short) := if a < b then (b, a) else (a, b)
  if a.isInf || b.isInf then twoTo 2000
  else if short / twoTo (-54) ≤ long then long + short
  else if twoTo 511 < long then
    diagonal (long * twoTo (-600)) (short * twoTo (-600)) / twoTo (-600)
  else if short < twoTo (-459) then
    diagonal (long / twoTo (-600)) (short / twoTo (-600)) * twoTo (-600)
  else diagonal long short

/-- The product of `r` and as many factors as `n` says, each bit of which stands for a square. -/
def timesPower (r p : Complex) (n : Nat) : Complex :=
  if h : n = 0 then r
  else
    have : n / 2 < n := Nat.div_lt_self (Nat.pos_of_ne_zero h) (by decide)
    timesPower (if n % 2 = 1 then r.mul p else r) (p.mul p) (n / 2)
termination_by n

theorem timesPower_zero (r p : Complex) : timesPower r p 0 = r := by
  rw [timesPower]
  exact dif_pos rfl

def one : Complex := ofReal (.ofFloat 1)

/-- A power with a whole exponent. -/
def wholePower (z : Complex) (n : Int) : Except Fault Complex :=
  let p := timesPower one z n.natAbs
  if 0 < n then .ok p else one.div p

/-- A power by length and angle. An endless angle has no direction. -/
def anglePower (z w : Complex) : Except Fault Complex :=
  let (c, d) := (w.re.toFloat, w.im.toFloat)
  if w.isZero then .ok one
  else if z.isZero then
    if !w.im.isZero || c < 0 then .error .zeroDivisor else .ok (ofReal (.ofFloat 0))
  else
    let size := z.length
    let grown := size ^ c
    let angle := Float.atan2 z.im.toFloat z.re.toFloat
    let turned := angle * c
    let (grown, turned) :=
      if w.im.isZero then (grown, turned)
      else (grown / (angle * d).exp, turned + d * size.log)
    if turned.isInf then .error .zeroDivisor
    else .ok (ofParts (grown * turned.cos) (grown * turned.sin))

/-- The whole number that a real number is, if it is a small one. -/
def smallWhole? (w : Complex) : Option Int :=
  let x := w.re.toFloat
  if w.im.isZero && x == x.floor && x.abs ≤ 100 then some x.toInt64.toInt else none

/-- A power. -/
def power (z w : Complex) : Except Fault Complex := do
  let p ← (smallWhole? w).elim (anglePower z w) (wholePower z)
  if p.re.isInfinite || p.im.isInfinite then throw .tooLarge
  return p

end Complex

end SqlCompose.Number
