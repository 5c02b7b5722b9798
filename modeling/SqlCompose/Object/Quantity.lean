import SqlCompose.Expr.Convert
import SqlCompose.Number.Power

/-!
# Arithmetic of numbers

What the operators make of two numbers. A decimal number goes with whole ones only; otherwise the
outcome is whole if both numbers are, and complex if one of them is. A negative number has complex
powers between the whole ones.
-/
namespace SqlCompose

open Number (Binary64 Decimal)

/-- A number as an operator takes it. -/
inductive Quantity
  | whole (n : Int)
  | binary (x : Binary64)
  | decimal (x : Decimal)
  | complex (z : Number.Complex)

namespace Quantity

/-- The number that a value is; a yes or no counts as one or zero. -/
def ofValue? : Value → Option Quantity
  | .scalar (.bool b) => some (whole (if b then 1 else 0))
  | .scalar (.int n) => some (whole n)
  | .scalar (.float x) => some (binary x)
  | .scalar (.decimal x) => some (decimal x)
  | .complex z => some (complex z)
  | _ => none

/-- A real number as a decimal one of the same value. -/
def asDecimal? : Quantity → Option Decimal
  | whole n => some (.finite (decide (n < 0)) n.natAbs 0)
  | binary x => some x.asDecimal
  | decimal x => some x
  | complex _ => none

/-- A number as a complex one, unless it is decimal or too large for that. -/
def asComplex : Quantity → Except Error Number.Complex
  | whole n =>
    let x := Binary64.ofInt n
    if x.isFinite then .ok (.ofReal x) else .error .endlessNumber
  | binary x => .ok (.ofReal x)
  | decimal _ => .error .unsupportedOperands
  | complex z => .ok z

/-- A whole or binary number as a binary one, if it is not too large for that. -/
def asBinary (q : Quantity) : Except Error Binary64 := do return (← q.asComplex).re

/-- The outcome of decimal arithmetic. -/
def decimalResult : Except Decimal.Fault Decimal → Except Error Value
  | .ok x => .ok (.scalar (.decimal x))
  | .error .invalid => .error .badNumber
  | .error .zeroDivisor => .error (.zeroDivisor true)
  | .error .tooLarge => .error .tooLarge

/-- The outcome of complex arithmetic. -/
def complexResult : Except Number.Complex.Fault Number.Complex → Except Error Value
  | .ok z => .ok (.complex z)
  | .error .zeroDivisor => .error (.zeroDivisor false)
  | .error .tooLarge => .error .endlessNumber

/-- An operator on complex numbers, which have no remainders. -/
def combineComplex (symbol : String) (z w : Number.Complex) : Except Error Value :=
  match symbol with
  | "+" => .ok (.complex (z.add w))
  | "-" => .ok (.complex (z.sub w))
  | "*" => .ok (.complex (z.mul w))
  | "/" => complexResult (z.div w)
  | "**" => complexResult (z.power w)
  | _ => .error .unsupportedOperands

/-- A power of binary numbers. -/
def binaryPower (x y : Binary64) : Except Error Value :=
  if x.isZero && y.isFinite && y.negative && !y.isZero then .error (.zeroDivisor false)
  else
    let z := x.toFloat ^ y.toFloat
    if z.isNaN && !x.isNaN && !y.isNaN then
      complexResult ((Number.Complex.ofReal x).power (.ofReal y))
    else if z.isInf && x.isFinite && y.isFinite then .error .endlessNumber
    else .ok (.scalar (.float (.ofFloat z)))

/-- An operator on binary numbers. -/
def combineBinary (symbol : String) (x y : Binary64) : Except Error Value :=
  let result := fun (z : Float) => Except.ok (Value.scalar (.float (.ofFloat z)))
  match symbol with
  | "+" => result (x.toFloat + y.toFloat)
  | "-" => result (x.toFloat - y.toFloat)
  | "*" => result (x.toFloat * y.toFloat)
  | "**" => binaryPower x y
  | symbol =>
    if y.isZero then .error (.zeroDivisor false)
    else if symbol = "/" then result (x.toFloat / y.toFloat)
    else .ok (.scalar (.float (x.modulo y)))

/-- The largest number of bits of a power that is worked out. -/
def largestPower : Nat := 60000000

/-- A power of whole numbers with an exponent that is not negative. Powers of one and of nothing do
not grow. -/
def wholePower (m : Int) (n : Nat) : Except Error Value :=
  if m.natAbs ≤ 1 then .ok (.int (m.pow (if n = 0 then 0 else 2 - n % 2)))
  else if largestPower < m.natAbs.log2 * n then .error .endlessNumber
  else .ok (.int (m.pow n))

/-- An operator on whole numbers. -/
def combineWhole (symbol : String) (m n : Int) : Except Error Value :=
  match symbol with
  | "+" => .ok (.int (m + n))
  | "-" => .ok (.int (m - n))
  | "*" => .ok (.int (m * n))
  | "**" =>
    if n < 0 then do binaryPower (← (whole m).asBinary) (← (whole n).asBinary)
    else wholePower m n.toNat
  | symbol =>
    if n = 0 then .error (.zeroDivisor false)
    else if symbol = "/" then
      let x := Binary64.ofQuotient m n
      if x.isFinite then .ok (.scalar (.float x)) else .error .endlessNumber
    else .ok (.int (m.fmod n))

/-- An operator on two numbers. -/
def combine (symbol : String) (a b : Quantity) : Except Error Value :=
  match a, b with
  | whole m, whole n => combineWhole symbol m n
  | decimal _, binary _ | binary _, decimal _ => .error .unsupportedOperands
  | complex _, _ | _, complex _ => do combineComplex symbol (← a.asComplex) (← b.asComplex)
  | whole _, binary _ | binary _, whole _ | binary _, binary _ => do
    combineBinary symbol (← a.asBinary) (← b.asBinary)
  | a, b =>
    match a.asDecimal?, b.asDecimal? with
    | some x, some y =>
      decimalResult (if symbol = "**" then x.power y else Decimal.combine symbol x y)
    | _, _ => .error .unsupportedOperands

/-- A number with a sign before it. -/
def signed (minus : Bool) : Quantity → Except Error Value
  | whole n => .ok (.int (if minus then -n else n))
  | binary x => .ok (.scalar (.float (if minus then .ofFloat (-x.toFloat) else x)))
  | decimal x => decimalResult (x.signed? minus)
  | complex z => .ok (.complex (if minus then z.neg else z))

/-- The order of two numbers, with what is said of it. With something that is not a number there is
none, and complex numbers have none either. -/
def order (holds : Ordering → Bool) (a b : Quantity) : Except Error Bool :=
  match a.asDecimal?, b.asDecimal? with
  | some x, some y =>
    match x.order? y, a, b with
    | some o, _, _ => .ok (holds o)
    | none, decimal _, _ | none, _, decimal _ => .error .badNumber
    | none, _, _ => .ok false
  | _, _ => .error .unsupportedOperands

end Quantity

end SqlCompose
