/-!
# Decimal numbers

Decimal numbers with an exponent, so that 1.50 and 1.5 differ, with infinities and values that are
not numbers. The text is the scientific form of decimal arithmetic: positional while the exponent is
not positive and the first digit lies at most six places after the point, with an exponent
elsewhere.
-/
namespace SqlCompose.Number

/-- A decimal number. A finite one is `coefficient · 10^exponent` with a sign. -/
inductive Decimal
  | finite (negative : Bool) (coefficient : Nat) (exponent : Int)
  | infinity (negative : Bool)
  | notANumber (negative signaling : Bool) (payload : Nat)
deriving DecidableEq, Inhabited

namespace Decimal

def isFinite : Decimal → Bool
  | .finite .. => true
  | _ => false

def isZero : Decimal → Bool
  | .finite _ 0 _ => true
  | _ => false

/-- A whole number with its sign. -/
def signed (n : Int) : String :=
  if n < 0 then toString n else "+" ++ toString n

/-- The coefficient with its point, and an exponent if the point alone cannot show the scale. -/
def layOut (digits : List Char) (exponent : Int) : String :=
  let before := exponent + digits.length
  let point := if exponent ≤ 0 ∧ -6 < before then before else 1
  let mantissa :=
    if point ≤ 0 then
      "0." ++ String.ofList (List.replicate (-point).toNat '0' ++ digits)
    else if (digits.length : Int) ≤ point then
      String.ofList (digits ++ List.replicate (point.toNat - digits.length) '0')
    else
      String.ofList (digits.take point.toNat) ++ "." ++ String.ofList (digits.drop point.toNat)
  mantissa ++ (if before = point then "" else "E" ++ signed (before - point))

/-- The text of a number. -/
def text : Decimal → String
  | .finite negative coefficient exponent =>
    (if negative then "-" else "") ++ layOut (toString coefficient).toList exponent
  | .infinity negative => (if negative then "-" else "") ++ "Infinity"
  | .notANumber negative signaling payload =>
    (if negative then "-" else "") ++ (if signaling then "sNaN" else "NaN")
      ++ (if payload = 0 then "" else toString payload)

end Decimal

/-! ## The order of numbers -/

/-- How many digits a number has. -/
def digitCount (m : Nat) : Nat := (toString m).length

/-- The order of `m · 10^e` and `n · 10^f`, without writing out a power of ten that only one of them
has: of two numbers that differ in size the sizes decide. -/
def compareScaled (m : Nat) (e : Int) (n : Nat) (f : Int) : Ordering :=
  if m = 0 ∨ n = 0 then compare m n
  else
    match compare (digitCount m + e) (digitCount n + f) with
    | .eq =>
      let base := min e f
      compare (m * Nat.pow 10 (e - base).toNat) (n * Nat.pow 10 (f - base).toNat)
    | order => order

theorem compareScaled_self (m : Nat) (e : Int) : compareScaled m e m e = .eq := by
  unfold compareScaled
  split
  · exact Std.ReflCmp.compare_self
  · simp

/-- The order of two numbers. What is not a number has no place in it. -/
def Decimal.order? : Decimal → Decimal → Option Ordering
  | .notANumber .., _ | _, .notANumber .. => none
  | .infinity s, .infinity t => some (if s = t then .eq else if s then .lt else .gt)
  | .infinity s, _ => some (if s then .lt else .gt)
  | _, .infinity t => some (if t then .gt else .lt)
  | .finite s m e, .finite t n f =>
    some (match s && m != 0, t && n != 0 with
      | false, false => compareScaled m e n f
      | true, true => compareScaled n f m e
      | true, false => .lt
      | false, true => .gt)

end SqlCompose.Number
