import SqlCompose.Number.Decimal

/-!
# Decimal arithmetic

Sums, products, quotients and remainders of decimal numbers. A result is exact if it has no more
than twenty-eight digits, and is rounded to that many otherwise; a half goes to the even neighbour.
A quotient that is exact keeps no zeros beyond the places that its operands have. Exponents have
bounds: a number may become too large, and loses its last digits when it becomes very small.
-/
namespace SqlCompose.Number.Decimal

/-- Why a result does not exist. -/
inductive Fault
  | invalid
  | zeroDivisor
  | tooLarge
deriving DecidableEq

/-- How many digits a result has at most. -/
def precision : Nat := 28

/-- The largest exponent that the leading digit of a result may have; the smallest one is its
opposite, down to which no digits are lost. -/
def largestLeading : Int := 999999

/-- The smallest exponent of the last digit, for results of so many digits. -/
def smallestLast (digits : Nat) : Int := 1 - largestLeading - digits

/-- The quotient nearest to `m / unit`; a half goes to the even neighbour. -/
def nearestEven (m unit : Nat) : Nat :=
  let q := m / unit
  let twice := 2 * (m % unit)
  if twice < unit ∨ (twice = unit ∧ q % 2 = 0) then q else q + 1

theorem nearestEven_one (m : Nat) : nearestEven m 1 = m := by
  simp [nearestEven, Nat.mod_one]

/-- A number without its last digits, of which there may be more than it has. -/
def withoutLast (m count : Nat) : Nat :=
  if digitCount m < count then 0 else nearestEven m (Nat.pow 10 count)

theorem withoutLast_zero (m : Nat) : withoutLast m 0 = m := by
  simp [withoutLast, nearestEven_one]

/-- The coefficient and the exponent of `m · 10^e`, rounded to so many digits and within bounds. -/
def fitted (digits m : Nat) (e : Int) : Except Fault (Nat × Int) :=
  if m = 0 then .ok (0, max (smallestLast digits) (min e largestLeading))
  else
    let last := max e (max (digitCount m + e - digits) (smallestLast digits))
    let kept := withoutLast m (last - e).toNat
    let (kept, last) := if digitCount kept ≤ digits then (kept, last) else (kept / 10, last + 1)
    if largestLeading < last + digitCount kept - 1 then .error .tooLarge else .ok (kept, last)

/-- A result with a sign, with as many digits as it may have. -/
def rounded (negative : Bool) (m : Nat) (e : Int) : Except Fault Decimal := do
  let (m, e) ← fitted precision m e
  return .finite negative m e

/-- A coefficient over a smaller power of ten. -/
def scaled (m : Nat) (e base : Int) : Nat :=
  if m = 0 then 0 else m * Nat.pow 10 (e - base).toNat

/-- A whole number with a sign of its own. -/
def signedBy (negative : Bool) (m : Nat) : Int := if negative then -m else m

/-- A number to be added to `n · 10^f`. If it is too small to reach the digits of the sum, all that
matters is whether it is zero. -/
def besides (n : Nat) (f : Int) (m : Nat) (e : Int) : Nat × Int :=
  let reach := f + min (-1) ((digitCount n : Int) - precision - 2)
  if e < f ∧ n ≠ 0 ∧ digitCount m + e - 1 < reach then (min m 1, reach) else (m, e)

/-- The sum of two finite numbers. Two zeros are negative together only if both are. -/
def sum (s : Bool) (m : Nat) (e : Int) (t : Bool) (n : Nat) (f : Int) : Except Fault Decimal :=
  let ((m, e), n, f) := (besides n f m e, besides m e n f)
  let base := min e f
  let total := signedBy s (scaled m e base) + signedBy t (scaled n f base)
  let negative := if total = 0 then s && t else decide (total < 0)
  rounded negative total.natAbs base

/-- Drops zeros at the end of a coefficient as long as the exponent is below the ideal one. -/
def trimmed (ideal : Int) : Nat → Nat → Int → Nat × Int
  | 0, m, e => (m, e)
  | steps + 1, m, e =>
    if e < ideal ∧ m % 10 = 0 then trimmed ideal steps (m / 10) (e + 1) else (m, e)

/-- The quotient of `m · 10^e` and `n · 10^f`, of which the second one is not zero. -/
def quotient (digits m : Nat) (e : Int) (n : Nat) (f : Int) : Except Fault (Nat × Int) :=
  if m = 0 then fitted digits 0 (e - f)
  else
    let shift : Int := digitCount n - digitCount m + digits + 1
    let top := m * Nat.pow 10 shift.toNat
    let bottom := n * Nat.pow 10 (-shift).toNat
    let q := top / bottom
    let exponent := e - f - shift
    if top % bottom ≠ 0 then fitted digits (if q % 5 = 0 then q + 1 else q) exponent
    else
      let (q, exponent) := trimmed (e - f) (digitCount q) q exponent
      fitted digits q exponent

/-- The remainder of a division toward zero, which has to have a quotient of few enough digits. -/
def remainder (s : Bool) (m : Nat) (e : Int) (n : Nat) (f : Int) : Except Fault Decimal :=
  let base := min e f
  let ahead := digitCount m + e - (digitCount n + f)
  if m = 0 then rounded s 0 base
  else if precision < ahead then .error .invalid
  else if ahead < -1 then rounded s (scaled m e base) base
  else
    let (a, b) := (scaled m e base, scaled n f base)
    if Nat.pow 10 precision ≤ a / b then .error .invalid else rounded s (a % b) base

/-- What comes of something that is not a number: it keeps the last digits of what it carries. -/
def undefined (negative : Bool) (payload : Nat) : Decimal :=
  .notANumber negative false (payload % Nat.pow 10 precision)

theorem undefined_of_lt {payload : Nat} (negative : Bool) (h : payload < Nat.pow 10 precision) :
    undefined negative payload = .notANumber negative false payload := by
  rw [undefined, Nat.mod_eq_of_lt h]

/-- A result for operands of which at least one is not finite. -/
def special (symbol : String) (a b : Decimal) : Except Fault Decimal :=
  match a, b with
  | .notANumber _ true _, _ | _, .notANumber _ true _ => .error .invalid
  | .notANumber s _ payload, _ | _, .notANumber s _ payload => .ok (undefined s payload)
  | .infinity s, .infinity t =>
    match symbol with
    | "+" => if s = t then .ok a else .error .invalid
    | "-" => if s = t then .error .invalid else .ok a
    | "*" => .ok (.infinity (s != t))
    | _ => .error .invalid
  | .infinity s, .finite t n _ =>
    match symbol with
    | "*" => if n = 0 then .error .invalid else .ok (.infinity (s != t))
    | "/" => .ok (.infinity (s != t))
    | "%" => .error .invalid
    | _ => .ok a
  | .finite s m e, .infinity t =>
    match symbol with
    | "+" => .ok b
    | "-" => .ok (.infinity (!t))
    | "*" => if m = 0 then .error .invalid else .ok (.infinity (s != t))
    | "/" => .ok (.finite (s != t) 0 (smallestLast precision))
    | _ => rounded s m e
  | a, _ => .ok a

/-- A sum, a product, a quotient or a remainder of two numbers. -/
def combine (symbol : String) (a b : Decimal) : Except Fault Decimal :=
  match a, b with
  | .finite s m e, .finite t n f =>
    match symbol with
    | "+" => sum s m e t n f
    | "-" => sum s m e (!t) n f
    | "*" => rounded (s != t) (m * n) (e + f)
    | "/" =>
      if n ≠ 0 then (fun (q, g) => .finite (s != t) q g) <$> quotient precision m e n f
      else .error (if m = 0 then .invalid else .zeroDivisor)
    | _ => if n = 0 then .error .invalid else remainder s m e n f
  | a, b => special symbol a b

/-- A number with a sign put before it. Zero loses its sign. -/
def signed? (minus : Bool) : Decimal → Except Fault Decimal
  | .finite s m e => rounded (m != 0 && (s != minus)) m e
  | .infinity s => .ok (.infinity (s != minus))
  | .notANumber s signaling payload =>
    if signaling then .error .invalid else .ok (undefined s payload)

end SqlCompose.Number.Decimal
