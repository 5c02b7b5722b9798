import SqlCompose.Number.Rounded

/-!
# Decimal powers

Powers of decimal numbers. A whole exponent is taken by squaring, with digits to spare, and the
outcome is rounded once more; any other one by way of logarithms, to far more digits than are kept.
Such an outcome keeps all of its digits, even where zeros stand at the end.
-/
namespace SqlCompose.Number.Decimal

/-! ## Whole exponents -/

/-- The power of `m · 10^e` for a whole exponent that is not zero, by squaring. -/
def squared (digits m : Nat) (e : Int) (n : Nat) : Except Fault (Nat × Int) :=
  if n ≤ 1 then .ok (m, e)
  else do
    let (k, f) ← squared digits m e (n / 2)
    let (k, f) ← fitted digits (k * k) (f + f)
    if n % 2 = 1 then fitted digits (k * m) (f + e) else return (k, f)
termination_by n
decreasing_by omega

@[simp] theorem squared_one (digits m : Nat) (e : Int) : squared digits m e 1 = .ok (m, e) := by
  rw [squared]
  rfl

/-- A power for a whole exponent, of `size` digits, with a sign. -/
def wholePower (negative : Bool) (m : Nat) (e : Int) (down : Bool) (n size : Nat) :
    Except Fault Decimal := do
  let digits := precision + size + 2
  if down then
    let (m, e) ← quotient (digits + 1) 1 0 m e
    let (m, e) ← squared (digits + 1) m e n
    rounded negative m e
  else
    let (m, e) ← squared digits m e n
    rounded negative m e

/-! ## Other exponents -/

/-- How many digits behind the point logarithms are worked out to. -/
def depth : Nat := 120

/-- One, with all the digits that are worked out. -/
def unit : Nat := Nat.pow 10 depth

/-- The sum of `z^k / k` over the odd `k` from a given one. -/
def oddSeries (square : Nat) : Nat → Nat → Nat → Nat
  | 0, _, _ => 0
  | steps + 1, term, k =>
    if term = 0 then 0 else term / k + oddSeries square steps (term * square / unit) (k + 2)

/-- The natural logarithm of a number from one up to ten. -/
def logarithm (d : Nat) : Nat :=
  let z := (d - unit) * unit / (d + unit)
  2 * oddSeries (z * z / unit) 1000 z 1

/-- The sum of `r^k / k!` from a given term. -/
def powerSeries (r : Nat) : Nat → Nat → Nat → Nat
  | 0, _, _ => 0
  | steps + 1, term, k =>
    if term = 0 then 0 else term + powerSeries r steps (term * r / (unit * k)) (k + 1)

/-- The natural logarithm of ten. -/
def logarithmOfTen : Nat := logarithm (10 * unit)

/-- The number that rounds to one with all of its digits. -/
def fullOne (negative : Bool) : Decimal :=
  .finite negative (Nat.pow 10 (precision - 1)) (1 - precision)

/-- The largest logarithm to the base ten that is of use; beyond, numbers are too large or zero. -/
def farthest : Int := 2 * largestLeading

/-- What a power is that is very large, or very small. -/
def beyond (negative large : Bool) : Except Fault Decimal :=
  if large then .error .tooLarge else .ok (.finite negative 0 (smallestLast precision))

/-- A power of a positive number for an exponent `± n · 10^f` that is not whole. -/
def brokenPower (m : Nat) (e : Int) (down : Bool) (n : Nat) (f : Int) : Except Fault Decimal :=
  if digitCount n + f + depth < 40 then .ok (fullOne false)
  else
    let size := digitCount m
    let ofDigits := logarithm (m * unit / Nat.pow 10 (size - 1))
    let whole : Int := ofDigits + (e + size - 1) * logarithmOfTen
    let product := whole * n / (Nat.pow 10 (-f).toNat : Nat)
    let product := if down then -product else product
    let k := product / logarithmOfTen
    if farthest < k ∨ k < -farthest then beyond false (0 < k)
    else
      let r := (product - k * logarithmOfTen).toNat
      rounded false (powerSeries r 1000 unit 1) (k - depth)

/-! ## Powers -/

/-- The whole number `n · 10^f`, if it is one and is not beyond all use. -/
def wholeOf? (n : Nat) (f : Int) : Option Nat :=
  if 0 ≤ f then some (n * Nat.pow 10 f.toNat)
  else if n % Nat.pow 10 (-f).toNat = 0 then some (n / Nat.pow 10 (-f).toNat)
  else none

/-- One as a power of one, which has as many places as a product would have. -/
def powerOfOne (negative : Bool) (e : Int) (down : Bool) (n : Nat) : Decimal :=
  let places := if down then 0 else min (n * (-e).toNat) (precision - 1)
  .finite negative (Nat.pow 10 places) (-places)

/-- A power of a finite number that is not zero, for a finite exponent that is not zero. -/
def finitePower (s : Bool) (m : Nat) (e : Int) (t : Bool) (n : Nat) (f : Int) :
    Except Fault Decimal :=
  let size := compareScaled m e 1 0
  if 60 < digitCount n + f then
    -- such an exponent is whole and even
    if size = .eq then .ok (powerOfOne false e t (Nat.pow 10 60))
    else beyond false ((size == .gt) != t)
  else if -f ≥ digitCount n + 60 then
    if s then .error .invalid else .ok (fullOne false)
  else
    match wholeOf? n f with
    | some w =>
      let negative := s && w % 2 = 1
      if size = .eq then .ok (powerOfOne negative e t w)
      else wholePower negative m e t w (digitCount n + f).toNat
    | none =>
      if s then .error .invalid
      else if size = .eq then .ok (fullOne false)
      else brokenPower m e t n f

/-- Whether a number is whole. -/
def isWhole : Decimal → Bool
  | .finite _ n f =>
    0 ≤ f || (decide (-f ≤ digitCount n) && n % Nat.pow 10 (-f).toNat == 0)
  | _ => false

/-- Whether a number is whole and odd. -/
def isOdd : Decimal → Bool
  | .finite s n f =>
    isWhole (.finite s n f) && f ≤ 0 && n / Nat.pow 10 (-f).toNat % 2 == 1
  | _ => false

/-- Whether a number is below zero. -/
def isNegative : Decimal → Bool
  | .finite s _ _ | .infinity s | .notANumber s .. => s

/-- One number to the power of another one. -/
def power (a b : Decimal) : Except Fault Decimal :=
  let negative := a.isNegative && b.isOdd
  match a, b with
  | .notANumber .., _ | _, .notANumber .. => special "**" a b
  | .finite _ 0 _, b =>
    if b.isZero then .error .invalid
    else .ok (if b.isNegative then .infinity negative else .finite negative 0 0)
  | a, .infinity t =>
    if a.isNegative then .error .invalid
    else
      match a.order? (.finite false 1 0) with
      | some .eq => .ok (fullOne false)
      | some o => .ok (if (o == .gt) != t then .infinity false else .finite false 0 0)
      | none => .error .invalid
  | .infinity s, .finite t n f =>
    if n = 0 then .ok (.finite false 1 0)
    else if s && !isWhole (.finite t n f) then .error .invalid
    else .ok (if t then .finite negative 0 0 else .infinity negative)
  | .finite s m e, .finite t n f =>
    if n = 0 then .ok (.finite false 1 0) else finitePower s m e t n f

end SqlCompose.Number.Decimal
