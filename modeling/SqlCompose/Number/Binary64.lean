/-!
# Binary floating point numbers

A 64-bit binary floating point number as its bits: a sign, eleven bits of exponent and fifty-two
bits of fraction. A finite number is a whole number of units in the last place, and the reals that
round to it are an interval around it.
-/
namespace SqlCompose.Number

/-- A binary floating point number of 64 bits. -/
structure Binary64 where
  bits : UInt64
deriving DecidableEq, Inhabited

namespace Binary64

/-- How many bits the fraction has. -/
def fractionBits : Nat := 52

def negative (x : Binary64) : Bool := x.bits.toNat >>> 63 == 1

/-- The exponent field. -/
def exponentField (x : Binary64) : Nat := (x.bits.toNat >>> fractionBits) % 2048

/-- The fraction field. -/
def fractionField (x : Binary64) : Nat := x.bits.toNat % (1 <<< fractionBits)

def isNaN (x : Binary64) : Bool := x.exponentField == 2047 && x.fractionField != 0

def isInfinite (x : Binary64) : Bool := x.exponentField == 2047 && x.fractionField == 0

def isFinite (x : Binary64) : Bool := x.exponentField != 2047

def isZero (x : Binary64) : Bool := x.exponentField == 0 && x.fractionField == 0

/-- The whole number `m` of a finite value `m · 2^q`. -/
def significand (x : Binary64) : Nat :=
  if x.exponentField = 0 then x.fractionField else (1 <<< fractionBits) + x.fractionField

/-- The power `q` of a finite value `m · 2^q`. -/
def power (x : Binary64) : Int :=
  (max 1 x.exponentField : Nat) - 1075

/-- Whether the gap below the value is half the gap above it. -/
def narrowBelow (x : Binary64) : Bool := x.fractionField == 0 && decide (1 < x.exponentField)

end Binary64

end SqlCompose.Number
