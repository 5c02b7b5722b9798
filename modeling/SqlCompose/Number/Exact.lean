import SqlCompose.Number.Binary64
import SqlCompose.Number.Decimal

/-!
# Exact numbers

A finite number of either base in a form of its own: the powers of two and of five are kept apart
from what neither of them divides. Numbers of different bases are the same exactly when their forms
are, and no power is ever worked out.
-/
namespace SqlCompose.Number

/-- A number: `rest * 2 ^ twos * 5 ^ fives` with a sign. Neither two nor five divides the rest, and
zero is written in one way only. -/
structure Exact where
  negative : Bool
  rest : Nat
  twos : Int
  fives : Int
deriving DecidableEq, Inhabited

namespace Exact

/-- How often `p` divides a number, and what remains when it divides no more. -/
def strip (p n : Nat) : Nat × Nat :=
  if h : 1 < p ∧ 0 < n ∧ n % p = 0 then
    have : n / p < n := Nat.div_lt_self h.2.1 h.1
    let (k, r) := strip p (n / p)
    (k + 1, r)
  else (0, n)
termination_by n

theorem pow_mul_strip (p n : Nat) : Nat.pow p (strip p n).1 * (strip p n).2 = n := by
  fun_induction strip p n with
  | case1 n h _ k r hr ih =>
    rw [hr] at ih
    calc Nat.pow p (k + 1) * r = p * (Nat.pow p k * r) := by
          rw [show Nat.pow p (k + 1) = Nat.pow p k * p from rfl]
          ac_rfl
      _ = p * (n / p) := by rw [ih]
      _ = n := Nat.mul_div_cancel' (Nat.dvd_of_mod_eq_zero h.2.2)
  | case2 => exact Nat.one_mul _

/-- The number `m * 2 ^ twos * 5 ^ fives` with a sign. -/
def of (negative : Bool) (m : Nat) (twos fives : Int) : Exact :=
  if m = 0 then ⟨false, 0, 0, 0⟩
  else
    let (k, odd) := strip 2 m
    let (l, rest) := strip 5 odd
    ⟨negative, rest, twos + k, fives + l⟩

/-- A whole number. -/
def ofInt (n : Int) : Exact := of (n < 0) n.natAbs 0 0

end Exact

/-- The exact value of a finite binary number. -/
def Binary64.exact (x : Binary64) : Exact := .of x.negative x.significand x.power 0

/-- The exact value of a finite decimal number. -/
def Decimal.exact? : Decimal → Option Exact
  | .finite negative c e => some (.of negative c e e)
  | _ => none

end SqlCompose.Number
