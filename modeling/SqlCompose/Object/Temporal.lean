import SqlCompose.Object.Quantity

/-!
# Arithmetic of dates and spans

What the operators make of spans of time, with each other, with days and points in time, and with
numbers. A day moves by the whole days of a span alone.
-/
namespace SqlCompose.Temporal

open Number (Binary64)

/-- A span of so many microseconds, which may be too many. -/
def spanOf (n : Int) : Except Error Value :=
  (Span.ofMicroseconds? n).elim (.error .endlessNumber) (.ok ∘ .span)

/-- The day or point in time that lies a span after another one, or before it. A day moves by as
many days either way. -/
def moved? (back : Bool) (v : Value) (s : Span) : Option (Except Error Value) :=
  let found := fun (place : Option Scalar) => place.elim (.error .endlessNumber) (.ok ∘ .scalar)
  let signed := fun (n : Int) => if back then -n else n
  match v with
  | .scalar (.date d) => some (found ((d.after? (signed s.days)).map .date))
  | .scalar (.timestamp t) => some (found ((t.after? ⟨signed s.microseconds⟩).map .timestamp))
  | _ => none

/-- A finite binary number as a quotient of whole numbers. -/
def quotient (x : Binary64) : Int × Nat :=
  let (twos, odd) := Number.Exact.strip 2 x.significand
  let power := x.power + twos
  let above : Int := odd * Nat.pow 2 power.toNat
  (if x.negative then -above else above, Nat.pow 2 (-power).toNat)

/-- A span times a number, rounded to whole microseconds. -/
def times? (s : Span) : Quantity → Option (Except Error Value)
  | .whole n => some (spanOf (s.microseconds * n))
  | .binary x =>
    some <|
      if x.isNaN then .error .badValue
      else if x.isInfinite then .error .endlessNumber
      else
        let (above, below) := quotient x
        spanOf (Span.nearest (s.microseconds * above) below)
  | _ => none

/-- A span divided by a number, rounded to whole microseconds. -/
def dividedBy? (s : Span) : Quantity → Option (Except Error Value)
  | .whole n =>
    some (if n = 0 then .error (.zeroDivisor false) else spanOf (Span.nearest s.microseconds n))
  | .binary x =>
    some <|
      if x.isNaN then .error .badValue
      else if x.isInfinite then .error .endlessNumber
      else if x.isZero then .error (.zeroDivisor false)
      else
        let (above, below) := quotient x
        spanOf (Span.nearest (s.microseconds * below) above)
  | _ => none

/-- An operator on two spans. -/
def ofSpans? (symbol : String) (s t : Span) : Option (Except Error Value) :=
  match symbol with
  | "+" => some (spanOf (s.microseconds + t.microseconds))
  | "-" => some (spanOf (s.microseconds - t.microseconds))
  | "/" => some (Quantity.combineWhole "/" s.microseconds t.microseconds)
  | "%" =>
    some (if t.isZero then .error (.zeroDivisor false)
      else spanOf (s.microseconds.fmod t.microseconds))
  | _ => none

/-- The span between two days or points in time. -/
def between? (a b : Value) : Option (Except Error Value) :=
  match a, b with
  | .scalar (.date d), .scalar (.date e) => some (.ok (.span (d.since e)))
  | .scalar (.timestamp t), .scalar (.timestamp u) => (t.since? u).map (.ok ∘ .span)
  | _, _ => none

/-- An operator on two values of which one at least is a date, a point in time or a span. -/
def combine? (symbol : String) (a b : Value) : Option (Except Error Value) :=
  match a, b, symbol with
  | .span s, .span t, symbol => ofSpans? symbol s t
  | .span s, v, "+" | v, .span s, "+" => moved? false v s
  | v, .span s, "-" => moved? true v s
  | .span s, v, "*" | v, .span s, "*" => (Quantity.ofValue? v).bind (times? s)
  | .span s, v, "/" => (Quantity.ofValue? v).bind (dividedBy? s)
  | a, b, "-" => between? a b
  | _, _, _ => none

/-- A span with a sign before it. -/
def signed? (minus : Bool) : Value → Option (Except Error Value)
  | .span s => some (spanOf (if minus then -s.microseconds else s.microseconds))
  | _ => none

end SqlCompose.Temporal
