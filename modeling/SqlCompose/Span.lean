import SqlCompose.Calendar
import SqlCompose.Number.Rounded

/-!
# Spans of time

What lies between two days or points in time, counted in microseconds, and the days and points that
lie a span away. A span has fewer than a thousand million days, and years have four digits at most.
-/
namespace SqlCompose

/-- A span of time. -/
structure Span where
  microseconds : Int
deriving DecidableEq, Inhabited

namespace Span

/-- How many microseconds a day has. -/
def day : Nat := 86400000000

/-- The whole days of a span; the rest of it is never negative. -/
def days (s : Span) : Int := s.microseconds.fdiv day

/-- What a span has beside its whole days. -/
def rest (s : Span) : Nat := (s.microseconds.fmod day).toNat

theorem days_add_rest (s : Span) : s.days * day + s.rest = s.microseconds := by
  have h : 0 ≤ s.microseconds.fmod day := Int.fmod_nonneg_of_pos _ (by decide)
  rw [days, rest, Int.toNat_of_nonneg h, Int.mul_comm]
  exact Int.mul_fdiv_add_fmod _ _

def seconds (s : Span) : Nat := s.rest / 1000000

def fraction (s : Span) : Nat := s.rest % 1000000

def isZero (s : Span) : Bool := s.microseconds == 0

/-- A span of so many microseconds, if it is not too large. -/
def ofMicroseconds? (n : Int) : Option Span :=
  let s : Span := ⟨n⟩
  if s.days.natAbs ≤ 999999999 then some s else none

/-- The parts of a displayed span that are not zero. -/
def displayParts (s : Span) : List String :=
  (if s.days = 0 then [] else ["days=" ++ toString s.days])
    ++ (if s.seconds = 0 then [] else ["seconds=" ++ toString s.seconds])
    ++ (if s.fraction = 0 then [] else ["microseconds=" ++ toString s.fraction])

/-- How messages show a span. -/
def display (s : Span) : String :=
  "datetime.timedelta("
    ++ (if s.displayParts.isEmpty then "0" else ", ".intercalate s.displayParts) ++ ")"

/-- The days of a span in words, and its rest as a time of day. -/
def text (s : Span) : String :=
  (if s.days = 0 then ""
    else toString s.days ++ (if s.days.natAbs = 1 then " day, " else " days, "))
    ++ toString (s.seconds / 3600) ++ ":" ++ Text.zeroPadded 2 (s.seconds / 60 % 60)
    ++ ":" ++ Text.zeroPadded 2 (s.seconds % 60)
    ++ (if s.fraction = 0 then "" else "." ++ Text.zeroPadded 6 s.fraction)

/-- The whole number nearest to a quotient; a half goes to the even neighbour. -/
def nearest (a b : Int) : Int :=
  let q : Int := Number.Decimal.nearestEven a.natAbs b.natAbs
  if decide (a < 0) = decide (b < 0) then q else -q

end Span

/-! ## Days and points in time -/

/-- The month and the day of it for a day of a year, counted from zero. -/
def monthAndDay (year : Nat) : List Nat → Nat → Nat × Nat
  | [], day => (12, day + 1)
  | month :: months, day =>
    if day < monthLength year month then (month, day + 1)
    else monthAndDay year months (day - monthLength year month)

/-- The day with a number, counted from the first day of the first year. Four hundred years have as
many days as any other four hundred. -/
def Date.ofDayNumber (n : Nat) : Date :=
  let day := n - 1
  let inEra := day % 146097
  let century := min (inEra / 36524) 3
  let inCentury := inEra - century * 36524
  let inFour := inCentury % 1461
  let last := min (inFour / 365) 3
  let year := day / 146097 * 400 + century * 100 + inCentury / 1461 * 4 + last + 1
  let (month, day) := monthAndDay year ((List.range 12).map (· + 1)) (inFour - last * 365)
  ⟨year, month, day⟩

/-- The day that lies so many days after another one, if its year has no more than four digits. -/
def Date.after? (d : Date) (days : Int) : Option Date :=
  let n := d.dayNumber + days
  if 1 ≤ n ∧ n ≤ 3652059 then some (.ofDayNumber n.toNat) else none

/-- The microseconds of a time since midnight, wherever that is. -/
def TimeOfDay.microseconds (t : TimeOfDay) : Nat :=
  ((t.hour * 60 + t.minute) * 60 + t.second) * 1000000 + t.microsecond

/-- The microseconds of a point in time since the first day, by the clock of its place. -/
def Timestamp.microseconds (t : Timestamp) : Nat :=
  t.date.dayNumber * Span.day + t.time.microseconds

/-- The point in time that lies a span after another one, by the clock of its place. -/
def Timestamp.after? (t : Timestamp) (s : Span) : Option Timestamp := do
  let moved : Span := ⟨t.time.microseconds + s.microseconds⟩
  let date ← t.date.after? moved.days
  let seconds := moved.seconds
  return {
    date
    time := { t.time with
      hour := seconds / 3600, minute := seconds / 60 % 60, second := seconds % 60
      microsecond := moved.fraction } }

/-- The span from one point in time to another. By universal time if both are on it; there is none
if only one of them is. -/
def Timestamp.since? (a b : Timestamp) : Option Span :=
  match a.time.offset, b.time.offset with
  | none, none => some ⟨a.microseconds - b.microseconds⟩
  | some s, some t => some ⟨(a.microseconds - s * 1000000) - (b.microseconds - t * 1000000)⟩
  | _, _ => none

/-- The span from one day to another. -/
def Date.since (a b : Date) : Span := ⟨((a.dayNumber : Int) - b.dayNumber) * Span.day⟩

theorem Date.since_self (a : Date) : a.since a = ⟨0⟩ := by
  simp [since]

theorem Timestamp.since?_self (a : Timestamp) : a.since? a = some ⟨0⟩ := by
  unfold since?
  cases a.time.offset <;> simp

end SqlCompose
