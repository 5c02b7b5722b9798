import SqlCompose.Error
import SqlCompose.Span

/-!
# Dates and times from numbers

The day, the time or the point in time that has given numbers for its parts. A number of more than
thirty-two bits is refused as too large, before it is looked at whether there is such a date or
time. The offset from universal time is a span of less than a day either way. What comes into being
is valid.
-/
namespace SqlCompose

/-- Whether a number has no more than thirty-two bits. -/
def isShort (n : Int) : Bool := decide (-2147483648 ≤ n ∧ n ≤ 2147483647)

/-- The numbers of the parts of a date or time, none of which may be negative. -/
def partsFrom (numbers : List Int) : Except Error (List Nat) :=
  if !numbers.all isShort then .error .endlessNumber
  else if numbers.any (· < 0) then .error .badValue
  else .ok (numbers.map Int.toNat)

/-- The offset of so many seconds, if it is less than a day. -/
def offsetFrom (seconds : Int) : Except Error Int :=
  if (Span.ofMicroseconds? (seconds * 1000000)).isNone then .error .endlessNumber
  else if seconds.natAbs < 86400 then .ok seconds
  else .error .badValue

/-- The offset of so many seconds, if one is given. -/
def optionalOffset (seconds : Option Int) : Except Error (Option Int) :=
  match seconds with
  | none => .ok none
  | some seconds => (offsetFrom seconds).map some

/-- A day that exists. -/
def Date.checked (d : Date) : Except Error Date := if d.isValid then .ok d else .error .badValue

/-- A time that exists. -/
def TimeOfDay.checked (t : TimeOfDay) : Except Error TimeOfDay :=
  if t.isValid then .ok t else .error .badValue

/-- The day of a year, a month and a number in it. -/
def Date.ofNumbers (numbers : List Int) : Except Error Date := do
  match ← partsFrom numbers with
  | [year, month, day] => Date.checked ⟨year, month, day⟩
  | _ => throw .badCall

/-- The time of an hour and a minute, and perhaps of a second and a microsecond. -/
def TimeOfDay.ofNumbers (numbers : List Int) (offset : Option Int) : Except Error TimeOfDay := do
  let offset ← optionalOffset offset
  let parts ← partsFrom numbers
  let part := fun (place : Nat) => (parts[place]?).getD 0
  TimeOfDay.checked ⟨part 0, part 1, part 2, part 3, offset⟩

/-- The point in time of the numbers of a day and those of a time. -/
def Timestamp.ofNumbers (numbers : List Int) (offset : Option Int) : Except Error Timestamp := do
  let offset ← optionalOffset offset
  discard (partsFrom numbers)
  let date ← Date.ofNumbers (numbers.take 3)
  return ⟨date, ← TimeOfDay.ofNumbers (numbers.drop 3) offset⟩

theorem Date.isValid_of_checked {d e : Date} (h : d.checked = .ok e) : e = d ∧ e.isValid := by
  unfold checked at h
  split at h
  · rename_i hd
    cases h
    exact ⟨rfl, hd⟩
  · cases h

theorem TimeOfDay.isValid_of_checked {t u : TimeOfDay} (h : t.checked = .ok u) :
    u = t ∧ u.isValid := by
  unfold checked at h
  split at h
  · rename_i ht
    cases h
    exact ⟨rfl, ht⟩
  · cases h

end SqlCompose
