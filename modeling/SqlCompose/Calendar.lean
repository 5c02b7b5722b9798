import SqlCompose.Text.Hex

/-!
# Dates and times

Calendar dates, times of day with an optional offset from universal time, and the two together.
Their text is the international form; their display names the parts.
-/
namespace SqlCompose

/-- A calendar date. -/
structure Date where
  year : Nat
  month : Nat
  day : Nat
deriving DecidableEq, Inhabited

/-- A time of day. The offset is in seconds east of universal time. -/
structure TimeOfDay where
  hour : Nat
  minute : Nat
  second : Nat
  microsecond : Nat
  offset : Option Int
deriving DecidableEq, Inhabited

/-- A date with a time of day. -/
structure Timestamp where
  date : Date
  time : TimeOfDay
deriving DecidableEq, Inhabited

/-- Four digits of year, two of month and two of day. -/
def Date.text (d : Date) : String :=
  Text.zeroPadded 4 d.year ++ "-" ++ Text.zeroPadded 2 d.month ++ "-" ++ Text.zeroPadded 2 d.day

/-- The offset as hours and minutes, and seconds if there are any. -/
def offsetText (offset : Int) : String :=
  let n := offset.natAbs
  let seconds := n % 60
  (if offset < 0 then "-" else "+") ++ Text.zeroPadded 2 (n / 3600) ++ ":"
    ++ Text.zeroPadded 2 (n / 60 % 60)
    ++ (if seconds = 0 then "" else ":" ++ Text.zeroPadded 2 seconds)

/-- Hours, minutes and seconds, microseconds if there are any, and the offset if there is one. -/
def TimeOfDay.text (t : TimeOfDay) : String :=
  Text.zeroPadded 2 t.hour ++ ":" ++ Text.zeroPadded 2 t.minute ++ ":" ++ Text.zeroPadded 2 t.second
    ++ (if t.microsecond = 0 then "" else "." ++ Text.zeroPadded 6 t.microsecond)
    ++ (t.offset.map offsetText).getD ""

/-- The date and the time with a separator between them. -/
def Timestamp.text (separator : String) (t : Timestamp) : String :=
  t.date.text ++ separator ++ t.time.text

/-- The offset in a displayed time: a span that starts from whole days. -/
def offsetDisplay (offset : Int) : String :=
  if offset = 0 then "datetime.timezone.utc"
  else
    let days := Int.fdiv offset 86400
    let seconds := Int.fmod offset 86400
    let parts := (if days = 0 then [] else ["days=" ++ toString days])
      ++ (if seconds = 0 then [] else ["seconds=" ++ toString seconds])
    "datetime.timezone(datetime.timedelta(" ++ ", ".intercalate parts ++ "))"

/-- The parts of a displayed time after hour and minute: zeros at the end are left out. -/
def TimeOfDay.displayRest (t : TimeOfDay) : List String :=
  (if t.microsecond ≠ 0 then [toString t.second, toString t.microsecond]
    else if t.second ≠ 0 then [toString t.second] else [])
    ++ (t.offset.map fun o => "tzinfo=" ++ offsetDisplay o).toList

def Date.displayParts (d : Date) : List String :=
  [toString d.year, toString d.month, toString d.day]

def TimeOfDay.displayParts (t : TimeOfDay) : List String :=
  [toString t.hour, toString t.minute] ++ t.displayRest

def Date.display (d : Date) : String :=
  "datetime.date(" ++ ", ".intercalate d.displayParts ++ ")"

def TimeOfDay.display (t : TimeOfDay) : String :=
  "datetime.time(" ++ ", ".intercalate t.displayParts ++ ")"

def Timestamp.display (t : Timestamp) : String :=
  "datetime.datetime(" ++ ", ".intercalate (t.date.displayParts ++ t.time.displayParts) ++ ")"

/-! ## Instants

A time with an offset names an instant, whatever the offset is; a time without one does not.
-/

/-- Whether a year has a leap day. -/
def isLeapYear (year : Nat) : Bool :=
  year % 4 == 0 && (year % 100 != 0 || year % 400 == 0)

/-- How many days a month has. -/
def monthLength (year month : Nat) : Nat :=
  if month = 2 then if isLeapYear year then 29 else 28
  else if month ∈ [4, 6, 9, 11] then 30
  else 31

/-- How many days of a year come before a month. -/
def daysBefore (year month : Nat) : Nat :=
  (List.range (month - 1)).foldl (fun days m => days + monthLength year (m + 1)) 0

/-- The number of a day, counted from the first day of the first year. -/
def Date.dayNumber (d : Date) : Nat :=
  let past := d.year - 1
  past * 365 + past / 4 - past / 100 + past / 400 + daysBefore d.year d.month + d.day

/-- The microseconds from midnight of universal time, for a time with an offset. -/
def TimeOfDay.instant? (t : TimeOfDay) : Option Int :=
  t.offset.map fun offset =>
    ((t.hour * 3600 + t.minute * 60 + t.second : Nat) - offset) * 1000000 + t.microsecond

/-- The microseconds on the scale of universal time, for a time with an offset. -/
def Timestamp.instant? (t : Timestamp) : Option Int :=
  t.time.instant?.map (t.date.dayNumber * 86400000000 + ·)

/-- Whether there is such a day. -/
def Date.isValid (d : Date) : Bool :=
  decide (1 ≤ d.year ∧ d.year ≤ 9999 ∧ 1 ≤ d.month ∧ d.month ≤ 12 ∧ 1 ≤ d.day
    ∧ d.day ≤ monthLength d.year d.month)

/-- Whether there is such a time; an offset is less than a day. -/
def TimeOfDay.isValid (t : TimeOfDay) : Bool :=
  decide (t.hour < 24 ∧ t.minute < 60 ∧ t.second < 60 ∧ t.microsecond < 1000000)
    && (t.offset.map fun o => decide (o.natAbs < 86400)).getD true

end SqlCompose
