import SqlCompose.Number.Binary64
import SqlCompose.Number.Decimal
import SqlCompose.Text.Ranges

/-!
# Reading numbers

Numbers from text: a sign, digits of any script with at most one point, and an exponent, or one of
the words for what is not finite. Blanks around a number do not count. Binary numbers are rounded to
the nearest; decimal numbers keep every digit, within a range of exponents.
-/
namespace SqlCompose.Number

/-- A text in which every decimal digit is one of the ten common ones. -/
def plainDigits (cs : List Char) : List Char :=
  cs.map fun c =>
    match Text.digitValue? c with
    | some n => Char.ofNat ('0'.toNat + n)
    | none => c

/-- A text without what satisfies `p` at its ends. -/
def stripped (p : Char → Bool) (cs : List Char) : List Char :=
  ((cs.dropWhile p).reverse.dropWhile p).reverse

/-- Whether a sign is a minus, and what follows the sign. -/
def splitSign : List Char → Bool × List Char
  | '-' :: cs => (true, cs)
  | '+' :: cs => (false, cs)
  | cs => (false, cs)

/-- The number that digits stand for. -/
def ofDigits (cs : List Char) : Nat :=
  cs.foldl (fun n c => 10 * n + (c.toNat - '0'.toNat)) 0

/-- The power of ten that an exponent part adds; without an exponent part it is zero. -/
def exponentPart? : List Char → Option Int
  | [] => some 0
  | mark :: cs =>
    let (negative, ds) := splitSign cs
    if (mark = 'e' ∨ mark = 'E') ∧ ds ≠ [] ∧ ds.all Char.isDigit then
      some (if negative then -(ofDigits ds : Int) else ofDigits ds)
    else none

/-- The whole number `m` and the power `e` of a numeral `m · 10^e` without a sign. -/
def numeral? (cs : List Char) : Option (Nat × Int) :=
  let whole := cs.takeWhile Char.isDigit
  let rest := cs.dropWhile Char.isDigit
  let (fraction, rest) := match rest with
    | '.' :: r => (r.takeWhile Char.isDigit, r.dropWhile Char.isDigit)
    | r => ([], r)
  if whole.isEmpty && fraction.isEmpty then none
  else (exponentPart? rest).map fun e => (ofDigits (whole ++ fraction), e - fraction.length)

/-- The words for an infinite number. -/
def isInfinityWord (cs : List Char) : Bool :=
  (String.ofList cs).toLower == "inf" || (String.ofList cs).toLower == "infinity"

/-! ## Binary numbers -/

/-- The bits of the number nearest to `m · 10^e`. -/
def nearestBits (m : Nat) (e : Int) : UInt64 :=
  let size : Int := (toString m).length + e
  if m = 0 ∨ size < -400 then 0
  else if 400 < size then 0x7ff0000000000000
  else (Float.ofScientific m (decide (e < 0)) e.natAbs).toBits

/-- Drops underscores, each of which has to stand between two digits. -/
def withoutGroups (previous : Char) : List Char → Option (List Char)
  | [] => some []
  | '_' :: cs =>
    if previous.isDigit && (cs.head?.map Char.isDigit).getD false then withoutGroups '_' cs
    else none
  | c :: cs => (withoutGroups c cs).map (c :: ·)

/-- Blanks around a whole or binary number: of the controls, only those that move the place of
writing. -/
def isPad (c : Char) : Bool :=
  if c.toNat < 0x80 then c == ' ' || decide (9 ≤ c.toNat ∧ c.toNat ≤ 13) else Text.isBlank c

/-- The bit of the sign. -/
def signBit (negative : Bool) : UInt64 := if negative then 0x8000000000000000 else 0

/-- An infinite number. -/
def Binary64.infinity (negative : Bool) : Binary64 := ⟨signBit negative ||| 0x7ff0000000000000⟩

/-- A value that is no number. -/
def Binary64.notANumber (negative : Bool) : Binary64 := ⟨signBit negative ||| 0x7ff8000000000000⟩

/-- The binary number nearest to `m · 10^e` with a sign. -/
def Binary64.nearest (negative : Bool) (m : Nat) (e : Int) : Binary64 :=
  ⟨signBit negative ||| nearestBits m e⟩

/-- The binary number that a text stands for. -/
def Binary64.ofText? (s : String) : Option Binary64 := do
  let cs ← withoutGroups ' ' (stripped isPad (plainDigits s.toList))
  let (negative, cs) := splitSign cs
  if isInfinityWord cs then return .infinity negative
  if (String.ofList cs).toLower == "nan" then return .notANumber negative
  let (m, e) ← numeral? cs
  return .nearest negative m e

/-! ## Whole numbers -/

/-- With how many digits a text starts, behind a sign; underscores do not count. -/
def leadingDigits (s : String) : Nat :=
  let (_, cs) := splitSign (stripped isPad (plainDigits s.toList))
  ((cs.takeWhile fun c => c.isDigit || c == '_').filter Char.isDigit).length

/-- The whole number that a text stands for. -/
def whole? (s : String) : Option Int := do
  let cs ← withoutGroups ' ' (stripped isPad (plainDigits s.toList))
  let (negative, cs) := splitSign cs
  if cs.isEmpty || !cs.all Char.isDigit then failure
  return if negative then -(ofDigits cs : Int) else ofDigits cs

/-! ## Decimal numbers -/

/-- What follows a word at the start of a text, in any letter case. -/
def afterWord? (word : String) (cs : List Char) : Option (List Char) :=
  if (cs.take word.length).map Char.toLower = word.toList then some (cs.drop word.length) else none

/-- A value that is no number, with the digits that it carries. -/
def notANumber? (negative signaling : Bool) (payload : List Char) : Option Decimal :=
  if payload.all Char.isDigit then some (.notANumber negative signaling (ofDigits payload))
  else none

/-- The largest power of ten that the first digit of a decimal number may stand for. -/
def Decimal.largestExponent : Int := 999999999999999999

/-- The smallest power of ten that the last digit of a decimal number may stand for. -/
def Decimal.smallestExponent : Int := -1999999999999999997

/-- A finite number, unless it is out of range. -/
def Decimal.inRange? (negative : Bool) (m : Nat) (e : Int) : Option Decimal :=
  let leading := if m = 0 then e else e + (toString m).length - 1
  if e < smallestExponent ∨ largestExponent < leading then none
  else some (.finite negative m e)

/-- The decimal number that a text stands for; underscores do not count. -/
def Decimal.ofText? (s : String) : Option Decimal :=
  let (negative, cs) :=
    splitSign ((plainDigits (stripped Text.isBlank s.toList)).filter (· ≠ '_'))
  if isInfinityWord cs then some (.infinity negative)
  else
    match afterWord? "nan" cs, afterWord? "snan" cs with
    | some payload, _ => notANumber? negative false payload
    | _, some payload => notANumber? negative true payload
    | none, none => (numeral? cs).bind fun (m, e) => Decimal.inRange? negative m e

end SqlCompose.Number
