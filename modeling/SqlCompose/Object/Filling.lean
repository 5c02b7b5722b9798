import SqlCompose.Expr.Convert
import SqlCompose.Number.Places
import SqlCompose.Object.Basic

/-!
# Filling in texts

What a text becomes when values are put in the places of the marks that it has. A mark is a percent
sign, a letter that says how the value is written, and between them the name of the value, flags, a
width and a number of places, as far as they matter. Values are taken one after another, or those
of a mapping by their names, and none may be left over. A text that is all there is in the end stays
the object that it was.
-/
namespace SqlCompose.Filling

open Number (Binary64)

/-- The objects to fill in. -/
structure Supply where
  mapping : Option Object
  values : List Object

/-- The supply that an object is. Binary data is no mapping for a pattern of binary data. -/
def Supply.of (binary : Bool) (o : Object) : Supply :=
  match o.value with
  | .dict _ | .table _ | .union _ | .generic .. => ⟨some o, [o]⟩
  | .sequence form _ =>
    if form.isTuple then ⟨none, o.items⟩ else ⟨if form.isList then some o else none, [o]⟩
  | .scalar (.binary ..) => ⟨if binary then none else some o, [o]⟩
  | _ => ⟨none, [o]⟩

/-- How a mark wants its value to be written. -/
structure Mark where
  flags : List Char
  width : Option Int
  places : Option Int
  letter : Char

/-- Reading a pattern: what is left of it, and of the values. -/
abbrev Reader := StateT (List Char × Supply) (Except Error)

/-! ## Reading marks -/

/-- The next character, which has to be there. -/
def next : Reader Char := do
  match ← get with
  | ([], _) => throw .badValue
  | (c :: rest, supply) => set (rest, supply); return c

/-- The next object, which has to be there. -/
def nextObject : Reader Object := do
  match ← get with
  | (_, ⟨_, []⟩) => throw .unsupportedOperands
  | (rest, ⟨mapping, o :: os⟩) =>
    set (rest, (⟨mapping, os⟩ : Supply))
    return o

/-- The characters that come next as long as they are of a kind. -/
def nextWhile (p : Char → Bool) : Reader (List Char) := do
  let (rest, supply) ← get
  set (rest.dropWhile p, supply)
  return rest.takeWhile p

/-- Whether one of some characters comes next, which is skipped. -/
def skips (cs : List Char) : Reader Bool := do
  match ← get with
  | (c :: rest, supply) =>
    if cs.contains c then
      set (rest, supply)
      return true
    else return false
  | _ => return false

/-- A name up to the parenthesis that closes it, and what comes after. -/
def splitName : Nat → List Char → Option (List Char × List Char)
  | _, [] => none
  | depth, c :: cs =>
    if c = ')' ∧ depth = 0 then some ([], cs)
    else
      let depth := if c = '(' then depth + 1 else if c = ')' then depth - 1 else depth
      (splitName depth cs).map fun (name, rest) => (c :: name, rest)

/-- The object that a mapping has under a name. -/
def named (cat : Catalog) (mapping : Object) (key : Value) (shown : String) :
    Except Error Object :=
  let held := (Object.pairs mapping.items).find? fun (k, _) => k.value.sameKey key
  match held, mapping.value.at? cat key, mapping.value with
  | some (_, o), _, _ => .ok o
  | none, .ok (some v), _ => .ok (Object.ofValue (.part mapping.identity shown) v)
  | none, .ok none, .table id =>
    .error (.noSuchColumn (Text.display (cat.table id).name) shown)
  | none, .ok none, _ => .error .hiddenKey
  | none, .error e, _ => .error e.silent

/-- Text as it is, or as the binary data that it spells. -/
def packed (binary : Bool) (cs : List Char) : Value :=
  if binary then .scalar (.binary false (cs.map fun c => UInt8.ofNat c.toNat))
  else .text (String.ofList cs)

/-- Reads the name of a value, if there is one; the value is the only one from then on. -/
def readName (cat : Catalog) (binary : Bool) : Reader Unit := do
  if ← skips ['('] then
    let (rest, supply) ← get
    match supply.mapping, splitName 0 rest with
    | none, _ => throw .unsupportedOperands
    | _, none => throw .badValue
    | some mapping, some (name, rest) =>
      let key := packed binary name
      let o ← named cat mapping key (Text.display (String.ofList name))
      set (rest, (⟨supply.mapping, [o]⟩ : Supply))

/-- The largest width, and the largest number of places. -/
def largestWidth : Int := 9223372036854775807

def largestPlaces : Int := 2147483647

/-- Reads a number up to a largest one; a star stands for the next value. -/
def readCount (largest : Int) : Reader (Option Int) := do
  if ← skips ['*'] then
    let n ← match (← nextObject).value with
      | .scalar (.int n) => pure n
      | .scalar (.bool b) => pure (if b then 1 else 0)
      | _ => throw .unsupportedOperands
    if largest < n.natAbs then throw .endlessNumber
    return some n
  else
    let digits ← nextWhile Char.isDigit
    let n := Number.ofDigits digits
    if largest < n then throw .badValue
    return if digits.isEmpty then none else some n

/-- Reads what stands behind a percent sign. -/
def readMark (cat : Catalog) (binary : Bool) : Reader Mark := do
  readName cat binary
  let flags ← nextWhile ['-', '+', ' ', '#', '0'].contains
  let width ← readCount largestWidth
  let places ←
    if ← skips ['.'] then some <$> (·.getD 0) <$> readCount largestPlaces else pure none
  let _ ← skips ['h', 'l', 'L']
  return ⟨flags, width, places, ← next⟩

/-! ## Writing values -/

namespace Mark

def hasFlag (m : Mark) (c : Char) : Bool := m.flags.contains c

/-- The places that are asked for, or else so many. -/
def placesOr (m : Mark) (n : Nat) : Nat := (m.places.map Int.toNat).getD n

/-- Fills a value up to the width of a mark: with blanks, or behind the sign with zeros. -/
def filled (m : Mark) (zeros : Bool) (sign body : String) : String :=
  let width := (m.width.getD 0).natAbs
  let missing := width - sign.length - body.length
  let filler := fun c => String.ofList (List.replicate missing c)
  if m.hasFlag '-' || decide (m.width.getD 0 < 0) then sign ++ body ++ filler ' '
  else if zeros && m.hasFlag '0' then sign ++ filler '0' ++ body
  else filler ' ' ++ sign ++ body

/-- A text, of which a mark may want only the beginning. -/
def text (m : Mark) (s : String) : String :=
  m.filled false "" (String.ofList (s.toList.take (m.placesOr s.length)))

/-- The sign of a number. -/
def signOf (m : Mark) (negative : Bool) : String :=
  if negative then "-" else if m.hasFlag '+' then "+" else if m.hasFlag ' ' then " " else ""

/-- A whole number in one of the bases. -/
def whole (m : Mark) (n : Int) : Except Error String := do
  let base := match m.letter with
    | 'o' => 8
    | 'x' | 'X' => 16
    | _ => 10
  if base = 10 then discard (shownInside (Scalar.wholeText n))
  let digits := Nat.toDigits base n.natAbs
  let digits := List.replicate (m.placesOr 0 - digits.length) '0' ++ digits
  let capital := fun (s : String) => if m.letter = 'X' then s.toUpper else s
  let lead := if m.hasFlag '#' && base != 10 then "0" ++ String.singleton m.letter else ""
  return m.filled true (m.signOf (n < 0) ++ lead) (capital (String.ofList digits))

/-- A binary number. -/
def float (m : Mark) (x : Binary64) : String :=
  let pointed := m.hasFlag '#'
  let places := m.placesOr 6
  let body :=
    if x.isNaN then "nan"
    else if x.isInfinite then "inf"
    else match m.letter.toLower with
      | 'e' => x.scientific pointed places
      | 'f' => x.positional pointed places
      | _ => x.general pointed (max 1 places)
  let body := if m.letter.isUpper then body.toUpper else body
  m.filled true (m.signOf (x.negative && !x.isNaN)) body

/-- A text with everything but ASCII escaped. -/
def escaped (s : String) : String :=
  String.ofList (s.toList.flatMap fun c =>
    if c.toNat < 0x80 then [c] else Text.numberEscape c.toNat)

/-- A single character, given as it is or by its number. -/
def character (m : Mark) (binary : Bool) (v : Value) : Except Error String := do
  let limit := if binary then 0x100 else 0x110000
  let ofNumber := fun (n : Int) =>
    if 0 ≤ n ∧ n < limit then .ok (String.singleton (Char.ofNat n.toNat))
    else .error .endlessNumber
  let c ← match v, binary with
    | .scalar (.int n), _ => ofNumber n
    | .scalar (.bool b), _ => ofNumber (if b then 1 else 0)
    | .scalar (.text s), false =>
      if s.length = 1 then .ok s else .error .unsupportedOperands
    | .scalar (.binary _ [b]), true => .ok (String.singleton (Char.ofNat b.toNat))
    | _, _ => .error .unsupportedOperands
  return m.filled false "" c

/-- The whole number that a value is or, toward zero, has. -/
def wholePart (exact : Bool) (v : Value) : Except Error Int :=
  match v with
  | .scalar (.text _) | .scalar (.binary ..) => .error .unsupportedOperands
  | .scalar (.float _) | .scalar (.decimal _) =>
    if exact then .error .unsupportedOperands
    else match v.toInt with
      | .ok (.scalar (.int n)) => .ok n
      | .error e => .error e.silent
      | _ => .error .unsupportedOperands
  | .scalar (.int n) => .ok n
  | .scalar (.bool b) => .ok (if b then 1 else 0)
  | _ => .error .unsupportedOperands

/-- The binary number nearest to a value. -/
def nearest (v : Value) : Except Error Binary64 :=
  match v with
  | .scalar (.text _) | .scalar (.binary ..) => .error .unsupportedOperands
  | v =>
    match v.toFloat with
    | .ok (.scalar (.float x)) => .ok x
    | .error e => .error e.silent
    | _ => .error .unsupportedOperands

/-- A value as a mark wants it. -/
def write (cat : Catalog) (binary : Bool) (m : Mark) (v : Value) : Except Error String := do
  match m.letter, binary with
  | 's', false => return m.text (← shownInside (v.label cat))
  | 'r', false => return m.text (← shownInside (v.display cat))
  | 'a', _ | 'r', true => return m.text (escaped (← shownInside (v.display cat)))
  | 's', true | 'b', true =>
    match v with
    | .scalar (.binary _ bytes) => return m.text (Value.spelledBy bytes)
    | _ => throw .unsupportedOperands
  | 'c', _ => m.character binary v
  | 'd', _ | 'i', _ | 'u', _ => m.whole (← wholePart false v)
  | 'o', _ | 'x', _ | 'X', _ => m.whole (← wholePart true v)
  | 'e', _ | 'E', _ | 'f', _ | 'F', _ | 'g', _ | 'G', _ => return m.float (← nearest v)
  | _, _ => throw .badValue

/-- Whether a mark leaves a text as it is. -/
def leaves (m : Mark) (o : Object) (written : String) : Bool :=
  m.letter == 's' && !m.hasFlag '+' && !m.hasFlag ' ' && o.value.text? == some written

end Mark

/-! ## Patterns -/

/-- What has been written, and the object that it is if it is a given one. -/
structure Filled where
  text : String
  same : Option Object := none

/-- What stands for a character of a pattern, a mark for its value. Two percent signs are one that
is no mark. -/
def piece (cat : Catalog) (binary : Bool) (c : Char) : Reader Filled := do
  if c ≠ '%' then return { text := String.singleton c }
  if ← skips ['%'] then return { text := "%" }
  let mark ← readMark cat binary
  let o ← nextObject
  let text ← mark.write cat binary o.value
  return { text, same := if mark.leaves o text then some o else none }

/-- What stands for the characters of a pattern, put before what has been written already. -/
def fill (cat : Catalog) (binary : Bool) : Nat → List Filled → Reader (List Filled)
  | 0, written => pure written
  | steps + 1, written => do
    if (← get).1.isEmpty then return written
    let piece ← piece cat binary (← next)
    fill cat binary steps (piece :: written)

/-- The pieces of a text, the last one first, as one. The last piece stays what it is if there is
nothing before it. -/
def joined : List Filled → Filled
  | [] => { text := "" }
  | last :: before =>
    if before.all (·.text == "") then last
    else { text := String.join ((last :: before).reverse.map (·.text)) }

/-- A pattern with objects in the places of its marks. -/
def run (cat : Catalog) (binary : Bool) (pattern : List Char) (o : Object) :
    Except Error Filled := do
  let (written, _, supply) ←
    (fill cat binary pattern.length []).run (pattern, Supply.of binary o)
  if supply.mapping.isNone && !supply.values.isEmpty then throw .unsupportedOperands
  return joined written

end SqlCompose.Filling
