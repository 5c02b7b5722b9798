import SqlCompose.Expr.Subscript
import SqlCompose.Number.Numeral

/-!
# Conversions

What a type makes of a value when it is called with one, or with none at all. Texts are read,
numbers are rounded toward zero or to the nearest, and whatever has parts becomes a sequence of
them.
-/
namespace SqlCompose

namespace Number

/-- A number `m · 2^q · 10^e` without its fraction. -/
def truncated (negative : Bool) (m : Nat) (q e : Int) : Int :=
  let up := Nat.pow 2 q.toNat * Nat.pow 10 e.toNat
  let down := Nat.pow 2 (-q).toNat * Nat.pow 10 (-e).toNat
  let size : Int := (m * up / down : Nat)
  if negative then -size else size

/-- The binary number nearest to a whole number. -/
def Binary64.ofInt (n : Int) : Binary64 := .nearest (decide (n < 0)) n.natAbs 0

/-- The decimal number that has the same value as a finite binary number. -/
def Binary64.asDecimal (x : Binary64) : Decimal :=
  if x.isNaN then .notANumber x.negative false 0
  else if x.isInfinite then .infinity x.negative
  else
    let q := x.power
    if x.isZero then .finite x.negative 0 0
    else if 0 ≤ q then .finite x.negative (x.significand * Nat.pow 2 q.toNat) 0
    else
      let k := min (Exact.strip 2 x.significand).1 (-q).toNat
      let places := (-q).toNat - k
      .finite x.negative (x.significand / Nat.pow 2 k * Nat.pow 5 places) (-(places : Int))

end Number

namespace Value

open Number (Binary64 Decimal)

/-- The text that binary data spells, one character for a byte. -/
def spelledBy (bytes : List UInt8) : String := String.ofList (bytes.map fun b => Char.ofNat b.toNat)

/-- The whole number that a text spells, which may not have too many digits. -/
def readInt (s shown : String) : Except Error Value :=
  let digits := Number.leadingDigits s
  if Scalar.largestWritten < digits then .error (.tooManyDigitsRead digits)
  else (Number.whole? s).elim (.error (.unspelled .int shown)) (.ok ∘ int)

/-- A whole number from a value. -/
def toInt (v : Value) : Except Error Value :=
  match v with
  | scalar (.bool b) => .ok (int (if b then 1 else 0))
  | scalar (.int n) => .ok (int n)
  | scalar (.float x) =>
    if x.isFinite then .ok (int (Number.truncated x.negative x.significand x.power 0))
    else .error (if x.isNaN then .notWhole "float NaN" else .endlessFloat)
  | scalar (.decimal (.finite negative m e)) => .ok (int (Number.truncated negative m 0 e))
  | scalar (.decimal (.infinity _)) => .error .endlessDecimal
  | scalar (.decimal (.notANumber ..)) => .error (.notWhole "NaN")
  | scalar (.text s) => readInt s (Text.display s)
  | scalar (.binary buffer bytes) =>
    readInt (spelledBy bytes) (Scalar.displayBinary buffer bytes)
  | v => .error (.inconvertible .int v.typeTag)

/-- The binary number that a text spells. -/
def readFloat (s shown : String) : Except Error Value :=
  match Binary64.ofText? s with
  | some x => .ok (scalar (.float x))
  | Option.none => .error (.unspelled .float shown)

/-- A binary number from a value. -/
def toFloat (v : Value) : Except Error Value :=
  match v with
  | scalar (.bool b) => .ok (scalar (.float (.ofInt (if b then 1 else 0))))
  | scalar (.int n) =>
    let x := Binary64.ofInt n
    if x.isFinite then .ok (scalar (.float x)) else .error .endlessWhole
  | scalar (.float _) => .ok v
  | scalar (.decimal (.notANumber _ true _)) => .error .signalingFloat
  | scalar (.decimal x) => readFloat x.text x.text
  | scalar (.text s) => readFloat s (Text.display s)
  | scalar (.binary buffer bytes) =>
    readFloat (spelledBy bytes) (Scalar.displayBinary buffer bytes)
  | v => .error (.inconvertible .float v.typeTag)

/-- A decimal number from a value. -/
def toDecimal (v : Value) : Except Error Value :=
  match v with
  | scalar (.bool b) => .ok (scalar (.decimal (.finite false (if b then 1 else 0) 0)))
  | scalar (.int n) => .ok (scalar (.decimal (.finite (decide (n < 0)) n.natAbs 0)))
  | scalar (.float x) => .ok (scalar (.decimal x.asDecimal))
  | scalar (.decimal _) => .ok v
  | scalar (.text s) =>
    match Decimal.ofText? s with
    | some x => .ok (scalar (.decimal x))
    | Option.none => .error (.unspelled .decimal (Text.display s))
  | sequence form _ =>
    .error (if form = .set then .inconvertible .decimal v.typeTag else .badTriple)
  | v => .error (.inconvertible .decimal v.typeTag)

/-- A complex number from a value. -/
def toComplex (v : Value) : Except Error Value :=
  match v with
  | complex _ => .ok v
  | scalar (.text s) =>
    (Number.Complex.ofText? s).elim (.error (.unspelled .complex (Text.display s))) (.ok ∘ complex)
  | scalar (.bool _) | scalar (.int _) | scalar (.float _) | scalar (.decimal _) =>
    match v.toFloat with
    | .ok (scalar (.float x)) => .ok (complex (.ofReal x))
    | outcome => outcome
  | v => .error (.inconvertible .complex v.typeTag)

/-- A byte from a value. -/
def toByte (buffer : Bool) (v : Value) : Except Error UInt8 :=
  let inRange := fun (n : Int) =>
    if 0 ≤ n ∧ n < 256 then .ok (UInt8.ofNat n.toNat)
    else .error (Error.byteRange (if buffer then .bytearray else .bytes))
  match v with
  | scalar (.bool b) => .ok (if b then 1 else 0)
  | scalar (.int n) => inRange n
  | v => .error (.notAnInteger v.typeTag)

/-- Binary data from a value: as many zero bytes as a number says, or a byte for each part. -/
def toBytes (cat : Catalog) (buffer : Bool) (v : Value) : Except Error Value :=
  let made := fun (bytes : List UInt8) => scalar (.binary buffer bytes)
  match v with
  | scalar (.text _) => .error .unencoded
  | scalar (.binary _ bytes) => .ok (made bytes)
  | scalar (.bool b) => .ok (made (if b then [0] else []))
  | scalar (.int n) =>
    if n < 0 then .error .negativeCount else .ok (made (List.replicate n.toNat 0))
  | v =>
    match v.items cat with
    | .ok parts => return made (← parts.mapM (toByte buffer))
    | .error _ => .error (.inconvertible (if buffer then .bytearray else .bytes) v.typeTag)

/-- Values each of which is no key before it. -/
def distinctKeys (vs : List Value) : List Value :=
  vs.foldl (fun kept v => if kept.any (sameKey v) then kept else kept ++ [v]) []

/-- A mapping from a value that falls into pairs. The last value of a key counts. -/
def toDict (cat : Catalog) (v : Value) : Except Error Value :=
  match v with
  | dict _ => .ok v
  | v => do
    let given ← (← v.items cat).zipIdx.mapM fun (item, place) => item.entry cat place
    let keys := distinctKeys (given.map (·.1))
    return dict (keys.map fun k => (k, (valueFor? given.reverse k).getD none))

/-- A date or time of day from a value. A number can only be the first of its parts. -/
def toDate (t : TypeTag) (v : Value) : Except Error Value :=
  let started := fun (n : Int) =>
    if t = .time then
      if 0 ≤ n ∧ n < 24 then
        .ok (scalar (.time
          { hour := n.toNat, minute := 0, second := 0, microsecond := 0, offset := Option.none }))
      else .error .badHour
    else .error (.missingField "month" 2)
  match v with
  | scalar (.bool b) => started (if b then 1 else 0)
  | scalar (.int n) => started n
  | v => .error (.notAnInteger v.typeTag)

/-- What a type makes of a value. -/
def convert (cat : Catalog) : TypeTag → Value → Except Error Value
  | .bool, v => .ok (bool v.truthy)
  | .int, v => v.toInt
  | .float, v => v.toFloat
  | .decimal, v => v.toDecimal
  | .complex, v => v.toComplex
  | .text, v => do return text (← v.label cat)
  | .bytes, v => v.toBytes cat false
  | .bytearray, v => v.toBytes cat true
  | .list, v => do return list (← v.items cat)
  | .tuple, v => do return tuple (← v.items cat)
  | .set, v => do
    let items ← v.items cat
    checkAllHashable items
    return sequence .set (distinctKeys items)
  | .dict, v => v.toDict cat
  | .timestamp, v => v.toDate .timestamp
  | .date, v => v.toDate .date
  | .time, v => v.toDate .time
  | .derived _ base, v => convert cat base v
  | .object, _ => .error (.takesNothing "object()")
  | t, _ => .error (.takesNothing t.name)

/-- What a type makes of nothing. -/
def initial : TypeTag → Except Error Value
  | .bool => .ok (bool false)
  | .int => .ok (int 0)
  | .float => .ok (scalar (.float (.ofInt 0)))
  | .decimal => .ok (scalar (.decimal (.finite false 0 0)))
  | .text => .ok (text "")
  | .bytes => .ok (scalar (.binary false []))
  | .bytearray => .ok (scalar (.binary true []))
  | .list => .ok (list [])
  | .tuple => .ok (tuple [])
  | .set => .ok (sequence .set [])
  | .dict => .ok (dict [])
  | .timestamp | .date => .error (.missingField "year" 1)
  | .time => toDate .time (int 0)
  | .derived _ base => initial base
  | .nothing => .ok none
  | .complex => .ok (complex default)
  | t => .ok (object t)

/-- What is wrong with calling a type with two values. -/
def crowded (first second : Value) : TypeTag → Error
  | .text => .misfit ("str() argument 'encoding' must be str, not " ++ second.typeTag.qualifiedName)
  | .int => .notAnInteger second.typeTag
  | .bytes =>
    .misfit ("bytes() argument 'encoding' must be str, not " ++ second.typeTag.qualifiedName)
  | .bytearray =>
    .misfit ("bytearray() argument 'encoding' must be str, not " ++ second.typeTag.qualifiedName)
  | .decimal => .misfit "optional argument must be a context"
  | .complex => .misfit "complex() can't take second arg if first is a string"
  | .timestamp | .date | .time => .notAnInteger first.typeTag
  | .derived _ base => crowded first second base
  | .object => .takesNothing "object()"
  | .nothing => .takesNothing "NoneType"
  | t => .misfit (t.name ++ " expected at most 1 argument, got 2")

end Value

end SqlCompose
