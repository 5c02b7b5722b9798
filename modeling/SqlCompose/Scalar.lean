import SqlCompose.Calendar
import SqlCompose.Error
import SqlCompose.Number.Decimal
import SqlCompose.Number.FloatText

/-!
# Scalars

The values that SQL has literals for, and nothing else. Only scalars are ever bound to a placeholder
or written into a statement.
-/
namespace SqlCompose

/-- A value with a literal form. Binary data may come from a mutable buffer. -/
inductive Scalar
  | null
  | bool (b : Bool)
  | int (n : Int)
  | float (x : Number.Binary64)
  | decimal (x : Number.Decimal)
  | text (s : String)
  | date (d : Date)
  | time (t : TimeOfDay)
  | timestamp (t : Timestamp)
  | binary (mutable : Bool) (bytes : List UInt8)
deriving DecidableEq, Inhabited

namespace Scalar

def typeTag : Scalar → TypeTag
  | null => .nothing
  | bool _ => .bool
  | int _ => .int
  | float _ => .float
  | decimal _ => .decimal
  | text _ => .text
  | date _ => .date
  | time _ => .time
  | timestamp _ => .timestamp
  | binary mutable _ => if mutable then .bytearray else .bytes

/-- The kind of a scalar; null has none. -/
def kind? (s : Scalar) : Option DataKind := DataKind.ofType? s.typeTag

/-- Whether a scalar counts as true where a yes or no is asked for: zero and empty ones do not. -/
def truthy : Scalar → Bool
  | null => false
  | bool b => b
  | int n => n != 0
  | float x => !x.isZero
  | decimal x => !x.isZero
  | text s => !s.isEmpty
  | binary _ bytes => !bytes.isEmpty
  | _ => true

/-- How many digits a whole number has that is written out. -/
def largestWritten : Nat := 4300

/-- The text of a whole number, which may not have too many digits. -/
def wholeText (n : Int) : Except Error String :=
  if n.natAbs < Nat.pow 10 largestWritten then .ok (toString n) else .error .tooManyDigits

/-- How messages show a yes or no. -/
def displayBool (b : Bool) : String := if b then "True" else "False"

/-- How messages show binary data. -/
def displayBinary (mutable : Bool) (bytes : List UInt8) : String :=
  let shown := Text.displayBytes mutable bytes
  if mutable then "bytearray(" ++ shown ++ ")" else shown

/-- How messages show a scalar. -/
def display : Scalar → Except Error String
  | null => .ok "None"
  | bool b => .ok (displayBool b)
  | int n => wholeText n
  | float x => .ok x.text
  | decimal x => .ok ("Decimal('" ++ x.text ++ "')")
  | text s => .ok (Text.display s)
  | date d => .ok d.display
  | time t => .ok t.display
  | timestamp t => .ok t.display
  | binary mutable bytes => .ok (displayBinary mutable bytes)

/-- The bare text of a scalar, as it stands inside a sentence. -/
def label : Scalar → Except Error String
  | decimal x => .ok x.text
  | text s => .ok s
  | date d => .ok d.text
  | time t => .ok t.text
  | timestamp t => .ok (t.text " ")
  | s => s.display

end Scalar

end SqlCompose
