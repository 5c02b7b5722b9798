import SqlCompose.Identity
import SqlCompose.Number.Exact

/-!
# Keys

What tells keys apart. Numbers are the same key when they are equal, whatever their type, and times
with offsets when they name the same instant; texts and kinds are what they say; tuples go by their
items, types by what they are made of, and everything else by identity. A value that does not equal
itself goes by identity too.
-/
namespace SqlCompose

/-- A piece of a key. -/
inductive Atom
  | nothing
  | number (n : Number.Exact)
  | infinity (negative : Bool)
  | text (s : String)
  | bytes (bytes : List UInt8)
  | date (d : Date)
  | time (t : TimeOfDay)
  | timeInstant (microseconds : Int)
  | timestamp (t : Timestamp)
  | instant (microseconds : Int)
  | span (s : Span)
  /-- A complex number that is not real, whose parts follow. -/
  | complex
  | kind (k : DataKind)
  | type (t : TypeTag)
  /-- A type made special for so many types of its parts, which follow. -/
  | generic (origin : TypeTag) (size : Nat)
  /-- A choice between so many types, which follow. -/
  | union (size : Nat)
  /-- A tuple, whose items follow. -/
  | tuple (size : Nat)
  /-- A method of what follows. -/
  | method (name : String)
  | object (identity : Identity)
deriving DecidableEq, Inhabited

/-- A key as the row of its pieces. -/
abbrev Key := List Atom

/-- The key that a text is. -/
def Key.ofText (s : String) : Key := [.text s]

/-- What a binary number equals. -/
def Number.Binary64.atom? (x : Number.Binary64) : Option Atom :=
  if x.isFinite then some (.number x.exact)
  else if x.isInfinite then some (.infinity x.negative)
  else none

/-- What a complex number equals. A real one equals its real part. -/
def Number.Complex.key? (z : Number.Complex) : Option Key := do
  let re ← z.re.atom?
  if z.im.isZero then return [re] else return [.complex, re, ← z.im.atom?]

namespace Scalar

/-- What a scalar equals; a value that does not equal itself equals nothing. -/
def atom? : Scalar → Option Atom
  | null => some .nothing
  | bool b => some (.number (.ofInt (if b then 1 else 0)))
  | int n => some (.number (.ofInt n))
  | float x => x.atom?
  | decimal (.infinity negative) => some (.infinity negative)
  | decimal x => x.exact?.map .number
  | text s => some (.text s)
  | binary _ bytes => some (.bytes bytes)
  | date d => some (.date d)
  | time t => some (t.instant?.elim (.time t) .timeInstant)
  | timestamp t => some (t.instant?.elim (.timestamp t) .instant)

/-- Whether two scalars are equal. -/
def equal (a b : Scalar) : Bool := a.atom?.isSome && a.atom? == b.atom?

theorem equal_comm (a b : Scalar) : a.equal b = b.equal a := by
  unfold equal
  cases a.atom? <;> cases b.atom? <;> simp [Bool.beq_comm]

/-- Whether a scalar is a number that refuses to be compared with any other. -/
def isSignaling : Scalar → Bool
  | decimal (.notANumber _ signaling _) => signaling
  | _ => false

/-- Whether a scalar is a number. -/
def isNumber : Scalar → Bool
  | bool _ | int _ | float _ | decimal _ => true
  | _ => false

end Scalar

namespace Value

/-- Whether a value is a number that refuses to be compared with any other. -/
def isSignaling : Value → Bool
  | scalar s => s.isSignaling
  | _ => false

/-- Whether a value is a real number. -/
def isReal : Value → Bool
  | scalar s => s.isNumber
  | complex z => z.im.isZero
  | _ => false

/-- What a value without parts equals; a value that does not equal itself equals nothing. -/
def plainKey? : Value → Option Key
  | scalar s => s.atom?.map fun a => [a]
  | complex z => z.key?
  | span s => some [.span s]
  | kind k => some [.kind k]
  | type t => some [.type t]
  | _ => Option.none

/-- Whether two values without parts are equal. A number that refuses to be compared does so with
all numbers. -/
def equalPlain (a b : Value) : Except Error Bool :=
  if (a.isSignaling && b.isReal) || (a.isReal && b.isSignaling) then .error .badNumber
  else .ok (a.plainKey?.isSome && a.plainKey? == b.plainKey?)

theorem equalPlain_comm (a b : Value) : a.equalPlain b = b.equalPlain a := by
  have h : (a.plainKey?.isSome && a.plainKey? == b.plainKey?)
      = (b.plainKey?.isSome && b.plainKey? == a.plainKey?) := by
    cases a.plainKey? <;> cases b.plainKey? <;> simp [Bool.beq_comm]
  rw [equalPlain, equalPlain, h, Bool.and_comm, Bool.or_comm, Bool.and_comm b.isSignaling]

/-- The place of a type among the members of a choice. -/
def memberName (key : Key) : String :=
  match key with
  | .type t :: _ | .generic t _ :: _ => t.fullName
  | _ => ""

mutual

/-- What a type equals. The members of a choice are put in an order of their own. -/
def typeKey : Value → Key
  | generic t parts => .generic t parts.length :: (typeKeys parts).flatten
  | union members =>
    .union members.length
      :: ((typeKeys members).mergeSort fun a b => memberName a ≤ memberName b).flatten
  | sequence _ items => .tuple items.length :: (typeKeys items).flatten
  | v => v.plainKey?.getD []

def typeKeys : List Value → List Key
  | [] => []
  | v :: vs => typeKey v :: typeKeys vs

end

end Value

end SqlCompose
