import SqlCompose.Expr.Basic

/-!
# Identities of objects

What makes an object this one and no other. Columns and tables have an identity in the catalog, and
a few small values are the same object wherever they occur; so are a context and its parameters.
Everything else is told apart by the call that made it, or by the object that it is a part of. No
call has the number zero.
-/
namespace SqlCompose

/-- What tells an object apart. -/
inductive Identity
  /-- A small value that is one object wherever it occurs. -/
  | scalar (s : Scalar)
  | kind (k : DataKind)
  | type (t : TypeTag)
  | emptyTuple
  | column (id : ColumnId)
  | table (id : TableId)
  /-- A word of the library's own, which is the same wherever the library says it. -/
  | word (s : String)
  /-- Something that belongs to all dialects of an engine. -/
  | engine (e : Engine)
  /-- The object that a call made. -/
  | made (number : Nat)
  /-- What a part of an object holds. -/
  | part (whole : Identity) (name : String)
deriving DecidableEq, Inhabited

/-- Whether a scalar is one object wherever it occurs: nothing, a yes or no, a small whole number,
and text or binary data of at most one character or byte. -/
def Scalar.isShared : Scalar → Bool
  | null | bool _ => true
  | int n => decide (-5 ≤ n ∧ n ≤ 256)
  | text s => s.toList.length ≤ 1 && s.toList.all fun c => decide (c.toNat < 256)
  | binary false bytes => bytes.length ≤ 1
  | _ => false

/-- The identity of a value that is one object wherever it occurs. -/
def Value.identity? : Value → Option Identity
  | scalar s => if s.isShared then some (.scalar s) else Option.none
  | kind k => some (.kind k)
  | type t => some (.type t)
  | sequence .tuple [] => some .emptyTuple
  | expr (.column _ id) => some (.column id)
  | table id => some (.table id)
  | sequence (.bound n) _ => some (.part (.made n) "parameters")
  | context _ n _ => if n = 0 then Option.none else some (.made n)
  | _ => Option.none

end SqlCompose
