import SqlCompose.Expr.Subscript
import SqlCompose.Expr.Operand
import SqlCompose.Expr.Reference

/-!
# Drafted values

A value together with the drafts that a statement may ask of it: what it is as a whole, and what it
is as an operand, where a SELECT stands in parentheses, a sequence is a list of values, and anything
else that is no expression is a literal. The parts that a value falls into when it is gone through
are drafted once they are asked for; those of a value with fields are its fields, each with its name.
-/
namespace SqlCompose

/-- A value with its drafts. -/
inductive Drafted
  | mk (value : Value) (whole operand : Draft) (parts : PUnit.{1} → List Drafted)

namespace Drafted

def value : Drafted → Value
  | mk v .. => v

/-- The draft of a value as a whole. An expression stands without its alias. -/
def whole : Drafted → Draft
  | mk _ w .. => w

/-- The draft of a value as an operand. -/
def operand : Drafted → Draft
  | mk _ _ o _ => o

def parts : Drafted → List Drafted
  | mk _ _ _ ps => ps ()

/-- A value as an operand, given its draft as a whole and its drafted parts. -/
def operandDraft (v : Value) (whole : Draft) (parts : PUnit.{1} → List Drafted) : Draft :=
  match v with
  | .expr _ => whole
  | .select _ => whole.parenthesized
  | .sequence .. => Operator.listDraft ((parts ()).map operand)
  | v => .literal v

/-- A value with its draft as a whole and its drafted parts. -/
def of (v : Value) (whole : Draft) (parts : PUnit.{1} → List Drafted) : Drafted :=
  mk v whole (operandDraft v whole parts) parts

@[simp] theorem value_of (v : Value) (whole : Draft) (parts : PUnit.{1} → List Drafted) :
    (of v whole parts).value = v := rfl

@[simp] theorem whole_of (v : Value) (whole : Draft) (parts : PUnit.{1} → List Drafted) :
    (of v whole parts).whole = whole := rfl

/-- A value that is nothing as a whole. -/
def unbuilt (v : Value) (parts : PUnit.{1} → List Drafted) : Drafted :=
  of v (.member v "build") parts

/-- The part of a text or of binary data. A character is its own only part. -/
def ofPart (v : Value) : Drafted :=
  unbuilt v fun _ => (v.parts?.getD []).map fun part => unbuilt part fun _ => []

/-- A scalar. A text falls into its characters. -/
def ofScalar (s : Scalar) : Drafted :=
  unbuilt (.scalar s) fun _ => ((Value.scalar s).parts?.getD []).map ofPart

/-- A value that the catalog holds. -/
def ofHeld (cat : Catalog) (v : Value) : Drafted :=
  match v with
  | .scalar s => ofScalar s
  | .expr (.column asName id) => of (.expr (.column asName id)) (columnDraft cat id) fun _ => []
  | v => unbuilt v fun _ => []

/-- A value that the catalog holds, or a row of such values. -/
def ofHeldRow (cat : Catalog) (v : Value) : Drafted :=
  match v with
  | .sequence .tuple vs => unbuilt (.sequence .tuple vs) fun _ => vs.map (ofHeld cat)
  | v => ofHeld cat v

/-- A field as a pair of its name and what it holds. -/
def ofField (name : String) (x : Drafted) : Drafted :=
  unbuilt (.tuple [.text name, x.value]) fun _ => [ofScalar (.text name), x]

/-- The fields of a value, under their names. -/
def ofFields (names : List String) (fields : List Drafted) : List Drafted :=
  names.zipWith ofField fields

/-- The fields of a value that the catalog holds. -/
def heldFields (cat : Catalog) (v : Value) : List Drafted :=
  (v.namedFields cat).map fun (name, w) => ofField name (ofHeldRow cat w)

/-- The fields of a statement. What a copy was given under other names follows its clauses. -/
def statementFields (names : List String) (clauses : List Drafted)
    (extras : List (String × Drafted)) : List Drafted :=
  let visible := extras.filter fun (name, _) => !Value.isHidden name
  ofFields names clauses ++ visible.map fun (name, x) => ofField name x

/-- A statement. What a copy was given to be built with goes before what the statement is. -/
def ofStatement (v : Value) (whole : Draft) (fields : PUnit.{1} → List Drafted) : Drafted :=
  of v (((v.extras.lookup "build").map Draft.applied).getD whole) fields

/-- The parts of a value that can be gone through one by one. -/
def items (x : Drafted) : Except Error (List Drafted) :=
  if x.value.parts?.isSome || x.value.hasFields then .ok x.parts
  else .error (.notIterable x.value.typeTag)

/-- The two parts of a pair. -/
def pair (x : Drafted) : Except Error (Drafted × Drafted) :=
  match x.items with
  | .ok [a, b] => .ok (a, b)
  | .ok (_ :: _ :: _) => .error (.tooManyValues 2)
  | .ok parts => .error (.tooFewValues 2 parts.length)
  | .error _ => .error (.notUnpackable x.value.typeTag)

/-- A value without its alias; it has to be an expression. -/
def reference (x : Drafted) : Draft :=
  match x.value with
  | .expr _ => x.whole
  | v => .member v "build_reference"

/-- A value with its alias, as in a SELECT list; it has to be an expression. -/
def selected (x : Drafted) : Draft :=
  match x.value with
  | .expr e => x.whole.named e.asName
  | v => .member v "build_selected"

/-- A value that makes up a clause. A column shows its alias there. -/
def built (x : Drafted) : Draft :=
  match x.value with
  | .expr (.column asName _) => x.whole.named asName
  | _ => x.whole

/-- A value as a source. An expression is a source only under an alias. -/
def source (x : Drafted) : Draft :=
  match x.value with
  | .expr e => if e.isNamed then x.whole.named e.asName else .fail .unaliasedSource
  | _ => x.built

/-- The parts of a value, each drafted in the same way, with commas between them. -/
def listed (f : Drafted → Draft) (x : Drafted) : Draft :=
  .given x.items fun parts => .commaSeparated (parts.map f)

/-- A clause of one value, if it is there. -/
def clause (keyword : String) (x : Drafted) : Draft :=
  if x.value.isNone then .empty else Draft.keyword .between keyword + x.built

/-- An operand as an operator sees it. -/
def asOperand (x : Drafted) : Operand :=
  match x.value with
  | .expr e => { level := e.level, symbol := e.symbol, text := e.text?, draft := x.whole }
  | _ => { level := .atom, symbol := "", text := none, draft := x.whole }

end Drafted

end SqlCompose
