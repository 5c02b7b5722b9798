import SqlCompose.Dialect.Basic
import SqlCompose.Expr.Display
import SqlCompose.Expr.Precedence
import SqlCompose.Text.Casing

/-!
# Building expressions

The ways to make an expression from values: every value is an expression of some kind, and each
operator of the language has a function here. A comparison with null is a null test, since SQL
compares nothing to null.
-/
namespace SqlCompose

mutual

/-- The expression for a value: a SELECT becomes a subquery, a sequence a list of values, and
whatever is no expression already a literal. -/
def Value.toExpr : Value → Expr
  | .expr e => e
  | .select q => .subquery .none (.select q)
  | .sequence _ items => .apply .none .list "" (Value.toExprs items)
  | v => .literal .none v v.dataKind?

/-- The expressions for values. -/
def Value.toExprs : List Value → List Expr
  | [] => []
  | v :: vs => Value.toExpr v :: Value.toExprs vs

end

/-- The fields that a value adds to a SELECT list: a table adds its columns. -/
def Value.selection (cat : Catalog) (v : Value) : List Expr :=
  match v with
  | .table id => (cat.table id).columns.map ColumnRef.expr
  | v => [v.toExpr]

namespace Expr

/-- The value that an expression is. -/
def value (e : Expr) : Value := .expr e

@[simp] theorem toExpr_value (e : Expr) : e.value.toExpr = e := by
  simp [value, Value.toExpr]

/-- A literal of text. -/
def ofText (s : String) : Expr := .literal .none (.text s) (some .text)

/-- An infix operator between two values. -/
def binary (symbol : String) (left right : Value) : Expr :=
  .apply .none .binary symbol [left.toExpr, right.toExpr]

/-- A call of a function. -/
def call (symbol : String) (arguments : List Value) : Expr :=
  .apply .none .function symbol (Value.toExprs arguments)

/-- A call of an aggregate function; without arguments it counts rows. -/
def aggregate (symbol : String) (arguments : List Value) (distinct : Bool) : Expr :=
  .apply .none (.aggregate distinct) symbol (Value.toExprs arguments)

def isNull (e : Expr) : Expr := .apply .none (.unary true) "IS NULL" [e]

def isNotNull (e : Expr) : Expr := .apply .none (.unary true) "IS NOT NULL" [e]

/-- The comparison operators that test for null when the right side is null. -/
def nullTest? (symbol : String) : Option (Expr → Expr) :=
  if symbol = "=" then some isNull
  else if symbol ∈ ["<>", "!="] then some isNotNull
  else none

/-- A comparison of two values. -/
def compare (symbol : String) (left right : Value) : Except Error Expr :=
  if symbol ∉ comparisonSymbols then .error (.unknownComparison (Text.display symbol))
  else
    match right, nullTest? symbol with
    | .scalar .null, some test => .ok (test left.toExpr)
    | _, _ => .ok (binary symbol left right)

def isIn (e : Expr) (v : Value) : Expr := binary "IN" e.value v

def notIn (e : Expr) (v : Value) : Expr := binary "NOT IN" e.value v

/-- A range test with both bounds. -/
def within (e : Expr) (low high : Value) (negated : Bool) : Expr :=
  .apply .none (.between negated) "" [e, low.toExpr, high.toExpr]

/-- A range test; without an upper bound the lower one has to be a pair of bounds. -/
def between (e : Expr) (low high : Value) : Except Error Expr :=
  match high, low with
  | .scalar .null, .sequence form [a, b] =>
    if form = .set then .error .badRange else .ok (e.within a b false)
  | .scalar .null, _ => .error .badRange
  | _, _ => .ok (e.within low high false)

def negation (v : Value) : Expr := .apply .none .not "NOT" [v.toExpr]

/-- Concatenation from the left. -/
def concat (e : Expr) (others : List Value) : Expr :=
  others.foldl (fun e v => binary "||" e.value v) e

/-- A LIKE test. -/
def like (e : Expr) (needle : Value) (form : LikeForm) : Expr :=
  .apply .none (.like form) "" [e, needle.toExpr]

/-- The form of a LIKE test whose pattern is given as it is. -/
def exactPattern : LikeForm := { fuzzyStart := false, fuzzyEnd := false, escapeNeedle := false }

/-- An EXISTS test. -/
def existence (body : Value) : Expr :=
  .apply .none (.unary false) "EXISTS" [.subquery .none body]

/-- The arguments that a predicate adds to a combination: its own arguments if it is the same
combination without an alias. -/
def flattened (symbol : String) (e : Expr) : List Expr :=
  match e with
  | .apply asName .boolean own arguments =>
    if own = symbol ∧ !asName.truthy then arguments else [e]
  | _ => [e]

/-- AND or OR over predicates. One argument stands for itself. -/
def combine (symbol : String) (predicates : List Value) : Except Error Expr :=
  if predicates.isEmpty then .error (.emptyCombination symbol)
  else
    match (Value.toExprs predicates).flatMap (flattened symbol) with
    | [e] => .ok e
    | arguments => .ok (.apply .none .boolean symbol arguments)

def and (predicates : List Value) : Except Error Expr := combine "AND" predicates

def or (predicates : List Value) : Except Error Expr := combine "OR" predicates

/-- Concatenation as an engine spells it. -/
def concatFor (engine : Engine) (arguments : List Value) : Except Error Expr :=
  match engine.concatenation, arguments with
  | .called, _ => .ok (call "CONCAT" arguments)
  | .infixed, [] => .error .emptyConcat
  | .infixed, first :: others => .ok (first.toExpr.concat others)

/-- The first value that is not null. -/
def coalesce (arguments : List Value) : Except Error Expr :=
  if arguments.isEmpty then .error .emptyCoalesce else .ok (call "COALESCE" arguments)

/-- A part of a text; without a length it goes to the end. -/
def mid (v start length : Value) : Expr :=
  match length with
  | .scalar .null => call "MID" [v, start]
  | _ => call "MID" [v, start, length]

def ascending (e : Expr) : Expr := .order .none e false

def descending (e : Expr) : Expr := .order .none e true

end Expr

end SqlCompose
