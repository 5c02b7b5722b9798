import SqlCompose.Object.Field
import SqlCompose.Object.Procedure

/-!
# Predicates

Comparisons, tests and their combinations as functions of any values.
-/
namespace SqlCompose.Function

/-- A comparison of two objects. -/
def compareObjects (symbol : String) (left right : Object) : Action Object := do
  match ← Workspace.lift (Expr.compare symbol left.value right.value) with
  | .apply asName .binary symbol arguments =>
    Workspace.applied (.apply asName .binary symbol arguments) [left, right]
  | e => Workspace.applied e [left]

/-- A comparison by a fixed operator. -/
def compare (symbol : String) : Procedure :=
  .exact ["left", "right"] fun a => compareObjects symbol (a.get "left") (a.get "right")

/-- Checks that a value can be looked up among the operators. -/
def checkSymbol : Value → Except Error Unit
  | .sequence .set _ => .ok ()
  | v => v.checkHashable

/-- A comparison by an operator that is given as well. -/
def compareBy (a : Arguments) : Action Object := do
  let cat ← Workspace.catalog
  let symbol := a.value "symbol"
  Workspace.lift (checkSymbol symbol)
  match symbol with
  | .scalar (.text symbol) => compareObjects symbol (a.get "left") (a.get "right")
  | v => throw (.unknownComparison (← Workspace.lift (v.display cat)))

/-- A LIKE test with a pattern that is taken as it is. -/
def like (e : Expr) (o pattern : Object) (escape : Value) (negated : Bool) : Action Object := do
  let escape ← Workspace.lift (Field.optionalText (some escape))
  Workspace.applied (e.like pattern.value { Expr.exactPattern with escape, negated }) [o, pattern]

/-- A LIKE test of any value. -/
def likeOf (negated : Bool) : Procedure :=
  .optional ["left", "pattern"] ["escape"] fun a => do
    let left := a.get "left"
    like left.value.toExpr left (a.get "pattern") (a.value "escape") negated

/-- A test of whether a value is among others. -/
def membership (test : Expr → Value → Expr) : Procedure :=
  .exact ["left", "values"] fun a =>
    Workspace.applied (test (a.value "left").toExpr (a.value "values"))
      [a.get "left", a.get "values"]

/-- A range test of an expression. -/
def within (e : Expr) (o low high : Object) : Action Object := do
  let e ← Workspace.lift (e.between low.value high.value)
  if high.value.isNone then Workspace.applied e (o :: low.items)
  else Workspace.applied e [o, low, high]

/-- A test for null. -/
def nullTest (test : Expr → Expr) : Procedure :=
  .exact ["value"] fun a => Workspace.applied (test (a.value "value").toExpr) [a.get "value"]

/-- The predicates, by name. -/
def predicate? (name : String) : Option Procedure :=
  match name with
  | "and_" => some (.variadic [] fun a => Workspace.combine "AND" a.more)
  | "or_" => some (.variadic [] fun a => Workspace.combine "OR" a.more)
  | "not_" => some (.exact ["predicate"] fun a =>
      Workspace.applied (Expr.negation (a.value "predicate")) [a.get "predicate"])
  | "compare" => some (.exact ["symbol", "left", "right"] compareBy)
  | "eq" => some (compare "=")
  | "ne" => some (compare "<>")
  | "lt" => some (compare "<")
  | "le" => some (compare "<=")
  | "gt" => some (compare ">")
  | "ge" => some (compare ">=")
  | "between" => some (.exact ["value", "low", "high"] fun a =>
      within (a.value "value").toExpr (a.get "value") (a.get "low") (a.get "high"))
  | "exists" => some (.exact ["query"] fun a =>
      Workspace.expr (Expr.existence (a.value "query")))
  | "in_" => some (membership Expr.isIn)
  | "not_in" => some (membership Expr.notIn)
  | "is_null" => some (nullTest Expr.isNull)
  | "is_not_null" => some (nullTest Expr.isNotNull)
  | "like" => some (likeOf false)
  | "not_like" => some (likeOf true)
  | _ => none

end SqlCompose.Function
