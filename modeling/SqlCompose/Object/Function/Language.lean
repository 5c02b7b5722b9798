import SqlCompose.Object.Field
import SqlCompose.Object.Procedure

/-!
# Functions of the language

Aggregate functions and functions of single values, by the names that callers use for them.
-/
namespace SqlCompose.Function

/-- An argument as a text. -/
def textArgument (a : Arguments) (name : String) : Action String :=
  Workspace.lift (Field.text none (some (a.value name)))

/-- An aggregate function of one value. -/
def aggregate (symbol : String) (distinct : Bool) : Procedure :=
  .exact ["value"] fun a =>
    Workspace.applied (Expr.aggregate symbol [a.value "value"] distinct) [a.get "value"]

/-- A function of one value. -/
def call (symbol : String) : Procedure :=
  .exact ["value"] fun a =>
    Workspace.applied (Expr.call symbol [a.value "value"]) [a.get "value"]

/-- The number of rows, or of the rows where a value is not null. -/
def count (a : Arguments) : Action Object :=
  if (a.value "value").isNone then Workspace.expr (Expr.aggregate "COUNT" [] false)
  else Workspace.applied (Expr.aggregate "COUNT" [a.value "value"] false) [a.get "value"]

/-- Concatenation from the left. One text alone stands for itself. -/
def concat (first : Object) (others : List Object) : Action Object := do
  others.foldlM (fun joined o => Workspace.applied (.binary "||" joined.value o.value) [joined, o])
    (← Workspace.asExpr first)

/-- A part of a text. -/
def mid (a : Arguments) : Action Object :=
  let arguments := [a.get "value", a.get "start"]
    ++ (if (a.value "length").isNone then [] else [a.get "length"])
  Workspace.applied (Expr.mid (a.value "value") (a.value "start") (a.value "length")) arguments

/-- A number rounded to some decimals. -/
def round (a : Arguments) : Action Object := do
  let decimals := (a.get? "decimals").getD (Object.ofValue default (.int 0))
  Workspace.applied (Expr.call "ROUND" [a.value "value", decimals.value]) [a.get "value", decimals]

/-- The functions of the language, by name. -/
def language? (name : String) : Option Procedure :=
  match name with
  | "avg" => some (aggregate "AVG" false)
  | "sum_" => some (aggregate "SUM" false)
  | "min_" => some (aggregate "MIN" false)
  | "max_" => some (aggregate "MAX" false)
  | "first" => some (aggregate "FIRST" false)
  | "last" => some (aggregate "LAST" false)
  | "count_distinct" => some (aggregate "COUNT" true)
  | "count" => some (.optional [] ["value"] count)
  | "coalesce" => some (.variadic [] fun a => do
      Workspace.applied (← Workspace.lift (Expr.coalesce a.moreValues)) a.more)
  | "concat" => some (.variadic ["first"] fun a => concat (a.get "first") a.more)
  | "function" => some (.variadic ["symbol"] fun a => do
      let e ← Workspace.applied (Expr.call (← textArgument a "symbol") a.moreValues) a.more
      return e.holding [("symbol", a.get "symbol")])
  | "lcase" => some (call "LCASE")
  | "ucase" => some (call "UCASE")
  | "len_" => some (call "LEN")
  | "mid" => some (.optional ["value", "start"] ["length"] mid)
  | "now" => some (.exact [] fun _ => Workspace.expr (Expr.call "NOW" []))
  | "round_" => some (.optional ["value"] ["decimals"] round)
  | _ => none

end SqlCompose.Function
