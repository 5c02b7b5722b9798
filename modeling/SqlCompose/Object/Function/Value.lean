import SqlCompose.Object.Function.Language
import SqlCompose.Object.Part

/-!
# Functions of expressions and values

Making expressions and looking through them, and what a dialect makes of single values.
-/
namespace SqlCompose.Function

/-- A yes or no as an object. -/
def answer (b : Bool) : Action Object := return .bool b

mutual

/-- An expression and all that are anywhere in it, as objects. -/
def below (cat : Catalog) : Expr → Object → List Object
  | .apply _ _ _ arguments, o =>
    o :: belowAll cat arguments (((o.field? cat "arguments").map Object.items).getD [])
  | .order _ inner _, o => o :: below cat inner ((o.field? cat "expression").getD .none)
  | .group _ inner, o => o :: below cat inner ((o.field? cat "inner").getD .none)
  | _, o => [o]

def belowAll (cat : Catalog) : List Expr → List Object → List Object
  | e :: es, o :: os => below cat e o ++ belowAll cat es os
  | _, _ => []

end

/-- The expressions that are anywhere in an object. -/
def walked (o : Object) : Action Object := do
  let cat ← Workspace.catalog
  Workspace.sequence .list ((o.value.expr?.map fun e => below cat e o).getD [])

/-- An object that SQL has a literal for. -/
def checked (o : Object) : Action Object := do
  discard (Workspace.lift (o.value.toScalar (← Workspace.catalog)))
  return o

/-- The length of an object. -/
def length (o : Object) : Action Object :=
  match o.value.length with
  | .ok n => Workspace.make (.int n)
  | .error _ => throw .badCall

/-- The text by which messages show an object. -/
def display (o : Object) : Action Object := do
  let cat ← Workspace.catalog
  match o.value with
  | .builder d =>
    let name ← Workspace.lift (do (← d.get cat "name").label cat)
    Workspace.text ("QueryBuilder(" ++ name ++ ")")
  | v => Workspace.text (← Workspace.lift (v.display cat))

/-- The type that a dialect gives to columns that count up. -/
def countingType (a : Arguments) : Action Object := do
  let cat ← Workspace.catalog
  let dialect := a.value "dialect"
  let some rule := dialect.held? cat "create_auto_increment"
    | throw (Part.missing cat dialect "create_auto_increment")
  let v ← Workspace.lift (Workspace.called cat rule [a.value "type_keyword"] [])
  match rule, v with
  | .rule .rowid, v => Workspace.rewritten (a.get "type_keyword") v
  | .rule .serial, .scalar (.text s) => return .word s
  | _, v => Workspace.make v

/-- A procedure of one argument that has no name. -/
def unnamed (run : Object → Action Object) : Procedure :=
  ⟨{ names := ["of"], required := 1, unnamed := 1 }, fun a => run (a.get "of")⟩

/-- The functions of expressions and values, by name. -/
def value? (name : String) : Option Procedure :=
  match name with
  | "as_expression" => some (.exact ["value"] fun a => Workspace.asExpr (a.get "value"))
  | "group" => some (.exact ["inner"] fun a => do
      let inner ← Workspace.asExpr (a.get "inner")
      Workspace.makeWith (.expr (.group .none (a.value "inner").toExpr)) [("inner", inner)])
  | "raw" => some (.exact ["text"] fun a => do
      let e := .raw .none (← textArgument a "text")
      Workspace.makeWith (.expr e) [("text", a.get "text")])
  | "is_aggregate" =>
    some (.exact ["expression"] fun a => answer (a.value "expression").isAggregate)
  | "walk_expressions" => some (.exact ["expr"] fun a => walked (a.get "expr"))
  | "collect_columns" => some (.variadic [] fun a =>
      Workspace.exprs ((collectColumns a.moreValues).map ColumnRef.expr))
  | "collect_tables" => some (.variadic [] fun a => do
      Workspace.make (.list ((collectTables (← Workspace.catalog) a.moreValues).map .table)))
  | "escape_for_like" => some (.rewriting ["s"] fun cat a => escapeLikeAny cat (a.value "s"))
  | "pack_name" => some (.rewriting ["name", "dialect"] fun cat a =>
      quoteFor cat (a.value "dialect") (a.value "name"))
  | "pack_type" => some (.making ["value", "dialect"] fun cat a =>
      packFor cat (a.value "dialect") (a.value "value"))
  | "check_value_kind" => some (.exact ["value"] fun a => checked (a.get "value"))
  | "of_type" => some (.making ["type"] fun cat a =>
      (DataKind.ofGivenType cat (a.value "type")).map .kind)
  | "of_value" => some (.making ["value"] fun _ a =>
      .ok (.ofOption .kind (a.value "value").dataKind?))
  | "display" => some (unnamed display)
  | "length" => some (unnamed length)
  | "auto_increment" => some (.exact ["dialect", "type_keyword"] countingType)
  | _ => none

end SqlCompose.Function
