import SqlCompose.Expr.Walk
import SqlCompose.Object.Workspace

/-!
# Parts of objects

What can be read off an object by name: its fields, and what follows from them. A table has its
columns as parts beside its own; a name that starts with an underscore is never a column.
-/
namespace SqlCompose.Part

/-- A kind as an object, if there is one. -/
def kind (k : Option DataKind) : Value := .ofOption .kind k

/-- A term that orders by an expression. -/
def order (o : Object) (e : Expr) : Action Object :=
  Workspace.makeWith (.expr e) [("expression", o)]

/-- An argument of an operator by its place. -/
def argument (o : Object) (place : Nat) : Action Object := do
  match (← Workspace.field o "arguments").items[place]? with
  | some argument => return argument
  | none => throw (.indexOutOfRange .tuple)

/-- What follows from an expression. -/
def ofExpr? (cat : Catalog) (o : Object) (e : Expr) (name : String) : Option (Action Object) :=
  match name, e with
  | "asc", _ => some (order o e.ascending)
  | "desc", _ => some (order o e.descending)
  | "data_kind", _ => some do Workspace.make (kind (← Workspace.lift (e.dataKind cat)))
  | "precedence", _ => some (Workspace.make (.int e.level.rank))
  | "symbol_or_none", .apply .. => some (Workspace.field o "symbol")
  | "symbol_or_none", _ => some (return .none)
  | "operand_kinds", .apply _ .binary _ arguments => some do
    let (left, right) ← Workspace.lift (operandKinds cat arguments)
    Workspace.make (.tuple [kind left, kind right])
  | "left", .apply _ .binary _ _ => some (argument o 0)
  | "right", .apply _ .binary _ _ => some (argument o 1)
  | "table", .column _ id => some (Workspace.make (.ofOption .table (cat.owner id)))
  | _, _ => none

/-- What a table tells about its type, its fields and what it was given. -/
def ofModel? (o : Object) (name : String) (fields : List String) : Option (Action Object) :=
  let shared := fun (v : Value) => some do
    return Object.ofValue (.part (.type o.value.typeTag) name) v
  match name with
  | "model_config" => shared <| .dict
      [(.text "frozen", .bool true), (.text "arbitrary_types_allowed", .bool true)]
  | "model_fields" => shared <| .dict
      (fields.map fun field => (.text field, .object (.plain "FieldInfo")))
  | "model_computed_fields" => shared (.dict [])
  | "model_extra" => some (return .none)
  | "model_fields_set" =>
    let given := fields.filter fun field =>
      field = "name" ∨ field = "columns" ∨ (o.fields.lookup field).isSome
    some (return Object.ofValue (.part o.identity name) (.sequence .set (given.map .text)))
  | _ => none

/-- What follows from a table, and its columns. -/
def ofTable? (cat : Catalog) (o : Object) (id : TableId) (name : String) :
    Option (Action Object) :=
  match name with
  | "name_in_query" =>
    let isNamed := (cat.table id).asName.any (· ≠ "")
    some (Workspace.field o (if isNamed then "alias" else "name"))
  | "column_names" => some do
    let columns := (cat.table id).columns.map fun r => Object.ofValue default (.expr r.expr)
    Workspace.sequence .tuple (← columns.mapM fun c => do
      Workspace.field (← Workspace.current c) "name")
  | name =>
    if name.toList.head? = some '_' then none
    else
      match ofModel? o name ((o.value.declaredFields cat).map (·.1)) with
      | some part => part
      | none => (cat.find? id name).map fun r => Workspace.expr r.expr

/-- The parts of what a compilation yields. -/
def ofCompiled? (o : Object) (name : String) : Option (Action Object) :=
  match name, o.items with
  | "sql", [sql, _] => some (return sql)
  | "parameters", [_, parameters] => some (return parameters)
  | "named_parameters", [_, parameters] => some do
    let values ← Workspace.lift (parameters.value.items (← Workspace.catalog))
    let held := if parameters.items.length = values.length then parameters.items
      else Object.ofValues parameters.identity 0 values
    let names := (Compiled.named values).map fun (name, _) => Object.ofValue default (.text name)
    return Object.dict (← Workspace.fresh) (names.zip held)
  | _, _ => none

/-- The names for what a statement compiles to. -/
def compiledNames : List String := ["sql", "parameters"]

/-- What a statement compiles to for the default dialect. -/
def ofStatement? (o : Object) (name : String) : Option (Action Object) :=
  if compiledNames.contains name then
    some do
      let cat ← Workspace.catalog
      match o.extra? "compile" with
      | some f =>
        let compiled ← Workspace.lift (f.value.apply cat [])
        Workspace.make (← Workspace.lift (compiled.get cat name))
      | none =>
        let compiled ← Workspace.compile (← Workspace.dialectOr .none) o
        (ofCompiled? compiled name).getD (throw .hiddenAttribute)
  else none

/-- What all dialects of an engine have in common. -/
def ofEngine? (e : Engine) (name : String) : Option Object :=
  match name with
  | "name" => some (.word e.name)
  | "SUPPORTED_SCHEMA" =>
    some (.sequence (.part (.engine e) name) .tuple (e.schemes.map Object.word))
  | "SUPPORTS_RETURNING" => some (.bool e.supportsReturning)
  | "EMPTY_INSERT" => some (.word e.emptyInsert)
  | "LIKE_ESCAPE_CLAUSE" => some (.word ((e.likeEscape?.map (" ESCAPE " ++ ·)).getD ""))
  | "AUTO_INCREMENT_REQUIRES_PRIMARY_KEY" => some (.bool e.autoIncrementRequiresPrimaryKey)
  | _ => none

/-- What follows from a dialect. -/
def ofDialect? (d : Dialect) (name : String) : Option (Action Object) :=
  if name = "f" then some (Workspace.make (.helpers d.engine))
  else (ofEngine? d.engine name).map pure

/-- What follows from an object beside its fields. -/
def derived? (cat : Catalog) (o : Object) (name : String) : Option (Action Object) :=
  match o.value with
  | .expr e => ofExpr? cat o e name
  | .table id => ofTable? cat o id name
  | .dialect d => ofDialect? d name
  | .sequence .compiled _ => ofCompiled? o name
  | .kind k =>
    match name with
    | "name" => some (return .word k.name)
    | "value" => some (return .word k.value)
    | _ => none
  | .builder d =>
    if name = "dialect" then
      some (return (o.fields.lookup name).getD (Object.ofValue (.part o.identity name) d))
    else none
  | v => if v.isStatement then ofStatement? o name else none

/-- The part of an object that has a name, if there is one. -/
def find? (cat : Catalog) (o : Object) (name : String) : Option (Action Object) :=
  if o.value.isStatement && compiledNames.contains name then ofStatement? o name
  else
    match o.field? cat name with
    | some held => some (return held)
    | none => derived? cat o name

/-- What is missing when an object has no part of a given name. Only tables and the functions of an
engine say so. -/
def missing (cat : Catalog) (v : Value) (name : String) : Error :=
  match v with
  | .table _ | .helpers _ => v.lacks cat name
  | _ => .hiddenAttribute

end SqlCompose.Part
