import SqlCompose.Expr.Attribute
import SqlCompose.Expr.TypeOf

/-!
# Where methods are declared

A method that is shown goes by the type that declares it, which is not always the type of the value
that has it: most methods of expressions are declared for all of them, and an engine declares only
what it does in its own way.
-/
namespace SqlCompose

/-- The methods that an engine does not share with all others. -/
def Engine.ownMethods : Engine → List String
  | generic => []
  | sqlite => ["function_sql", "limit_clause"]
  | mysql => ["limit_clause", "pack_string"]
  | postgresql => ["pack_bytes"]
  | sqlserver => ["limit_clause", "pack_bytes"]

namespace Value

/-- The methods of values with fields that belong to their type. -/
def typeMethods : List String :=
  ["construct", "from_orm", "model_construct", "model_json_schema", "model_parametrized_name",
    "model_rebuild", "model_validate", "model_validate_json", "model_validate_strings",
    "parse_file", "parse_obj", "parse_raw", "schema", "schema_json", "update_forward_refs",
    "validate"]

/-- The methods that all expressions share. A column has ways of its own to be built. -/
def isSharedMethod (e : Expr) (name : String) : Bool :=
  match e, name with
  | .column .., "build_reference" | .column .., "create" => false
  | _, "build" | _, "build_index" => false
  | _, _ => true

/-- The methods that all statements share. -/
def isStatementMethod (name : String) : Bool := ["clone_query_with", "compile"].contains name

/-- The methods that all statements with conditions share. -/
def isFilterMethod (name : String) : Bool := ["where", "filter"].contains name

/-- The name of the type that declares a method of a value. -/
def declarer (v : Value) (name : String) : String :=
  if modelMethods.contains name then "BaseModel"
  else
    match v with
    | expr e => if isSharedMethod e name then "Expression" else e.typeTag.name
    | dialect d => if d.engine.ownMethods.contains name then d.engine.typeTag.name else "Dialect"
    | v =>
      if v.isStatement && isStatementMethod name then "Statement"
      else if v.isStatement && isFilterMethod name then "_Filterable"
      else v.typeTag.name

/-- A method of a value by its full name. -/
def methodName (v : Value) (name : String) : String := v.declarer name ++ "." ++ name

end Value

end SqlCompose
