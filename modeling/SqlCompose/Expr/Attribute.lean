import SqlCompose.Expr.Fields

/-!
# Parts of values by name

What a value holds under a name. A table has its columns under their names, and a copy of a
statement whatever it was given; what a value lacks is an error that says so.
-/
namespace SqlCompose

namespace Value

/-- The methods of every value with fields, which hide columns of their names. -/
def modelMethods : List String :=
  ["construct", "copy", "dict", "from_orm", "json", "model_construct", "model_copy", "model_dump",
    "model_dump_json", "model_json_schema", "model_parametrized_name", "model_post_init",
    "model_rebuild", "model_validate", "model_validate_json", "model_validate_strings",
    "parse_file", "parse_obj", "parse_raw", "schema", "schema_json", "update_forward_refs",
    "validate"]

/-- The methods of a table, which hide columns of their names too. -/
def tableMethods : List String := ["as_", "build", "create", "drop"]

/-- The column of a table under a name that is no other name of the table. -/
def columnUnder? (cat : Catalog) (id : TableId) (name : String) : Option Value :=
  if isHidden name || tableMethods.contains name || modelMethods.contains name then Option.none
  else (cat.find? id name).map fun r => .expr r.expr

/-- What follows from a value under a name that is none of its fields. -/
def derived? (cat : Catalog) (v : Value) (name : String) : Option Value :=
  match v, name with
  | expr (.column _ id), "table" => some (.ofOption .table (cat.owner id))
  | table id, "name_in_query" => some (text (cat.table id).nameInQuery)
  | table id, "column_names" => some (texts (cat.columnNames id))
  | table id, name => columnUnder? cat id name
  | dialect d, "name" => some (text d.name)
  | kind k, "name" => some (text k.name)
  | kind k, "value" => some (text k.value)
  | builder d, "dialect" => some d
  | sequence .compiled [sql, _], "sql" => some sql
  | sequence .compiled [_, parameters], "parameters" => some parameters
  | _, _ => Option.none

/-- What a value holds under a name, if anything. -/
def held? (cat : Catalog) (v : Value) (name : String) : Option Value :=
  ((v.declaredFields cat).lookup name).or ((v.extras.lookup name).or (v.derived? cat name))

/-- What is missing when a value has no attribute of a given name. A value with fields does not say
so, except for a table, where the name could be that of a column. -/
def lacks (cat : Catalog) (v : Value) (name : String) : Error :=
  match v with
  | table id =>
    if isHidden name then .hiddenAttribute
    else .noSuchAttribute (Text.display (cat.table id).name) (Text.display name)
  | helpers _ => .noSuchHelper name
  | v => if v.hasFields then .hiddenAttribute else .lacksAttribute v.holder name

/-- What a value holds under a name, or what it lacks. -/
def get (cat : Catalog) (v : Value) (name : String) : Except Error Value :=
  match v.held? cat name with
  | some w => .ok w
  | Option.none => .error (v.lacks cat name)

end Value

end SqlCompose
