import SqlCompose.Expr.TypeOf

/-!
# Dialects

What every dialect has: a name, settings under fixed names, and placeholders.
-/
namespace SqlCompose.Dialect

/-- The short name of a dialect. -/
def name (d : Dialect) : String := d.engine.name

/-- The names of the settings. -/
def fieldNames : List String :=
  ["identifier_quote", "placeholder_style", "bind_literals", "create_auto_increment", "type_names",
    "substitutions"]

/-- The placeholder of a parameter. -/
def placeholder (d : Dialect) (index : Int) : String := d.placeholderStyle.spell (toString index)

end SqlCompose.Dialect
