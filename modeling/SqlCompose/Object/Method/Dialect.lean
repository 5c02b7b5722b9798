import SqlCompose.Object.Function.Language
import SqlCompose.Render.Select

/-!
# Methods of dialects, contexts and builders

What a dialect says when it is asked, what a context binds and writes out, and what a builder
compiles.
-/
namespace SqlCompose.Method

/-- What a dialect says, which is a word of the library if the setting that it comes from is the
usual one. -/
def said (usual : Bool) (v : Value) : Action Object :=
  match usual, v with
  | true, .scalar (.text s) => return .word s
  | _, v => Workspace.make v

/-- The type keyword of a kind. -/
def typeName (d : Dialect) (kind : Object) : Action Object := do
  let v ← Workspace.lift (d.typeKeyword (← Workspace.catalog) kind.value)
  let usual := d.typeNames == (Dialect.standard d.engine).typeNames
  said (usual && (d.given.lookup "type_names").isNone) v

/-- The spelling of a keyword. One that has none of its own is the same object. -/
def spelled (d : Dialect) (keyword : Object) : Action Object := do
  let v ← Workspace.lift (d.spelling (← Workspace.catalog) keyword.value)
  let known := keyword.value.text?.bind (d.substitutions.lookup ·)
  let usual := d.substitutions == (Dialect.standard d.engine).substitutions
  match known, d.given.lookup "substitutions" with
  | none, none => return keyword
  | _, given => said (usual && given.isNone) v

/-- The placeholder of a parameter with the given number, which not every style shows. -/
def placeholder (cat : Catalog) (style : PlaceholderStyle) (number : Value) : Shown := do
  match style with
  | .qmark => return style.spell ""
  | style => return style.spell (← number.label cat)

/-- The methods of a dialect, by name. -/
def ofDialect? (d : Dialect) (name : String) : Option Procedure :=
  match name with
  | "placeholder" => some (.making ["index"] fun cat a =>
      (placeholder cat d.placeholderStyle (a.value "index")).map .text)
  | "substitute" => some (.exact ["keyword"] fun a => spelled d (a.get "keyword"))
  | "type_name" => some (.exact ["kind"] fun a => typeName d (a.get "kind"))
  | "function_sql" => some (.making ["symbol", "arguments"] fun cat a =>
      d.call cat (a.value "symbol") (a.value "arguments"))
  | "limit_clause" => some (.making ["limit", "offset", "has_order"] fun cat a =>
      (pagingClause cat d.engine (a.value "limit") (a.value "offset") (a.flag "has_order")).map
        .text)
  | "pack_string" => some (.making ["value"] fun cat a => d.packAsText cat (a.value "value"))
  | "pack_bytes" => some (.making ["value"] fun cat a => d.packAsBytes cat (a.value "value"))
  | _ => none

/-- Concatenation as an engine spells it. -/
def concatFor (e : Engine) (arguments : List Object) : Action Object :=
  match e.concatenation, arguments with
  | .infixed, first :: others => Function.concat first others
  | _, arguments => do
    let spelled ← Workspace.lift (Expr.concatFor e (arguments.map Object.value))
    Workspace.applied spelled arguments

/-- The functions that an engine spells in its own way, by name. -/
def ofEngine? (e : Engine) (name : String) : Option Procedure :=
  match name with
  | "concat" => some (.variadic [] fun a => concatFor e a.more)
  | "escape_for_like" => some (.rewriting ["s"] fun cat a => escapeLikeAny cat (a.value "s"))
  | _ => none

/-- Binds a value or writes it out, as the dialect of a context says. -/
def contextLiteral (context : Object) (a : Arguments) : Action Object := do
  let cat ← Workspace.catalog
  let v := a.value "value"
  Workspace.inContext context (a.get "value") fun d =>
    if a.flag "inline" then Assembly.lift (d.pack cat v)
    else Assembly.literal cat (.context d 0) v

/-- The methods of a context, by name. -/
def ofContext? (context : Object) (d : Dialect) (name : String) : Option Procedure :=
  match name with
  | "bind" => some (.exact ["value"] fun a => do
      let cat ← Workspace.catalog
      Workspace.inContext context (a.get "value") fun d =>
        Assembly.bind cat d (a.value "value"))
  | "literal" => some (.optional ["value"] ["inline"] (contextLiteral context))
  | "pack_name" => some (.rewriting ["name"] fun cat a => d.quote cat (a.value "name"))
  | "pack_type" => some (.making ["value"] fun cat a => d.pack cat (a.value "value"))
  | _ => none

/-- The methods of a builder for a dialect, by name. -/
def ofBuilder? (dialect : Value) (name : String) : Option Procedure :=
  match name with
  | "compile" => some (.exact ["statement"] fun a =>
      Workspace.compile dialect (a.get "statement"))
  | "compile_create_table" => some (.optional ["table"] ["if_not_exists"] fun a =>
      Workspace.createTable dialect (a.value "table") (a.flag "if_not_exists"))
  | "compile_drop_table" => some (.optional ["table"] ["if_exists"] fun a =>
      Workspace.dropTable dialect (a.value "table") (a.flag "if_exists"))
  | "compile_create_index" => some (.exact ["index"] fun a =>
      Workspace.createIndex dialect (a.value "index"))
  | _ => none

end SqlCompose.Method
