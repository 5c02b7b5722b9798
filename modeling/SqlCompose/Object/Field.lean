import SqlCompose.Dialect.Change
import SqlCompose.Dialect.Standard
import SqlCompose.Expr.Subscript

/-!
# Fields of declared objects

Objects are declared by named fields, each of which holds values of one type. A field that is
missing has its default, and a field with a value of another type is refused. What goes wrong while
a value is read, before its type is known, comes before what is refused.
-/
namespace SqlCompose

/-- Fields by name. -/
abbrev Fields := List (String × Value)

namespace Field

/-- A text that may be absent. -/
def optionalText : Option Value → Except Error (Option String)
  | none | some (.scalar .null) => .ok none
  | some (.scalar (.text s)) => .ok (some s)
  | some _ => .error .badField

/-- A text; without a default it has to be there. -/
def text (default : Option String) : Option Value → Except Error String
  | none => default.elim (.error .badField) .ok
  | some (.scalar (.text s)) => .ok s
  | some _ => .error .badField

def bool (default : Bool) : Option Value → Except Error Bool
  | none => .ok default
  | some (.scalar (.bool b)) => .ok b
  | some _ => .error .badField

def optionalInt : Option Value → Except Error (Option Int)
  | none | some (.scalar .null) => .ok none
  | some (.scalar (.int n)) => .ok (some n)
  | some _ => .error .badField

def expr : Option Value → Except Error Expr
  | some (.expr e) => .ok e
  | _ => .error .badField

def optionalExpr : Option Value → Except Error (Option Expr)
  | none | some (.scalar .null) => .ok none
  | some (.expr e) => .ok (some e)
  | some _ => .error .badField

def table : Option Value → Except Error TableId
  | some (.table id) => .ok id
  | _ => .error .badField

def optionalTable : Option Value → Except Error (Option TableId)
  | none | some (.scalar .null) => .ok none
  | some (.table id) => .ok (some id)
  | some _ => .error .badField

/-- A kind, or its name. -/
def optionalKind : Option Value → Except Error (Option DataKind)
  | none | some (.scalar .null) => .ok none
  | some (.kind k) => .ok (some k)
  | some (.scalar (.text s)) => (DataKind.ofValue? s).elim (.error .badField) (.ok ∘ some)
  | some _ => .error .badField

/-- The items of a sequence; without one there are none. -/
def items : Option Value → Except Error (List Value)
  | none => .ok []
  | some (.sequence _ vs) => .ok vs
  | some _ => .error .badField

/-- The items of a sequence, each of which is read in the same way. -/
def each {α : Type} (read : Option Value → Except Error α) (v : Option Value) :
    Except Error (List α) := do
  (← items v).mapM fun item => read (some item)

/-- The names of a column, or of several columns and names. -/
def columnNames (cat : Catalog) (v : Value) : Except Error (List String) := do
  let items ← match v with
    | .scalar (.text _) | .expr (.column ..) => pure [v]
    | v => v.items cat
  items.mapM fun item =>
    match item with
    | .scalar (.text s) => .ok s
    | .expr (.column _ id) => .ok (cat.column id).name
    | _ => .error .badField

/-- A column or several columns. -/
def columns (cat : Catalog) (v : Value) : Except Error (List Expr) := do
  let items ← match v with
    | .expr (.column ..) => pure [v]
    | v => v.items cat
  items.mapM fun item =>
    match item with
    | .expr (.column asName id) => .ok (.column asName id)
    | _ => .error .badField

/-- A foreign key or several ones. -/
def foreignKeys (cat : Catalog) (v : Value) : Except Error (List ForeignKey) := do
  let items ← match v with
    | .foreignKey _ => pure [v]
    | v => v.items cat
  items.mapM fun
    | .foreignKey k => .ok k
    | _ => .error .badField

/-- Whether a field was read. -/
def check {α : Type} (r : Except Error α) : Except Error Unit := r.map fun _ => ()

/-- The outcome of several checks: what went wrong while reading comes before what is refused. -/
def settle (checks : List (Except Error Unit)) : Except Error Unit :=
  let failures := checks.filterMap fun
    | .ok _ => none
    | .error e => some e
  match failures.find? fun e => decide (e.category ≠ .invalidField) with
  | some e => .error e
  | none => failures.head?.elim (.ok ()) .error

/-! ## Settings of dialects -/

/-- A type keyword under its kind, which may be given by name. -/
def typeNameEntry (entry : Value × Value) : Except Error (Value × Value) := do
  let keyword ← text none (some entry.2)
  match ← optionalKind (some entry.1) with
  | some k => return (.kind k, .text keyword)
  | none => throw .badField

/-- A spelling under its keyword. -/
def spellingEntry (entry : Value × Value) : Except Error (Value × Value) := do
  return (.text (← text none (some entry.1)), .text (← text none (some entry.2)))

/-- Entries of a mapping with one more, in the place of the one that has its key if there is one. -/
def merged (entries : List (Value × Value)) (entry : Value × Value) : List (Value × Value) :=
  if entries.any fun e => e.1.sameKey entry.1 then
    entries.map fun e => if e.1.sameKey entry.1 then (e.1, entry.2) else e
  else entries ++ [entry]

/-- A mapping whose entries are all of one form. -/
def mapping (entry : Value × Value → Except Error (Value × Value)) : Value → Except Error Value
  | .dict entries => return .dict ((← entries.mapM entry).foldl merged [])
  | _ => .error .badField

/-- A setting of a dialect as it is held; what is no setting is left out. -/
def setting (name : String) (v : Value) : Except Error (Option Value) :=
  match name with
  | "identifier_quote" =>
    match v with
    | .sequence _ [.scalar (.text a), .scalar (.text b)] => .ok (some (.texts [a, b]))
    | _ => .error .badField
  | "placeholder_style" => if v.style?.isSome then .ok (some v) else .error .badField
  | "bind_literals" => if v.bool?.isSome then .ok (some v) else .error .badField
  | "create_auto_increment" =>
    match v with
    | .rule _ | .type _ | .scalar .null => .ok (some v)
    | _ => .error .badField
  | "type_names" => return some (← mapping typeNameEntry v)
  | "substitutions" => return some (← mapping spellingEntry v)
  | _ => .ok none

/-- The dialect of an engine with its settings given by fields. -/
def dialect (e : Engine) (fields : Fields) : Except Error Dialect := do
  let settings ← fields.mapM fun (name, v) => return (← setting name v).map fun v => (name, v)
  let d := (Dialect.standard e).setAll (settings.filterMap id)
  return { d with given := d.given.filter (·.1 ≠ "placeholder_style") }

end Field

end SqlCompose
