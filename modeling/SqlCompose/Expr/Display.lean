import SqlCompose.Expr.Declaring

/-!
# How messages show values

Sequences and mappings display their parts, values with fields their fields; a table shows its name
and its columns. Inside a sentence some values are shown otherwise, as their bare text. A whole
number of too many digits cannot be shown, nor can what it is a part of.
-/
namespace SqlCompose

/-- What is shown, unless it cannot be. -/
abbrev Shown := Except Error String

/-- Several things that are shown, one after the other. -/
def shownAll (parts : List Shown) : Except Error (List String) := parts.mapM id

/-- What is shown inside something else. -/
def shownInside (s : Shown) : Shown := s.mapError Error.unexplained

/-- Fields as they are shown, in order. -/
def shownFields (fields : List (String × Shown)) : Except Error (List (String × String)) :=
  fields.mapM fun (name, shown) => return (name, ← shownInside shown)

namespace Value

/-- A sequence of displayed items in its brackets; a tuple of one item ends in a comma. -/
def bracketed : SequenceForm → List String → String
  | .list, items | .bound _, items => "[" ++ ", ".intercalate items ++ "]"
  | .tuple, [item] => "(" ++ item ++ ",)"
  | .tuple, items => "(" ++ ", ".intercalate items ++ ")"
  | .set, [] => "set()"
  | .set, items => "\x7b" ++ ", ".intercalate items ++ "\x7d"
  | .compiled, [sql, parameters] =>
    "CompiledQuery(sql=" ++ sql ++ ", parameters=" ++ parameters ++ ")"
  | .compiled, items => "CompiledQuery(" ++ ", ".intercalate items ++ ")"

/-- A displayed mapping. -/
def braced (entries : List String) : String := "\x7b" ++ ", ".intercalate entries ++ "\x7d"

/-- A displayed field. -/
def shownField (field : String × String) : String := field.1 ++ "=" ++ field.2

/-- A value with displayed fields; as bare text it is its fields alone. -/
def withFields (bare : Bool) (t : TypeTag) (fields : List (String × String)) : String :=
  if bare then " ".intercalate (fields.map shownField)
  else t.name ++ "(" ++ ", ".intercalate (fields.map shownField) ++ ")"

/-- Displayed names. -/
def shownTexts (names : List String) : String := bracketed .tuple (names.map Text.display)

def shownText (text : Option String) : String := (text.map Text.display).getD "None"

def shownKind (k : DataKind) : String := "<DataKind." ++ k.name ++ ": '" ++ k.value ++ "'>"

/-- A type among others in a displayed choice. -/
def shownMember (t : TypeTag) : String := if t = .nothing then "None" else t.fullName

/-- How messages show a value that has no parts. -/
def shownPlain (cat : Catalog) (bare : Bool) (v : Value) : Shown :=
  match v, bare with
  | scalar s, false => s.display
  | scalar s, true => s.label
  | kind k, false => .ok (shownKind k)
  | kind k, true => .ok ("DataKind." ++ k.name)
  | span s, false => .ok s.display
  | span s, true => .ok s.text
  | complex z, _ => .ok z.text
  | type t, _ => .ok t.description
  | table id, _ => .ok (cat.displayTable id)
  | object (.plain "NotImplementedType"), _ => .ok "NotImplemented"
  | v, _ => .ok ("<" ++ v.typeTag.name ++ ">")

/-- The displayed settings of a dialect where `given` shows those that were given otherwise. -/
def shownSettings (d : Dialect) (given : List (String × Shown)) : List (String × Shown) :=
  let style := d.placeholderStyle.value
  let settings :=
    [("identifier_quote", shownTexts [d.identifierQuote.1, d.identifierQuote.2]),
      ("placeholder_style", "<PlaceholderStyle." ++ style.toUpper ++ ": '" ++ style ++ "'>"),
      ("bind_literals", Scalar.displayBool d.bindLiterals),
      ("create_auto_increment", if d.autoIncrement.isSome then "<function>" else "None"),
      ("type_names", braced (d.typeNames.map fun (k, s) => shownKind k ++ ": " ++ Text.display s)),
      ("substitutions",
        braced (d.substitutions.map fun (k, s) => Text.display k ++ ": " ++ Text.display s))]
  settings.map fun (name, shown) => (name, (given.lookup name).getD (.ok shown))

/-- The name of what a builder compiles for; a text, if it is no part of a copied statement. -/
def plainName (cat : Catalog) (v : Value) : Shown := do
  match ← v.get cat "name" with
  | scalar s => s.label
  | _ => throw .hiddenAttribute

end Value

/-- What is shown of the things that the catalog holds. -/
structure Held where
  /-- The fields of a column beside its alias. -/
  column : ColumnId → Except Error (List (String × String))
  table : TableId → Except Error (List (String × String))

mutual

/-- How messages show a value, where the columns and tables are shown as `h` says. -/
def Value.shown (cat : Catalog) (h : Held) (bare : Bool) : Value → Shown
  | .sequence form items => do
    let parts := showAll cat h items
    let parts := if form = .compiled then parts.map shownInside else parts
    return Value.bracketed form (← shownAll parts)
  | .dict entries => do
    return Value.braced (← shownAll (showEntries cat h entries))
  | .union members => do
    return " | ".intercalate (← shownAll (showMembers cat h members))
  | .generic origin parts => do
    let shown ← shownAll (showMembers cat h parts)
    return origin.name ++ "[" ++ (if shown.isEmpty then "()" else ", ".intercalate shown) ++ "]"
  | .expr e => do return Value.withFields bare e.typeTag (← shownFields (e.shownParts cat h))
  | .table id =>
    if bare then do return Value.withFields true (Value.table id).typeTag (← h.table id)
    else .ok (cat.displayTable id)
  | .select q => do
    return Value.withFields bare (Value.select q).typeTag (← shownFields (q.shownParts cat h))
  | .insert q => do
    return Value.withFields bare (Value.insert q).typeTag (← shownFields (q.shownParts cat h))
  | .update q => do
    return Value.withFields bare (Value.update q).typeTag (← shownFields (q.shownParts cat h))
  | .delete q => do
    return Value.withFields bare (Value.delete q).typeTag (← shownFields (q.shownParts cat h))
  | .statement _ => .ok (Value.withFields bare (Value.statement []).typeTag [])
  | .join j => do
    return Value.withFields bare (Value.join j).typeTag (← shownFields (j.shownParts cat h))
  | .index i => do
    return Value.withFields bare (Value.index i).typeTag (← shownFields (i.shownParts cat h))
  | .foreignKey k => do
    return Value.withFields bare (Value.foreignKey k).typeTag (← shownFields (k.shownParts cat h))
  | .dialect d => do
    return Value.withFields bare d.engine.typeTag (← shownFields (d.shownParts cat h))
  | .builder d => do return "QueryBuilder(" ++ (← d.shownName cat h) ++ ")"
  | .context d n parameters => do
    let dialect := do
      return Value.withFields false d.engine.typeTag (← shownFields (d.shownParts cat h))
    let parameters := do
      return Value.bracketed .list (← shownAll (showAll cat h parameters))
    return Value.withFields bare (Value.context d n []).typeTag
      (← shownFields [("dialect", dialect), ("parameters", parameters)])
  | .method owner name => do
    let whole ← owner.shown cat h false
    return "<bound method " ++ owner.methodName name ++ " of " ++ whole ++ ">"
  | v => v.shownPlain cat bare

/-- The name of what a builder compiles for. -/
def Value.shownName (cat : Catalog) (h : Held) : Value → Shown
  | .select { extras, .. } => showName cat h extras
  | .insert { extras, .. } => showName cat h extras
  | .update { extras, .. } => showName cat h extras
  | .delete { extras, .. } => showName cat h extras
  | .statement extras => showName cat h extras
  | v => v.plainName cat

/-- The name among what a copy of a statement holds. -/
def showName (cat : Catalog) (h : Held) : List (String × Value) → Shown
  | [] => .error .hiddenAttribute
  | (name, v) :: extras => if name = "name" then v.shown cat h true else showName cat h extras

def showAll (cat : Catalog) (h : Held) : List Value → List Shown
  | [] => []
  | v :: vs => v.shown cat h false :: showAll cat h vs

/-- Types as parts of another one. -/
def showMembers (cat : Catalog) (h : Held) : List Value → List Shown
  | [] => []
  | .type t :: vs => .ok (Value.shownMember t) :: showMembers cat h vs
  | v :: vs => v.shown cat h false :: showMembers cat h vs

def showEntries (cat : Catalog) (h : Held) : List (Value × Value) → List Shown
  | [] => []
  | (k, v) :: entries =>
    (do return (← k.shown cat h false) ++ ": " ++ (← v.shown cat h false))
      :: showEntries cat h entries

def showNamed (cat : Catalog) (h : Held) : List (String × Value) → List (String × Shown)
  | [] => []
  | (name, v) :: entries => (name, v.shown cat h false) :: showNamed cat h entries

/-- The fields of a node. -/
def Expr.shownParts (cat : Catalog) (h : Held) : Expr → List (String × Shown)
  | .literal a v k =>
    [("alias", a.shown cat h false), ("value", v.shown cat h false),
      ("kind", .ok ((k.map Value.shownKind).getD "None"))]
  | .column a id =>
    let named := ("alias", a.shown cat h false)
    match h.column id with
    | .ok fields => named :: fields.map fun (name, shown) => (name, .ok shown)
    | .error e => [named, ("", .error e)]
  | .apply a op symbol arguments =>
    [("alias", a.shown cat h false), ("symbol", .ok (Text.display symbol)),
      ("arguments", do return Value.bracketed .tuple (← shownAll (showExprs cat h arguments)))]
      ++ op.flags.map fun (name, s) => (name, s.display)
  | .order a inner descending =>
    [("alias", a.shown cat h false),
      ("expression", do
        return Value.withFields false inner.typeTag (← shownFields (inner.shownParts cat h))),
      ("descending", .ok (Scalar.displayBool descending))]
  | .group a inner =>
    [("alias", a.shown cat h false),
      ("inner", do
        return Value.withFields false inner.typeTag (← shownFields (inner.shownParts cat h)))]
  | .raw a text => [("alias", a.shown cat h false), ("text", .ok (Text.display text))]
  | .subquery a body => [("alias", a.shown cat h false), ("query", body.shown cat h false)]
  | .bare a => [("alias", a.shown cat h false)]

def showExprs (cat : Catalog) (h : Held) : List Expr → List Shown
  | [] => []
  | e :: es =>
    (do return Value.withFields false e.typeTag (← shownFields (e.shownParts cat h)))
      :: showExprs cat h es

def showOptional (cat : Catalog) (h : Held) : Option Expr → Shown
  | none => .ok "None"
  | some e => do return Value.withFields false e.typeTag (← shownFields (e.shownParts cat h))

def Join.shownParts (cat : Catalog) (h : Held) : Join → List (String × Shown)
  | { kind, source, on, shared } =>
    [("kind", .ok (Text.display kind)), ("table", source.shown cat h false),
      ("on", showOptional cat h on), ("using", .ok (Value.shownTexts shared))]

def Index.shownParts (cat : Catalog) (h : Held) : Index → List (String × Shown)
  | { name, columns, unique, table } =>
    [("name", .ok (Text.display name)),
      ("columns", do return Value.bracketed .tuple (← shownAll (showAll cat h columns))),
      ("unique", .ok (Scalar.displayBool unique)),
      ("table", .ok ((table.map cat.displayTable).getD "None"))]

def ForeignKey.shownParts (cat : Catalog) (h : Held) : ForeignKey → List (String × Shown)
  | { columns, references, onDelete, onUpdate } =>
    [("columns", .ok (Value.shownTexts columns)),
      ("references", do return Value.bracketed .tuple (← shownAll (showExprs cat h references))),
      ("on_delete", .ok (Value.shownText onDelete)), ("on_update", .ok (Value.shownText onUpdate))]

def Select.shownParts (cat : Catalog) (h : Held) : Select → List (String × Shown)
  | { filter, fields, sources, joins, groupBy, having, orderBy, unions, limit, offset, distinct,
      .. } =>
    Select.fieldNames.zip [filter.shown cat h false, fields.shown cat h false,
      sources.shown cat h false, joins.shown cat h false, groupBy.shown cat h false,
      having.shown cat h false, orderBy.shown cat h false, unions.shown cat h false,
      limit.shown cat h false, offset.shown cat h false, distinct.shown cat h false]

def Insert.shownParts (cat : Catalog) (h : Held) : Insert → List (String × Shown)
  | { table, columns, rows, query, returning, .. } =>
    Insert.fieldNames.zip [table.shown cat h false, columns.shown cat h false,
      rows.shown cat h false, query.shown cat h false, returning.shown cat h false]

def Update.shownParts (cat : Catalog) (h : Held) : Update → List (String × Shown)
  | { filter, table, assignments, returning, .. } =>
    Update.fieldNames.zip [filter.shown cat h false, table.shown cat h false,
      assignments.shown cat h false, returning.shown cat h false]

def Delete.shownParts (cat : Catalog) (h : Held) : Delete → List (String × Shown)
  | { filter, table, returning, .. } =>
    Delete.fieldNames.zip [filter.shown cat h false, table.shown cat h false,
      returning.shown cat h false]

/-- The settings of a dialect. -/
def Dialect.shownParts (cat : Catalog) (h : Held) : Dialect → List (String × Shown)
  | { engine, identifierQuote, placeholderStyle, bindLiterals, autoIncrement, typeNames,
      substitutions, given } =>
    Value.shownSettings
      ⟨engine, identifierQuote, placeholderStyle, bindLiterals, autoIncrement, typeNames,
        substitutions, []⟩
      (showNamed cat h given)

end

/-! ## What the catalog holds -/

namespace Held

/-- Nothing is shown of what the catalog holds. -/
def nothing : Held := ⟨fun _ => .ok [], fun _ => .ok []⟩

/-- What is shown of columns and tables whose own values are shown in the given way. -/
def showing (cat : Catalog) (below : Held) : Held :=
  let plain := fun (fields : List (String × Value)) =>
    shownFields (fields.map fun (name, v) => (name, v.shown cat below false))
  let column := fun id =>
    let c := cat.column id
    plain (c.leadingFields ++ ("default", c.default) :: c.trailingFields)
  { column
    table := fun id =>
      let h : Held := { below with column }
      shownFields ((cat.table id).namedFields.map fun (name, v) => (name, v.shown cat h false)) }

/-- What is shown of columns and tables. What a column or table holds was there before it, so the
number of them bounds how far that goes. -/
def depth (cat : Catalog) : Nat → Held
  | 0 => nothing
  | n + 1 => showing cat (depth cat n)

/-- What is shown of all columns and tables. -/
def all (cat : Catalog) : Held := depth cat (cat.columns.size + cat.tables.size)

end Held

namespace Value

/-- How messages show a value. -/
def display (cat : Catalog) (v : Value) : Shown := v.shown cat (Held.all cat) false

/-- The bare text of a value, as it stands inside a sentence. -/
def label (cat : Catalog) (v : Value) : Shown := v.shown cat (Held.all cat) true

@[simp] theorem label_text (cat : Catalog) (s : String) : (text s).label cat = .ok s := rfl

/-- The scalar of a value that SQL has a literal for, or the reason why there is none. -/
def toScalar (cat : Catalog) : Value → Except Error Scalar
  | scalar (.float x) =>
    if x.isFinite then .ok (.float x) else .error (.nonFiniteFloat x.text)
  | scalar s => .ok s
  | v => do throw (.unsupportedLiteral (← v.display cat) v.typeTag.name)

/-- The number of parts of a value that counts them. -/
def length (v : Value) : Except Error Nat :=
  match v.parts? with
  | some parts => .ok parts.length
  | Option.none => .error (.notMeasurable v.typeTag)

end Value

/-- The kind for a type given as a value. -/
def DataKind.ofGivenType (cat : Catalog) : Value → Except Error DataKind
  | .type t =>
    match ofType? t with
    | some k => .ok k
    | none => .error (.typeWithoutKind t.description)
  | v => do throw (.typeWithoutKind (← v.label cat))

end SqlCompose
