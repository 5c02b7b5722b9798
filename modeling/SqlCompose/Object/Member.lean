import SqlCompose.Object.Method.Dialect
import SqlCompose.Object.Method.Expression
import SqlCompose.Object.Method.Statement
import SqlCompose.Object.Method.Table
import SqlCompose.Object.Part

/-!
# Members of objects

What an object has under a name: a method, or a part that can be read off.
-/
namespace SqlCompose.Member

/-- The method of an object that has a name. -/
def method? (o : Object) (name : String) : Option Procedure :=
  match o.value with
  | .expr e => Method.ofExpr? o e name
  | .table id => Method.ofTable? o id name
  | .dialect d => Method.ofDialect? d name
  | .helpers e => Method.ofEngine? e name
  | .context d .. => Method.ofContext? o d name
  | .builder d => Method.ofBuilder? d name
  | v =>
    if v.isStatement then (Method.ofClauses? o name).or (Method.ofStatement? o name)
    else Method.ofPart? o name

/-- A method of an object that is not called yet. Some belong to the type of the object, and the
functions of an engine to no object at all. -/
def unbound (o : Object) (name : String) : Action Object := do
  match o.value with
  | .helpers e =>
    let home := if name = "concat" ∧ e.concatenation = .called then Engine.mysql else .generic
    return .mk (.object (.plain "function")) (.part (.engine home) name) [] []
  | v =>
    let owner := if Value.typeMethods.contains name then Object.ofValue default (.type v.typeTag)
      else o
    Workspace.makeWith (.method owner.value name) [("__self__", owner)]

/-- What a copy of a statement was given under a name. It goes before the methods, but not before
what a statement compiles to. -/
def extra? (o : Object) (name : String) : Option Object :=
  if Part.compiledNames.contains name then none else o.extra? name

/-- Whether an object has a method of a name. -/
def hasMethod (o : Object) (name : String) : Bool :=
  (method? o name).isSome || (o.value.hasFields && Value.modelMethods.contains name)

/-- The member of an object that has a name. -/
def get (o : Object) (name : String) : Action Object := do
  let cat ← Workspace.catalog
  let o ← Workspace.current o
  match extra? o name, hasMethod o name, Part.find? cat o name with
  | some given, _, _ => return given
  | none, true, _ => unbound o name
  | none, false, some part => part
  | none, false, none => throw (Part.missing cat o.value name)

/-- Calls what a copy of a statement was given. A method goes to the object that it was taken from.
-/
def callGiven (given : Object) (c : Call) : Action Object := do
  match given.value, given.fields.lookup "__self__" with
  | .method _ name, some owner =>
    match method? (← Workspace.current owner) name with
    | some method => method.call c
    | none => Workspace.callValue given c.positional c.keywords
  | _, _ => Workspace.callValue given c.positional c.keywords

/-- Calls what an object has under a name: what a copy of a statement was given, a method, or a
part. -/
def call (o : Object) (name : String) (c : Call) : Action Object := do
  let cat ← Workspace.catalog
  let o ← Workspace.current o
  match extra? o name, method? o name, Part.find? cat o name with
  | some given, _, _ => callGiven given c
  | none, some method, _ => method.call c
  | none, none, some part => Workspace.callValue (← part) c.positional c.keywords
  | none, none, none => throw (Part.missing cat o.value name)

/-- The column of a table at a key. -/
def column (id : TableId) (key : Value) : Action Object := do
  let cat ← Workspace.catalog
  match ← Workspace.lift ((Value.table id).at? cat key) with
  | some held => Workspace.make held
  | none =>
    let shown ← Workspace.lift (key.display cat)
    throw (.noSuchColumn (Text.display (cat.table id).name) shown)

/-- What an object holds at a key: the column of a table, the value of a key, or the item of a
sequence at its place. Only a table says what is missing. -/
def item (o key : Object) : Action Object := do
  match o.value with
  | .table id => column id key.value
  | .dict _ =>
    let wanted ← Workspace.lift (key.key.mapError Error.silent)
    match (Object.pairs o.items).find? fun (k, _) => k.atoms == wanted with
    | some (_, held) => return held
    | none => throw .hiddenKey
  | v =>
    let held ← Workspace.lift ((v.at? (← Workspace.catalog) key.value).mapError Error.silent)
    match (key.value.place? o.items.length).bind fun n => o.items[n.toNat]? with
    | some item => return item
    | none => Workspace.make (held.getD .none)

end SqlCompose.Member
