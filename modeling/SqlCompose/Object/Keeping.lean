import SqlCompose.Object.Workspace

/-!
# What objects keep

Whatever is declared holds the objects that it was given. A field that is a row is a row of its own,
but what stands in it are the given objects. Where a field was read as something else, such as the
name of a kind, it is an object of its own.
-/
namespace SqlCompose.Keeping

/-- What is given as a row, or as the only item of one. -/
def rowOf (o : Object) : List Object :=
  match o.value with
  | .scalar _ | .expr _ | .foreignKey _ => [o]
  | .dict _ => (Object.pairs o.items).map (·.1)
  | _ => o.items

/-- An item of a row, given what it was read from. A column may stand for its name. -/
def item (v : Value) (o : Object) : Action Object := do
  match v, o.value with
  | .scalar (.text _), .expr (.column ..) => Workspace.field (← Workspace.current o) "name"
  | v, w => if v.typeTag = w.typeTag then return o else Workspace.make v

/-- The fields that hold whatever is given, rows included. -/
def openFields : List String := ["value", "default", "query"]

/-- A field as an object, given what it was read from. -/
def field? (name : String) (v : Value) (o : Object) : Action (Option Object) := do
  match v with
  | .sequence .tuple vs =>
    if openFields.contains name then return some o
    let given := rowOf o
    if given.length ≠ vs.length then return none
    return some (← Workspace.sequence .tuple (← (vs.zip given).mapM fun (v, o) => item v o))
  | .dict _ => return if openFields.contains name then some o else none
  | v => return if v.typeTag = o.value.typeTag then some o else none

/-- The fields of a declared value as objects, as far as they were given. -/
def fields (v : Value) (given : List (String × Object)) : Action (List (String × Object)) := do
  let declared := v.declaredFields (← Workspace.catalog)
  given.filterMapM fun (name, o) => do
    match declared.lookup name with
    | some w => return (← field? name w o).map (name, ·)
    | none => return none

/-- A declared object that holds what it was given. -/
def make (v : Value) (given : List (String × Object)) : Action Object := do
  Workspace.makeWith v (← fields v given)

/-- A declared column or table that holds what it was given wherever it is met. -/
def keep (o : Object) (given : List (String × Object)) : Action Object := do
  Workspace.note o (← fields o.value given)
  return o

/-- All fields of an object, as objects. -/
def all (o : Object) : Action (List (String × Object)) := do
  let o ← Workspace.current o
  let cat ← Workspace.catalog
  return (o.value.declaredFields cat).filterMap fun (name, _) => (o.field? cat name).map (name, ·)

/-- Lets copies of columns hold what the columns hold. -/
def copyColumns (copies originals : List ColumnRef) : Action Unit :=
  (copies.zip originals).forM fun (copy, original) => do
    if copy.id ≠ original.id then
      let held ← all (Object.ofValue default (.expr original.expr))
      Workspace.note (Object.ofValue default (.expr copy.expr)) held

/-! ## Rows that grow -/

/-- A row of a statement with objects at its end, if that is what the row has become. -/
def extended (o : Object) (clause : String) (v : Value) (added : List Object) :
    Action (Option Object) := do
  let old ← Workspace.field o clause
  match (v.declaredFields (← Workspace.catalog)).lookup clause with
  | some (.sequence .tuple vs) =>
    if vs.length ≠ old.items.length + added.length then return none
    if added.isEmpty then return some old
    return some (← Workspace.sequence .tuple (old.items ++ added))
  | _ => return none

/-- The fields that objects add to a SELECT list. -/
def selection (given : List Object) : Action (List Object) := do
  let cat ← Workspace.catalog
  let columns := fun (id : TableId) =>
    (cat.table id).columns.map fun r => Object.ofValue default (.expr r.expr)
  Workspace.asExprs (given.flatMap fun o => (o.value.table?.map columns).getD [o])

/-- The terms that objects add to an ORDER BY clause. -/
def order (given : List Object) : Action (List Object) :=
  given.mapM fun o =>
    match o.value with
    | .expr (.order ..) => pure o
    | .expr e => Workspace.makeWith (.expr e.ascending) [("expression", o)]
    | _ => pure o

/-- A test of a column against an object, which may be the pair of two bounds. -/
def lookup (e : Expr) (o : Object) : Action Object := do
  match e with
  | .apply _ _ _ (.column asName id :: compared) =>
    let given := if compared.length = 2 then o.items else compared.map fun _ => o
    let column := Object.ofValue default (.expr (.column asName id))
    Workspace.makeWith (.expr e)
      [("arguments", ← Workspace.sequence .tuple (column :: (← Workspace.asExprs given)))]
  | e => Workspace.expr e

/-- An object as a row; a row is the same object. -/
def asRow (o : Object) : Action Object := do
  match o.value with
  | .sequence .tuple _ => return o
  | .sequence .. | .dict _ => Workspace.sequence .tuple (rowOf o)
  | v => Workspace.make (.tuple (← Workspace.lift (v.items (← Workspace.catalog))))

/-- The assignments of a mapping and of keywords, if no key comes twice. -/
def assignments (v : Value) (given : List Object) : Action (List Object) := do
  let cat ← Workspace.catalog
  let added := ((v.declaredFields cat).lookup "assignments").getD .none
  let added := (← Workspace.lift (added.items cat))
  let pairs := (added.drop (added.length - given.length)).zip given
  pairs.mapM fun (assignment, held) => do
    let column := (assignment.parts?.getD []).headD .none
    Workspace.sequence .tuple [Object.ofValue default column, held]

end SqlCompose.Keeping
