import SqlCompose.Expr.Calling
import SqlCompose.Expr.Drafted
import SqlCompose.Expr.Walk

/-!
# Clauses

The clauses that several statements have: sources, conditions, and the fields that are returned;
and the columns that belong to the table of a statement. What a copy of a statement was given in
place of one of these steps goes before the step.
-/
namespace SqlCompose

/-! ## Sources -/

/-- The sources of the JOIN clauses of a SELECT. Anything that has a table stands for that table. -/
def joinedSources (cat : Catalog) (extras : List (String × Value)) (joins : Value) :
    Except Error Value :=
  match extras.lookup "_joined_sources" with
  | some f => f.apply cat []
  | none => do return .list (← (← joins.items cat).mapM (·.get cat "table"))

/-- The values whose columns imply the sources of a SELECT. -/
def impliedBy (cat : Catalog) (fields : Value) : Except Error (List Value) :=
  match fields.items cat with
  | .ok vs => .ok vs
  | .error _ => .error (.notSpreadable "kuery.expressions.walk.collect_tables" fields.typeTag)

/-- The tables that a SELECT reads when it names no sources: the owners of the columns among its
fields, without those that it joins. -/
def inferredTables (cat : Catalog) (extras : List (String × Value)) (fields joins : Value) :
    Except Error (List TableId) := do
  let joined ← joinedSources cat extras joins
  let found := collectTables cat (← impliedBy cat fields)
  if found.isEmpty then return []
  let others := (← joined.items cat).filterMap Value.table?
  return found.filter fun id => !others.contains id

/-- The sources of a SELECT: those that it names, or those that its fields imply. -/
def Select.effectiveSources (cat : Catalog) (q : Select) : Except Error Value :=
  match q.extras.lookup "_from_sources" with
  | some f => f.apply cat []
  | none => do
    if q.sources.truthy then return .list (← q.sources.items cat)
    else return .list ((← inferredTables cat q.extras q.fields q.joins).map .table)

/-- The drafts of the sources of a SELECT. -/
def sourceDrafts (cat : Catalog) (extras : List (String × Value))
    (sources fields joins : Drafted) : Except Error (List Draft) :=
  match extras.lookup "_from_sources" with
  | some f => do
    let v ← f.apply cat []
    if v.truthy then return (← v.items cat).map fun source => (Drafted.ofHeld cat source).source
    else return []
  | none => do
    if sources.value.truthy then return (← sources.items).map Drafted.source
    else return (← inferredTables cat extras fields.value joins.value).map (tableDraft cat)

/-! ## Conditions -/

/-- The WHERE clause, if there is a condition. -/
def whereDraft (extras : List (String × Value)) (filter : Drafted) : Draft :=
  match extras.lookup "_build_where" with
  | some f => .applied f
  | none => filter.clause "WHERE"

/-! ## Columns of a table -/

/-- Whether a column belongs to a value. What belongs to no table belongs to nothing. -/
def isOwnedBy (cat : Catalog) (id : ColumnId) (table : Value) : Bool :=
  match cat.owner id with
  | some owner => table.table? == some owner
  | none => table.isNone

/-- What says that a column does not belong to a table; the table has to have a name. -/
def notOwned (cat : Catalog) (table : Value) (column : String) : Except Error Error := do
  return .foreignColumn column (← (← table.get cat "name").label cat)

/-- The column of a table that a value names or is. -/
def ownColumn (cat : Catalog) (table v : Value) : Except Error Value := do
  let owned? ← match v with
    | .scalar (.text _) => table.at? cat v
    | .expr (.column _ id) => pure (if isOwnedBy cat id table then some v else none)
    | _ => pure none
  match owned? with
  | some column => return column
  | none => throw (← notOwned cat table (← v.nameOrLabel cat))

/-- Checks that all parts of a value name or are columns of a table. -/
def checkOwned (cat : Catalog) (table columns : Value) : Except Error Unit := do
  for v in ← columns.items cat do
    discard (ownColumn cat table v)

/-- A column without its table. -/
def bareColumn (cat : Catalog) : Value → Draft
  | .expr (.column _ id) => columnName cat id
  | v => .member v "build_index"

/-! ## RETURNING -/

/-- A field of a RETURNING clause: a bare column stands without its table. -/
def returnedDraft (cat : Catalog) (x : Drafted) : Draft :=
  match x.value with
  | .expr (.column asName id) => (columnName cat id).named asName
  | _ => x.selected

/-- The RETURNING clause, if there is one; not every engine has it. -/
def returningDraft (cat : Catalog) (e : Engine) (fields : Drafted) : Draft :=
  if !fields.value.truthy then .empty
  else
    Draft.asking "SUPPORTS_RETURNING" <|
      if e.supportsReturning then
        Draft.keyword .between "RETURNING" + fields.listed (returnedDraft cat)
      else .fail (.returningUnsupported e.name)

end SqlCompose
