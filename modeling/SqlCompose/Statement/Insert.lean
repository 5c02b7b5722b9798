import SqlCompose.Statement.Select

/-!
# Building INSERT, UPDATE and DELETE statements

Columns may be given by name or as they are, and have to belong to the table of the statement.
-/
namespace SqlCompose

namespace Insert

/-- Sets the columns. -/
def setColumns (cat : Catalog) (q : Insert) (given : List Value) : Except Error Insert := do
  return { q with columns := .tuple (← given.mapM (ownColumn cat q.table)) }

/-- Adds a row. -/
def addRow (q : Insert) (row : List Value) : Except Error Insert := do
  return { q with rows := ← q.rows.more [.tuple row] }

/-- Checks that the columns of a row are those of the statement, in their order, if it has any yet.
-/
def checkColumns (cat : Catalog) (q : Insert) (columns : List Value) : Except Error Unit := do
  if q.columns.truthy then
    if columns.length ≠ (← q.columns.length) then throw .mismatchedValues
    if columns.map Value.column? ≠ (← q.columns.items cat).map Value.column? then
      throw .mismatchedValues

/-- Adds a row whose values are keyed by columns. -/
def addNamedRow (cat : Catalog) (q : Insert) (row : List (Value × Value)) :
    Except Error Insert := do
  let columns ← row.mapM fun (k, _) => ownColumn cat q.table k
  q.checkColumns cat columns
  let renamed : Insert := { q with columns := .tuple columns }
  renamed.addRow (row.map fun (_, v) => v)

/-- Adds one row, either by position or by column; a single mapping is a row by column. -/
def addValues (cat : Catalog) (q : Insert) (row : List Value) (named : List (String × Value)) :
    Except Error Insert := do
  if !row.isEmpty ∧ !named.isEmpty then throw .mixedValues
  match row with
  | [.dict entries] => q.addNamedRow cat entries
  | row =>
    if !named.isEmpty then q.addNamedRow cat (named.map fun (k, v) => (.text k, v))
    else if row.isEmpty then throw .emptyValues
    else q.addRow row

/-- Adds several rows by position. -/
def addRows (cat : Catalog) (q : Insert) (rows : List Value) : Except Error Insert := do
  let rows ← rows.mapM fun row => return .tuple (← row.items cat)
  return { q with rows := ← q.rows.more rows }

/-- Takes the rows from a SELECT. -/
def setQuery (q : Insert) (v : Value) : Except Error Insert :=
  match v with
  | .select _ => .ok { q with query := v }
  | v => .error (.notASelect "from_select" v.typeTag)

/-- Adds fields to the RETURNING clause. -/
def addReturning (q : Insert) (fields : List Value) : Except Error Insert := do
  return { q with returning := ← q.returning.more ((Value.toExprs fields).map .expr) }

end Insert

namespace Update

/-- Puts a value under a key, in the place of the value that has the same key if there is one. -/
def upsert (key v : Value) : List (Value × Value) → List (Value × Value)
  | [] => [(key, v)]
  | (k, old) :: rest => if k.sameKey key then (k, v) :: rest else (k, old) :: upsert key v rest

/-- The assignments of a mapping and of keywords; what comes later goes over what has the same key.
-/
def mergeAssignments (mapping : List (Value × Value)) (named : List (String × Value)) :
    List (Value × Value) :=
  let keywords := named.map fun (k, v) => (Value.text k, v)
  (mapping ++ keywords).foldl (fun kept (k, v) => upsert k v kept) []

/-- Adds assignments. -/
def set (cat : Catalog) (q : Update) (mapping : Value) (named : List (String × Value)) :
    Except Error Update := do
  let added ← (mergeAssignments (← mapping.entries cat) named).mapM fun (k, v) => do
    return .tuple [← ownColumn cat q.table k, v]
  return { q with assignments := ← q.assignments.more added }

/-- Adds conditions to the WHERE clause. -/
def addConditions (cat : Catalog) (q : Update) (given : List Value)
    (keywords : List (String × Value)) : Except Error Update := do
  return { q with filter := .expr (← filtered cat q.extras (.ok q.table) q.filter given keywords) }

/-- Adds fields to the RETURNING clause. -/
def addReturning (q : Update) (fields : List Value) : Except Error Update := do
  return { q with returning := ← q.returning.more ((Value.toExprs fields).map .expr) }

end Update

namespace Delete

/-- Adds conditions to the WHERE clause. -/
def addConditions (cat : Catalog) (q : Delete) (given : List Value)
    (keywords : List (String × Value)) : Except Error Delete := do
  return { q with filter := .expr (← filtered cat q.extras (.ok q.table) q.filter given keywords) }

/-- Adds fields to the RETURNING clause. -/
def addReturning (q : Delete) (fields : List Value) : Except Error Delete := do
  return { q with returning := ← q.returning.more ((Value.toExprs fields).map .expr) }

end Delete

end SqlCompose
