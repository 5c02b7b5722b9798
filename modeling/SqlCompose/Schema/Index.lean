import SqlCompose.Expr.Reference

/-!
# Indexes

CREATE INDEX over columns of one table, each with or without a direction.
-/
namespace SqlCompose.Index

/-- The column that a term of an index orders by. -/
def columnOf : Value → Except Error ColumnId
  | .expr (.column _ id) | .expr (.order _ (.column _ id) _) => .ok id
  | _ => .error .notAnIndexColumn

/-- The first column that does not belong to a table. -/
def stranger? (cat : Catalog) (table : TableId) (ids : List ColumnId) : Option ColumnId :=
  ids.find? fun id => cat.owner id != some table

/-- The table of an index with the given columns. -/
def target? (cat : Catalog) (table : Option TableId) (ids : List ColumnId) : Option TableId :=
  table.or (ids.head?.bind cat.owner)

/-- The table of an index and what there is to write for its columns. -/
def target (cat : Catalog) (i : Index) : Except Error TableId := do
  if i.name = "" then throw .unnamedIndex
  if i.columns.isEmpty then throw (.indexWithoutColumns i.name)
  let ids ← i.columns.mapM columnOf
  let some table := target? cat i.table ids | throw .unnamedTable
  if let some id := stranger? cat table ids then
    throw (.foreignIndexColumn (cat.column id).name (cat.table table).name)
  return table

/-- A term of an index: a column without its table, with its direction if it has one. -/
def term (cat : Catalog) : Value → Draft
  | .expr (.column _ id) => columnName cat id
  | .expr (.order _ (.column _ id) descending) => (columnName cat id).directed descending
  | _ => .fail .notAnIndexColumn

/-- The statement that creates an index. -/
def draft (cat : Catalog) (i : Index) : Draft :=
  .given (i.target cat) fun table =>
    Draft.text (if i.unique then "CREATE UNIQUE INDEX " else "CREATE INDEX ") + nameDraft i.name
      + .text " ON " + nameDraft (cat.table table).name + .text " ("
      + .commaSeparated (i.columns.map (term cat)) + .text ")"

end SqlCompose.Index
