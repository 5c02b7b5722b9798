import SqlCompose.Render.Clause

/-!
# INSERT, UPDATE and DELETE

The statements that change a table, from parts that are drafted already. The columns that they name
have to belong to the table.
-/
namespace SqlCompose

/-! ## INSERT -/

/-- One row of values, which has to be as wide as the columns. -/
def rowDraft (width : Nat) (row : Drafted) : Draft :=
  .given row.value.length fun given =>
    if given ≠ width then .fail (.rowWidth given width)
    else (row.listed Drafted.operand).parenthesized

/-- How many values a row has to have: one for each named column, or for each column of the table.
-/
def rowWidth (cat : Catalog) (table columns : Value) : Except Error Nat := do
  let named ← columns.length
  if named ≠ 0 then return named
  (← table.get cat "columns").length

/-- The rows of an INSERT. -/
def rowsDraft (cat : Catalog) (table columns : Value) (rows : Drafted) : Draft :=
  .given (rowWidth cat table columns) fun width => rows.listed (rowDraft width)

/-- The columns of an INSERT, if it names any. -/
def columnsDraft (cat : Catalog) (columns : Value) : Draft :=
  if !columns.truthy then .empty
  else
    .given (columns.items cat) fun vs =>
      Draft.text " (" + .commaSeparated (vs.map (bareColumn cat)) + .text ")"

/-- The drafted clauses of an INSERT. -/
structure InsertParts where
  table : Value
  columns : Value
  rows : Drafted
  query : Drafted
  returning : Drafted

namespace InsertParts

/-- What an INSERT puts into its table. The columns are looked at first even where they are not
written. -/
def content (cat : Catalog) (e : Engine) (p : InsertParts) : Draft :=
  let columns := columnsDraft cat p.columns
  if !p.query.value.isNone then
    if p.rows.value.truthy then .before columns (.fail .valuesAndSelect)
    else columns + .text " " + p.query.built
  else if p.rows.value.truthy then
    columns + .keyword .between "VALUES" + rowsDraft cat p.table p.columns p.rows
  else .before columns (Draft.asking "EMPTY_INSERT" (.text (" " ++ e.emptyInsert)))

/-- An INSERT from its parts. -/
def draft (cat : Catalog) (e : Engine) (p : InsertParts) : Draft :=
  .given (p.table.get cat "name") fun name =>
    if !name.truthy then .fail .unnamedTable
    else
      Draft.guarded (checkOwned cat p.table p.columns) <|
        Draft.keyword .before "INSERT INTO" + .name name ++ p.content cat e
          + returningDraft cat e p.returning

end InsertParts

/-! ## UPDATE and DELETE -/

/-- One assignment of an UPDATE. -/
def assignmentDraft (cat : Catalog) (x : Drafted) : Draft :=
  .given x.pair fun (column, v) =>
    .given (column.value.get cat "name") fun name =>
      .name name + .operator .between "=" + v.operand

/-- Checks that an assignment sets a column of a table. -/
def checkAssignment (cat : Catalog) (table : Value) (x : Drafted) : Except Error Unit := do
  let (column, _) ← x.pair
  discard (ownColumn cat table column.value)

/-- Checks that all assignments set columns of a table. -/
def checkAssignments (cat : Catalog) (table : Value) (assignments : Drafted) :
    Except Error Unit := do
  for x in ← assignments.items do
    checkAssignment cat table x

/-- The drafted clauses of an UPDATE. -/
structure UpdateParts where
  filter : Drafted
  table : Drafted
  assignments : Drafted
  returning : Drafted
  extras : List (String × Value)

/-- An UPDATE from its parts. -/
def UpdateParts.draft (cat : Catalog) (e : Engine) (p : UpdateParts) : Draft :=
  if !p.assignments.value.truthy then .fail .emptyUpdate
  else
    Draft.guarded (checkAssignments cat p.table.value p.assignments) <|
      (Draft.keyword .before "UPDATE" + p.table.built + .keyword .between "SET")
        ++ p.assignments.listed (assignmentDraft cat) ++ whereDraft p.extras p.filter
        + returningDraft cat e p.returning

/-- A DELETE from its parts. -/
def deleteDraft (cat : Catalog) (e : Engine) (filter table returning : Drafted)
    (extras : List (String × Value)) : Draft :=
  (Draft.keyword .before "DELETE FROM" + table.built) ++ whereDraft extras filter
    + returningDraft cat e returning

end SqlCompose
