import SqlCompose.Catalog.Basic
import SqlCompose.Draft

/-!
# Names in drafts

Columns and tables as they are named in SQL: a column qualified by its table or on its own, a table
with its alias.
-/
namespace SqlCompose

/-- A name between the quotes of a dialect. -/
def nameDraft (name : String) : Draft := .name (.text name)

/-- Drafts between parentheses that belong to a clause. -/
def enclosed (parts : List Draft) : Draft :=
  Draft.text "(" + Draft.commaSeparated parts + Draft.text ")"

/-- Names between parentheses. -/
def nameList (names : List String) : Draft := enclosed (names.map nameDraft)

/-- A draft with the alias behind it, if there is one. -/
def Draft.named (d : Draft) (asName : Value) : Draft :=
  if asName.truthy then d ++ (Draft.keyword .between "AS" + .name asName) else d

/-- A column qualified by the table that owns it. -/
def columnDraft (cat : Catalog) (id : ColumnId) : Draft :=
  let qualifier := cat.qualifier id
  if qualifier = "" then .fail .unnamedTable
  else nameDraft qualifier + .text "." + nameDraft (cat.column id).name

/-- The unqualified name of a column. -/
def columnName (cat : Catalog) (id : ColumnId) : Draft := nameDraft (cat.column id).name

/-- A table as a source, with its alias. -/
def tableDraft (cat : Catalog) (id : TableId) : Draft :=
  let t := cat.table id
  if t.name = "" then .fail .unnamedTable else (nameDraft t.name).named (.ofOption .text t.asName)

/-- A term of an order: what it orders by, and the word for its direction. -/
def Draft.directed (d : Draft) (descending : Bool) : Draft :=
  d.shown + .operator .behind (if descending then "DESC" else "ASC")

end SqlCompose
