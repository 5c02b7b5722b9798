import SqlCompose.Error
import SqlCompose.Expr.TypeOf

/-!
# The catalog

All columns and tables that exist. A column is created on its own and is bound to the table that
first receives it; from then on the table owns it. Everything else about a column or a table is
fixed when it is created, so the owner of a column is the only thing in the catalog that changes.
-/
namespace SqlCompose

/-- What is declared of a column, and the table that owns it. -/
structure Column where
  name : String
  kind : Option DataKind := none
  length : Option Int := none
  autoIncrement : Bool := false
  primaryKey : Bool := false
  notNull : Bool := false
  unique : Bool := false
  default : Value := .none
  check : Option String := none
  collate : Option String := none
  owner : Option TableId := none
deriving Inhabited

/-- A column as a table lists it, with its alias. -/
structure ColumnRef where
  id : ColumnId
  asName : Value := .none
deriving Inhabited

/-- The expression that refers to a listed column. -/
def ColumnRef.expr (r : ColumnRef) : Expr := .column r.asName r.id

/-- A table: its name, the name it goes by in queries, its columns and its keys. -/
structure Table where
  name : String
  asName : Option String := none
  columns : List ColumnRef := []
  /-- The names of the columns of a key over several columns. -/
  primaryKey : List String := []
  foreignKeys : List ForeignKey := []
deriving Inhabited

/-- The name that qualifies the columns of a table: the alias if there is one. -/
def Table.nameInQuery (t : Table) : String :=
  (t.asName.filter (· ≠ "")).getD t.name

/-- The columns and the tables, each under its identity. -/
structure Catalog where
  columns : Array Column := #[]
  tables : Array Table := #[]
deriving Inhabited

namespace Catalog

/-- A column; an identity without a column stands for one that is unbound and has no name. -/
def column (cat : Catalog) (id : ColumnId) : Column :=
  (cat.columns[id.index]?).getD { name := "" }

/-- A table; an identity without a table stands for one without name and columns. -/
def table (cat : Catalog) (id : TableId) : Table :=
  (cat.tables[id.index]?).getD { name := "" }

/-- The table that owns a column. -/
def owner (cat : Catalog) (id : ColumnId) : Option TableId := (cat.column id).owner

/-- The name that qualifies a column; empty for an unbound column. -/
def qualifier (cat : Catalog) (id : ColumnId) : String :=
  match cat.owner id with
  | some t => (cat.table t).nameInQuery
  | none => ""

/-- The names of the columns of a table, in order. -/
def columnNames (cat : Catalog) (id : TableId) : List String :=
  (cat.table id).columns.map fun r => (cat.column r.id).name

/-- The column of a table with a given name. -/
def find? (cat : Catalog) (id : TableId) (name : String) : Option ColumnRef :=
  (cat.table id).columns.find? fun r => (cat.column r.id).name == name

/-- How messages show a table. -/
def displayTable (cat : Catalog) (id : TableId) : String :=
  let t := cat.table id
  let asName := match t.asName.filter (· ≠ "") with
    | some a => " AS " ++ a
    | none => ""
  "<Table " ++ t.name ++ asName ++ " (" ++ ", ".intercalate (cat.columnNames id) ++ ")>"

/-- The column of a table with a given name, or an error that says what is missing. -/
def get (cat : Catalog) (id : TableId) (name : String) : Except Error ColumnRef :=
  match cat.find? id name with
  | some r => .ok r
  | none => .error (.noSuchColumn (Text.display (cat.table id).name) (Text.display name))

end Catalog

end SqlCompose
