import SqlCompose.Expr.Display

/-!
# Creating and binding columns and tables

A table takes the columns that it is given: one that no table owns becomes its own, and of one that
is owned already it takes a copy. Nothing changes when a table cannot be created.
-/
namespace SqlCompose

/-- What is declared of a table beside its columns. -/
structure TableOptions where
  asName : Option String := none
  primaryKey : List String := []
  foreignKeys : List ForeignKey := []

namespace Catalog

/-- Adds a column. -/
def addColumn (cat : Catalog) (c : Column) : ColumnId × Catalog :=
  (⟨cat.columns.size⟩, { cat with columns := cat.columns.push c })

@[simp] theorem column_addColumn_self (cat : Catalog) (c : Column) :
    (cat.addColumn c).2.column (cat.addColumn c).1 = c := by
  simp [addColumn, column]

theorem column_addColumn_of_lt (cat : Catalog) (c : Column) {id : ColumnId}
    (h : id.index < cat.columns.size) : (cat.addColumn c).2.column id = cat.column id := by
  simp [addColumn, column, Array.getElem?_push, Nat.ne_of_lt h]

/-- Adds a copy of a column, with the same owner. -/
def copyColumn (cat : Catalog) (id : ColumnId) : ColumnId × Catalog :=
  cat.addColumn (cat.column id)

/-- An expression under another alias. A column under another alias is another column. -/
def named (cat : Catalog) (asName : Value) : Expr → Expr × Catalog
  | .column _ id =>
    let (copy, cat) := cat.copyColumn id
    (.column asName copy, cat)
  | e => (e.withAlias asName, cat)

/-- Makes a table the owner of a column. -/
def bind (t : TableId) (cat : Catalog) (id : ColumnId) : Catalog :=
  { cat with columns := cat.columns.modify id.index fun c => { c with owner := some t } }

theorem owner_bind_self (cat : Catalog) (t : TableId) {id : ColumnId}
    (h : id.index < cat.columns.size) : (cat.bind t id).owner id = some t := by
  simp [bind, owner, column, h, Array.getElem_modify]

theorem owner_bind_of_ne (cat : Catalog) (t : TableId) {id other : ColumnId} (h : other ≠ id) :
    (cat.bind t id).owner other = cat.owner other := by
  have : id.index ≠ other.index := fun e => h (by cases id; cases other; simp_all)
  simp [bind, owner, column, Array.getElem?_modify, this]

/-- The columns among the given values, or the first that is none. -/
def columnRefs : List Value → Except Error (List ColumnRef)
  | [] => .ok []
  | .expr (.column asName id) :: vs => do
    return { id, asName } :: (← columnRefs vs)
  | v :: _ => .error (.notAColumn v.typeTag)

/-- Copies of the columns that are owned already; the others as they are. -/
def unowned (cat : Catalog) : List ColumnRef → List ColumnRef × Catalog
  | [] => ([], cat)
  | r :: rs =>
    let (id, cat) := if (cat.owner r.id).isSome then cat.copyColumn r.id else (r.id, cat)
    let (rest, cat) := cat.unowned rs
    ({ r with id } :: rest, cat)

/-- The first name that occurs again after itself. -/
def duplicate? (seen : List String) : List String → Option String
  | [] => none
  | name :: names => if name ∈ seen then some name else duplicate? (name :: seen) names

/-- Creates a table with the given columns. The options are looked at last, when the columns are
known to be columns with different names. -/
def addTable (cat : Catalog) (name : Value) (columns : List Value)
    (options : Except Error TableOptions) : Except Error (TableId × Catalog) := do
  let given ← columnRefs columns
  if let some twice := duplicate? [] (given.map fun r => (cat.column r.id).name) then
    throw (.duplicateColumn (Text.display twice) (← name.display cat))
  let options ← options
  let some name := name.text? | throw .badField
  let (refs, cat) := cat.unowned given
  let id : TableId := ⟨cat.tables.size⟩
  let table : Table :=
    { name, asName := options.asName, columns := refs, primaryKey := options.primaryKey,
      foreignKeys := options.foreignKeys }
  let cat := { cat with tables := cat.tables.push table }
  return (id, refs.foldl (fun cat r => cat.bind id r.id) cat)

/-- Creates a table like another, under an alias, with its own copies of the columns. -/
def aliasTable (cat : Catalog) (id : TableId) (asName : Except Error (Option String)) :
    Except Error (TableId × Catalog) :=
  let t := cat.table id
  cat.addTable (.text t.name) (t.columns.map fun r => .expr r.expr)
    (asName.map fun asName => { asName, primaryKey := t.primaryKey, foreignKeys := t.foreignKeys })

end Catalog

end SqlCompose
