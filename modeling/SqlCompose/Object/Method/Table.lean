import SqlCompose.Object.Field
import SqlCompose.Object.Keeping
import SqlCompose.Object.Procedure
import SqlCompose.Schema.Definition

/-!
# Methods of tables and other parts of a schema

Tables under other names, and the statements that create and drop them.
-/
namespace SqlCompose.Method

/-- A table under an alias, with copies of the columns. -/
def aliased (id : TableId) (asName : Object) : Action Object := do
  let held ← Keeping.all (Object.ofValue default (.table id))
  let o ← Workspace.aliasTable id (Field.optionalText (some asName.value))
  let cat ← Workspace.catalog
  let columns := (o.value.table?.map fun id => (cat.table id).columns).getD []
  Keeping.copyColumns columns (cat.table id).columns
  let same := held.filter fun (name, _) => ["name", "primary_key", "foreign_keys"].contains name
  Keeping.keep o (("alias", asName) :: same)

/-- The methods of a table, by name. -/
def ofTable? (o : Object) (id : TableId) (name : String) : Option Procedure :=
  match name with
  | "as_" => some (.exact ["alias"] fun a => aliased id (a.get "alias"))
  | "build" => some (rendering o fun cat _ => tableDraft cat id)
  | "create" => some (renderingIf o "if_not_exists" fun ifNotExists cat e =>
      createTableDraft cat e id ifNotExists)
  | "drop" => some (renderingIf o "if_exists" fun ifExists cat _ => dropTableDraft cat id ifExists)
  | _ => none

/-- The clause of a foreign key in the definition of a table. -/
def foreignKey (k : ForeignKey) : Procedure :=
  .exact ["context", "table"] fun a =>
    Workspace.render (a.get "context") .none fun cat _ => k.definition cat (a.value "table")

/-- The methods of indexes, joins and foreign keys, by name. -/
def ofPart? (o : Object) (name : String) : Option Procedure :=
  match o.value, name with
  | .foreignKey k, "build" => some (foreignKey k)
  | .index _, "build" | .join _, "build" =>
    some (rendering o fun cat e => o.value.built cat e)
  | _, _ => none

end SqlCompose.Method
