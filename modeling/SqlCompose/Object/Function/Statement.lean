import SqlCompose.Object.Field
import SqlCompose.Object.Keeping
import SqlCompose.Object.Procedure
import SqlCompose.Statement.Select

/-!
# Statements, compiling and dialects

The start of each statement, the compilation of statements and schema objects, and the registry of
dialects.
-/
namespace SqlCompose.Function

/-- A statement on a table. -/
def onTable (make : Value → Value) : Procedure :=
  .exact ["table"] fun a => do
    discard (Workspace.lift (Field.table (some (a.value "table"))))
    Workspace.make (make (a.value "table"))

/-- A SELECT of the given fields. -/
def select (a : Arguments) : Action Object := do
  let q ← Workspace.lift (Select.empty.select (← Workspace.catalog) a.moreValues)
  let fields ← Workspace.sequence .tuple (← Keeping.selection a.more)
  Workspace.makeWith (.select q) [("select_fields", fields)]

/-- The dialect of a call. -/
def dialectOf (a : Arguments) : Action Value := Workspace.dialectOr (a.value "dialect")

/-- The dialect that is registered under a name. A name that is an expression equals any name. -/
def registered (name : Object) : Action Object := do
  let cat ← Workspace.catalog
  let key ← Workspace.lift name.key
  match (← get).session.registry.get? key, name.value with
  | none, .expr _ => Workspace.make (.dialect (Dialect.standard .generic))
  | _, v => Workspace.dialectNamed key (v.label cat)

/-- The dialect of a scheme. -/
def ofScheme (cat : Catalog) (v : Value) : Except Error Value :=
  match v.text? with
  | some s => (Dialect.ofScheme s).map .dialect
  | none =>
    if v.truthy then do
      discard (v.invoke cat "partition" [.text "+"])
      throw .badCall
    else do throw (.unsupportedScheme (← v.label cat))

/-- The name that is used when none is given. -/
def defaultName : Object := Object.ofValue default (.text "default")

/-- The functions on statements and dialects, by name. -/
def statement? (name : String) : Option Procedure :=
  match name with
  | "select" => some (.variadic [] select)
  | "insert" => some (onTable fun t => .insert (Insert.into t))
  | "update" => some (onTable fun t => .update (Update.of t))
  | "delete" => some (onTable fun t => .delete (Delete.from t))
  | "compile" => some (.optional ["statement"] ["dialect"] fun a => do
      Workspace.compile (← dialectOf a) (a.get "statement"))
  | "compile_create_table" => some (.optional ["table"] ["dialect", "if_not_exists"] fun a => do
      Workspace.createTable (← dialectOf a) (a.value "table") (a.flag "if_not_exists"))
  | "compile_drop_table" => some (.optional ["table"] ["dialect", "if_exists"] fun a => do
      Workspace.dropTable (← dialectOf a) (a.value "table") (a.flag "if_exists"))
  | "compile_create_index" => some (.optional ["index"] ["dialect"] fun a => do
      Workspace.createIndex (← dialectOf a) (a.value "index"))
  | "execute" => some (.optional ["statement", "executor"] ["dialect"] fun a =>
      Workspace.execute (a.get "statement") (a.value "executor") (a.value "dialect"))
  | "use" => some {
      signature := { names := ["dialect", "name"], required := 1, takesOthers := true }
      run := fun a =>
        Workspace.use (a.get "dialect") ((a.get? "name").getD defaultName) a.others }
  | "get_dialect" => some (.optional [] ["name"] fun a =>
      registered ((a.get? "name").getD defaultName))
  | "reset" => some (.exact [] fun _ => do
      Workspace.resetRegistry
      return .none)
  | "get_dialect_for_scheme" => some (.making ["scheme"] fun cat a =>
      ofScheme cat (a.value "scheme"))
  | _ => none

end SqlCompose.Function
