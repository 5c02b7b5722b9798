import SqlCompose.Catalog.Binding
import SqlCompose.Compile
import SqlCompose.Registry.Basic

/-!
# Sessions

A session is the catalog of columns and tables, the registry of dialects and the journal of what has
been done. Registering a dialect and compiling write to the journal; what fails writes nothing.
-/
namespace SqlCompose

/-- Which part of the library wrote a record. -/
inductive Channel
  | registry
  | compiler
  | execution
deriving DecidableEq, Inhabited

/-- A record of the journal. -/
structure Record where
  channel : Channel
  message : String
deriving DecidableEq, Inhabited

/-- Everything that outlives a call. The journal is kept with the last record first. -/
structure Session where
  catalog : Catalog := {}
  registry : Registry := {}
  journal : List Record := []
deriving Inhabited

namespace Session

/-- Adds a record to the journal. -/
def note (s : Session) (channel : Channel) (message : String) : Session :=
  { s with journal := { channel, message } :: s.journal }

/-- The records so far in the order in which they were made, and a session without them. -/
def takeRecords (s : Session) : List Record × Session :=
  (s.journal.reverse, { s with journal := [] })

/-- A session as it is now, given what contexts have bound so far. -/
def updated (b : Bindings) (s : Session) : Session :=
  { s with catalog := s.catalog.updated b, registry := s.registry.updated b }

/-- Registers a dialect under a name, which messages show as `shown`. -/
def use (s : Session) (source : Registry.Source) (name : Key) (shown : String)
    (changes : List (String × Value)) : Except Error (Dialect × Session) := do
  let (d, registry) ← s.registry.use source name changes
  return (d, { s with registry }.note .registry ("Using dialect " ++ d.name ++ " as " ++ shown))

/-- The dialect under a name, which messages call `label`. -/
def dialect (s : Session) (name : Key) (label : Shown) : Except Error Dialect :=
  match s.registry.get? name with
  | some d => .ok d
  | none => do throw (.unknownDialect (← label))

/-- Compiles a value for a dialect. -/
def compile (s : Session) (d : Dialect) (v : Value) : Except Error (Compiled × Session) := do
  let c ← SqlCompose.compile s.catalog d v
  let message := "Compiled " ++ v.typeTag.name ++ " for " ++ d.name ++ " with "
    ++ toString c.parameters.length ++ " parameter(s): " ++ (← shownInside (c.sql.label s.catalog))
  return (c, s.note .compiler message)

/-- Notes that the creation of a table was compiled. -/
def noteCreation (s : Session) (d : Dialect) (sql : Value) : Except Error Session := do
  let shown ← shownInside (sql.label s.catalog)
  return s.note .compiler ("Compiled CREATE TABLE for " ++ d.name ++ ": " ++ shown)

/-- Compiles the creation of a table. -/
def compileCreateTable (s : Session) (d : Dialect) (table : TableId) (ifNotExists : Bool) :
    Except Error (Value × Session) := do
  let sql ← SqlCompose.compileCreateTable s.catalog d table ifNotExists
  return (sql, ← s.noteCreation d sql)

/-- Compiles, and notes that the outcome is handed to an executor. -/
def prepare (s : Session) (d : Dialect) (v : Value) : Except Error (Compiled × Session) := do
  let (c, s) ← s.compile d v
  return (c, s.note .execution ("Executing " ++ (← shownInside (c.sql.label s.catalog))))

end Session

end SqlCompose
