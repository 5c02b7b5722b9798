/-!
# Database engines

What differs between engines and cannot be configured: the schemes by which an engine is asked for,
which clauses it has, and how it concatenates text.
-/
namespace SqlCompose

/-- The engines that have rules of their own; `generic` stands for any other. -/
inductive Engine
  | generic
  | sqlite
  | mysql
  | postgresql
  | sqlserver
deriving DecidableEq, Inhabited

/-- How an engine concatenates text. -/
inductive Concatenation
  /-- With the operator `||`. -/
  | infixed
  /-- With a call of `CONCAT`. -/
  | called
deriving DecidableEq, Inhabited

namespace Engine

/-- The engines that are asked for by a scheme. -/
def specific : List Engine := [sqlite, mysql, postgresql, sqlserver]

/-- The schemes of an engine, its own name first. -/
def schemes : Engine → List String
  | generic => []
  | sqlite => ["sqlite"]
  | mysql => ["mysql"]
  | postgresql => ["postgresql", "postgres"]
  | sqlserver => ["mssql", "sqlserver"]

/-- The name of an engine: its first scheme. -/
def name (e : Engine) : String := e.schemes.headD "generic"

/-- The engine of a scheme. -/
def ofScheme? (scheme : String) : Option Engine :=
  specific.find? fun e => e.schemes.contains scheme

theorem ofScheme?_name (e : Engine) (h : e ∈ specific) : ofScheme? e.name = some e := by
  cases e <;> first | decide | simp [specific] at h

/-- Whether INSERT, UPDATE and DELETE take a RETURNING clause. -/
def supportsReturning : Engine → Bool
  | mysql | sqlserver => false
  | _ => true

/-- What follows the table of an INSERT without values. -/
def emptyInsert : Engine → String
  | mysql => "() VALUES ()"
  | _ => "DEFAULT VALUES"

/-- The literal of the escape character that a LIKE test with escapes in its pattern names; none
where a backslash escapes anyway. -/
def likeEscape? : Engine → Option String
  | mysql => none
  | _ => some "'\\'"

/-- Whether only a primary key column can count up by itself. -/
def autoIncrementRequiresPrimaryKey : Engine → Bool
  | sqlite => true
  | _ => false

def concatenation : Engine → Concatenation
  | mysql | sqlserver => .called
  | _ => .infixed

end Engine

end SqlCompose
