import SqlCompose.Dialect.Basic
import SqlCompose.Error
import SqlCompose.Text.Casing

/-!
# Standard dialects

The settings with which each engine starts, and the dialect for a URL scheme.
-/
namespace SqlCompose.Dialect

/-- Puts the pairs of `changes` over those of `base`, keeping the place of a key that is there. -/
def overlay {κ ν : Type} [BEq κ] (base changes : List (κ × ν)) : List (κ × ν) :=
  base.map (fun (k, v) => (k, (changes.lookup k).getD v))
    ++ changes.filter fun (k, _) => (base.lookup k).isNone

def portableTypeNames : List (DataKind × String) :=
  DataKind.all.map fun k => (k, k.name)

def portableSubstitutions : List (String × String) :=
  [("TRUE", "true"), ("FALSE", "false"), ("NULL", "NULL")]

def typeNameChanges : Engine → List (DataKind × String)
  | .generic => []
  | .sqlite => [(.double, "REAL"), (.decimal, "NUMERIC")]
  | .mysql => [(.timestamp, "DATETIME")]
  | .postgresql => [(.double, "DOUBLE PRECISION"), (.decimal, "NUMERIC"), (.blob, "BYTEA")]
  | .sqlserver =>
    [(.integer, "INT"), (.double, "FLOAT"), (.text, "NVARCHAR(MAX)"), (.varchar, "NVARCHAR"),
      (.boolean, "BIT"), (.timestamp, "DATETIME2"), (.blob, "VARBINARY(MAX)")]

def substitutionChanges : Engine → List (String × String)
  | .generic => []
  | .sqlite =>
    [("TRUE", "1"), ("FALSE", "0"), ("LCASE", "LOWER"), ("UCASE", "UPPER"), ("LEN", "LENGTH"),
      ("MID", "SUBSTR")]
  | .mysql => [("LEN", "CHAR_LENGTH")]
  | .postgresql =>
    [("LCASE", "LOWER"), ("UCASE", "UPPER"), ("LEN", "LENGTH"), ("MID", "SUBSTRING")]
  | .sqlserver =>
    [("TRUE", "1"), ("FALSE", "0"), ("LCASE", "LOWER"), ("UCASE", "UPPER"), ("MID", "SUBSTRING"),
      ("NOW", "GETDATE")]

def standardQuote : Engine → String × String
  | .generic => ("", "")
  | .sqlite | .postgresql => ("\"", "\"")
  | .mysql => ("`", "`")
  | .sqlserver => ("[", "]")

def standardAutoIncrement : Engine → Option AutoIncrement
  | .sqlite => some .rowid
  | .postgresql => some .serial
  | .sqlserver => some .identity
  | _ => none

/-- The dialect of an engine before any setting is changed. -/
def standard (e : Engine) : Dialect where
  engine := e
  identifierQuote := standardQuote e
  placeholderStyle := if e = .postgresql then .numeric else .qmark
  bindLiterals := true
  autoIncrement := standardAutoIncrement e
  typeNames := overlay portableTypeNames (typeNameChanges e)
  substitutions := overlay portableSubstitutions (substitutionChanges e)
  given := []

@[simp] theorem engine_standard (e : Engine) : (standard e).engine = e := rfl

@[simp] theorem bindLiterals_standard (e : Engine) : (standard e).bindLiterals = true := rfl

/-- Every standard dialect has a keyword for every kind. -/
theorem lookup_typeNames_standard (e : Engine) (k : DataKind) :
    ∃ keyword, (standard e).typeNames.lookup k = some keyword := by
  cases e <;> cases k <;> exact ⟨_, rfl⟩

/-- The dialect for the scheme of a database URL. What follows a plus sign names a driver and does
not matter, nor does letter case. -/
def ofScheme (scheme : String) : Except Error Dialect :=
  let engineName := Text.lower (String.ofList (scheme.toList.takeWhile (· ≠ '+')))
  match Engine.ofScheme? engineName with
  | some e => .ok (standard e)
  | none => .error (.unsupportedScheme scheme)

end SqlCompose.Dialect
