import SqlCompose.TypeTag

/-!
# Kinds of data

The kinds of columns and values, independent of any database; each dialect has a type keyword for
each kind.
-/
namespace SqlCompose

/-- The kind of a column or of a value. -/
inductive DataKind
  | smallint
  | integer
  | bigint
  | real
  | double
  | decimal
  | char
  | varchar
  | text
  | boolean
  | date
  | time
  | timestamp
  | blob
deriving DecidableEq, Inhabited

namespace DataKind

/-- Every kind, once. -/
def all : List DataKind :=
  [smallint, integer, bigint, real, double, decimal, char, varchar, text, boolean, date, time,
    timestamp, blob]

theorem mem_all (k : DataKind) : k ∈ all := by cases k <;> decide

/-- The name by which a kind is given. -/
def value : DataKind → String
  | smallint => "smallint"
  | integer => "integer"
  | bigint => "bigint"
  | real => "real"
  | double => "double"
  | decimal => "decimal"
  | char => "char"
  | varchar => "varchar"
  | text => "text"
  | boolean => "boolean"
  | date => "date"
  | time => "time"
  | timestamp => "timestamp"
  | blob => "blob"

/-- The name of a kind in messages. -/
def name : DataKind → String
  | smallint => "SMALLINT"
  | integer => "INTEGER"
  | bigint => "BIGINT"
  | real => "REAL"
  | double => "DOUBLE"
  | decimal => "DECIMAL"
  | char => "CHAR"
  | varchar => "VARCHAR"
  | text => "TEXT"
  | boolean => "BOOLEAN"
  | date => "DATE"
  | time => "TIME"
  | timestamp => "TIMESTAMP"
  | blob => "BLOB"

/-- The kind that is given by a name. -/
def ofValue? (s : String) : Option DataKind := all.find? (·.value == s)

theorem ofValue?_value (k : DataKind) : ofValue? k.value = some k := by cases k <;> decide

/-- The kind that stores the values of a type; a derived type is stored like the type it refines. -/
def ofType? : TypeTag → Option DataKind
  | .bool => some boolean
  | .int => some integer
  | .float => some double
  | .decimal => some decimal
  | .text => some text
  | .timestamp => some timestamp
  | .date => some date
  | .time => some time
  | .bytes | .bytearray => some blob
  | .derived _ base => ofType? base
  | _ => none

end DataKind

end SqlCompose
