/-!
# Types of values

The types that callers' values have, as far as messages and column declarations need them. Messages
name a type either by its short name or by its full description.
-/
namespace SqlCompose

/-- The type of a value. -/
inductive TypeTag
  | nothing
  | bool
  | int
  | float
  | decimal
  | text
  | timestamp
  | date
  | time
  | span
  | bytes
  | bytearray
  | list
  | tuple
  | set
  | dict
  | complex
  | object
  | type
  /-- The type of a choice between types. -/
  | union
  /-- The type of a type that is made special for the type of its parts. -/
  | generic
  /-- A type that is known by its name alone. -/
  | plain (name : String)
  /-- A type of the caller's own that refines another one. -/
  | derived (name : String) (base : TypeTag)
  /-- A type of this library: the part of the library that declares it, and its name. -/
  | entity (home : List String) (name : String)
  /-- A type that lists its values. -/
  | enumeration (name : String)
deriving DecidableEq, Inhabited

namespace TypeTag

/-- The short name of a type. -/
def name : TypeTag → String
  | nothing => "NoneType"
  | bool => "bool"
  | int => "int"
  | float => "float"
  | decimal => "Decimal"
  | text => "str"
  | timestamp => "datetime"
  | date => "date"
  | time => "time"
  | span => "timedelta"
  | bytes => "bytes"
  | bytearray => "bytearray"
  | list => "list"
  | tuple => "tuple"
  | set => "set"
  | dict => "dict"
  | complex => "complex"
  | object => "object"
  | type => "type"
  | union => "UnionType"
  | generic => "GenericAlias"
  | plain name => name
  | derived name _ => name
  | entity _ name => name
  | enumeration name => name

/-- The path to the part of the library that declares a type; empty for the basic types. -/
def home : TypeTag → List String
  | decimal => ["decimal"]
  | timestamp | date | time | span => ["datetime"]
  | union | generic => ["types"]
  | entity home _ => "kuery" :: home
  | _ => []

/-- The name of a type together with its home. -/
def fullName (t : TypeTag) : String := ".".intercalate (t.home ++ [t.name])

/-- The name of a type in messages about what its values can do: the decimal numbers, the types of
dates and times and those of types stand with their home. -/
def qualifiedName (t : TypeTag) : String :=
  match t with
  | decimal | timestamp | date | time | span | union | generic => t.fullName
  | t => t.name

/-- How messages call a value of a type. -/
def holder (t : TypeTag) : String := "'" ++ t.qualifiedName ++ "' object"

/-- The full description of a type. -/
def description (t : TypeTag) : String :=
  match t with
  | enumeration name => "<enum '" ++ name ++ "'>"
  | t => "<class '" ++ t.fullName ++ "'>"

end TypeTag

end SqlCompose
