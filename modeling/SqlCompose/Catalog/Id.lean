/-!
# Identities

Columns and tables are told apart by identity and not by name: two columns of one name, or two
tables of one name, are different things.
-/
namespace SqlCompose

/-- The identity of a column. -/
structure ColumnId where
  index : Nat
deriving DecidableEq, Inhabited

/-- The identity of a table. -/
structure TableId where
  index : Nat
deriving DecidableEq, Inhabited

end SqlCompose
