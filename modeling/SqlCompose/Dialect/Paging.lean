import SqlCompose.Dialect.Engine

/-!
# Paging clauses

How an engine spells "skip so many rows, then keep so many". SQLite and MySQL have no OFFSET without
a LIMIT, and SQL Server pages only what is ordered.
-/
namespace SqlCompose

/-- A bound of the rows of a SELECT as it is written. One that counts as false stands for no rows
where a count has to be written. -/
structure RowBound where
  text : String
  isTrue : Bool := true
deriving DecidableEq

/-- A count of rows as a bound. -/
def RowBound.ofInt (n : Int) : RowBound := { text := toString n, isTrue := n != 0 }

namespace Engine

/-- The largest row count that MySQL takes, of 64 bits; it stands for "no limit". -/
def largestRowCount : Nat := 0xffffffffffffffff

/-- LIMIT and OFFSET, each if it is given. -/
def plainPaging (limit offset : Option RowBound) : String :=
  " ".intercalate ((limit.map fun b => "LIMIT " ++ b.text).toList
    ++ (offset.map fun b => "OFFSET " ++ b.text).toList)

/-- The number of rows that an optional bound skips. -/
def skipped : Option RowBound → String
  | some b => if b.isTrue then b.text else "0"
  | none => "0"

/-- The paging clause of a SELECT; empty when neither bound is given. -/
def limitClause (e : Engine) (limit offset : Option RowBound) (ordered : Bool) : String :=
  match e, limit, offset with
  | sqlite, none, some b => "LIMIT -1 OFFSET " ++ b.text
  | mysql, none, some b => "LIMIT " ++ toString largestRowCount ++ " OFFSET " ++ b.text
  | sqlserver, none, none => ""
  | sqlserver, limit, offset =>
    " ".intercalate ((if ordered then [] else ["ORDER BY (SELECT NULL)"])
      ++ ["OFFSET " ++ skipped offset ++ " ROWS"]
      ++ (limit.map fun b => "FETCH NEXT " ++ b.text ++ " ROWS ONLY").toList)
  | _, limit, offset => plainPaging limit offset

theorem limitClause_none (e : Engine) (ordered : Bool) : e.limitClause none none ordered = "" := by
  cases e <;> rfl

end Engine

end SqlCompose
