import SqlCompose.Expr.Keywords

/-!
# Replacing clauses

A copy of a statement with some of its clauses replaced by their names. What a clause is replaced by
is not looked at before the statement is rendered, and what is given under a name that is no clause
is kept beside the clauses.
-/
namespace SqlCompose

/-- Values under names with one more, in the place of the one that has its name if there is one. -/
def withNamed (entries : List (String × Value)) (name : String) (v : Value) :
    List (String × Value) :=
  if entries.any (·.1 == name) then
    entries.map fun entry => if entry.1 == name then (name, v) else entry
  else entries ++ [(name, v)]

/-- A SELECT with one clause replaced. -/
def Select.withClause (q : Select) (name : String) (v : Value) : Select :=
  match name with
  | "where_clause" => { q with filter := v }
  | "select_fields" => { q with fields := v }
  | "tables" => { q with sources := v }
  | "joins" => { q with joins := v }
  | "group_by_fields" => { q with groupBy := v }
  | "having_clause" => { q with having := v }
  | "order_by_fields" => { q with orderBy := v }
  | "unions" => { q with unions := v }
  | "limit_value" => { q with limit := v }
  | "offset_value" => { q with offset := v }
  | "is_distinct" => { q with distinct := v }
  | _ => { q with extras := withNamed q.extras name v }

/-- An INSERT with one clause replaced. -/
def Insert.withClause (q : Insert) (name : String) (v : Value) : Insert :=
  match name with
  | "table" => { q with table := v }
  | "column_list" => { q with columns := v }
  | "rows_values" => { q with rows := v }
  | "select_query" => { q with query := v }
  | "returning_fields" => { q with returning := v }
  | _ => { q with extras := withNamed q.extras name v }

/-- An UPDATE with one clause replaced. -/
def Update.withClause (q : Update) (name : String) (v : Value) : Update :=
  match name with
  | "where_clause" => { q with filter := v }
  | "table" => { q with table := v }
  | "assignments" => { q with assignments := v }
  | "returning_fields" => { q with returning := v }
  | _ => { q with extras := withNamed q.extras name v }

/-- A DELETE with one clause replaced. -/
def Delete.withClause (q : Delete) (name : String) (v : Value) : Delete :=
  match name with
  | "where_clause" => { q with filter := v }
  | "table" => { q with table := v }
  | "returning_fields" => { q with returning := v }
  | _ => { q with extras := withNamed q.extras name v }

/-- A statement with one clause replaced. -/
def Value.withClause (v : Value) (change : String × Value) : Value :=
  match v with
  | .select q => .select (q.withClause change.1 change.2)
  | .insert q => .insert (q.withClause change.1 change.2)
  | .update q => .update (q.withClause change.1 change.2)
  | .delete q => .delete (q.withClause change.1 change.2)
  | .statement extras => .statement (withNamed extras change.1 change.2)
  | v => v

/-- A statement with several clauses replaced, one after the other. -/
def Value.withClauses (v : Value) (changes : List (String × Value)) : Value :=
  changes.foldl Value.withClause v

/-- What a copy of a statement was given to be copied with, if anything, makes of changes. -/
def Value.copied? (cat : Catalog) (v : Value) (changes : List (String × Value)) :
    Option (Except Error Value) :=
  match v.extras.lookup "clone_query_with", v.extras.lookup "model_copy" with
  | some f, _ => some (f.applyNamed cat [] changes)
  | Option.none, some f =>
    let update := Value.dict (changes.map fun (name, w) => (.text name, w))
    some (f.applyNamed cat [] [("update", update)])
  | Option.none, Option.none => Option.none

end SqlCompose
