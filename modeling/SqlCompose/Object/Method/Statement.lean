import SqlCompose.Object.Field
import SqlCompose.Object.Keeping
import SqlCompose.Object.Procedure
import SqlCompose.Statement.Insert
import SqlCompose.Statement.Revise

/-!
# Methods of statements

Every method that adds to a statement yields a new one, of which all other clauses are the same
objects as before. A condition that stays alone is the object that was given. What a copy of a
statement was given under the name of a step goes before the step.
-/
namespace SqlCompose.Method

/-- What a copy of a statement was given in place of a step makes of the arguments, or the step. -/
def stepOr (o : Object) (step : String) (arguments : List Value) (usual : Action Object) :
    Action Object := do
  match o.extra? step with
  | some f => Workspace.make (← Workspace.lift (f.value.apply (← Workspace.catalog) arguments))
  | none => usual

/-- A statement with some clauses changed. -/
def reviseAll (o : Object) (v : Except Error Value) (clauses : List String)
    (held : List (String × Object)) : Action Object := do
  let v ← Workspace.lift v
  let cat ← Workspace.catalog
  let changes := (v.declaredFields cat).filter fun (name, _) => clauses.contains name
  match o.value.copied? cat changes with
  | some copy => Workspace.make (← Workspace.lift copy)
  | none => return o.revised cat (← Workspace.fresh) v clauses held

/-- A statement with one clause changed. -/
def revise (o : Object) (v : Except Error Value) (clause : String) (held : Option Object) :
    Action Object :=
  reviseAll o v [clause] (held.map (clause, ·)).toList

/-- The last of the conditions that a combination is made of, when so many come before them. -/
def lastConditions (e : Expr) (before : Nat) : List Expr :=
  match before, e with
  | 0, .apply _ .boolean "AND" arguments => arguments
  | 0, e => [e]
  | n, .apply _ .boolean "AND" arguments => arguments.drop n
  | _, _ => []

/-- The combination that a clause becomes, of conditions that were given as objects and of keywords
that look something up. -/
def condition? (e : Expr) (given lookups : List Object) : Action (Option Object) := do
  let known ← given.flatMapM (Workspace.flattened "AND")
  let added := lastConditions e known.length
  if added.length ≠ lookups.length then return none
  let tests ← (added.zip lookups).mapM fun (e, o) => Keeping.lookup e o
  return some (← Workspace.combined e (known ++ tests))

/-- A statement with further conditions in one of its clauses. -/
def restrict (o : Object) (clause : String) (v : Except Error Value) (a : Arguments) :
    Action Object := do
  let v ← Workspace.lift v
  let existing ← Workspace.field o clause
  let given := if existing.value.isNone then a.more else existing :: a.more
  let held ← match (v.declaredFields (← Workspace.catalog)).lookup clause with
    | some (.expr e) => condition? e given (a.others.map (·.2))
    | _ => pure none
  revise o (.ok v) clause held

/-- A method that adds conditions given as predicates and as keywords. It has two names, and what a
copy of a statement was given under the first one goes before the second one. -/
def conditions (o : Object) (name : String)
    (add : Catalog → List Value → List (String × Value) → Except Error Value) : Procedure :=
  .anyNames fun a => do
    let cat ← Workspace.catalog
    match o.extra? "where", name with
    | some f, "filter" =>
      Workspace.make (← Workspace.lift (f.value.applyNamed cat a.moreValues a.otherValues))
    | _, _ => restrict o "where_clause" (add cat a.moreValues a.otherValues) a

/-- A statement with objects added to one of its clauses. -/
def extend (o : Object) (v : Except Error Value) (clause : String)
    (added : Action (List Object)) : Action Object := do
  let v ← Workspace.lift v
  revise o (.ok v) clause (← Keeping.extended o clause v (← added))

/-- A method that takes any number of objects for one clause, each of which adds to it what `read`
makes of it. -/
def addition (o : Object) (clause : String) (read : List Object → Action (List Object))
    (add : Catalog → List Value → Except Error Value) : Procedure :=
  .variadic [] fun a => do
    extend o (add (← Workspace.catalog) a.moreValues) clause (read a.more)

/-- A method that takes one object for a clause, which holds that object. -/
def setting (o : Object) (name clause : String) (set : Catalog → Value → Except Error Value) :
    Procedure :=
  .exact [name] fun a => do
    revise o (set (← Workspace.catalog) (a.value name)) clause (some (a.get name))

/-! ## Methods of all statements -/

/-- A copy of a statement with some clauses replaced. -/
def replaced (o : Object) (a : Arguments) : Action Object := do
  let cat ← Workspace.catalog
  match o.value.copied? cat a.otherValues with
  | some copy => Workspace.make (← Workspace.lift copy)
  | none =>
    let v := o.value.withClauses a.otherValues
    return o.revised cat (← Workspace.fresh) v (a.others.map (·.1)) a.others

/-- The methods that all statements have, by name. -/
def ofStatement? (o : Object) (name : String) : Option Procedure :=
  match name with
  | "compile" => some (.optional [] ["dialect"] fun a => do
      Workspace.compile (← Workspace.dialectOr (a.value "dialect")) o)
  | "build" => some (rendering o fun cat e => o.value.built cat e)
  | "clone_query_with" => some (.anyKeywords (replaced o))
  | _ => none

/-! ## SELECT -/

/-- The kinds of join that take a condition, by the names of their methods. -/
def conditionalJoins : List (String × String) :=
  [("join", "INNER"), ("left_join", "LEFT OUTER"), ("right_join", "RIGHT OUTER"),
    ("full_join", "FULL OUTER")]

/-- The kinds of join without a condition, by the names of their methods. -/
def plainJoins : List (String × String) :=
  [("cross_join", "CROSS"), ("natural_join", "NATURAL")]

/-- What a JOIN clause holds of the arguments that it was made with. -/
def joinFields (a : Arguments) : Action (List (String × Object)) := do
  if (a.value "on").isNone then return a.named
  return ("on", ← Workspace.asExpr (a.get "on")) :: a.named

/-- Adds a JOIN clause, with a condition if the kind of join takes one. -/
def addJoin (o : Object) (q : Select) (kind : String) (conditional : Bool) (a : Arguments) :
    Action Object := do
  let cat ← Workspace.catalog
  let (table, on, shared) := (a.value "table", a.value "on", a.valueOr "using" (.tuple []))
  let arguments := [.text kind, table] ++ if conditional then [on, shared] else []
  stepOr o "_join" arguments do
    let q ← Workspace.lift (q.join cat kind table on shared)
    extend o (.ok (.select q)) "joins" do
      match (← Workspace.lift (q.joins.items cat)).getLast? with
      | some join => return [← Keeping.make join (← joinFields a)]
      | none => return []

/-- The methods of a SELECT that add a join, by name. -/
def joining? (o : Object) (q : Select) (name : String) : Option Procedure :=
  match conditionalJoins.lookup name, plainJoins.lookup name with
  | some kind, _ => some (.optional ["table"] ["on", "using"] (addJoin o q kind true))
  | none, some kind => some (.exact ["table"] (addJoin o q kind false))
  | none, none => none

/-- Adds conditions to the HAVING clause. -/
def addHaving (o : Object) (q : Select) (a : Arguments) : Action Object := do
  let v := (q.addHaving (← Workspace.catalog) a.moreValues).map Value.select
  restrict o "having_clause" v a

/-- Adds the rows of another SELECT. -/
def addUnion (o : Object) (q : Select) (op : SetOperator) : Procedure :=
  .exact ["other"] fun a =>
    stepOr o "_union" [.text op.keyword, a.value "other"] <|
      extend o ((q.addUnion op (a.value "other")).map .select) "unions" do
        return [← Workspace.sequence .tuple [.word op.keyword, a.get "other"]]

/-- The methods of a SELECT, by name. -/
def ofSelect? (o : Object) (q : Select) (name : String) : Option Procedure :=
  match name with
  | "select" =>
    some (addition o "select_fields" Keeping.selection fun cat vs =>
      (q.select cat vs).map .select)
  | "from_" => some (addition o "tables" pure fun _ vs => (q.addSources vs).map .select)
  | "where" | "filter" =>
    some (conditions o name fun cat given keywords =>
      (q.addConditions cat given keywords).map .select)
  | "group_by" =>
    some (addition o "group_by_fields" Workspace.asExprs fun _ vs => (q.addGroups vs).map .select)
  | "having" => some (.variadic [] (addHaving o q))
  | "order_by" =>
    some (addition o "order_by_fields" Keeping.order fun cat vs =>
      (q.addOrders cat vs).map .select)
  | "limit" => some (setting o "limit" "limit_value" fun cat v => (q.setLimit cat v).map .select)
  | "offset" =>
    some (setting o "offset" "offset_value" fun cat v => (q.setOffset cat v).map .select)
  | "distinct" =>
    some (.exact [] fun _ => revise o (.ok (.select q.setDistinct)) "is_distinct" none)
  | "union" => some (addUnion o q .union)
  | "union_all" => some (addUnion o q .unionAll)
  | "as_subquery" => some (.optional [] ["alias"] fun a => do
      let asName ← Workspace.lift (Field.optionalText (some (a.value "alias")))
      let held := [("query", o), ("alias", a.get "alias")]
      Workspace.makeWith (.expr (.subquery (.ofOption .text asName) o.value)) held)
  | name => joining? o q name

/-! ## INSERT, UPDATE and DELETE -/

/-- The mapping of a row by column, if it is one. -/
def namedRow? (a : Arguments) : Option Value :=
  match a.moreValues, a.others.isEmpty with
  | [.dict entries], true => some (.dict entries)
  | [], false => some (.dict (a.otherValues.map fun (name, v) => (.text name, v)))
  | _, _ => none

/-- What stands in the row that arguments make. -/
def rowObjects (a : Arguments) : List Object :=
  match a.more, namedRow? a with
  | [given], some _ => (Object.pairs given.items).map (·.2)
  | _, some _ => a.others.map (·.2)
  | row, none => row

/-- Adds one row by position or by column. -/
def addValues (o : Object) (q : Insert) (a : Arguments) : Action Object := do
  let cat ← Workspace.catalog
  let usual := do
    let v ← Workspace.lift ((q.addValues cat a.moreValues a.otherValues).map Value.insert)
    let row ← Workspace.sequence .tuple (rowObjects a)
    let held := (← Keeping.extended o "rows_values" v [row]).map ("rows_values", ·)
    let clauses := if (namedRow? a).isSome then ["column_list", "rows_values"] else ["rows_values"]
    reviseAll o (.ok v) clauses held.toList
  match namedRow? a with
  | some row => stepOr o "_named_row" [row] usual
  | none => usual

/-- The methods of an INSERT, by name. -/
def ofInsert? (o : Object) (q : Insert) (name : String) : Option Procedure :=
  match name with
  | "columns" =>
    some (.variadic [] fun a => do
      revise o ((q.setColumns (← Workspace.catalog) a.moreValues).map .insert) "column_list" none)
  | "values" => some (.anyNames (addValues o q))
  | "rows" =>
    some (addition o "rows_values" (·.mapM Keeping.asRow) fun cat vs =>
      (q.addRows cat vs).map .insert)
  | "from_select" => some (setting o "query" "select_query" fun _ v => (q.setQuery v).map .insert)
  | "returning" =>
    some (addition o "returning_fields" Workspace.asExprs fun _ vs =>
      (q.addReturning vs).map .insert)
  | _ => none

/-- Adds assignments, which are given as a mapping and as keywords. -/
def assignment (o : Object) (q : Update) : Procedure where
  signature := { names := ["mapping"], required := 0, unnamed := 1, takesOthers := true }
  run a := do
    let set := q.set (← Workspace.catalog) (a.value "mapping") a.otherValues
    let v ← Workspace.lift (set.map Value.update)
    let mapping := match a.value "mapping" with
      | .dict _ => Object.pairs (a.get "mapping").items
      | _ => []
    let given := mapping.map (·.2) ++ a.others.map (·.2)
    extend o (.ok v) "assignments" (Keeping.assignments v given)

/-- The methods of an UPDATE, by name. -/
def ofUpdate? (o : Object) (q : Update) (name : String) : Option Procedure :=
  match name with
  | "set" => some (assignment o q)
  | "where" | "filter" =>
    some (conditions o name fun cat given keywords =>
      (q.addConditions cat given keywords).map .update)
  | "returning" =>
    some (addition o "returning_fields" Workspace.asExprs fun _ vs =>
      (q.addReturning vs).map .update)
  | _ => none

/-- The methods of a DELETE, by name. -/
def ofDelete? (o : Object) (q : Delete) (name : String) : Option Procedure :=
  match name with
  | "where" | "filter" =>
    some (conditions o name fun cat given keywords =>
      (q.addConditions cat given keywords).map .delete)
  | "returning" =>
    some (addition o "returning_fields" Workspace.asExprs fun _ vs =>
      (q.addReturning vs).map .delete)
  | _ => none

/-- The methods of a statement of a given kind, by name. -/
def ofClauses? (o : Object) (name : String) : Option Procedure :=
  match o.value with
  | .select q => ofSelect? o q name
  | .insert q => ofInsert? o q name
  | .update q => ofUpdate? o q name
  | .delete q => ofDelete? o q name
  | _ => none

end SqlCompose.Method
