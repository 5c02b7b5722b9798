import SqlCompose.Render.Clause
import SqlCompose.Statement.Lookup

/-!
# Building SELECT statements

Each function adds to one clause of a statement and leaves the others as they are, so a statement
that is built halfway can serve as the start of several others.
-/
namespace SqlCompose

/-- Whether a value can be a source: a table or a subquery. -/
def Value.isSource : Value → Bool
  | .table _ | .expr (.subquery ..) => true
  | _ => false

/-- Checks that a value can be the count of a paging clause: a number that is not negative. -/
def checkCount (cat : Catalog) (clause : String) (v : Value) : Except Error Value :=
  match v with
  | .scalar (.int n) =>
    if n < 0 then do throw (.badCount clause (← v.display cat)) else .ok v
  | _ => do throw (.badCount clause (← v.display cat))

/-- The names of shared columns: a name, or names and columns. -/
def sharedNames (cat : Catalog) (v : Value) : Except Error (List String) := do
  let items ← match v with
    | .scalar (.text s) => pure [.text s]
    | v => v.items cat
  items.mapM fun item =>
    match item with
    | .scalar (.text s) => .ok s
    | .expr (.column _ id) => .ok (cat.column id).name
    | _ => .error .badField

namespace Select

/-- The fields that values add to the SELECT list. -/
def added (cat : Catalog) (q : Select) (fields : List Value) : Except Error (List Value) :=
  match q.extras.lookup "_normalize_fields" with
  | some f => do (← f.apply cat [.tuple fields]).items cat
  | none => .ok ((fields.flatMap (Value.selection cat)).map .expr)

/-- Adds fields to the SELECT list; a table adds all of its columns. -/
def select (cat : Catalog) (q : Select) (fields : List Value) : Except Error Select := do
  return { q with fields := ← q.fields.more (← q.added cat fields) }

/-- Adds sources to the FROM clause. -/
def addSources (q : Select) (given : List Value) : Except Error Select := do
  if let some v := given.find? fun v => !v.isSource then throw (.notASource "from_" v.typeTag)
  return { q with sources := ← q.sources.more given }

/-- Adds a JOIN clause of a given kind. -/
def join (cat : Catalog) (q : Select) (kind : String) (source on shared : Value) :
    Except Error Select := do
  if !source.isSource then throw (.notASource "join" source.typeTag)
  let shared ← sharedNames cat shared
  let on := if on.isNone then none else some on.toExpr
  return { q with joins := ← q.joins.more [.join { kind, source, on, shared }] }

/-- The table in which keywords are looked up: the first table among the sources. -/
def lookupTable (cat : Catalog) (q : Select) : Except Error Value := do
  match (← (← q.effectiveSources cat).items cat).findSome? Value.table? with
  | some id => return .table id
  | none => throw .noLookupTable

/-- Adds conditions to the WHERE clause. -/
def addConditions (cat : Catalog) (q : Select) (given : List Value)
    (keywords : List (String × Value)) : Except Error Select := do
  return { q with
    filter := .expr (← filtered cat q.extras (q.lookupTable cat) q.filter given keywords) }

/-- Adds terms to the GROUP BY clause. -/
def addGroups (q : Select) (fields : List Value) : Except Error Select := do
  return { q with groupBy := ← q.groupBy.more ((Value.toExprs fields).map .expr) }

/-- Adds conditions to the HAVING clause. -/
def addHaving (cat : Catalog) (q : Select) (given : List Value) : Except Error Select := do
  if given.isEmpty then throw .emptyHaving
  let conditions ← predicates cat "having" given
  return { q with having := .expr (← joinConditions q.having (conditions.map Expr.value)) }

/-- A term of an ORDER BY clause: an expression ascends unless it says otherwise. -/
def orderTerm (v : Value) : Except Error Value :=
  match v with
  | .expr (.order ..) => .ok v
  | .expr e => .ok (.expr e.ascending)
  | v => .error (.notAnOrder v.typeTag)

/-- Adds terms to the ORDER BY clause. -/
def addOrders (cat : Catalog) (q : Select) (given : List Value) : Except Error Select := do
  let terms ← q.orderBy.items cat
  return { q with orderBy := .tuple (terms ++ (← given.mapM orderTerm)) }

/-- Sets how many rows to keep. -/
def setLimit (cat : Catalog) (q : Select) (v : Value) : Except Error Select := do
  return { q with limit := ← checkCount cat "LIMIT" v }

/-- Sets how many rows to skip. -/
def setOffset (cat : Catalog) (q : Select) (v : Value) : Except Error Select := do
  return { q with offset := ← checkCount cat "OFFSET" v }

/-- Drops rows that occur twice. -/
def setDistinct (q : Select) : Select := { q with distinct := .bool true }

/-- Adds the rows of another SELECT. -/
def addUnion (q : Select) (op : SetOperator) (v : Value) : Except Error Select :=
  match v with
  | .select _ => do return { q with unions := ← q.unions.more [.tuple [.text op.keyword, v]] }
  | v =>
    .error (.notASelect (match op with | .union => "union" | .unionAll => "union all") v.typeTag)

end Select

end SqlCompose
