import SqlCompose.Expr.Calling
import SqlCompose.Expr.Concat

/-!
# Conditions and keyword lookups

What WHERE and HAVING share: their conditions have to be expressions, and further conditions are
joined to those that are there by AND. A keyword of a WHERE call names a column and, after two
underscores, what to do with it. A keyword whose ending is no known lookup is the name of a column
that has to equal the value. The other clauses are tuples, to which more is added at the end. What a
copy of a statement was given under the name of a step goes before the step.
-/
namespace SqlCompose

/-! ## Conditions and further parts -/

/-- The expressions among the given values, or an error for the first that is none. -/
def predicates (cat : Catalog) (clause : String) : List Value → Except Error (List Expr)
  | [] => .ok []
  | .expr e :: vs => do
    return e :: (← predicates cat clause vs)
  | v :: _ => do throw (.notAPredicate clause (← v.display cat) v.typeTag.name)

/-- Conditions together with the one that is there already. -/
def joinConditions (existing : Value) (conditions : List Value) : Except Error Expr :=
  Expr.and ((if existing.isNone then [] else [existing]) ++ conditions)

/-- A clause with more parts at its end. The clauses that hold several parts are tuples; next to
anything else the parts are put together with it as any two values are. -/
def Value.more (clause : Value) (added : List Value) : Except Error Value :=
  clause.plus (.tuple added)

@[simp] theorem Value.more_tuple (items added : List Value) :
    (Value.tuple items).more added = .ok (.tuple (items ++ added)) := rfl

/-! ## Lookups -/

/-- What a keyword asks of a column. -/
inductive Lookup
  | exact
  | iexact
  | ne
  | lt
  | lte
  | gt
  | gte
  | among
  | range
  | isnull
  | icontains
  | contains
  | istartswith
  | startswith
  | iendswith
  | endswith
  | like
  | ilike
deriving DecidableEq, Inhabited

namespace Lookup

/-- The endings of the lookups. -/
def names : List (String × Lookup) :=
  [("exact", exact), ("iexact", iexact), ("ne", ne), ("lt", lt), ("lte", lte), ("gt", gt),
    ("gte", gte), ("in", among), ("range", range), ("isnull", isnull), ("icontains", icontains),
    ("contains", contains), ("istartswith", istartswith), ("startswith", startswith),
    ("iendswith", iendswith), ("endswith", endswith), ("like", like), ("ilike", ilike)]

def ofName? (name : String) : Option Lookup := names.lookup name

/-- The text before and after the last pair of underscores. -/
def splitLast : List Char → Option (List Char × List Char)
  | [] => none
  | c :: cs =>
    match splitLast cs with
    | some (before, after) => some (c :: before, after)
    | none => if c = '_' ∧ cs.head? = some '_' then some ([], cs.tail) else none

theorem splitLast_eq_none {cs : List Char} (h : '_' ∉ cs) : splitLast cs = none := by
  induction cs with
  | nil => rfl
  | cons c cs ih =>
    simp only [List.mem_cons, not_or] at h
    simp [splitLast, ih h.2, Ne.symm h.1]

/-- The last pair of underscores is the one before the last part without underscores. -/
theorem splitLast_append {after : List Char} (h : '_' ∉ after) (before : List Char) :
    splitLast (before ++ '_' :: '_' :: after) = some (before, after) := by
  have single : splitLast ('_' :: after) = none := by
    have head : after.head? ≠ some '_' := fun e => h (List.mem_of_head? e)
    rw [splitLast, splitLast_eq_none h]
    simp [head]
  induction before with
  | nil =>
    rw [List.nil_append, splitLast, single]
    simp
  | cons c cs ih => simp [splitLast, ih]

/-- The column name and the lookup that a keyword stands for. -/
def parse (key : String) : String × Lookup :=
  match splitLast key.toList with
  | some (before, after) =>
    match ofName? (String.ofList after) with
    | some lookup => if before = [] then (key, exact) else (String.ofList before, lookup)
    | none => (key, exact)
  | none => (key, exact)

/-- The test that a lookup makes of an expression and a value. -/
def apply (e : Expr) (v : Value) : Lookup → Except Error Expr
  | exact => Expr.compare "=" e.value v
  | iexact =>
    match v.text? with
    | some s =>
      Expr.compare "=" (Expr.call "LOWER" [e.value]).value (.text (Text.lower s))
    | none => Expr.compare "=" e.value v
  | ne => Expr.compare "<>" e.value v
  | lt => Expr.compare "<" e.value v
  | lte => Expr.compare "<=" e.value v
  | gt => Expr.compare ">" e.value v
  | gte => Expr.compare ">=" e.value v
  | among => .ok (e.isIn v)
  | range => e.between v .none
  | isnull => .ok (if v.truthy then e.isNull else e.isNotNull)
  | icontains => .ok (e.like v { caseInsensitive := true })
  | contains => .ok (e.like v {})
  | istartswith => .ok (e.like v { fuzzyStart := false, caseInsensitive := true })
  | startswith => .ok (e.like v { fuzzyStart := false })
  | iendswith => .ok (e.like v { fuzzyEnd := false, caseInsensitive := true })
  | endswith => .ok (e.like v { fuzzyEnd := false })
  | like => .ok (e.like v Expr.exactPattern)
  | ilike => .ok (e.like v { Expr.exactPattern with caseInsensitive := true })

/-- The name of the test that a lookup asks for. -/
def method : Lookup → String
  | exact => "__eq__"
  | iexact => "_iexact"
  | ne => "__ne__"
  | lt => "__lt__"
  | lte => "__le__"
  | gt => "__gt__"
  | gte => "__ge__"
  | among => "in_"
  | range => "between"
  | isnull => "_isnull"
  | icontains => "icontains"
  | contains => "contains"
  | istartswith => "istartswith"
  | startswith => "startswith"
  | iendswith => "iendswith"
  | endswith => "endswith"
  | like => "like"
  | ilike => "ilike"

/-- What a value says that two values which cannot be compared are. -/
def incomparable : Value := .object (.plain "NotImplementedType")

/-- How a value that is no expression compares with another one. -/
def compared (a b : Value) (lookup : Lookup) : Option Value :=
  let ordered := fun (test : Bool → Bool → Bool) =>
    match a, b with
    | .scalar (.int m), .scalar (.int n) => Value.bool (test (decide (m < n)) (decide (n < m)))
    | .scalar (.text s), .scalar (.text t) => .bool (test (decide (s < t)) (decide (t < s)))
    | _, _ => incomparable
  let equal := fun (negated : Bool) =>
    if a.typeTag = b.typeTag then Value.bool (a.sameKey b != negated) else incomparable
  match lookup with
  | exact => some (equal false)
  | ne => some (equal true)
  | lt => some (ordered fun below _ => below)
  | lte => some (ordered fun _ above => !above)
  | gt => some (ordered fun _ above => above)
  | gte => some (ordered fun below _ => !below)
  | _ => none

/-- The condition that a lookup makes of what stands for a column. -/
def test (cat : Catalog) (column v : Value) (lookup : Lookup) : Except Error Value :=
  match column.expr?, compared column v lookup with
  | some e, _ => (lookup.apply e v).map .expr
  | none, some outcome => .ok outcome
  | none, none => column.invoke cat lookup.method [v]

/-- The condition of one keyword on the columns of a table. -/
def condition (cat : Catalog) (table : Value) (key : String) (v : Value) : Except Error Value := do
  let (name, lookup) := parse key
  match ← table.at? cat (.text name) with
  | some column => lookup.test cat column v
  | none =>
    throw (.unknownLookupColumn (Text.display key) (← (← table.get cat "name").display cat)
      (Text.display name))

/-- The conditions of several keywords, in order. -/
def conditions (cat : Catalog) (table : Except Error Value) :
    List (String × Value) → Except Error (List Value)
  | [] => .ok []
  | (key, v) :: rest => do
    let e ← condition cat (← table) key v
    return e :: (← conditions cat table rest)

end Lookup

/-- The conditions that keywords stand for. -/
def keywordConditions (cat : Catalog) (extras : List (String × Value)) (table : Except Error Value)
    (keywords : List (String × Value)) : Except Error (List Value) :=
  match extras.lookup "_where_kwargs_to_expressions" with
  | some f => do
    (← f.apply cat [.dict (keywords.map fun (k, v) => (.text k, v))]).items cat
  | none => Lookup.conditions cat table keywords

/-- The table in which keywords are looked up; `own` is the one that a statement has. -/
def lookupTable (cat : Catalog) (extras : List (String × Value)) (own : Except Error Value) :
    Except Error Value :=
  match extras.lookup "_lookup_table" with
  | some f => f.apply cat []
  | none => own

/-- The condition of a statement after a WHERE call with predicates and keywords. The keywords are
looked up in `table`, which only matters when there are any. -/
def filtered (cat : Catalog) (extras : List (String × Value)) (table : Except Error Value)
    (existing : Value) (given : List Value) (keywords : List (String × Value)) :
    Except Error Expr := do
  let positional ← predicates cat "where" given
  let named ← keywordConditions cat extras (lookupTable cat extras table) keywords
  let added := positional.map Expr.value ++ named
  if added.isEmpty then throw .emptyWhere
  joinConditions existing added

end SqlCompose
