import SqlCompose.Proofs.Draft.Alike
import SqlCompose.Render.Clause

/-!
# Aliases out of place

An alias is in place on a field of a SELECT or RETURNING list and on a source. Everywhere else in a
statement, and below every operator, it is out of place. Which places a value has goes down the tree
with the positions; a list of rows, say, has positions of positions.

Columns are the exception: on its own, as the condition of a WHERE, HAVING or ON clause or as a term
of ORDER BY that has no direction, a column is written with its alias, so it keeps the alias here.
-/
namespace SqlCompose

/-- Where a value stands in a statement. -/
inductive Position
  /-- Where any value may stand and is taken as it is. -/
  | any
  /-- In a list of fields or among the sources, where an alias is written. -/
  | field
  /-- Below an operator, or where an operand could stand as well. -/
  | operand
  /-- As a clause of its own. -/
  | clause
  /-- Where a row stands, whose items have a place each: the first item, and all others. -/
  | row (first others : Position)
deriving DecidableEq

namespace Position

/-- Where items stand that all have the same place. -/
def listOf (item : Position) : Position := row item item

/-- Whether a single value is expected, which may be an expression or a statement. -/
def isSingle : Position → Bool
  | field | operand | clause => true
  | any | row .. => false

/-- The alias that is left to an expression. -/
def asName (p : Position) (a : Value) : Value := if p = field then a else .none

/-- The alias that is left to a column. As a clause of its own it is written with its alias. -/
def columnName (p : Position) (a : Value) : Value := if p = operand then .none else a

end Position

mutual

/-- A value without the aliases in it that are out of place. -/
def Value.unaliased : Value → Position → Value
  | .sequence form items, p =>
    .sequence form <| match p with
      | .operand => unaliasedAll items .operand
      | .row first others => unaliasedRow items first others
      | _ => items
  | .expr x, p => .expr (if p.isSingle then x.unaliased p else x)
  | .select q, p => .select (if p.isSingle then q.unaliased else q)
  | .insert q, p => .insert (if p.isSingle then q.unaliased else q)
  | .update q, p => .update (if p.isSingle then q.unaliased else q)
  | .delete q, p => .delete (if p.isSingle then q.unaliased else q)
  | .join j, p => .join (if p.isSingle then j.unaliased else j)
  | .index i, p => .index (if p.isSingle then i.unaliased else i)
  | v, _ => v

/-- Values in the same place without the aliases in them that are out of place. -/
def unaliasedAll : List Value → Position → List Value
  | [], _ => []
  | v :: vs, p => v.unaliased p :: unaliasedAll vs p

/-- The items of a row without the aliases in them that are out of place. -/
def unaliasedRow : List Value → Position → Position → List Value
  | [], _, _ => []
  | v :: vs, first, others => v.unaliased first :: unaliasedAll vs others

/-- An expression without the aliases in it that are out of place. -/
def Expr.unaliased : Expr → Position → Expr
  | .literal a v k, p => .literal (p.asName a) v k
  | .column a id, p => .column (p.columnName a) id
  | .apply a op symbol arguments, p => .apply (p.asName a) op symbol (unaliasedExprs arguments)
  | .order a inner descending, p => .order (p.asName a) (inner.unaliased .operand) descending
  | .group a inner, p => .group (p.asName a) (inner.unaliased .operand)
  | .raw a text, p => .raw (p.asName a) text
  | .subquery a body, p => .subquery (p.asName a) (body.unaliased .clause)
  | .bare a, p => .bare (p.asName a)

/-- Operands without the aliases in them. -/
def unaliasedExprs : List Expr → List Expr
  | [] => []
  | x :: xs => x.unaliased .operand :: unaliasedExprs xs

/-- A condition without the aliases in it that are out of place. -/
def unaliasedOptional : Option Expr → Option Expr
  | none => none
  | some x => some (x.unaliased .clause)

/-- A JOIN clause without the aliases in it that are out of place. -/
def Join.unaliased : Join → Join
  | ⟨kind, source, on, shared⟩ =>
    ⟨kind, source.unaliased .field, unaliasedOptional on, shared⟩

/-- An index without the aliases in it. -/
def Index.unaliased : Index → Index
  | ⟨name, columns, unique, table⟩ => ⟨name, unaliasedAll columns .operand, unique, table⟩

/-- A SELECT without the aliases in it that are out of place. -/
def Select.unaliased : Select → Select
  | ⟨filter, fields, sources, joins, groupBy, having, orderBy, unions, limit, offset, distinct,
      extras⟩ =>
    { filter := filter.unaliased .clause
      fields := fields.unaliased (.listOf .field)
      sources := sources.unaliased (.listOf .field)
      joins := joins.unaliased (.listOf .clause)
      groupBy := groupBy.unaliased (.listOf .operand)
      having := having.unaliased .clause
      orderBy := orderBy.unaliased (.listOf .clause)
      unions := unions.unaliased (.listOf (.row .any .clause))
      limit, offset, distinct, extras }

/-- An INSERT without the aliases in it that are out of place. -/
def Insert.unaliased : Insert → Insert
  | ⟨table, columns, rows, query, returning, extras⟩ =>
    { table
      columns := columns.unaliased (.listOf .operand)
      rows := rows.unaliased (.listOf (.listOf .operand))
      query := query.unaliased .clause
      returning := returning.unaliased (.listOf .field)
      extras }

/-- An UPDATE without the aliases in it that are out of place. -/
def Update.unaliased : Update → Update
  | ⟨filter, table, assignments, returning, extras⟩ =>
    { filter := filter.unaliased .clause
      table
      assignments := assignments.unaliased (.listOf (.listOf .operand))
      returning := returning.unaliased (.listOf .field)
      extras }

/-- A DELETE without the aliases in it that are out of place. -/
def Delete.unaliased : Delete → Delete
  | ⟨filter, table, returning, extras⟩ =>
    { filter := filter.unaliased .clause
      table
      returning := returning.unaliased (.listOf .field)
      extras }

end

/-! ## What stays -/

section

variable {p : Position}

theorem unaliasedAll_eq_map (vs : List Value) (p : Position) :
    unaliasedAll vs p = vs.map (·.unaliased p) := by
  induction vs with
  | nil => rfl
  | cons v vs ih => rw [unaliasedAll, ih, List.map_cons]

namespace Expr

@[simp] theorem level_unaliased (x : Expr) (p : Position) : (x.unaliased p).level = x.level := by
  cases x <;> rfl

@[simp] theorem symbol_unaliased (x : Expr) (p : Position) : (x.unaliased p).symbol = x.symbol := by
  cases x <;> rfl

@[simp] theorem text?_unaliased (x : Expr) (p : Position) : (x.unaliased p).text? = x.text? := by
  cases x with
  | literal a v k =>
    cases v with
    | scalar s => cases s <;> rfl
    | _ => rfl
  | _ => rfl

@[simp] theorem asName_unaliased_field (x : Expr) : (x.unaliased .field).asName = x.asName := by
  cases x <;> rfl

@[simp] theorem isNamed_unaliased_field (x : Expr) : (x.unaliased .field).isNamed = x.isNamed := by
  rw [isNamed, isNamed, asName_unaliased_field]

end Expr

namespace Value

variable {cat : Catalog}

@[simp] theorem isNone_unaliased (v : Value) (p : Position) :
    (v.unaliased p).isNone = v.isNone := by
  cases v <;> rfl

@[simp] theorem truthy_unaliased (v : Value) (p : Position) :
    (v.unaliased p).truthy = v.truthy := by
  cases v with
  | sequence form items =>
    cases items <;> cases p <;> rfl
  | _ => rfl

@[simp] theorem table?_unaliased (v : Value) (p : Position) :
    (v.unaliased p).table? = v.table? := by
  cases v <;> rfl

theorem extras_unaliased (v : Value) (p : Position) : (v.unaliased p).extras = v.extras := by
  cases v with
  | select q | insert q | update q | delete q =>
    simp only [unaliased]
    split
    · cases q
      rfl
    · rfl
  | _ => rfl

/-- Names under which no value holds anything that has an alias. -/
def unnamedParts : List String :=
  ["name", "build", "build_reference", "build_selected", "build_index"]

section

variable {name : String} (h : name ∈ unnamedParts)
include h

theorem derived?_unaliased (v : Value) (p : Position) :
    (v.unaliased p).derived? cat name = v.derived? cat name := by
  simp only [unnamedParts, List.mem_cons, List.not_mem_nil, or_false] at h
  cases v with
  | sequence form items => rcases h with rfl | rfl | rfl | rfl | rfl <;> simp [unaliased, derived?]
  | expr x => rcases h with rfl | rfl | rfl | rfl | rfl <;> simp [unaliased, derived?]
  | _ => rfl

theorem lookup_namedFields_unaliased (x : Expr) (p : Position) :
    ((x.unaliased p).namedFields cat).lookup name = (x.namedFields cat).lookup name := by
  simp only [unnamedParts, List.mem_cons, List.not_mem_nil, or_false] at h
  cases x <;> rcases h with rfl | rfl | rfl | rfl | rfl <;> rfl

theorem lookup_declaredFields_unaliased (v : Value) (p : Position) :
    ((v.unaliased p).declaredFields cat).lookup name = (v.declaredFields cat).lookup name := by
  cases v with
  | expr x =>
    simp only [unaliased]
    split
    · exact lookup_namedFields_unaliased h x p
    · rfl
  | select q | insert q | update q | delete q | join q | index q =>
    simp only [unnamedParts, List.mem_cons, List.not_mem_nil, or_false] at h
    simp only [unaliased]
    split
    · cases q
      rcases h with rfl | rfl | rfl | rfl | rfl <;> rfl
    · rfl
  | _ => rfl

/-- What a value holds under such a name stays. -/
theorem get_unaliased (v : Value) (p : Position) (f : Value) :
    v.get cat name = .ok f ↔ (v.unaliased p).get cat name = .ok f := by
  have hheld : (v.unaliased p).held? cat name = v.held? cat name := by
    rw [held?, held?, lookup_declaredFields_unaliased h, extras_unaliased, derived?_unaliased h]
  rw [get, get, hheld]
  cases v.held? cat name <;> simp

end

end Value

end

end SqlCompose
