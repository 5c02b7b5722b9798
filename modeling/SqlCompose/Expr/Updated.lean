import SqlCompose.Catalog.Basic
import SqlCompose.Dialect.Change

/-!
# Values as they are now

What a context has bound grows, and wherever the list of it is held it has grown too. Values are
brought up to date here, given what each context has bound so far. Nothing else about a value
changes.
-/
namespace SqlCompose

/-- What contexts have bound so far, each under its number. -/
abbrev Bindings := List (Nat × List Value)

mutual

/-- A value as it is now. -/
def Value.updated (b : Bindings) : Value → Value
  | .sequence form items =>
    match form with
    | .bound n => .parameters n ((b.lookup n).getD items)
    | form => .sequence form (updatedAll b items)
  | .dict entries => .dict (updatedEntries b entries)
  | .expr e => .expr (e.updated b)
  | .select q => .select (q.updated b)
  | .insert q => .insert (q.updated b)
  | .update q => .update (q.updated b)
  | .delete q => .delete (q.updated b)
  | .statement extras => .statement (updatedNamed b extras)
  | .join j => .join (j.updated b)
  | .index i => .index (i.updated b)
  | .foreignKey k => .foreignKey (k.updated b)
  | .dialect d => .dialect (d.updated b)
  | .builder d => .builder (d.updated b)
  | .context d n parameters => .context (d.updated b) n ((b.lookup n).getD parameters)
  | .method owner name => .method (owner.updated b) name
  | v => v

def updatedAll (b : Bindings) : List Value → List Value
  | [] => []
  | v :: vs => v.updated b :: updatedAll b vs

def updatedEntries (b : Bindings) : List (Value × Value) → List (Value × Value)
  | [] => []
  | (k, v) :: entries => (k.updated b, v.updated b) :: updatedEntries b entries

def updatedNamed (b : Bindings) : List (String × Value) → List (String × Value)
  | [] => []
  | (name, v) :: entries => (name, v.updated b) :: updatedNamed b entries

/-- An expression as it is now. -/
def Expr.updated (b : Bindings) : Expr → Expr
  | .literal a v k => .literal (a.updated b) (v.updated b) k
  | .column a id => .column (a.updated b) id
  | .apply a op symbol arguments => .apply (a.updated b) op symbol (updatedExprs b arguments)
  | .order a inner descending => .order (a.updated b) (inner.updated b) descending
  | .group a inner => .group (a.updated b) (inner.updated b)
  | .raw a text => .raw (a.updated b) text
  | .subquery a body => .subquery (a.updated b) (body.updated b)
  | .bare a => .bare (a.updated b)

def updatedExprs (b : Bindings) : List Expr → List Expr
  | [] => []
  | e :: es => e.updated b :: updatedExprs b es

def updatedOptional (b : Bindings) : Option Expr → Option Expr
  | none => none
  | some e => some (e.updated b)

def Join.updated (b : Bindings) : Join → Join
  | ⟨kind, source, on, shared⟩ => ⟨kind, source.updated b, updatedOptional b on, shared⟩

def Index.updated (b : Bindings) : Index → Index
  | ⟨name, columns, unique, table⟩ => ⟨name, updatedAll b columns, unique, table⟩

def ForeignKey.updated (b : Bindings) : ForeignKey → ForeignKey
  | ⟨columns, references, onDelete, onUpdate⟩ =>
    ⟨columns, updatedExprs b references, onDelete, onUpdate⟩

def Select.updated (b : Bindings) : Select → Select
  | ⟨filter, fields, sources, joins, groupBy, having, orderBy, unions, limit, offset, distinct,
      extras⟩ =>
    ⟨filter.updated b, fields.updated b, sources.updated b, joins.updated b, groupBy.updated b,
      having.updated b, orderBy.updated b, unions.updated b, limit.updated b, offset.updated b,
      distinct.updated b, updatedNamed b extras⟩

def Insert.updated (b : Bindings) : Insert → Insert
  | ⟨table, columns, rows, query, returning, extras⟩ =>
    ⟨table.updated b, columns.updated b, rows.updated b, query.updated b, returning.updated b,
      updatedNamed b extras⟩

def Update.updated (b : Bindings) : Update → Update
  | ⟨filter, table, assignments, returning, extras⟩ =>
    ⟨filter.updated b, table.updated b, assignments.updated b, returning.updated b,
      updatedNamed b extras⟩

def Delete.updated (b : Bindings) : Delete → Delete
  | ⟨filter, table, returning, extras⟩ =>
    ⟨filter.updated b, table.updated b, returning.updated b, updatedNamed b extras⟩

/-- A dialect as it is now. A setting that was given otherwise has the effect that it has now. -/
def Dialect.updated (b : Bindings) : Dialect → Dialect
  | ⟨engine, quote, style, bindLiterals, autoIncrement, typeNames, substitutions, given⟩ =>
    Dialect.setAll
      ⟨engine, quote, style, bindLiterals, autoIncrement, typeNames, substitutions, []⟩
      (updatedNamed b given)

end

theorem updatedAll_eq_map (b : Bindings) (vs : List Value) :
    updatedAll b vs = vs.map (Value.updated b) := by
  induction vs with
  | nil => rfl
  | cons v vs ih => simp [updatedAll, ih]

/-- The list of what a context has bound is always the last one. -/
theorem Value.updated_parameters (b : Bindings) (n : Nat) (items : List Value) :
    (Value.parameters n items).updated b = .parameters n ((b.lookup n).getD items) := by
  simp [Value.parameters, Value.updated]

theorem Value.updated_scalar (b : Bindings) (s : Scalar) :
    (Value.scalar s).updated b = .scalar s := by
  simp [Value.updated]

/-- The catalog as it is now. -/
def Catalog.updated (b : Bindings) (cat : Catalog) : Catalog :=
  { columns := cat.columns.map fun c => { c with default := c.default.updated b }
    tables := cat.tables.map fun t =>
      { t with
        columns := t.columns.map fun r => { r with asName := r.asName.updated b }
        foreignKeys := t.foreignKeys.map (·.updated b) } }

end SqlCompose
