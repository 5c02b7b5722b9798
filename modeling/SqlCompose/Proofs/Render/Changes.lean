import SqlCompose.Proofs.Render.Composed

/-!
# Composed changes

INSERT, UPDATE and DELETE whose parts have the types that are declared for them. What is put into a
row or assigned to a column may be anything: a SELECT stands in parentheses there, a sequence is a
list, and whatever is no expression is a literal.
-/
namespace SqlCompose

/-- A column as a clause holds it, with its alias. -/
def columnValue (c : Value × ColumnId) : Value := .expr (.column c.1 c.2)

/-- The clauses of an INSERT, each of the type that is declared for it. -/
structure InsertClauses where
  table : TableId
  columns : List (Value × ColumnId) := []
  rows : List (List Value) := []
  query : Option Select := none
  returning : List Expr := []

/-- The INSERT with given clauses. -/
def InsertClauses.insert (c : InsertClauses) : Insert where
  table := .table c.table
  columns := .tuple (c.columns.map columnValue)
  rows := .tuple (c.rows.map .tuple)
  query := .ofOption .select c.query
  returning := .tuple (c.returning.map .expr)

/-- The clauses of an UPDATE, each of the type that is declared for it. -/
structure UpdateClauses where
  table : TableId
  assignments : List ((Value × ColumnId) × Value)
  filter : Option Expr := none
  returning : List Expr := []

/-- An assignment as a clause holds it. -/
def assignmentValue (a : (Value × ColumnId) × Value) : Value := .tuple [columnValue a.1, a.2]

/-- The UPDATE with given clauses. -/
def UpdateClauses.update (c : UpdateClauses) : Update where
  filter := .ofOption .expr c.filter
  table := .table c.table
  assignments := .tuple (c.assignments.map assignmentValue)
  returning := .tuple (c.returning.map .expr)

/-- The clauses of a DELETE, each of the type that is declared for it. -/
structure DeleteClauses where
  table : TableId
  filter : Option Expr := none
  returning : List Expr := []

/-- The DELETE with given clauses. -/
def DeleteClauses.delete (c : DeleteClauses) : Delete where
  filter := .ofOption .expr c.filter
  table := .table c.table
  returning := .tuple (c.returning.map .expr)

/-- Whether a value stands for a literal where an operand is asked for. -/
def Value.isLiteral : Value → Bool
  | .expr _ | .select _ | .sequence .. => false
  | _ => true

/-- Values that are put into rows: composed expressions and SELECTs, literals, and sequences of such
values. -/
inductive Value.Entry (cat : Catalog) (V : Vocabulary) : Value → Prop
  | composed {v : Value} (h : v.Composed cat V) : Entry cat V v
  | literal {v : Value} (hw : v.WellFormed) (hv : v.isLiteral = true) : Entry cat V v
  | sequence (form : SequenceForm) {items : List Value} (h : ∀ v ∈ items, Entry cat V v) :
    Entry cat V (.sequence form items)

/-- Expressions and statements from a vocabulary whose parts have the declared types. -/
inductive Value.Stated (cat : Catalog) (V : Vocabulary) : Value → Prop
  | composed {v : Value} (h : v.Composed cat V) : Stated cat V v
  | insert {c : InsertClauses} (ht : V.name (cat.table c.table).name)
    (hc : ∀ a ∈ c.columns, V.name (cat.column a.2).name)
    (hr : ∀ row ∈ c.rows, ∀ v ∈ row, v.Entry cat V)
    (hq : ∀ q ∈ c.query, (Value.select q).Composed cat V)
    (hx : ∀ x ∈ c.returning, (Value.expr x).Composed cat V) : Stated cat V (.insert c.insert)
  | update {c : UpdateClauses} (ht : V.HasTable cat c.table)
    (hc : ∀ a ∈ c.assignments, a.1.1.IsAlias ∧ V.name (cat.column a.1.2).name)
    (hv : ∀ a ∈ c.assignments, a.2.Entry cat V)
    (hf : ∀ x ∈ c.filter, (Value.expr x).Composed cat V)
    (hx : ∀ x ∈ c.returning, (Value.expr x).Composed cat V) : Stated cat V (.update c.update)
  | delete {c : DeleteClauses} (ht : V.HasTable cat c.table)
    (hf : ∀ x ∈ c.filter, (Value.expr x).Composed cat V)
    (hx : ∀ x ∈ c.returning, (Value.expr x).Composed cat V) : Stated cat V (.delete c.delete)

namespace Value

variable {cat : Catalog} {V : Vocabulary} {v : Value}

theorem Entry.wellFormed (h : v.Entry cat V) : v.WellFormed := by
  induction h with
  | composed h => exact h.wellFormed
  | literal hw hv => exact hw
  | sequence form h ih => exact .sequence form ih

theorem wellFormed_expressions {xs : List Expr} (h : ∀ x ∈ xs, (Value.expr x).Composed cat V) :
    (Value.tuple (xs.map .expr)).WellFormed := by
  refine wellFormed_tuple.2 fun v hv => ?_
  obtain ⟨x, hx, rfl⟩ := List.mem_map.1 hv
  exact (h x hx).wellFormed

theorem wellFormed_ofOption {α : Type} {f : α → Value} {a? : Option α}
    (h : ∀ a ∈ a?, (f a).WellFormed) : (Value.ofOption f a?).WellFormed := by
  cases a? with
  | none => exact .plain rfl
  | some a => exact h a rfl

/-- A stated value is well-formed. -/
theorem Stated.wellFormed (h : v.Stated cat V) : v.WellFormed := by
  cases h with
  | composed h => exact h.wellFormed
  | @insert c ht hc hr hq hx =>
    refine .insert unhooked_nil (.plain rfl) ?_ rfl
      (wellFormed_ofOption fun q hmem => (hq q hmem).wellFormed) (wellFormed_expressions hx) rfl
    refine wellFormed_tuple.2 fun row hrow => ?_
    obtain ⟨values, hvalues, rfl⟩ := List.mem_map.1 hrow
    exact wellFormed_tuple.2 fun v hv => (hr values hvalues v hv).wellFormed
  | @update c ht hc hv hf hx =>
    refine .update unhooked_nil (wellFormed_ofOption fun x hmem => (hf x hmem).wellFormed)
      (.plain rfl) ?_ rfl (wellFormed_expressions hx) rfl
    refine wellFormed_tuple.2 fun w hw => ?_
    obtain ⟨a, ha, rfl⟩ := List.mem_map.1 hw
    exact wellFormed_tuple.2 (List.forall_mem_cons.2 ⟨.column _ (hc a ha).1,
      List.forall_mem_singleton.2 (hv a ha).wellFormed⟩)
  | @delete c ht hf hx =>
    exact .delete unhooked_nil (wellFormed_ofOption fun x hmem => (hf x hmem).wellFormed) (.plain rfl)
      (wellFormed_expressions hx) rfl

end Value

end SqlCompose
