import SqlCompose.Proofs.Draft.Marked
import SqlCompose.Proofs.Render.Source
import SqlCompose.Statement.Select

/-!
# Composed values

Expressions and SELECTs whose parts have the types that are declared for them, with names, operators
and joins of some vocabulary. What is written of such a SELECT is a row of clauses, each behind its
keyword and each of them a row of phrases: expressions, names and lists of names.
-/
namespace SqlCompose

/-! ## Typed clauses -/

/-- The clauses of a SELECT, each of the type that is declared for it. A source is a table or a
subquery. -/
structure SelectClauses where
  filter : Option Expr := none
  fields : List Expr := []
  sources : List Value := []
  joins : List Join := []
  groupBy : List Expr := []
  having : Option Expr := none
  orderBy : List Expr := []
  members : List (SetOperator × Select) := []
  limit : Option Int := none
  offset : Option Int := none
  distinct : Bool := false

namespace SelectClauses

/-- A further SELECT as a clause holds it. -/
def memberValue (m : SetOperator × Select) : Value := .tuple [.text m.1.keyword, .select m.2]

/-- The SELECT with given clauses. -/
def select (c : SelectClauses) : Select where
  filter := .ofOption .expr c.filter
  fields := .tuple (c.fields.map .expr)
  sources := .tuple c.sources
  joins := .tuple (c.joins.map .join)
  groupBy := .tuple (c.groupBy.map .expr)
  having := .ofOption .expr c.having
  orderBy := .tuple (c.orderBy.map .expr)
  unions := .tuple (c.members.map memberValue)
  limit := .ofOption .int c.limit
  offset := .ofOption .int c.offset
  distinct := .bool c.distinct

/-- What is read from: the sources and those that are joined. -/
def origins (c : SelectClauses) : List Value := c.sources ++ c.joins.map (·.source)

/-- The expressions that the clauses hold. -/
def expressions (c : SelectClauses) : List Expr :=
  c.fields ++ c.origins.filterMap Value.expr? ++ c.joins.filterMap (·.on) ++ c.filter.toList
    ++ c.groupBy ++ c.having.toList ++ c.orderBy

end SelectClauses

/-- What names, operators and joins may be. -/
structure Vocabulary where
  name : String → Prop
  operation : Operator → String → List Expr → Prop
  joinKind : String → Prop

namespace Vocabulary

variable (V : Vocabulary) (cat : Catalog)

/-- Whether a value is no alias, or one with a name of the vocabulary. -/
def IsAlias (a : Value) : Prop := a.truthy = true → ∃ s, a = .text s ∧ V.name s

/-- Whether a table goes by names of the vocabulary. -/
def HasTable (id : TableId) : Prop :=
  V.name (cat.table id).name ∧ ∀ s, (cat.table id).asName = some s → s ≠ "" → V.name s

/-- Whether a column and the table that owns it go by names of the vocabulary. -/
def HasColumn (id : ColumnId) : Prop :=
  V.name (cat.column id).name ∧ ∀ t, cat.owner id = some t → V.HasTable cat t

/-- Whether a JOIN clause is of a kind of the vocabulary and joins a table or a subquery by names of
the vocabulary. -/
structure HasJoin (j : Join) : Prop where
  kind : V.joinKind j.kind
  shared : ∀ s ∈ j.shared, V.name s

end Vocabulary

/-- Expressions and SELECTs from a vocabulary whose parts have the declared types. -/
inductive Value.Composed (cat : Catalog) (V : Vocabulary) : Value → Prop
  | literal {a : Value} (v : Value) (k : Option DataKind) (ha : V.IsAlias a) :
    Composed cat V (.expr (.literal a v k))
  | column {a : Value} {id : ColumnId} (ha : V.IsAlias a) (hc : V.HasColumn cat id) :
    Composed cat V (.expr (.column a id))
  | apply {a : Value} {op : Operator} {symbol : String} {arguments : List Expr} (ha : V.IsAlias a)
    (ho : V.operation op symbol arguments) (h : ∀ x ∈ arguments, Composed cat V (.expr x)) :
    Composed cat V (.expr (.apply a op symbol arguments))
  | order {a : Value} {x : Expr} (descending : Bool) (ha : V.IsAlias a)
    (h : Composed cat V (.expr x)) : Composed cat V (.expr (.order a x descending))
  | group {a : Value} {x : Expr} (ha : V.IsAlias a) (h : Composed cat V (.expr x)) :
    Composed cat V (.expr (.group a x))
  | subquery {a : Value} {q : Select} (ha : V.IsAlias a) (h : Composed cat V (.select q)) :
    Composed cat V (.expr (.subquery a (.select q)))
  | select {c : SelectClauses} (ho : ∀ v ∈ c.origins, v.isSource = true)
    (ht : ∀ id, .table id ∈ c.origins → V.HasTable cat id) (hj : ∀ j ∈ c.joins, V.HasJoin j)
    (hx : ∀ x ∈ c.expressions, Composed cat V (.expr x))
    (hm : ∀ m ∈ c.members, Composed cat V (.select m.2)) : Composed cat V (.select c.select)

namespace SelectClauses

variable {c : SelectClauses}

theorem mem_expressions_of_origin {x : Expr} (h : .expr x ∈ c.origins) : x ∈ c.expressions := by
  have hx : x ∈ c.origins.filterMap Value.expr? := List.mem_filterMap.2 ⟨_, h, rfl⟩
  simp [expressions, hx]

theorem mem_expressions_of_on {j : Join} (hj : j ∈ c.joins) {x : Expr} (hx : j.on = some x) :
    x ∈ c.expressions := by
  have hon : x ∈ c.joins.filterMap (·.on) := List.mem_filterMap.2 ⟨j, hj, hx⟩
  simp [expressions, hon]

end SelectClauses

variable {cat : Catalog} {V : Vocabulary}

theorem Vocabulary.IsAlias.isAlias {a : Value} (h : V.IsAlias a) : a.IsAlias := by
  intro ht
  obtain ⟨s, rfl, -⟩ := h ht
  exact ⟨s, rfl⟩

/-- The name that qualifies a column of a vocabulary. -/
theorem Vocabulary.HasColumn.name_qualifier {id : ColumnId} (h : V.HasColumn cat id)
    (hn : cat.qualifier id ≠ "") : V.name (cat.qualifier id) := by
  unfold Catalog.qualifier at hn ⊢
  split at hn
  · rename_i t ht
    obtain ⟨hname, halias⟩ := h.2 t ht
    unfold Table.nameInQuery
    cases ha : (cat.table t).asName with
    | none => exact hname
    | some s =>
      by_cases hs : s = ""
      · simpa [Option.filter, hs] using hname
      · simpa [Option.filter, hs] using halias s ha hs
  · exact absurd rfl hn

namespace Value.Composed

/-- The alias of a composed expression. -/
theorem asName {x : Expr} (h : (Value.expr x).Composed cat V) : V.IsAlias x.asName := by
  cases h <;> assumption

/-- A composed value is well-formed. -/
theorem wellFormed {v : Value} (h : v.Composed cat V) : v.WellFormed := by
  induction h with
  | literal v k ha => exact .literal v k ha.isAlias
  | column ha hc => exact .column _ ha.isAlias
  | apply ha ho h ih => exact .apply _ _ ha.isAlias ih
  | order descending ha h ih => exact .order descending ha.isAlias ih
  | group ha h ih => exact .group ha.isAlias ih
  | subquery ha h ih => exact .subquery ha.isAlias ih
  | @select c ho ht hj hx hm ih ihm =>
    have hexprs : ∀ xs : List Expr, (∀ x ∈ xs, x ∈ c.expressions) →
        (Value.tuple (xs.map .expr)).WellFormed := by
      intro xs h
      refine wellFormed_tuple.2 fun v hv => ?_
      obtain ⟨x, hx, rfl⟩ := List.mem_map.1 hv
      exact ih x (h x hx)
    have hoptional : ∀ x? : Option Expr, (∀ x ∈ x?.toList, x ∈ c.expressions) →
        (Value.ofOption .expr x?).WellFormed := by
      intro x? h
      cases x? with
      | none => exact .plain rfl
      | some x => exact ih x (h x (by simp))
    have horigin : ∀ v ∈ c.origins, v.WellFormed := by
      intro v hv
      have hsource := ho v hv
      cases v with
      | table id => exact .plain rfl
      | expr x => exact ih x (SelectClauses.mem_expressions_of_origin hv)
      | _ => simp [Value.isSource] at hsource
    refine .select unhooked_nil (hoptional _ ?filter) (hexprs _ ?fields) rfl ?sources rfl ?joins rfl
      (hexprs _ ?groupBy) rfl (hoptional _ ?having) (hexprs _ ?orderBy) rfl ?unions rfl
    case sources => exact wellFormed_tuple.2 fun v hv => horigin v (List.mem_append_left _ hv)
    case joins =>
      refine wellFormed_tuple.2 fun v hv => ?_
      obtain ⟨j, hj, rfl⟩ := List.mem_map.1 hv
      refine wellFormed_join.2 ⟨horigin _ (List.mem_append_right _ (List.mem_map_of_mem hj)), ?_⟩
      exact fun x hx => ih x (SelectClauses.mem_expressions_of_on hj hx)
    case unions =>
      refine wellFormed_tuple.2 fun v hv => ?_
      obtain ⟨m, hm, rfl⟩ := List.mem_map.1 hv
      refine wellFormed_tuple.2 fun w hw => ?_
      rcases List.mem_cons.1 hw with rfl | hw
      · exact .plain rfl
      · obtain rfl := List.mem_singleton.1 hw
        exact ihm m hm
    all_goals
      intro x hx
      simp only [SelectClauses.expressions, List.mem_append]
      tauto

end Value.Composed

end SqlCompose
