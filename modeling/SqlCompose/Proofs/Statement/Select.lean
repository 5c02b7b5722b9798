import SqlCompose.Proofs.Dialect.Wording
import SqlCompose.Statement.Select

/-!
# SELECTs that are built step by step

Every clause that a step adds to has the form that its kind of parts gives it: fields and terms are
expressions, sources are tables and subqueries, and a condition is one expression.
-/
namespace SqlCompose

variable {cat : Catalog} {q later : Select}

/-- Whether a clause is a condition, if it is there. -/
def Value.IsOptionalExpr (v : Value) : Prop := v = .none ∨ ∃ x, v = .expr x

/-- Whether a clause is made of expressions. -/
def Value.IsExprs (v : Value) : Prop := ∃ xs : List Expr, v = .tuple (xs.map .expr)

/-- The SELECTs that come of one without clauses step by step, without members. -/
inductive Select.Stepwise (cat : Catalog) : Select → Prop
  | empty : Stepwise cat .empty
  | select {q later : Select} (h : Stepwise cat q) (given : List Value)
    (hq : q.select cat given = .ok later) : Stepwise cat later
  | addSources {q later : Select} (h : Stepwise cat q) (given : List Value)
    (hq : q.addSources given = .ok later) : Stepwise cat later
  | join {q later : Select} (h : Stepwise cat q) (kind : String) (source on shared : Value)
    (hq : q.join cat kind source on shared = .ok later) : Stepwise cat later
  | addConditions {q later : Select} (h : Stepwise cat q) (given : List Value)
    (keywords : List (String × Value)) (hq : q.addConditions cat given keywords = .ok later) :
    Stepwise cat later
  | addGroups {q later : Select} (h : Stepwise cat q) (given : List Value)
    (hq : q.addGroups given = .ok later) : Stepwise cat later
  | addHaving {q later : Select} (h : Stepwise cat q) (given : List Value)
    (hq : q.addHaving cat given = .ok later) : Stepwise cat later
  | addOrders {q later : Select} (h : Stepwise cat q) (given : List Value)
    (hq : q.addOrders cat given = .ok later) : Stepwise cat later
  | setLimit {q later : Select} (h : Stepwise cat q) (v : Value)
    (hq : q.setLimit cat v = .ok later) : Stepwise cat later
  | setOffset {q later : Select} (h : Stepwise cat q) (v : Value)
    (hq : q.setOffset cat v = .ok later) : Stepwise cat later
  | setDistinct {q : Select} (h : Stepwise cat q) : Stepwise cat q.setDistinct

/-- The form of the clauses of a SELECT. -/
structure Select.Shape (q : Select) : Prop where
  fields : q.fields.IsExprs
  sources : ∃ vs, q.sources = .tuple vs ∧ ∀ v ∈ vs, v.isSource = true
  joins : ∃ vs, q.joins = .tuple vs ∧ ∀ v ∈ vs, ∃ j, v = .join j ∧ j.source.isSource = true
  filter : q.filter.IsOptionalExpr
  groupBy : q.groupBy.IsExprs
  having : q.having.IsOptionalExpr
  unions : q.unions = .tuple []
  extras : q.extras = []

theorem Value.IsExprs.more {v w : Value} (h : v.IsExprs) {xs : List Expr}
    (hw : v.more (xs.map .expr) = .ok w) : w.IsExprs := by
  obtain ⟨ys, rfl⟩ := h
  rw [Value.more_tuple] at hw
  exact ⟨ys ++ xs, by rw [← Except.ok.inj hw, List.map_append]⟩

namespace Select.Shape

theorem empty : Select.empty.Shape :=
  ⟨⟨[], rfl⟩, ⟨[], rfl, by simp⟩, ⟨[], rfl, by simp⟩, .inl rfl, ⟨[], rfl⟩, .inl rfl, rfl, rfl⟩

variable (h : q.Shape)
include h

theorem select {given : List Value} (hq : q.select cat given = .ok later) : later.Shape := by
  obtain ⟨added, hadded, hrest⟩ := Except.bind_eq_ok_iff.1 hq
  obtain ⟨fields, hfields, hlater⟩ := Except.bind_eq_ok_iff.1 hrest
  obtain rfl := Except.ok.inj hlater
  rw [Select.added, h.extras] at hadded
  obtain rfl := Except.ok.inj hadded
  exact { h with fields := h.fields.more hfields }

theorem addSources {given : List Value} (hq : q.addSources given = .ok later) : later.Shape := by
  unfold Select.addSources at hq
  cases hfind : given.find? fun v => !v.isSource with
  | some v =>
    rw [hfind] at hq
    cases hq
  | none =>
    rw [hfind] at hq
    obtain ⟨sources, hsources, hlater⟩ := Except.bind_eq_ok_iff.1 hq
    obtain rfl := Except.ok.inj hlater
    obtain ⟨vs, hvs, hall⟩ := h.sources
    rw [hvs, Value.more_tuple] at hsources
    refine { h with sources := ⟨_, (Except.ok.inj hsources).symm, ?_⟩ }
    rw [List.forall_mem_append]
    exact ⟨hall, by simpa using hfind⟩

theorem join {kind : String} {source on shared : Value}
    (hq : q.join cat kind source on shared = .ok later) : later.Shape := by
  unfold Select.join at hq
  by_cases hsource : source.isSource = true
  · rw [hsource] at hq
    obtain ⟨names, -, hrest⟩ := Except.bind_eq_ok_iff.1 hq
    obtain ⟨joins, hjoins, hlater⟩ := Except.bind_eq_ok_iff.1 hrest
    obtain rfl := Except.ok.inj hlater
    obtain ⟨vs, hvs, hall⟩ := h.joins
    rw [hvs, Value.more_tuple] at hjoins
    refine { h with joins := ⟨_, (Except.ok.inj hjoins).symm, ?_⟩ }
    rw [List.forall_mem_append]
    exact ⟨hall, by simpa using hsource⟩
  · rw [Bool.not_eq_true] at hsource
    rw [hsource] at hq
    cases hq

theorem addConditions {given : List Value} {keywords : List (String × Value)}
    (hq : q.addConditions cat given keywords = .ok later) : later.Shape := by
  obtain ⟨x, -, hlater⟩ := Except.bind_eq_ok_iff.1 hq
  obtain rfl := Except.ok.inj hlater
  exact { h with filter := .inr ⟨x, rfl⟩ }

theorem addGroups {given : List Value} (hq : q.addGroups given = .ok later) : later.Shape := by
  obtain ⟨groupBy, hgroup, hlater⟩ := Except.bind_eq_ok_iff.1 hq
  obtain rfl := Except.ok.inj hlater
  exact { h with groupBy := h.groupBy.more hgroup }

theorem addHaving {given : List Value} (hq : q.addHaving cat given = .ok later) :
    later.Shape := by
  unfold Select.addHaving at hq
  cases given with
  | nil => cases hq
  | cons v vs =>
    obtain ⟨conditions, -, hrest⟩ := Except.bind_eq_ok_iff.1 hq
    obtain ⟨x, -, hlater⟩ := Except.bind_eq_ok_iff.1 hrest
    obtain rfl := Except.ok.inj hlater
    exact { h with having := .inr ⟨x, rfl⟩ }

theorem addOrders {given : List Value} (hq : q.addOrders cat given = .ok later) :
    later.Shape := by
  obtain ⟨terms, -, hrest⟩ := Except.bind_eq_ok_iff.1 hq
  obtain ⟨more, -, hlater⟩ := Except.bind_eq_ok_iff.1 hrest
  obtain rfl := Except.ok.inj hlater
  exact { h with }

theorem setLimit {v : Value} (hq : q.setLimit cat v = .ok later) : later.Shape := by
  obtain ⟨limit, -, hlater⟩ := Except.bind_eq_ok_iff.1 hq
  obtain rfl := Except.ok.inj hlater
  exact { h with }

theorem setOffset {v : Value} (hq : q.setOffset cat v = .ok later) : later.Shape := by
  obtain ⟨offset, -, hlater⟩ := Except.bind_eq_ok_iff.1 hq
  obtain rfl := Except.ok.inj hlater
  exact { h with }

theorem setDistinct : q.setDistinct.Shape := { h with }

end Select.Shape

/-- A SELECT that is built step by step has the form of its steps. -/
theorem Select.Stepwise.shape (h : q.Stepwise cat) : q.Shape := by
  induction h with
  | empty => exact .empty
  | select _ _ hq ih => exact ih.select hq
  | addSources _ _ hq ih => exact ih.addSources hq
  | join _ _ _ _ _ hq ih => exact ih.join hq
  | addConditions _ _ _ hq ih => exact ih.addConditions hq
  | addGroups _ _ hq ih => exact ih.addGroups hq
  | addHaving _ _ hq ih => exact ih.addHaving hq
  | addOrders _ _ hq ih => exact ih.addOrders hq
  | setLimit _ _ hq ih => exact ih.setLimit hq
  | setOffset _ _ hq ih => exact ih.setOffset hq
  | setDistinct _ ih => exact ih.setDistinct

end SqlCompose
