import SqlCompose.Proofs.Expr.Grouping
import SqlCompose.Proofs.Render.Unaliased
import SqlCompose.Statement.Insert

/-!
# Conditions that are added call by call

Predicates are added to the WHERE or HAVING clause of a statement by several calls or by one. The
conditions that come out have the same terms, and a statement is written alike with conditions that
are.
-/
namespace SqlCompose

/-- A statement at a clause with a condition to which more can be joined. -/
inductive Restriction
  | selectWhere (q : Select)
  | selectHaving (q : Select)
  | updateWhere (q : Update)
  | deleteWhere (q : Delete)

namespace Restriction

/-- The statement. -/
def statement : Restriction → Value
  | selectWhere q | selectHaving q => .select q
  | updateWhere q => .update q
  | deleteWhere q => .delete q

/-- The condition that the clause has so far. -/
def condition : Restriction → Value
  | selectWhere q => q.filter
  | selectHaving q => q.having
  | updateWhere q => q.filter
  | deleteWhere q => q.filter

/-- The statement with another condition. -/
def withCondition (v : Value) : Restriction → Restriction
  | selectWhere q => selectWhere { q with filter := v }
  | selectHaving q => selectHaving { q with having := v }
  | updateWhere q => updateWhere { q with filter := v }
  | deleteWhere q => deleteWhere { q with filter := v }

/-- A call that joins predicates to the condition. -/
def add (cat : Catalog) (given : List Value) : Restriction → Except Error Restriction
  | selectWhere q => (q.addConditions cat given []).map selectWhere
  | selectHaving q => (q.addHaving cat given).map selectHaving
  | updateWhere q => (q.addConditions cat given []).map updateWhere
  | deleteWhere q => (q.addConditions cat given []).map deleteWhere

/-- Calls that join predicates to the condition, one after the other. -/
def addAll (cat : Catalog) (parts : List (List Expr)) (r : Restriction) : Except Error Restriction :=
  parts.foldlM (fun r part => r.add cat (part.map .expr)) r

/-- Whether a statement reads the keywords of a call in the usual way. -/
def IsUsual (r : Restriction) : Prop :=
  r.statement.extras.lookup "_where_kwargs_to_expressions" = none

variable {cat : Catalog} {r : Restriction} {v w : Value}

@[simp] theorem withCondition_withCondition (v w : Value) (r : Restriction) :
    (r.withCondition v).withCondition w = r.withCondition w := by
  cases r <;> rfl

@[simp] theorem condition_withCondition (v : Value) (r : Restriction) :
    (r.withCondition v).condition = v := by
  cases r <;> rfl

theorem isUsual_withCondition (v : Value) (h : r.IsUsual) : (r.withCondition v).IsUsual := by
  cases r <;> exact h

/-! ## The condition that calls make -/

theorem predicates_map_expr (cat : Catalog) (clause : String) (xs : List Expr) :
    predicates cat clause (xs.map .expr) = .ok xs := by
  induction xs with
  | nil => rfl
  | cons x xs ih =>
    rw [List.map_cons, predicates, ih]
    rfl

theorem filtered_map_expr {extras : List (String × Value)} (table : Except Error Value)
    (existing : Value) {xs : List Expr} (hne : xs ≠ [])
    (h : extras.lookup "_where_kwargs_to_expressions" = none) :
    filtered cat extras table existing (xs.map .expr) [] = joinConditions existing (xs.map .expr) := by
  have hadded : (xs.map Expr.value ++ []).isEmpty = false := by
    cases xs with
    | nil => exact absurd rfl hne
    | cons x xs => rfl
  rw [filtered, predicates_map_expr, keywordConditions, h]
  simp only [Lookup.conditions, bind, Except.bind, hadded]
  rw [List.append_nil]
  rfl

/-- A call joins its predicates to the condition. -/
theorem add_eq (h : r.IsUsual) {xs : List Expr} (hne : xs ≠ []) {x : Expr}
    (hx : joinConditions r.condition (xs.map .expr) = .ok x) :
    r.add cat (xs.map .expr) = .ok (r.withCondition (.expr x)) := by
  cases r with
  | selectWhere q =>
    have husual : q.extras.lookup "_where_kwargs_to_expressions" = none := h
    have hfilter : filtered cat q.extras (q.lookupTable cat) q.filter (xs.map .expr) [] = .ok x :=
      (filtered_map_expr _ q.filter hne husual).trans hx
    rw [add, Select.addConditions, hfilter]
    rfl
  | selectHaving q =>
    have hgiven : (xs.map Value.expr).isEmpty = false := by simpa using hne
    have hhaving : joinConditions q.having (xs.map Expr.value) = .ok x := hx
    rw [add, Select.addHaving, hgiven, predicates_map_expr]
    simp only [bind, Except.bind, hhaving]
    rfl
  | updateWhere q =>
    have husual : q.extras.lookup "_where_kwargs_to_expressions" = none := h
    have hfilter : filtered cat q.extras (.ok q.table) q.filter (xs.map .expr) [] = .ok x :=
      (filtered_map_expr _ q.filter hne husual).trans hx
    rw [add, Update.addConditions, hfilter]
    rfl
  | deleteWhere q =>
    have husual : q.extras.lookup "_where_kwargs_to_expressions" = none := h
    have hfilter : filtered cat q.extras (.ok q.table) q.filter (xs.map .expr) [] = .ok x :=
      (filtered_map_expr _ q.filter hne husual).trans hx
    rw [add, Delete.addConditions, hfilter]
    rfl

/-- The terms that a condition adds to a combination, if it is there. -/
def laidBy (v : Value) : List Expr := if v.isNone then [] else v.toExpr.laid "AND"

/-- The outcome of joining predicates to a condition has the terms of both. -/
theorem exists_joinConditions (v : Value) {xs : List Expr} (hne : xs ≠ [])
    (h : ∀ x ∈ xs, x.Filled "AND") :
    ∃ y, joinConditions v (xs.map .expr) = .ok y ∧
      y.terms "AND" = laidBy v ++ xs.flatMap (Expr.terms "AND") ∧
      y.laid "AND" = laidBy v ++ xs.flatMap (Expr.terms "AND") := by
  have hxs : (xs.map Value.expr).flatMap (fun v => v.toExpr.laid "AND")
      = xs.flatMap (Expr.terms "AND") := by
    rw [List.flatMap_map]
    exact List.flatMap_congr fun x hx => (h x hx).laid_eq
  have hlaid : ((if v.isNone then [] else [v]) ++ xs.map Value.expr).flatMap
      (fun v => v.toExpr.laid "AND") = laidBy v ++ xs.flatMap (Expr.terms "AND") := by
    rw [List.flatMap_append, hxs, laidBy]
    split <;> simp
  obtain ⟨x, hx⟩ := List.exists_mem_of_ne_nil xs hne
  obtain ⟨t, ht⟩ := List.exists_mem_of_ne_nil _ (Expr.terms_ne_nil "AND" x)
  exact Expr.exists_combine hlaid
    (List.mem_append_right _ (List.mem_flatMap.2 ⟨x, hx, ht⟩)) (h x hx t ht)

/-- Calls that join predicates part by part make a condition with the terms of all of them. -/
theorem exists_addAll {parts : List (List Expr)} (hne : parts ≠ [])
    (hparts : ∀ part ∈ parts, part ≠ [] ∧ ∀ x ∈ part, x.Filled "AND") (h : r.IsUsual) :
    ∃ y, r.addAll cat parts = .ok (r.withCondition (.expr y)) ∧
      y.terms "AND" = laidBy r.condition ++ parts.flatten.flatMap (Expr.terms "AND") := by
  induction parts generalizing r with
  | nil => exact absurd rfl hne
  | cons part parts ih =>
    obtain ⟨⟨hpart, hfilled⟩, hrest⟩ := List.forall_mem_cons.1 hparts
    obtain ⟨x, hx, hterms, hlaid⟩ := exists_joinConditions r.condition hpart hfilled
    have hadd : r.addAll cat (part :: parts) = (r.withCondition (.expr x)).addAll cat parts := by
      rw [addAll, List.foldlM_cons, add_eq h hpart hx]
      rfl
    rw [hadd, List.flatten_cons, List.flatMap_append, ← List.append_assoc]
    by_cases hnil : parts = []
    · subst hnil
      exact ⟨x, rfl, by simpa using hterms⟩
    · obtain ⟨y, hy, hall⟩ := ih hnil hrest (isUsual_withCondition (.expr x) h)
      rw [withCondition_withCondition] at hy
      refine ⟨y, hy, ?_⟩
      rw [hall, condition_withCondition]
      exact congrArg (· ++ _) hlaid

/-! ## The statement with a condition -/

theorem built_statement (r : Restriction) (e : Engine) :
    r.statement.built cat e = (r.statement.drafted cat e).whole := by
  rw [Value.built, Drafted.built, Value.value_drafted]
  cases r <;> rfl

/-- A statement is written alike with conditions that are. -/
theorem sameRuns_withCondition {e : Engine} (r : Restriction)
    (h : (v.drafted cat e).ClauseRelated (Draft.SameRuns cat) (w.drafted cat e)) :
    Draft.SameRuns cat ((r.withCondition v).statement.built cat e)
      ((r.withCondition w).statement.built cat e) := by
  have hS := (Draft.congruence_sameRuns cat).statementTranslation cat e
  have hclause : ∀ x : Drafted, x.ClauseRelated (Draft.SameRuns cat) x :=
    fun _ => ⟨rfl, hS.refl _⟩
  have hrows : ∀ {f : Drafted → Draft} (x : Drafted),
      x.Rows (fun a b => Draft.SameRuns cat (f a) (f b)) x :=
    fun x => .refl (fun _ => hS.refl _) x
  have hselect : ∀ {filter filter' fields sources joins groupBy having having' orderBy unions : Drafted}
      {limit offset distinct : Value} {extras : List (String × Value)},
      filter.ClauseRelated (Draft.SameRuns cat) filter' →
      having.ClauseRelated (Draft.SameRuns cat) having' →
      SelectParts.Related cat (Draft.SameRuns cat)
        ⟨filter, fields, sources, joins, groupBy, having, orderBy, unions, limit, offset, distinct,
          extras⟩
        ⟨filter', fields, sources, joins, groupBy, having', orderBy, unions, limit, offset, distinct,
          extras⟩ :=
    fun hfilter hhaving => ⟨hfilter, hrows _, hrows _, .eq_refl _, hrows _, hrows _, hhaving, hrows _,
      hrows _, rfl, rfl, rfl, rfl⟩
  rw [built_statement, built_statement]
  cases r with
  | selectWhere q =>
    obtain ⟨filter, fields, sources, joins, groupBy, having, orderBy, unions, limit, offset, distinct,
      extras⟩ := q
    simp only [statement, withCondition, Value.drafted, Select.drafted]
    exact sameRuns_ofStatement rfl ((hselect h (hclause _)).draft hS)
  | selectHaving q =>
    obtain ⟨filter, fields, sources, joins, groupBy, having, orderBy, unions, limit, offset, distinct,
      extras⟩ := q
    simp only [statement, withCondition, Value.drafted, Select.drafted]
    exact sameRuns_ofStatement rfl ((hselect (hclause _) h).draft hS)
  | updateWhere q =>
    obtain ⟨filter, table, assignments, returning, extras⟩ := q
    simp only [statement, withCondition, Value.drafted, Update.drafted]
    refine sameRuns_ofStatement rfl (UpdateParts.Related.draft ?_ hS)
    exact ⟨h, hS.refl _, hrows _, .eq_refl _, hrows _, rfl⟩
  | deleteWhere q =>
    obtain ⟨filter, table, returning, extras⟩ := q
    simp only [statement, withCondition, Value.drafted, Delete.drafted]
    exact sameRuns_ofStatement rfl (hS.deleteDraft _ h (hS.refl _) (hrows _))

end Restriction

end SqlCompose
