import SqlCompose.Proofs.Draft.Member
import SqlCompose.Proofs.Expr.Condition
import SqlCompose.Proofs.Render.Select
import SqlCompose.Proofs.Statement.Select

/-!
# Clauses of one member

The clauses of a SELECT that is built step by step are written without a set operator outside of
brackets: sources and operands that are SELECTs stand in brackets.
-/
namespace SqlCompose

variable {cat : Catalog} {d : Dialect} {x : Expr}

namespace Draft.Single

theorem named {y : Draft} (hd : d.WritesText) (h : y.Single cat d) {a : Value} (ha : a.IsAlias) :
    (y.named a).Single cat d := by
  unfold Draft.named
  split
  · rename_i ht
    obtain ⟨s, rfl⟩ := ha ht
    exact .extend h (.plus (.keyword .between (by decide)) (.name hd s))
  · exact h

theorem columnDraft (hd : d.WritesText) (id : ColumnId) :
    (SqlCompose.columnDraft cat id).Single cat d := by
  rw [SqlCompose.columnDraft]
  split
  · exact .fail _
  · exact .plus (.plus (.name hd _) (.text ".")) (.name hd _)

theorem tableDraft (hd : d.WritesText) (id : TableId) :
    (SqlCompose.tableDraft cat id).Single cat d := by
  rw [SqlCompose.tableDraft]
  split
  · exact .fail _
  · refine named hd (name hd _) fun ht => ?_
    cases hs : (cat.table id).asName with
    | none => simp [hs, Value.ofOption, Value.truthy, Value.none, Scalar.truthy] at ht
    | some s => exact ⟨s, rfl⟩

end Draft.Single

/-- An expression is written without a set operator outside of brackets. -/
theorem Expr.single_reference (hd : d.WritesText) (hw : (Value.expr x).WellFormed) :
    (x.reference cat d.engine).Single cat d := by
  have hC : Draft.Compositional (Draft.Single cat d) := Draft.Single.compositional hd
  generalize hv : Value.expr x = v at hw
  induction hw generalizing x with
  | literal v k ha =>
    obtain rfl := Value.expr.inj hv
    exact hC.literal v
  | column id ha =>
    obtain rfl := Value.expr.inj hv
    exact .columnDraft hd id
  | apply op symbol ha h ih =>
    obtain rfl := Value.expr.inj hv
    rw [reference_apply]
    refine hC.operatorDraft (fun o ho => ?_) d.engine op symbol
    obtain ⟨y, hy, rfl⟩ := List.mem_map.1 ho
    exact ih y hy rfl
  | order descending ha h ih =>
    obtain rfl := Value.expr.inj hv
    exact .plus (hC.shown (ih rfl)) (hC.operator _ _)
  | group ha h ih =>
    obtain rfl := Value.expr.inj hv
    exact hC.parenthesized (ih rfl)
  | raw s ha =>
    obtain rfl := Value.expr.inj hv
    exact .text s
  | subquery ha h ih =>
    obtain rfl := Value.expr.inj hv
    exact .parenthesized hd (h.settled cat d.engine).built
  | bare ha =>
    obtain rfl := Value.expr.inj hv
    exact .fail _
  | plain h =>
    subst hv
    simp [Value.isPlain] at h
  | _ => cases hv

/-! ## Clauses -/

section Clauses

variable (hd : d.WritesText)
include hd

theorem Expr.single_named (hw : (Value.expr x).WellFormed) :
    ((x.reference cat d.engine).named x.asName).Single cat d := by
  have ha : x.asName.IsAlias := (hw.settled cat d.engine).steady.asName x (by
    rw [Value.drafted_expr, Expr.value_drafted])
  exact .named hd (single_reference hd hw) ha

theorem Expr.single_drafted (hw : (Value.expr x).WellFormed) :
    ((Value.expr x).drafted cat d.engine).reference.Single cat d := by
  rw [Value.drafted_expr, Drafted.reference, Expr.value_drafted]
  exact single_reference hd hw

theorem Expr.single_selected (hw : (Value.expr x).WellFormed) :
    ((Value.expr x).drafted cat d.engine).selected.Single cat d := by
  rw [Value.drafted_expr, Drafted.selected, Expr.value_drafted]
  exact single_named hd hw

theorem Expr.single_built (hw : (Value.expr x).WellFormed) :
    ((Value.expr x).drafted cat d.engine).built.Single cat d := by
  rw [Value.drafted_expr, Drafted.built, Expr.value_drafted]
  split
  · rename_i a id hx
    obtain rfl := Value.expr.inj hx
    exact single_named hd hw
  · exact single_reference hd hw

omit hd in
theorem Draft.Single.listed {vs : List Value} {f : Drafted → Draft}
    (h : ∀ v ∈ vs, (f (v.drafted cat d.engine)).Single cat d) :
    (((Value.tuple vs).drafted cat d.engine).listed f).Single cat d := by
  rw [Drafted.listed, Drafted.items_tuple]
  refine .commaSeparated fun y hy => ?_
  rw [List.map_map] at hy
  obtain ⟨v, hv, rfl⟩ := List.mem_map.1 hy
  exact h v hv

omit hd in
/-- A clause of expressions. -/
theorem Value.IsExprs.single_listed {v : Value} (hv : v.IsExprs) (hw : v.WellFormed)
    {f : Drafted → Draft} (hf : ∀ x : Expr, (Value.expr x).WellFormed →
      (f ((Value.expr x).drafted cat d.engine)).Single cat d) :
    ((v.drafted cat d.engine).listed f).Single cat d := by
  obtain ⟨xs, rfl⟩ := hv
  refine .listed fun w hmem => ?_
  have hx := wellFormed_tuple.1 hw w hmem
  obtain ⟨y, hy, rfl⟩ := List.mem_map.1 hmem
  exact hf y hx

/-- A condition with its keyword, if it is there. -/
theorem Value.IsOptionalExpr.single_clause {v : Value} (hv : v.IsOptionalExpr) (hw : v.WellFormed)
    {keyword : String} (hk : SetOperator.ofKeyword? keyword = .none) :
    ((v.drafted cat d.engine).clause keyword).Single cat d := by
  rw [Drafted.clause, Value.value_drafted]
  split
  · exact .text ""
  · rename_i hn
    rcases hv with rfl | ⟨x, rfl⟩
    · exact absurd rfl hn
    · exact .plus (.keyword .between hk) (Expr.single_built hd hw)

/-- A table, or a SELECT in brackets under an alias. -/
theorem Value.single_source {v : Value} (hv : v.isSource = true) (hw : v.WellFormed) :
    ((v.drafted cat d.engine).source).Single cat d := by
  cases v with
  | table id => exact .tableDraft hd id
  | expr x =>
    rw [Value.drafted_expr, Drafted.source, Expr.value_drafted]
    dsimp only
    split
    · exact Expr.single_named hd hw
    · exact .fail _
  | _ => cases hv

omit hd in
/-- The keyword of a join is none of a set operator. -/
theorem ofKeyword?_join (kind : String) : SetOperator.ofKeyword? (kind ++ " JOIN") = none := by
  refine List.find?_eq_none.2 fun op _ => ?_
  -- the letter before the last one tells them apart
  have hne : op.keyword ≠ kind ++ " JOIN" := by
    intro heq
    have hletter : op.keyword.toList.reverse[1]? = some 'I' := by simp [heq]
    cases op <;> simp [SetOperator.keyword] at hletter
  simpa using hne

/-- A JOIN clause: what it matches on is a condition or names in brackets. -/
theorem Join.single_built {j : Join} (hj : j.source.isSource = true)
    (hw : (Value.join j).WellFormed) :
    ((Value.join j).drafted cat d.engine).built.Single cat d := by
  obtain ⟨kind, source, on, shared⟩ := j
  obtain ⟨hsource, hon⟩ := Value.wellFormed_join.1 hw
  have hnames : (nameList shared).Single cat d := by
    refine .plus (.plus (.text "(") (.commaSeparated fun y hy => ?_)) (.text ")")
    obtain ⟨s, -, rfl⟩ := List.mem_map.1 hy
    exact .name hd s
  have hbuilt : ((Value.join ⟨kind, source, on, shared⟩).drafted cat d.engine).built
      = joinDraft kind (source.drafted cat d.engine) (draftOptional cat d.engine on) shared := rfl
  rw [hbuilt, joinDraft]
  refine .continued (.plus (.keyword .before (ofKeyword?_join kind))
    ((Draft.Single.compositional hd).shown (Value.single_source hd hj hsource))) fun y hy => ?_
  unfold joinCondition at hy
  split at hy
  · obtain rfl := List.mem_singleton.1 hy
    exact .fail _
  · split at hy
    · obtain rfl := List.mem_singleton.1 hy
      exact .fail _
    · cases on with
      | some x =>
        obtain rfl := List.mem_singleton.1 hy
        exact .plus (.keyword .between (by decide)) (Expr.single_built hd (hon x rfl))
      | none =>
        by_cases hs : shared = []
        · simp [draftOptional, hs] at hy
        · obtain rfl : y = Draft.keyword .between "USING" + nameList shared := by
            simpa [draftOptional, hs] using hy
          exact .plus (.keyword .between (by decide)) hnames

/-- Sources of tables and of SELECTs in brackets, and tables that the fields imply. -/
theorem Select.single_sources {q : Select} (hs : q.Shape) (hw : q.sources.WellFormed)
    {items : List Draft} (hi : sourceDrafts cat q.extras (q.sources.drafted cat d.engine)
      (q.fields.drafted cat d.engine) (q.joins.drafted cat d.engine) = .ok items) :
    ∀ y ∈ items, y.Single cat d := by
  obtain ⟨sources, hsources, hall⟩ := hs.sources
  rw [hsources] at hw
  rw [sourceDrafts, hs.extras, hsources] at hi
  simp only [List.lookup_nil] at hi
  split at hi
  · rw [Drafted.items_tuple] at hi
    obtain rfl := Except.ok.inj hi
    intro y hy
    rw [List.map_map] at hy
    obtain ⟨v, hv, rfl⟩ := List.mem_map.1 hy
    exact Value.single_source hd (hall v hv) (Value.wellFormed_tuple.1 hw v hv)
  · obtain ⟨tables, -, hitems⟩ := Except.bind_eq_ok_iff.1 hi
    obtain rfl := Except.ok.inj hitems
    intro y hy
    obtain ⟨id, -, rfl⟩ := List.mem_map.1 hy
    exact .tableDraft hd id

/-- The JOIN clauses of a SELECT. -/
theorem Select.single_joins {q : Select} (hs : q.Shape) (hw : q.joins.WellFormed) :
    ∀ y ∈ (q.joins.drafted cat d.engine).each fun j => Draft.text " " + j.built,
      y.Single cat d := by
  obtain ⟨joins, hjoins, hall⟩ := hs.joins
  rw [hjoins, Value.wellFormed_tuple] at hw
  rw [hjoins, Drafted.each_tuple]
  intro y hy
  obtain ⟨v, hv, rfl⟩ := List.mem_map.1 hy
  obtain ⟨j, rfl, hj⟩ := hall v hv
  exact .plus (.text " ") (Join.single_built hd hj (hw _ hv))

/-- The clauses of a SELECT before its members are written without a set operator outside of
brackets. -/
theorem Select.single_core {q : Select} (hs : q.Shape) (hw : (Value.select q).WellFormed) :
    ((q.parts cat d.engine).core cat).Single cat d := by
  cases hw with
  | plain h => cases h
  | select hx filter fields fieldRow sources sourceRow joins joinRow groupBy groupRow having orderBy
      orderRow unions unionRow =>
    refine .given fun items hitems => ?_
    have hitems := single_sources hd hs sources hitems
    split
    · exact .fail _
    · refine .continued (.keyword .before (by decide)) fun y hy => ?_
      simp only [SelectParts.coreClauses, List.mem_append] at hy
      rcases hy with (((((hy | hy) | hy) | hy) | hy) | hy) | hy
      · split at hy
        · obtain rfl := List.mem_singleton.1 hy
          exact .text _
        · simp at hy
      · obtain rfl := List.mem_singleton.1 hy
        unfold SelectParts.fieldList
        split
        · exact hs.fields.single_listed fields fun x hx => Expr.single_selected hd hx
        · exact .text "*"
      · split at hy
        · simp at hy
        · obtain rfl := List.mem_singleton.1 hy
          exact .plus (.keyword .between (by decide)) (.commaSeparated hitems)
      · exact single_joins hd hs joins y hy
      · obtain rfl := List.mem_singleton.1 hy
        have hnone : (q.parts cat d.engine).extras.lookup "_build_where" = none :=
          congrArg (List.lookup "_build_where") hs.extras
        rw [whereDraft, hnone]
        exact hs.filter.single_clause hd filter (by decide)
      · unfold Drafted.listClause at hy
        split at hy
        · obtain rfl := List.mem_singleton.1 hy
          exact .plus (.keyword .between (by decide))
            (hs.groupBy.single_listed groupBy fun x hx => Expr.single_drafted hd hx)
        · simp at hy
      · unfold Drafted.optionalClause at hy
        split at hy
        · simp at hy
        · obtain rfl := List.mem_singleton.1 hy
          exact hs.having.single_clause hd having (by decide)

end Clauses

end SqlCompose
