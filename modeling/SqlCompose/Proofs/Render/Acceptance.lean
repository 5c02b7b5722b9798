import SqlCompose.Proofs.Expr.Validity
import SqlCompose.Proofs.Render.TableChange

/-!
# Accepted statements

An expression or a statement is accepted only if everything is accepted that it is written with: the
expressions in it, the sources and clauses of a SELECT, and of a change the table, the condition and
what is returned.
-/
namespace SqlCompose

variable {cat : Catalog} {d : Dialect} {e : Engine}

/-- The drafts that a statement may ask of a value. -/
def Drafted.drafts (x : Drafted) : List Draft :=
  [x.built, x.reference, x.selected, x.source, x.operand]

/-! ## Expressions -/

namespace Expr

/-- Whatever draft of an expression is accepted, the expression itself is. -/
theorem accepted_reference_of_drafts {x : Expr} {y : Draft}
    (hy : y ∈ ((Value.expr x).drafted cat e).drafts) (h : y.Accepted cat d) :
    (x.reference cat e).Accepted cat d := by
  have hoperand : (x.drafted cat e).operand = (x.drafted cat e).whole := by
    cases x <;> rfl
  rw [Value.drafted_expr, Drafted.drafts] at hy
  simp only [List.mem_cons, List.not_mem_nil, or_false, Drafted.built, Drafted.reference,
    Drafted.selected, Drafted.source, value_drafted, hoperand] at hy
  rcases hy with rfl | rfl | rfl | rfl | rfl
  · split at h
    · exact h.of_named
    · exact h
  · exact h
  · exact h.of_named
  · split at h
    · exact h.of_named
    · exact absurd h (Draft.not_accepted_fail _)
  · exact h

/-- All that occurs in an accepted expression is accepted. -/
theorem accepted_of_within (hd : d.WritesText) {x y : Expr} (hy : y.Within x)
    (h : (x.reference cat d.engine).Accepted cat d) : (y.reference cat d.engine).Accepted cat d := by
  induction hy with
  | self => exact h
  | @apply a op symbol arguments x hx hy ih =>
    have ht : ∀ o ∈ arguments.map (·.operand cat d.engine), o.text.isSome →
        o.draft.Accepted cat d := by
      intro o ho hs
      obtain ⟨z, -, rfl⟩ := List.mem_map.1 ho
      exact accepted_of_text? hs d.engine
    rw [reference_apply] at h
    exact ih (((Operator.accepted_draft hd d.engine symbol op ht).1 h).2 _ (List.mem_map_of_mem hx))
  | order hy ih => exact ih (by simpa [reference, drafted, Draft.directed] using h)
  | group hy ih => exact ih (by simpa [reference, drafted] using h)

end Expr

/-! ## Values that are no expressions -/

/-- Whatever draft of a value is accepted that is neither an expression, a scalar nor a sequence, the
value as a whole is. -/
theorem Drafted.accepted_whole_of_drafts {v : Value} {whole : Draft}
    {parts : PUnit.{1} → List Drafted} (hexpr : v.expr? = none) (hscalar : ∀ s, v ≠ .scalar s)
    (hsequence : ∀ form vs, v ≠ .sequence form vs) {y : Draft}
    (hy : y ∈ (Drafted.of v whole parts).drafts) (h : y.Accepted cat d) :
    whole.Accepted cat d := by
  have hne : ∀ x, v ≠ .expr x := by
    rintro x rfl
    cases hexpr
  have hbuilt : (Drafted.of v whole parts).built = whole := by
    rw [built]
    split
    · exact absurd ‹_› (hne _)
    · rfl
  simp only [drafts, List.mem_cons, List.not_mem_nil, or_false] at hy
  rcases hy with rfl | rfl | rfl | rfl | rfl
  · rwa [hbuilt] at h
  · rw [reference] at h
    split at h
    · exact absurd ‹_› (hne _)
    · exact absurd h (Draft.not_accepted_member _ _)
  · rw [selected] at h
    split at h
    · exact absurd ‹_› (hne _)
    · exact absurd h (Draft.not_accepted_member _ _)
  · rw [source] at h
    split at h
    · exact absurd ‹_› (hne _)
    · rwa [hbuilt] at h
  · change (operandDraft v whole parts).Accepted cat d at h
    unfold operandDraft at h
    split at h
    · exact h
    · exact Draft.accepted_parenthesized.1 h
    · exact absurd rfl (hsequence _ _)
    · obtain ⟨s, rfl, -⟩ := Draft.accepted_literal.1 h
      exact absurd rfl (hscalar s)

theorem Value.accepted_built_of_drafts {v : Value} (hexpr : v.expr? = .none)
    (hscalar : ∀ s, v ≠ .scalar s) (hsequence : ∀ form vs, v ≠ .sequence form vs) {y : Draft}
    (hy : y ∈ (v.drafted cat e).drafts) (h : y.Accepted cat d) : (v.built cat e).Accepted cat d := by
  cases v with
  | expr x => cases hexpr
  | scalar s => exact absurd rfl (hscalar s)
  | sequence form vs => exact absurd rfl (hsequence form vs)
  | select q => cases q; exact Drafted.accepted_whole_of_drafts hexpr hscalar hsequence hy h
  | insert q => cases q; exact Drafted.accepted_whole_of_drafts hexpr hscalar hsequence hy h
  | update q => cases q; exact Drafted.accepted_whole_of_drafts hexpr hscalar hsequence hy h
  | delete q => cases q; exact Drafted.accepted_whole_of_drafts hexpr hscalar hsequence hy h
  | join j => cases j; exact Drafted.accepted_whole_of_drafts hexpr hscalar hsequence hy h
  | index i => cases i; exact Drafted.accepted_whole_of_drafts hexpr hscalar hsequence hy h
  | _ => exact Drafted.accepted_whole_of_drafts hexpr hscalar hsequence hy h

/-- A sequence is accepted only as an operand, and then all its items are accepted as operands. -/
theorem Value.accepted_operand_of_item {form : SequenceForm} {items : List Value} {y : Draft}
    (hy : y ∈ ((Value.sequence form items).drafted cat e).drafts) (h : y.Accepted cat d) :
    ∀ v ∈ items, (v.drafted cat e).operand.Accepted cat d := by
  simp only [Drafted.drafts, List.mem_cons, List.not_mem_nil, or_false] at hy
  rcases hy with rfl | rfl | rfl | rfl | rfl
  · exact absurd h (Draft.not_accepted_member _ _)
  · exact absurd h (Draft.not_accepted_member _ _)
  · exact absurd h (Draft.not_accepted_member _ _)
  · exact absurd h (Draft.not_accepted_member _ _)
  · have hlist : ((Value.sequence form items).drafted cat e).operand
        = Operator.listDraft (items.map fun v => (v.drafted cat e).operand) := by
      rw [← Function.comp_def Drafted.operand, ← List.map_map, ← draftAll_eq_map]
      rfl
    rw [hlist, Operator.listDraft] at h
    split at h
    · exact absurd h (Draft.not_accepted_fail _)
    · have hall := Draft.accepted_commaSeparated.1 (Draft.accepted_parenthesized.1 h)
      exact fun v hv => hall _ (List.mem_map_of_mem hv)

theorem Value.truthy_tuple_of_mem {vs : List Value} {v : Value} (hv : v ∈ vs) :
    (Value.tuple vs).truthy = true := by
  cases hv <;> rfl

/-- All parts of an accepted list are accepted. -/
theorem Drafted.accepted_of_listed {vs : List Value} {f : Drafted → Draft}
    (h : (((Value.tuple vs).drafted cat e).listed f).Accepted cat d) :
    ∀ v ∈ vs, (f (v.drafted cat e)).Accepted cat d := by
  rw [listed, items_tuple, Draft.given, Draft.accepted_commaSeparated, List.map_map] at h
  exact fun v hv => h _ (List.mem_map_of_mem hv)

theorem accepted_of_clause {word : String} {v : Value} (hn : v.isNone = false)
    (h : ((v.drafted cat e).clause word).Accepted cat d) : (v.built cat e).Accepted cat d := by
  rw [Drafted.clause, Value.value_drafted, hn, if_neg Bool.false_ne_true, Draft.accepted_plus] at h
  exact h.2

theorem accepted_of_whereDraft {extras : List (String × Value)} {v : Value}
    (hx : extras.lookup "_build_where" = none) (hn : v.isNone = false)
    (h : (whereDraft extras (v.drafted cat e)).Accepted cat d) : (v.built cat e).Accepted cat d := by
  rw [whereDraft, hx] at h
  exact accepted_of_clause hn h

/-- The parts of an accepted clause. -/
theorem Drafted.accepted_of_listClause {vs : List Value} {f : Drafted → Draft} {word : String}
    (h : ∀ c ∈ ((Value.tuple vs).drafted cat e).listClause word f, c.Accepted cat d) :
    ∀ v ∈ vs, (f (v.drafted cat e)).Accepted cat d := by
  intro v hv
  rw [listClause, Value.value_drafted, if_pos (Value.truthy_tuple_of_mem hv)] at h
  have hlist := (Draft.accepted_plus.1 (h _ (List.mem_singleton_self _))).2
  exact accepted_of_listed hlist v hv

/-! ## SELECT -/

theorem Draft.Accepted.of_paged {limit offset : Value} {ordered : Bool} {x : Draft}
    (h : (paged cat e limit offset ordered x).Accepted cat d) : x.Accepted cat d := by
  unfold paged at h
  split at h
  · exact h.of_checked
  · exact (Draft.accepted_extend.1 h).1
  · exact (Draft.accepted_extend.1 h).1

/-- Whether all clauses of a SELECT are accepted. -/
structure SelectParts.AllAccepted (cat : Catalog) (d : Dialect) (sources : List Draft)
    (p : SelectParts) : Prop where
  fields : p.fieldList.Accepted cat d
  sources : ∀ x ∈ sources, x.Accepted cat d
  joins : ∀ x ∈ p.joins.each fun j => Draft.text " " + j.built, x.Accepted cat d
  filter : (whereDraft p.extras p.filter).Accepted cat d
  groupBy : ∀ x ∈ p.groupBy.listClause "GROUP BY" Drafted.reference, x.Accepted cat d
  having : ∀ x ∈ p.having.optionalClause "HAVING", x.Accepted cat d
  unions : ∀ x ∈ p.unions.each (memberOf cat), x.Accepted cat d
  orderBy : ∀ x ∈ p.orderBy.listClause "ORDER BY" Drafted.built, x.Accepted cat d

namespace Select

variable {q : Select}

/-- An accepted SELECT has sources, and all its clauses are accepted. -/
theorem exists_allAccepted (hx : q.extras.lookup "build" = none)
    (h : ((Value.select q).built cat e).Accepted cat d) :
    ∃ sources, sourceDrafts cat q.extras (q.sources.drafted cat e) (q.fields.drafted cat e)
      (q.joins.drafted cat e) = .ok sources ∧ (q.parts cat e).AllAccepted cat d sources := by
  rw [built_eq_draft hx, SelectParts.draft, Draft.accepted_given] at h
  obtain ⟨sources, hsources, h⟩ := h
  split at h
  · exact absurd h (Draft.not_accepted_fail _)
  · have hclauses := (Draft.accepted_continued.1 h.of_paged).2
    simp only [SelectParts.clauses, List.forall_mem_append, List.forall_mem_singleton] at hclauses
    obtain ⟨⟨⟨⟨⟨⟨⟨⟨-, hfields⟩, hfrom⟩, hjoins⟩, hfilter⟩, hgroup⟩, hhaving⟩, hunions⟩, horder⟩ :=
      hclauses
    refine ⟨sources, hsources, hfields, ?_, hjoins, hfilter, hgroup, hhaving, hunions, horder⟩
    cases sources with
    | nil => simp
    | cons x others =>
      rw [if_neg (by simp), List.forall_mem_singleton, Draft.accepted_plus] at hfrom
      exact Draft.accepted_commaSeparated.1 hfrom.2

/-- The clauses of a SELECT that have several parts, but for its members. -/
def lists (q : Select) : List Value := [q.fields, q.sources, q.joins, q.groupBy, q.orderBy]

section Parts

variable (hx : Value.Unhooked q.extras) (h : ((Value.select q).built cat e).Accepted cat d)
include hx h

theorem accepted_of_condition {v : Value} (hv : v ∈ [q.filter, q.having]) (hn : v.isNone = false) :
    (v.built cat e).Accepted cat d := by
  obtain ⟨sources, -, hclauses⟩ := exists_allAccepted (hx "build" (by decide)) h
  simp only [List.mem_cons, List.not_mem_nil, or_false] at hv
  rcases hv with rfl | rfl
  · exact accepted_of_whereDraft (hx "_build_where" (by decide)) hn hclauses.filter
  · refine accepted_of_clause hn (hclauses.having ((q.having.drafted cat e).clause "HAVING") ?_)
    simp [parts, Drafted.optionalClause, hn]

/-- The parts of the clauses of an accepted SELECT are accepted as what they are drafted as there. -/
theorem exists_accepted_of_list {vs : List Value} (hl : .tuple vs ∈ q.lists) {v : Value}
    (hv : v ∈ vs) : ∃ y ∈ (v.drafted cat e).drafts, y.Accepted cat d := by
  obtain ⟨sources, hsources, hclauses⟩ := exists_allAccepted (hx "build" (by decide)) h
  have htruthy := Value.truthy_tuple_of_mem hv
  simp only [lists, List.mem_cons, List.not_mem_nil, or_false] at hl
  rcases hl with hl | hl | hl | hl | hl
  · have hfields := hclauses.fields
    rw [SelectParts.fieldList, parts, ← hl, Value.value_drafted, if_pos htruthy] at hfields
    exact ⟨_, by simp [Drafted.drafts], Drafted.accepted_of_listed hfields v hv⟩
  · rw [sourceDrafts, hx "_from_sources" (by decide), ← hl] at hsources
    simp only [Value.value_drafted, if_pos htruthy, Drafted.items_tuple] at hsources
    obtain rfl := Except.ok.inj hsources
    refine ⟨_, by simp [Drafted.drafts], hclauses.sources (v.drafted cat e).source ?_⟩
    exact List.mem_map_of_mem (List.mem_map_of_mem hv)
  · have hjoins := hclauses.joins
    rw [parts, ← hl, Drafted.each_tuple] at hjoins
    have hjoin := hjoins _ (List.mem_map_of_mem hv)
    exact ⟨_, by simp [Drafted.drafts], (Draft.accepted_plus.1 hjoin).2⟩
  · have hterms := hclauses.groupBy
    rw [parts, ← hl] at hterms
    exact ⟨_, by simp [Drafted.drafts], Drafted.accepted_of_listClause hterms v hv⟩
  · have hterms := hclauses.orderBy
    rw [parts, ← hl] at hterms
    exact ⟨_, by simp [Drafted.drafts], Drafted.accepted_of_listClause hterms v hv⟩

theorem accepted_of_member {members : List Value} (hu : q.unions = .tuple members) {word m : Value}
    (hm : .tuple [word, m] ∈ members) : (m.built cat e).Accepted cat d := by
  obtain ⟨sources, -, hclauses⟩ := exists_allAccepted (hx "build" (by decide)) h
  have hmembers := hclauses.unions
  rw [parts, hu, Drafted.each_tuple] at hmembers
  have hmember := hmembers _ (List.mem_map_of_mem hm)
  rw [memberOf, Drafted.pair_tuple, Draft.given] at hmember
  obtain ⟨isPaged, -, hmember⟩ := Draft.accepted_given.1 hmember
  obtain ⟨label, -, hmember⟩ := Draft.accepted_given.1 hmember
  split at hmember
  · exact absurd hmember (Draft.not_accepted_fail _)
  · exact (Draft.accepted_plus.1 hmember).2

end Parts

/-- The tables that the fields of an accepted SELECT imply have names. -/
theorem accepted_of_inferred (hx : Value.Unhooked q.extras)
    (h : ((Value.select q).built cat e).Accepted cat d) (hs : q.sources.truthy = false)
    {tables : List TableId} (ht : inferredTables cat q.extras q.fields q.joins = .ok tables)
    {t : TableId} (hmem : t ∈ tables) : (tableDraft cat t).Accepted cat d := by
  obtain ⟨sources, hsources, hclauses⟩ := exists_allAccepted (hx "build" (by decide)) h
  rw [sourceDrafts, hx "_from_sources" (by decide)] at hsources
  simp only [Value.value_drafted, hs, ht] at hsources
  obtain rfl := Except.ok.inj hsources
  exact hclauses.sources _ (List.mem_map_of_mem hmem)

end Select

/-! ## Changes -/

theorem table_name_ne_empty_of_accepted {t : TableId} (h : (tableDraft cat t).Accepted cat d) :
    (cat.table t).name ≠ "" := by
  intro hname
  rw [tableDraft, if_pos hname] at h
  exact Draft.not_accepted_fail _ h

namespace TableChange

variable {s : TableChange} {returned : Draft}

/-- Whatever draft of a well-formed change is accepted, the change itself is. -/
theorem accepted_draftWith (hw : s.statement.WellFormed) {y : Draft}
    (hy : y ∈ (s.statement.drafted cat e).drafts) (h : y.Accepted cat d) :
    (s.draftWith cat e (returningDraft cat e (s.returning.drafted cat e))).Accepted cat d := by
  rw [← built_eq_draftWith (lookup_build_of_wellFormed hw)]
  cases s <;> exact Value.accepted_built_of_drafts rfl (by simp [statement]) (by simp [statement]) hy h

/-- The table of an accepted change has a name, and its condition and what it returns are accepted.
-/
theorem accepted_clauses (hx : Value.Unhooked s.statement.extras)
    (h : (s.draftWith cat e returned).Accepted cat d) : returned.Accepted cat d ∧
      (s.filter.isNone = false → (s.filter.built cat e).Accepted cat d) ∧
      ∀ t, s.table = .table t → (cat.table t).name ≠ "" := by
  cases s with
  | insert q =>
    obtain ⟨name, hname, h⟩ := Draft.accepted_given.1 h
    split at h
    · exact absurd h (Draft.not_accepted_fail _)
    · rename_i htruthy
      refine ⟨(Draft.accepted_plus.1 (Draft.accepted_guarded.1 h).2).2, fun hn => ?_, ?_⟩
      · cases hn
      · intro t ht hempty
        have hown : q.table.get cat "name" = .ok (.text (cat.table t).name) := by
          rw [show q.table = .table t from ht]
          rfl
        obtain rfl := Except.ok.inj (hown.symm.trans hname)
        rw [hempty] at htruthy
        exact htruthy rfl
  | update q =>
    rw [draftWith] at h
    split at h
    · exact absurd h (Draft.not_accepted_fail _)
    · obtain ⟨hfront, hreturned⟩ := Draft.accepted_plus.1 (Draft.accepted_guarded.1 h).2
      obtain ⟨hstart, hfilter⟩ := Draft.accepted_extend.1 hfront
      have htable := (Draft.accepted_extend.1 hstart).1
      simp only [Draft.accepted_plus] at htable
      refine ⟨hreturned, fun hn => accepted_of_whereDraft (hx "_build_where" (by decide)) hn hfilter,
        fun t ht => ?_⟩
      rw [show q.table = .table t from ht] at htable
      exact table_name_ne_empty_of_accepted htable.1.2
  | delete q =>
    obtain ⟨hfront, hreturned⟩ := Draft.accepted_plus.1 h
    obtain ⟨hstart, hfilter⟩ := Draft.accepted_extend.1 hfront
    refine ⟨hreturned, fun hn => accepted_of_whereDraft (hx "_build_where" (by decide)) hn hfilter,
      fun t ht => ?_⟩
    rw [show q.table = .table t from ht] at hstart
    exact table_name_ne_empty_of_accepted (Draft.accepted_plus.1 hstart).2

/-- The fields that a change returns are accepted as expressions in a SELECT list, but for bare
columns. -/
theorem accepted_of_returned {fields : List Value} {v : Value}
    (h : (returningDraft cat e ((Value.tuple fields).drafted cat e)).Accepted cat d)
    (hv : v ∈ fields) : (returnedDraft cat (v.drafted cat e)).Accepted cat d := by
  rw [returningDraft, Value.value_drafted, Value.truthy_tuple_of_mem hv, Bool.not_true,
    if_neg Bool.false_ne_true, Draft.accepted_asking] at h
  split at h
  · exact Drafted.accepted_of_listed (Draft.accepted_plus.1 h).2 v hv
  · exact absurd h (Draft.not_accepted_fail _)

end TableChange

/-- The content of an accepted INSERT is accepted. -/
theorem Insert.accepted_content {q : Insert} {returned : Draft}
    (h : ((TableChange.insert q).draftWith cat e returned).Accepted cat d) :
    ((q.parts cat e).content cat e).Accepted cat d := by
  obtain ⟨name, -, h⟩ := Draft.accepted_given.1 h
  split at h
  · exact absurd h (Draft.not_accepted_fail _)
  · have hfront := (Draft.accepted_plus.1 (Draft.accepted_guarded.1 h).2).1
    exact (Draft.accepted_extend.1 hfront).2

/-- The assignments of an accepted UPDATE are accepted. -/
theorem Update.accepted_assignments {q : Update} {returned : Draft}
    (h : ((TableChange.update q).draftWith cat e returned).Accepted cat d) :
    ((q.assignments.drafted cat e).listed (assignmentDraft cat)).Accepted cat d := by
  rw [TableChange.draftWith] at h
  split at h
  · exact absurd h (Draft.not_accepted_fail _)
  · have hfront := (Draft.accepted_plus.1 (Draft.accepted_guarded.1 h).2).1
    exact (Draft.accepted_extend.1 (Draft.accepted_extend.1 hfront).1).2

/-- What is put into a row of an accepted INSERT is accepted as an operand, and so is the query that
it takes rows from. -/
theorem Insert.accepted_parts {q : Insert}
    (h : ((q.parts cat e).content cat e).Accepted cat d) :
    (q.query.isNone = false → (q.query.built cat e).Accepted cat d) ∧
      ∀ rows row v, q.rows = .tuple rows → .tuple row ∈ rows → v ∈ row →
        (v.drafted cat e).operand.Accepted cat d := by
  rw [InsertParts.content, parts] at h
  simp only [Value.value_drafted] at h
  constructor
  · intro hn
    rw [hn, Bool.not_false, if_pos rfl] at h
    split at h
    · exact absurd h.of_before (Draft.not_accepted_fail _)
    · exact (Draft.accepted_plus.1 h).2
  · intro rows row v hr hrow hv
    have htruthy : q.rows.truthy = true := hr ▸ Value.truthy_tuple_of_mem hrow
    rw [htruthy] at h
    split at h
    · exact absurd h.of_before (Draft.not_accepted_fail _)
    · rw [if_pos rfl, Draft.accepted_plus, rowsDraft, Draft.accepted_given] at h
      obtain ⟨-, width, -, hrows⟩ := h
      rw [hr] at hrows
      have hgiven := Drafted.accepted_of_listed hrows _ hrow
      rw [rowDraft, Draft.accepted_given] at hgiven
      obtain ⟨given, -, hgiven⟩ := hgiven
      split at hgiven
      · exact absurd hgiven (Draft.not_accepted_fail _)
      · exact Drafted.accepted_of_listed (Draft.accepted_parenthesized.1 hgiven) v hv

/-- What an accepted UPDATE assigns is accepted as an operand. -/
theorem Update.accepted_of_assignment {q : Update}
    (h : ((q.assignments.drafted cat e).listed (assignmentDraft cat)).Accepted cat d)
    {pairs : List Value} {column v : Value} (ha : q.assignments = .tuple pairs)
    (hp : .tuple [column, v] ∈ pairs) : (v.drafted cat e).operand.Accepted cat d := by
  rw [ha] at h
  have hassigned := Drafted.accepted_of_listed h _ hp
  rw [assignmentDraft, Drafted.pair_tuple, Draft.given] at hassigned
  obtain ⟨name, -, hassigned⟩ := Draft.accepted_given.1 hassigned
  exact (Draft.accepted_plus.1 hassigned).2

/-! ## JOIN -/

/-- The source of an accepted JOIN clause is accepted, and so is its condition. -/
theorem Join.accepted_parts {j : Join} (h : ((Value.join j).built cat e).Accepted cat d) :
    (j.source.drafted cat e).source.Accepted cat d ∧
      ∀ x, j.on = some x → ((Value.expr x).built cat e).Accepted cat d := by
  obtain ⟨kind, source, on, shared⟩ := j
  have hbuilt : (Value.join ⟨kind, source, on, shared⟩).built cat e
      = joinDraft kind (source.drafted cat e) (draftOptional cat e on) shared := rfl
  rw [hbuilt, joinDraft, Draft.accepted_continued, Draft.accepted_plus, Draft.accepted_shown] at h
  obtain ⟨⟨-, hsource⟩, hcondition⟩ := h
  refine ⟨hsource, ?_⟩
  rintro x rfl
  obtain ⟨items, hitems⟩ : ∃ items, joinCondition kind (some (x.drafted cat e)) shared = items :=
    ⟨_, rfl⟩
  rw [draftOptional, hitems] at hcondition
  unfold joinCondition at hitems
  split at hitems
  · subst hitems
    simp at hcondition
  · split at hitems
    · subst hitems
      simp at hcondition
    · subst hitems
      rw [List.forall_mem_singleton, Draft.accepted_plus] at hcondition
      have hbuilt : (Value.expr x).built cat e = (x.drafted cat e).built := by
        rw [Value.built, Value.drafted_expr]
      exact hbuilt ▸ hcondition.2

end SqlCompose
