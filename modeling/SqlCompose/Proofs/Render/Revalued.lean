import SqlCompose.Proofs.Render.Alike
import SqlCompose.Proofs.Render.Select

/-!
# Statements with other values

Two expressions or statements with the same structure, where literals hold different values. Which
value may stand for which is a relation between values; all else, the names, the operators with their
flags, the clauses and the sources, is the same on both sides. A value in a row of an INSERT or in an
assignment is a literal too unless it is an expression, a statement or a list.
-/
namespace SqlCompose

/-- What is looked for where a value stands. -/
inductive Place
  /-- An expression or a statement. -/
  | clause
  | clauses
  /-- An operand, where a bare value is a literal. -/
  | operand
  | row
  | rows
  /-- A column and the value that it is set to. -/
  | assignment
  | assignments
  /-- A set operator and a further SELECT. -/
  | member
  | members
  | join
  | joins

/-- What stands in a sequence, all of whose items are of one kind. -/
def Place.item : Place → Option Place
  | clauses => some clause
  | operand | row => some operand
  | rows => some row
  | assignments => some assignment
  | members => some member
  | joins => some join
  | _ => none

/-- Values of the same structure in which some literals hold related values. -/
inductive Revalued (R : Value → Value → Prop) : Place → Value → Value → Prop
  /-- Nothing is changed. -/
  | same (p : Place) (v : Value) : Revalued R p v v
  /-- A bare value. -/
  | bare {v w : Value} (h : R v w) : Revalued R .operand v w
  | sequence {p q : Place} (hp : p.item = some q) (form : SequenceForm) {vs ws : List Value}
    (hl : vs.length = ws.length) (h : ∀ v w, (v, w) ∈ vs.zip ws → Revalued R q v w) :
    Revalued R p (.sequence form vs) (.sequence form ws)
  | expr {x y : Expr} (h : Revalued R .clause (.expr x) (.expr y)) :
    Revalued R .operand (.expr x) (.expr y)
  | query {q r : Select} (h : Revalued R .clause (.select q) (.select r)) :
    Revalued R .operand (.select q) (.select r)
  /-- A literal, whose kind may follow its value. -/
  | literal (a : Value) {v w : Value} (k l : Option DataKind) (h : R v w) :
    Revalued R .clause (.expr (.literal a v k)) (.expr (.literal a w l))
  | apply (a : Value) (op : Operator) (symbol : String) {xs ys : List Expr}
    (hl : xs.length = ys.length)
    (h : ∀ x y, (x, y) ∈ xs.zip ys → Revalued R .clause (.expr x) (.expr y)) :
    Revalued R .clause (.expr (.apply a op symbol xs)) (.expr (.apply a op symbol ys))
  | order (a : Value) {x y : Expr} (descending : Bool)
    (h : Revalued R .clause (.expr x) (.expr y)) :
    Revalued R .clause (.expr (.order a x descending)) (.expr (.order a y descending))
  | group (a : Value) {x y : Expr} (h : Revalued R .clause (.expr x) (.expr y)) :
    Revalued R .clause (.expr (.group a x)) (.expr (.group a y))
  | subquery (a : Value) {v w : Value} (h : Revalued R .clause v w) :
    Revalued R .clause (.expr (.subquery a v)) (.expr (.subquery a w))
  | select {filter fields sources joins groupBy having orderBy unions filter' fields' sources'
      joins' groupBy' having' orderBy' unions' : Value}
    (hfilter : Revalued R .clause filter filter') (hfields : Revalued R .clauses fields fields')
    (hsources : Revalued R .clauses sources sources') (hjoins : Revalued R .joins joins joins')
    (hgroup : Revalued R .clauses groupBy groupBy') (hhaving : Revalued R .clause having having')
    (horder : Revalued R .clauses orderBy orderBy') (hunions : Revalued R .members unions unions')
    (limit offset distinct : Value) (extras : List (String × Value)) :
    Revalued R .clause
      (.select ⟨filter, fields, sources, joins, groupBy, having, orderBy, unions, limit, offset,
        distinct, extras⟩)
      (.select ⟨filter', fields', sources', joins', groupBy', having', orderBy', unions', limit,
        offset, distinct, extras⟩)
  | insert (table columns : Value) {rows query returning rows' query' returning' : Value}
    (hrows : Revalued R .rows rows rows') (hquery : Revalued R .clause query query')
    (hreturning : Revalued R .clauses returning returning') (extras : List (String × Value)) :
    Revalued R .clause (.insert ⟨table, columns, rows, query, returning, extras⟩)
      (.insert ⟨table, columns, rows', query', returning', extras⟩)
  | update {filter assignments returning filter' assignments' returning' : Value} (table : Value)
    (hfilter : Revalued R .clause filter filter')
    (hassignments : Revalued R .assignments assignments assignments')
    (hreturning : Revalued R .clauses returning returning') (extras : List (String × Value)) :
    Revalued R .clause (.update ⟨filter, table, assignments, returning, extras⟩)
      (.update ⟨filter', table, assignments', returning', extras⟩)
  | delete {filter returning filter' returning' : Value} (table : Value)
    (hfilter : Revalued R .clause filter filter')
    (hreturning : Revalued R .clauses returning returning') (extras : List (String × Value)) :
    Revalued R .clause (.delete ⟨filter, table, returning, extras⟩)
      (.delete ⟨filter', table, returning', extras⟩)
  | assignment (form : SequenceForm) (column : Value) {v w : Value}
    (h : Revalued R .operand v w) :
    Revalued R .assignment (.sequence form [column, v]) (.sequence form [column, w])
  | member (form : SequenceForm) (operator : Value) {q r : Select}
    (h : Revalued R .clause (.select q) (.select r)) :
    Revalued R .member (.sequence form [operator, .select q]) (.sequence form [operator, .select r])
  | join (kind : String) {source source' : Value} {on on' : Option Expr}
    (hsource : Revalued R .clause source source')
    (hon : Revalued R .clause (.ofOption .expr on) (.ofOption .expr on')) (shared : List String) :
    Revalued R .join (.join ⟨kind, source, on, shared⟩) (.join ⟨kind, source', on', shared⟩)

/-- Values that can stand for each other in a literal: SQL has a literal for both, and both or none
of them is a text. -/
structure Value.Interchangeable (cat : Catalog) (v w : Value) : Prop where
  left : ∃ s, v.toScalar cat = .ok s
  right : ∃ s, w.toScalar cat = .ok s
  text : v.text?.isSome = w.text?.isSome

/-! ## Drafts of values in their places -/

/-- Whether two drafted values are alike as far as the place looks at them. -/
def Place.Alike (cat : Catalog) (d : Dialect) (R : Value → Value → Prop) :
    Place → Drafted → Drafted → Prop
  | clause => Drafted.Alike cat d R
  | clauses => Drafted.RowAlike (Drafted.Alike cat d R)
  | operand => Drafted.OperandAlike cat d R
  | row => Drafted.RowAlike (Drafted.OperandAlike cat d R)
  | rows => Drafted.RowAlike (Drafted.RowAlike (Drafted.OperandAlike cat d R))
  | assignment => Drafted.AssignmentAlike cat d R
  | assignments => Drafted.RowAlike (Drafted.AssignmentAlike cat d R)
  | member => fun x y => Draft.Follows cat d R (memberOf cat x) (memberOf cat y)
  | members =>
    Drafted.RowAlike fun x y => Draft.Follows cat d R (memberOf cat x) (memberOf cat y)
  | join => Drafted.JoinAlike cat d R
  | joins => Drafted.RowAlike (Drafted.JoinAlike cat d R)

section

variable {cat : Catalog} {d : Dialect} {R : Value → Value → Prop}

theorem Place.Alike.refl (p : Place) (x : Drafted) : p.Alike cat d R x x := by
  cases p with
  | operand | member => exact Draft.Alike.refl _
  | assignment => exact Drafted.AssignmentAlike.refl x
  | join => exact Drafted.JoinAlike.refl x
  | clause => exact Drafted.Alike.refl x
  | _ => exact Drafted.RowAlike.refl x

/-- A sequence is alike where its items are. -/
theorem Place.Alike.sequence {p q : Place} (hp : p.item = some q) (form : SequenceForm)
    {xs ys : List Drafted} (h : List.Forall₂ (q.Alike cat d R) xs ys) :
    p.Alike cat d R (.unbuilt (.sequence form (xs.map Drafted.value)) fun _ => xs)
      (.unbuilt (.sequence form (ys.map Drafted.value)) fun _ => ys) := by
  cases p with
  | operand =>
    obtain rfl := Option.some.inj hp
    have hitems : List.Forall₂ (Drafted.OperandAlike cat d R) xs ys := h
    exact (Draft.congruence_alike ..).listDraft (by simpa using hitems)
  | clause | assignment | member | join => simp [Place.item] at hp
  | _ =>
    obtain rfl := Option.some.inj hp
    exact Drafted.RowAlike.sequence form h

/-- Literals of values that are both texts, or both none, look the same. -/
theorem Expr.similar_literal (a : Value) {v w : Value} (k l : Option DataKind) (h : R v w)
    (ht : v.text?.isSome = w.text?.isSome) : (literal a v k).Similar R (literal a w l) := by
  refine ⟨rfl, rfl, rfl, ?_, ⟨rfl, rfl⟩, rfl⟩
  rw [text?_literal, text?_literal]
  cases hv : v.text? with
  | none =>
    rw [hv] at ht
    exact .inl (Option.not_isSome_iff_eq_none.1 (by rw [← ht]; simp)).symm
  | some s =>
    obtain ⟨t, hw⟩ : ∃ t, w.text? = some t := Option.isSome_iff_exists.1 (by rw [← ht, hv]; rfl)
    rw [Value.eq_text_of_text? hv, Value.eq_text_of_text? hw] at h
    exact .inr ⟨s, t, rfl, hw, h⟩

theorem Expr.columnRefs_apply (a : Value) (op : Operator) (symbol : String) (xs : List Expr) :
    (Value.expr (.apply a op symbol xs)).columnRefs
      = xs.flatMap fun x => (Value.expr x).columnRefs := by
  have hcons : ∀ ys, (apply a op symbol xs :: ys).filterMap columnRef? = ys.filterMap columnRef? :=
    fun _ => rfl
  simp [Value.columnRefs, Value.walk, Value.expr?, walkAll_eq_flatMap, Expr.walk, hcons,
    List.filterMap_flatMap]

theorem Expr.columnRefs_order (a : Value) (x : Expr) (descending : Bool) :
    (Value.expr (.order a x descending)).columnRefs = (Value.expr x).columnRefs := by
  simp [Value.columnRefs, Value.walk, Value.expr?, walkAll_eq_flatMap, Expr.walk]
  rfl

theorem Expr.columnRefs_group (a : Value) (x : Expr) :
    (Value.expr (.group a x)).columnRefs = (Value.expr x).columnRefs := by
  simp [Value.columnRefs, Value.walk, Value.expr?, walkAll_eq_flatMap, Expr.walk]
  rfl

theorem Value.operand_drafted_of_toScalar {v : Value} {s : Scalar} (h : v.toScalar cat = .ok s)
    (e : Engine) : (v.drafted cat e).operand = .literal v := by
  obtain ⟨t, rfl⟩ := eq_scalar_of_toScalar h
  rw [Value.drafted]
  rfl

/-- An expression stands as it is as an operand. -/
theorem Expr.operand_drafted (x : Expr) (e : Engine) :
    ((Value.expr x).drafted cat e).operand = ((Value.expr x).drafted cat e).whole := by
  rw [Value.drafted]
  cases x <;> (rw [Expr.drafted]; rfl)

/-- A SELECT stands in brackets as an operand. -/
theorem Select.operand_drafted (q : Select) (e : Engine) :
    ((Value.select q).drafted cat e).operand
      = ((Value.select q).drafted cat e).whole.parenthesized := by
  cases q
  rw [Value.drafted, Select.drafted]
  rfl

section Expressions

variable {x y : Expr} {xs ys : List Expr}

theorem Expr.columnRefs_of_alike (h : Drafted.Alike cat d R ((Value.expr x).drafted cat d.engine)
    ((Value.expr y).drafted cat d.engine)) :
    (Value.expr x).columnRefs = (Value.expr y).columnRefs := by
  have hrefs := h.columnRefs_eq
  rwa [Value.value_drafted, Value.value_drafted] at hrefs

theorem Expr.whole_of_alike (h : Drafted.Alike cat d R ((Value.expr x).drafted cat d.engine)
    ((Value.expr y).drafted cat d.engine)) :
    Draft.Follows cat d R (x.drafted cat d.engine).whole (y.drafted cat d.engine).whole := by
  have hwhole := h.whole
  rwa [Value.drafted_expr, Value.drafted_expr] at hwhole

/-- Arguments that are drafted alike name the same columns. -/
theorem Expr.flatMap_columnRefs_of_alike (h : List.Forall₂ (fun x y : Expr =>
    Drafted.Alike cat d R ((Value.expr x).drafted cat d.engine)
      ((Value.expr y).drafted cat d.engine)) xs ys) :
    xs.flatMap (fun x => (Value.expr x).columnRefs)
      = ys.flatMap fun x => (Value.expr x).columnRefs := by
  induction h with
  | nil => rfl
  | cons hx _ ih => rw [List.flatMap_cons, List.flatMap_cons, columnRefs_of_alike hx, ih]

end Expressions

section Statements

variable {v w : Value} {x y : Draft} {ps qs : PUnit.{1} → List Drafted}

/-- Statements that hold the same beside their clauses and whose clauses are drafted alike. -/
theorem Drafted.Alike.ofStatement (hs : v.Similar cat w) (hx : v.extras = w.extras)
    (hw : Draft.Follows cat d R x y) :
    Drafted.Alike cat d R (.ofStatement v x ps) (.ofStatement w y qs) := by
  refine .statement hs ?_
  rw [hx]
  cases w.extras.lookup "build" with
  | none => exact hw
  | some f => exact .refl _

end Statements

variable (hR : ∀ v w, R v w → v.Interchangeable cat w)
include hR

/-- Values that differ in their literals are drafted alike wherever they stand. -/
theorem Revalued.alike {p : Place} {v w : Value} (h : Revalued R p v w) :
    p.Alike cat d R (v.drafted cat d.engine) (w.drafted cat d.engine) := by
  have hS : Draft.Congruence (Draft.Follows cat d R) := Draft.congruence_alike ..
  induction h with
  | same p v => exact .refl p _
  | @bare v w h =>
    obtain ⟨⟨s, hs⟩, ⟨t, ht⟩, -⟩ := hR v w h
    change Draft.Follows cat d R _ _
    rw [Value.operand_drafted_of_toScalar hs, Value.operand_drafted_of_toScalar ht]
    exact .literal (.literal h)
  | @sequence p q hp form vs ws hl h ih =>
    have hitems : List.Forall₂ (q.Alike cat d R) (vs.map (·.drafted cat d.engine))
        (ws.map (·.drafted cat d.engine)) := by
      rw [List.forall₂_map_left_iff, List.forall₂_map_right_iff, List.forall₂_iff_zip]
      exact ⟨hl, fun hmem => ih _ _ hmem⟩
    have hseq := Place.Alike.sequence hp form hitems
    simp only [List.map_map, Function.comp_def, Value.value_drafted, List.map_id'] at hseq
    rw [Value.drafted, Value.drafted, draftAll_eq_map, draftAll_eq_map]
    exact hseq
  | @expr x y h ih =>
    change Draft.Follows cat d R _ _
    rw [Expr.operand_drafted, Expr.operand_drafted]
    exact Drafted.Alike.whole ih
  | @query q r h ih =>
    change Draft.Follows cat d R _ _
    rw [Select.operand_drafted, Select.operand_drafted]
    exact hS.parenthesized (Drafted.Alike.whole ih)
  | literal a k l h =>
    rw [Value.drafted, Value.drafted, Expr.drafted, Expr.drafted]
    exact Drafted.Alike.expr (Expr.similar_literal a k l h (hR _ _ h).text) (.literal (.literal h))
  | @apply a op symbol xs ys hl h ih =>
    have harguments : List.Forall₂ (fun x y : Expr =>
        Drafted.Alike cat d R ((Value.expr x).drafted cat d.engine)
          ((Value.expr y).drafted cat d.engine)) xs ys :=
      List.forall₂_iff_zip.2 ⟨hl, fun {x y} hmem => ih x y hmem⟩
    rw [Value.drafted, Value.drafted, Expr.drafted, Expr.drafted]
    refine Drafted.Alike.expr ⟨rfl, rfl, rfl, .inl rfl, ⟨rfl, rfl⟩, ?_⟩
      (Operator.alike_draft ?_ d.engine op symbol)
    · rw [Expr.columnRefs_apply, Expr.columnRefs_apply]
      exact Expr.flatMap_columnRefs_of_alike harguments
    · rw [draftExprs_eq_map, draftExprs_eq_map, List.map_map, List.map_map,
        List.forall₂_map_left_iff, List.forall₂_map_right_iff]
      simp only [Value.drafted_expr] at harguments
      exact harguments.imp fun _ _ hx => hx.asOperand
  | @order a x y descending h ih =>
    rw [Value.drafted, Value.drafted, Expr.drafted, Expr.drafted]
    refine Drafted.Alike.expr ⟨rfl, rfl, rfl, .inl rfl, ⟨rfl, rfl⟩, ?_⟩
      (hS.directed (Expr.whole_of_alike ih) descending)
    rw [Expr.columnRefs_order, Expr.columnRefs_order, Expr.columnRefs_of_alike ih]
  | @group a x y h ih =>
    rw [Value.drafted, Value.drafted, Expr.drafted, Expr.drafted]
    refine Drafted.Alike.expr ⟨rfl, rfl, rfl, .inl rfl, ⟨rfl, rfl⟩, ?_⟩
      (hS.parenthesized (Expr.whole_of_alike ih))
    rw [Expr.columnRefs_group, Expr.columnRefs_group, Expr.columnRefs_of_alike ih]
  | subquery a h ih =>
    rw [Value.drafted, Value.drafted, Expr.drafted, Expr.drafted]
    exact Drafted.Alike.expr ⟨rfl, rfl, rfl, .inl rfl, ⟨rfl, rfl⟩, rfl⟩
      (hS.parenthesized (Drafted.Alike.built ih))
  | select hfilter hfields hsources hjoins hgroup hhaving horder hunions limit offset distinct
      extras ihFilter ihFields ihSources ihJoins ihGroup ihHaving ihOrder ihUnions =>
    have hcounts := Drafted.RowAlike.countsAs ihOrder
    rw [Value.value_drafted, Value.value_drafted] at hcounts
    rw [Value.drafted, Value.drafted, Select.drafted, Select.drafted]
    refine Drafted.Alike.ofStatement ⟨⟨rfl, rfl⟩, fun _ _ => ?_⟩ rfl
      ((SelectParts.Alike.related ?_).draft (hS.statementTranslation cat d.engine))
    · rw [Value.isPaged_select, Value.isPaged_select, hcounts.truthy]
      exact .eq_refl _
    · exact ⟨ihFilter, ihFields, ihSources, ihJoins, ihGroup, ihHaving, ihOrder, ihUnions, rfl, rfl,
        rfl, rfl⟩
  | insert table columns hrows hquery hreturning extras ihRows ihQuery ihReturning =>
    rw [Value.drafted, Value.drafted, Insert.drafted, Insert.drafted]
    refine Drafted.Alike.ofStatement ⟨⟨rfl, rfl⟩, by simp⟩ rfl
      ((InsertParts.Alike.related ?_).draft (hS.statementTranslation cat d.engine))
    exact ⟨rfl, rfl, ihRows, ihQuery, ihReturning⟩
  | update table hfilter hassignments hreturning extras ihFilter ihAssignments ihReturning =>
    rw [Value.drafted, Value.drafted, Update.drafted, Update.drafted]
    refine Drafted.Alike.ofStatement ⟨⟨rfl, rfl⟩, by simp⟩ rfl
      ((UpdateParts.Alike.related ?_).draft (hS.statementTranslation cat d.engine))
    exact ⟨ihFilter, rfl, ihAssignments, ihReturning, rfl⟩
  | delete table hfilter hreturning extras ihFilter ihReturning =>
    rw [Value.drafted, Value.drafted, Delete.drafted, Delete.drafted]
    refine Drafted.Alike.ofStatement ⟨⟨rfl, rfl⟩, by simp⟩ rfl ?_
    exact (hS.statementTranslation cat d.engine).deleteDraft extras
      (Drafted.Alike.clauseRelated ihFilter) (hS.refl _)
      ((Drafted.RowAlike.rows .refl ihReturning).imp fun _ _ hx => hx.returned)
  | assignment form column h ih =>
    have hassignment := alike_assignment form (column.drafted cat d.engine) ih
    simp only [Value.value_drafted] at hassignment
    rw [Value.drafted, Value.drafted, draftAll_eq_map, draftAll_eq_map]
    exact hassignment
  | @member form operator q r h ih =>
    have hmember := alike_memberOf form (operator.drafted cat d.engine) ih
      (Value.value_drafted ..)
    simp only [Value.value_drafted] at hmember
    rw [Value.drafted, Value.drafted, draftAll_eq_map, draftAll_eq_map]
    exact hmember
  | @join kind source source' on on' hsource hon shared ihSource ihOn =>
    have htable := Drafted.Alike.table?_eq ihSource
    rw [Value.value_drafted, Value.value_drafted] at htable
    have hcondition : Option.Rel (fun x y => Draft.Follows cat d R x.built y.built)
        (draftOptional cat d.engine on) (draftOptional cat d.engine on') := by
      cases on with
      | none =>
        cases on' with
        | none => exact .none
        | some y => cases hon
      | some x =>
        cases on' with
        | none => cases hon
        | some y =>
          refine .some ?_
          rw [← Value.drafted_expr, ← Value.drafted_expr]
          exact Drafted.Alike.built ihOn
    rw [Value.drafted, Value.drafted, Join.drafted, Join.drafted]
    exact Drafted.JoinAlike.mk
      (hS.joinDraft kind (Drafted.Alike.source ihSource) hcondition shared) htable

end

end SqlCompose
