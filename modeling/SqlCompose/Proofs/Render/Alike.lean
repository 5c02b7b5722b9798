import SqlCompose.Proofs.Expr.Congruence
import SqlCompose.Proofs.Render.Congruence
import SqlCompose.Proofs.Render.Settled

/-!
# Clauses of parts that differ in their values

An operator sees of an operand no more than its binding strength, its symbol, and whether it is a
literal of text: only a LIKE test looks into a literal, and makes a pattern of it, which is one value
again. What a clause sees of its parts beside their drafts is more: the alias of an
expression and the columns in it, how many items a row has, whether a statement is paged, and which
table stands behind a JOIN. Parts that agree on these and are drafted alike make expressions, clauses
and statements that are drafted alike.
-/
namespace SqlCompose

/-! ## What an operator sees -/

section Operators

/-- Two parameters that come about in the same way: the same value, a literal and what stands in its
place, or the patterns that one LIKE test makes of these. -/
inductive Derived (R : Value → Value → Prop) : Value → Value → Prop
  | same (v : Value) : Derived R v v
  | literal {v w : Value} (h : R v w) : Derived R v w
  | pattern (form : LikeForm) {s t : String} (h : R (.text s) (.text t)) :
    Derived R (.text (form.pattern s)) (.text (form.pattern t))

/-- Whether two drafts are alike, with parameters that come about in the same way. -/
abbrev Draft.Follows (cat : Catalog) (d : Dialect) (R : Value → Value → Prop) : Draft → Draft → Prop :=
  Draft.Alike cat d (Derived R)

/-- Operands that look the same to an operator and are drafted alike. -/
structure Operand.Alike (cat : Catalog) (d : Dialect) (R : Value → Value → Prop) (o o' : Operand) :
    Prop where
  level : o.level = o'.level
  symbol : o.symbol = o'.symbol
  text : o.text = o'.text ∨
    ∃ s t, o.text = some s ∧ o'.text = some t ∧ R (.text s) (.text t)
  draft : Draft.Follows cat d R o.draft o'.draft

variable {cat : Catalog} {d : Dialect} {R : Value → Value → Prop} {o o' : Operand}

theorem Operand.Alike.refl (o : Operand) : o.Alike cat d R o := ⟨rfl, rfl, .inl rfl, .refl _⟩

/-- The pattern that a LIKE test makes of a literal follows from the literal. -/
theorem Operand.Alike.related (h : o.Alike cat d R o') :
    o.Related (Draft.Follows cat d R) o' := by
  refine Operand.Related.of_level (Draft.congruence_alike ..) h.level h.symbol ?_ (fun form s t hs ht => ?_) h.draft
  · rcases h.text with h | ⟨s, t, hs, ht, -⟩
    · rw [h]
    · rw [hs, ht]
      rfl
  · rcases h.text with h | ⟨s', t', hs', ht', hst⟩
    · obtain rfl : s = t := Option.some.inj (hs.symm.trans (h.trans ht))
      exact .refl _
    · obtain rfl : s' = s := Option.some.inj (hs'.symm.trans hs)
      obtain rfl : t' = t := Option.some.inj (ht'.symm.trans ht)
      exact .literal (.pattern form hst)

/-- An operator on operands that are alike is drafted alike. -/
theorem Operator.alike_draft {operands others : List Operand}
    (h : List.Forall₂ (Operand.Alike cat d R) operands others) (e : Engine) (op : Operator)
    (symbol : String) :
    Draft.Follows cat d R (op.draft e symbol operands) (op.draft e symbol others) :=
  ((Draft.congruence_alike ..).translation e).operatorDraft (h.imp fun _ _ ho => ho.related) op symbol

end Operators

/-! ## What is seen of a value -/

/-- Expressions that look the same from outside: they bind with the same strength, have the same
alias and hold the same columns. -/
structure Expr.Similar (R : Value → Value → Prop) (x y : Expr) : Prop where
  asName : x.asName = y.asName
  level : x.level = y.level
  symbol : x.symbol = y.symbol
  text : x.text? = y.text? ∨ ∃ s t, x.text? = some s ∧ y.text? = some t ∧ R (.text s) (.text t)
  noColumn : x.columnRef? = none ∧ y.columnRef? = none
  columnRefs : (Value.expr x).columnRefs = (Value.expr y).columnRefs

/-- Statements that look the same from outside: a SELECT is paged alike. -/
structure Value.Similar (cat : Catalog) (v w : Value) : Prop where
  isStatement : v.isStatement = true ∧ w.isStatement = true
  isPaged : ∀ q, v = .select q → Except.Alike (· = ·) (v.isPaged cat) (w.isPaged cat)

/-- Drafted expressions or statements that look the same and are drafted alike. -/
inductive Drafted.Alike (cat : Catalog) (d : Dialect) (R : Value → Value → Prop) :
    Drafted → Drafted → Prop
  | refl (x : Drafted) : Alike cat d R x x
  | expr {a b : Expr} {x y : Draft} {ps qs : PUnit.{1} → List Drafted} (hs : a.Similar R b)
    (hw : Draft.Follows cat d R x y) : Alike cat d R (.of (.expr a) x ps) (.of (.expr b) y qs)
  | statement {v w : Value} {x y : Draft} {ps qs : PUnit.{1} → List Drafted}
    (hs : v.Similar cat w) (hw : Draft.Follows cat d R x y) : Alike cat d R (.of v x ps) (.of w y qs)

/-- Rows whose items are related one by one. -/
inductive Drafted.RowAlike (P : Drafted → Drafted → Prop) : Drafted → Drafted → Prop
  | refl (x : Drafted) : RowAlike P x x
  | sequence (form : SequenceForm) {xs ys : List Drafted} (h : List.Forall₂ P xs ys) :
    RowAlike P (.unbuilt (.sequence form (xs.map Drafted.value)) fun _ => xs)
      (.unbuilt (.sequence form (ys.map Drafted.value)) fun _ => ys)

/-- Values that count the same where a condition, a number of items or a table is asked for. -/
structure Value.CountsAs (v w : Value) : Prop where
  truthy : v.truthy = w.truthy
  isNone : v.isNone = w.isNone
  length : Except.Alike (· = ·) v.length w.length

namespace Value

theorem CountsAs.refl (v : Value) : v.CountsAs v := ⟨rfl, rfl, .eq_refl _⟩

/-- A statement is neither an expression nor a table, and it is there. -/
theorem of_isStatement {v : Value} (h : v.isStatement = true) :
    v.expr? = Option.none ∧ v.parts? = Option.none ∧ v.table? = Option.none ∧ v.isNone = false ∧
      v.truthy = true := by
  cases v <;> simp_all [isStatement, expr?, parts?, table?, isNone, truthy]

theorem columnRefs_of_expr? {v : Value} (h : v.expr? = Option.none) : v.columnRefs = [] := by
  simp [columnRefs, walk, walkAll, h]

end Value

namespace Drafted

variable {cat : Catalog} {d : Dialect} {R : Value → Value → Prop} {x y : Drafted}

namespace Alike

variable (h : Drafted.Alike cat d R x y)
include h

theorem whole : Draft.Follows cat d R x.whole y.whole := by
  cases h with
  | refl => exact .refl _
  | expr hs hw | statement hs hw => exact hw

theorem countsAs : x.value.CountsAs y.value := by
  cases h with
  | refl => exact .refl _
  | expr hs hw => exact ⟨rfl, rfl, trivial⟩
  | statement hs hw =>
    obtain ⟨-, hvp, -, hvn, hvt⟩ := Value.of_isStatement hs.isStatement.1
    obtain ⟨-, hwp, -, hwn, hwt⟩ := Value.of_isStatement hs.isStatement.2
    refine ⟨hvt.trans hwt.symm, hvn.trans hwn.symm, ?_⟩
    rw [Value.length, Value.length, value_of, value_of, hvp, hwp]
    trivial

theorem table?_eq : x.value.table? = y.value.table? := by
  cases h with
  | refl => rfl
  | expr hs hw => rfl
  | statement hs hw =>
    exact (Value.of_isStatement hs.isStatement.1).2.2.1.trans
      (Value.of_isStatement hs.isStatement.2).2.2.1.symm

theorem columnRefs_eq : x.value.columnRefs = y.value.columnRefs := by
  cases h with
  | refl => rfl
  | expr hs hw => exact hs.columnRefs
  | statement hs hw =>
    rw [value_of, value_of, Value.columnRefs_of_expr? (Value.of_isStatement hs.isStatement.1).1,
      Value.columnRefs_of_expr? (Value.of_isStatement hs.isStatement.2).1]

omit h in
/-- How a statement stands in each place. -/
theorem of_isStatement (cat : Catalog) {v : Value} (w : Draft) (ps : PUnit.{1} → List Drafted)
    (h : v.isStatement = true) :
    (Drafted.of v w ps).reference = .member v "build_reference" ∧
      (Drafted.of v w ps).selected = .member v "build_selected" ∧
      (Drafted.of v w ps).built = w ∧ (Drafted.of v w ps).source = w ∧
      returnedDraft cat (.of v w ps) = .member v "build_selected" := by
  cases v <;> simp_all [Value.isStatement, reference, selected, built, source, returnedDraft]

omit h in
/-- How an expression that is no column stands in each place. -/
theorem of_noColumn (cat : Catalog) {a : Expr} (w : Draft) (ps : PUnit.{1} → List Drafted)
    (h : a.columnRef? = none) :
    (Drafted.of (.expr a) w ps).built = w ∧
      returnedDraft cat (.of (.expr a) w ps) = w.named a.asName := by
  cases a <;> simp_all [Expr.columnRef?, built, selected, returnedDraft]

theorem reference : Draft.Follows cat d R x.reference y.reference := by
  cases h with
  | refl => exact .refl _
  | expr hs hw => exact hw
  | @statement v w x y ps qs hs hw =>
    rw [(of_isStatement cat x ps hs.isStatement.1).1,
      (of_isStatement cat y qs hs.isStatement.2).1]
    exact .member ..

theorem selected : Draft.Follows cat d R x.selected y.selected := by
  cases h with
  | refl => exact .refl _
  | @expr a b x y ps qs hs hw =>
    change Draft.Follows cat d R (x.named a.asName) (y.named b.asName)
    rw [hs.asName]
    exact (Draft.congruence_alike ..).named hw _
  | @statement v w x y ps qs hs hw =>
    rw [(of_isStatement cat x ps hs.isStatement.1).2.1,
      (of_isStatement cat y qs hs.isStatement.2).2.1]
    exact .member ..

theorem built : Draft.Follows cat d R x.built y.built := by
  cases h with
  | refl => exact .refl _
  | @expr a b x y ps qs hs hw =>
    rwa [(of_noColumn cat x ps hs.noColumn.1).1,
      (of_noColumn cat y qs hs.noColumn.2).1]
  | @statement v w x y ps qs hs hw =>
    rwa [(of_isStatement cat x ps hs.isStatement.1).2.2.1,
      (of_isStatement cat y qs hs.isStatement.2).2.2.1]

theorem source : Draft.Follows cat d R x.source y.source := by
  cases h with
  | refl => exact .refl _
  | @expr a b x y ps qs hs hw =>
    change Draft.Follows cat d R
      (if a.isNamed then x.named a.asName else .fail .unaliasedSource)
      (if b.isNamed then y.named b.asName else .fail .unaliasedSource)
    rw [Expr.isNamed, Expr.isNamed, hs.asName]
    split
    · exact (Draft.congruence_alike ..).named hw _
    · exact .fail _ _
  | @statement v w x y ps qs hs hw =>
    rwa [(of_isStatement cat x ps hs.isStatement.1).2.2.2.1,
      (of_isStatement cat y qs hs.isStatement.2).2.2.2.1]

theorem returned : Draft.Follows cat d R (returnedDraft cat x) (returnedDraft cat y) := by
  cases h with
  | refl => exact .refl _
  | @expr a b x y ps qs hs hw =>
    rw [(of_noColumn cat x ps hs.noColumn.1).2, (of_noColumn cat y qs hs.noColumn.2).2, hs.asName]
    exact (Draft.congruence_alike ..).named hw _
  | @statement v w x y ps qs hs hw =>
    rw [(of_isStatement cat x ps hs.isStatement.1).2.2.2.2,
      (of_isStatement cat y qs hs.isStatement.2).2.2.2.2]
    exact .member ..

theorem asOperand : (Drafted.asOperand x).Alike cat d R (Drafted.asOperand y) := by
  cases h with
  | refl => exact .refl _
  | expr hs hw => exact ⟨hs.level, hs.symbol, hs.text, hw⟩
  | @statement v w x y ps qs hs hw =>
    have hatom : ∀ {v : Value} (x : Draft) (ps : PUnit.{1} → List Drafted), v.isStatement = true →
        (Drafted.of v x ps).asOperand = ⟨.atom, "", none, x⟩ := by
      intro v x ps hv
      cases v <;> simp_all [Value.isStatement, Drafted.asOperand]
    rw [hatom x ps hs.isStatement.1, hatom y qs hs.isStatement.2]
    exact ⟨rfl, rfl, .inl rfl, hw⟩

theorem isPaged {q : Select} (hx : x.value = .select q) :
    Except.Alike (· = ·) (x.value.isPaged cat) (y.value.isPaged cat) := by
  cases h with
  | refl => exact .eq_refl _
  | expr hs hw => simp at hx
  | statement hs hw => exact hs.isPaged q hx

theorem clauseRelated : x.ClauseRelated (Draft.Follows cat d R) y := ⟨h.countsAs.isNone, h.built⟩

end Alike

namespace RowAlike

variable {P : Drafted → Drafted → Prop} (hP : ∀ x, P x x) (h : RowAlike P x y)
include h

theorem countsAs : x.value.CountsAs y.value := by
  cases h with
  | refl => exact .refl _
  | @sequence form xs ys hrows =>
    have hlength := hrows.length_eq
    have htruthy : (!(xs.map value).isEmpty) = !(ys.map value).isEmpty := by
      cases hrows <;> rfl
    exact ⟨htruthy, rfl, by simpa [unbuilt, Value.length, Value.parts?, Except.Alike] using hlength⟩

include hP in
theorem rows : x.Rows P y := by
  refine ⟨h.countsAs.truthy, h.countsAs.length, ?_⟩
  cases h with
  | refl => exact .refl (fun xs => List.forall₂_same.2 fun x _ => hP x) _
  | sequence form hrows => exact hrows

/-- What the items of a row are as values. -/
theorem valueItems {Q : Value → Value → Prop} (hQ : ∀ v, Q v v)
    (hPQ : ∀ a b, P a b → Q a.value b.value) :
    Except.Alike (List.Forall₂ Q) (x.value.items cat) (y.value.items cat) := by
  cases h with
  | refl => exact .refl (fun vs => List.forall₂_same.2 fun v _ => hQ v) _
  | sequence form hrows =>
    exact List.forall₂_map_left_iff.2 (List.forall₂_map_right_iff.2 (hrows.imp hPQ))

end RowAlike

/-- JOIN clauses that join the same table, if any, and are drafted alike. -/
structure JoinAlike (cat : Catalog) (d : Dialect) (R : Value → Value → Prop) (x y : Drafted) :
    Prop where
  built : Draft.Follows cat d R x.built y.built
  table : x.value.SameSource cat y.value

/-- Assignments to the same column that are drafted alike. -/
structure AssignmentAlike (cat : Catalog) (d : Dialect) (R : Value → Value → Prop)
    (x y : Drafted) : Prop where
  draft : Draft.Follows cat d R (assignmentDraft cat x) (assignmentDraft cat y)
  check : ∀ table, Except.Alike (· = ·) (checkAssignment cat table x) (checkAssignment cat table y)

theorem JoinAlike.refl (x : Drafted) : JoinAlike cat d R x x :=
  ⟨.refl _, .refl _⟩

theorem AssignmentAlike.refl (x : Drafted) : AssignmentAlike cat d R x x :=
  ⟨.refl _, fun _ => .eq_refl _⟩

end Drafted

/-! ## Statements -/

section Statements

variable {cat : Catalog} {d : Dialect} {R : Value → Value → Prop} {x y fields fields' joins
  joins' : Drafted}

theorem alike_inferredTables (extras : List (String × Value))
    (hf : Drafted.RowAlike (Drafted.Alike cat d R) fields fields')
    (hj : Drafted.RowAlike (Drafted.JoinAlike cat d R) joins joins') :
    Except.Alike (· = ·) (inferredTables cat extras fields.value joins.value)
      (inferredTables cat extras fields'.value joins'.value) := by
  have hcolumns : Except.Alike (List.Forall₂ fun v w : Value => v.columnIds = w.columnIds)
      (fields.value.items cat) (fields'.value.items cat) :=
    hf.valueItems (fun _ => rfl) fun _ _ hv => congrArg (List.map ColumnRef.id) hv.columnRefs_eq
  exact inferredTables_congr extras (hcolumns.imp fun _ _ => collectTables_congr)
    (hj.valueItems .refl fun _ _ hj => hj.table)

/-- A further SELECT behind the same set operator. -/
theorem alike_memberOf (form : SequenceForm) (operator : Drafted) (h : Drafted.Alike cat d R x y)
    {q : Select} (hx : x.value = .select q) :
    Draft.Follows cat d R
      (memberOf cat (.unbuilt (.sequence form [operator.value, x.value]) fun _ => [operator, x]))
      (memberOf cat (.unbuilt (.sequence form [operator.value, y.value]) fun _ => [operator, y])) :=
  (Draft.congruence_alike ..).memberOf rfl rfl rfl (h.isPaged hx) h.built

/-- Clauses of a SELECT that are alike, with the same bounds. -/
structure SelectParts.Alike (cat : Catalog) (d : Dialect) (R : Value → Value → Prop)
    (p q : SelectParts) : Prop where
  filter : Drafted.Alike cat d R p.filter q.filter
  fields : Drafted.RowAlike (Drafted.Alike cat d R) p.fields q.fields
  sources : Drafted.RowAlike (Drafted.Alike cat d R) p.sources q.sources
  joins : Drafted.RowAlike (Drafted.JoinAlike cat d R) p.joins q.joins
  groupBy : Drafted.RowAlike (Drafted.Alike cat d R) p.groupBy q.groupBy
  having : Drafted.Alike cat d R p.having q.having
  orderBy : Drafted.RowAlike (Drafted.Alike cat d R) p.orderBy q.orderBy
  unions : Drafted.RowAlike
    (fun x y => Draft.Follows cat d R (memberOf cat x) (memberOf cat y)) p.unions q.unions
  limit : p.limit = q.limit
  offset : p.offset = q.offset
  distinct : p.distinct = q.distinct
  extras : p.extras = q.extras

/-- Each clause asks for its parts in one way. -/
theorem SelectParts.Alike.related {p q : SelectParts} (h : p.Alike cat d R q) :
    p.Related cat (Draft.Follows cat d R) q where
  filter := h.filter.clauseRelated
  fields := (h.fields.rows .refl).imp fun _ _ hx => hx.selected
  sources := (h.sources.rows .refl).imp fun _ _ hx => hx.source
  inferred := by
    rw [h.extras]
    exact alike_inferredTables _ h.fields h.joins
  joins := (h.joins.rows .refl).imp fun _ _ hx => hx.built
  groupBy := (h.groupBy.rows .refl).imp fun _ _ hx => hx.reference
  having := h.having.clauseRelated
  orderBy := (h.orderBy.rows .refl).imp fun _ _ hx => hx.built
  unions := h.unions.rows fun _ => .refl _
  limit := h.limit
  offset := h.offset
  distinct := h.distinct
  extras := h.extras

/-- Rows of values that are drafted alike as operands. -/
abbrev Drafted.OperandAlike (cat : Catalog) (d : Dialect) (R : Value → Value → Prop)
    (x y : Drafted) : Prop := Draft.Follows cat d R x.operand y.operand

/-- Clauses of an INSERT that are alike, into the same columns. -/
structure InsertParts.Alike (cat : Catalog) (d : Dialect) (R : Value → Value → Prop)
    (p q : InsertParts) : Prop where
  table : p.table = q.table
  columns : p.columns = q.columns
  rows : Drafted.RowAlike (Drafted.RowAlike (Drafted.OperandAlike cat d R)) p.rows q.rows
  query : Drafted.Alike cat d R p.query q.query
  returning : Drafted.RowAlike (Drafted.Alike cat d R) p.returning q.returning

theorem InsertParts.Alike.related {p q : InsertParts} (h : p.Alike cat d R q) :
    p.Related cat (Draft.Follows cat d R) q where
  table := h.table
  columns := by
    rw [h.columns]
    exact .refl _
  owned := by
    rw [h.table, h.columns]
    exact .eq_refl _
  width := by
    rw [h.table, h.columns]
    exact .eq_refl _
  rows := (h.rows.rows .refl).imp fun _ _ hrow width =>
    (Draft.congruence_alike ..).rowDraft width (hrow.rows fun _ => .refl _)
  query := h.query.clauseRelated
  returning := (h.returning.rows .refl).imp fun _ _ hx => hx.returned

/-- Assignments to the same column of values that are drafted alike as operands. -/
theorem alike_assignment (form : SequenceForm) (column : Drafted)
    (h : Drafted.OperandAlike cat d R x y) :
    Drafted.AssignmentAlike cat d R
      (.unbuilt (.sequence form [column.value, x.value]) fun _ => [column, x])
      (.unbuilt (.sequence form [column.value, y.value]) fun _ => [column, y]) := by
  refine ⟨?_, fun table => .eq_refl _⟩
  change Draft.Follows cat d R
    (Draft.given (column.value.get cat "name") fun name =>
      .name name + .operator .between "=" + x.operand)
    (Draft.given (column.value.get cat "name") fun name =>
      .name name + .operator .between "=" + y.operand)
  refine (Draft.congruence_alike ..).given (.eq_refl _) fun name name' hname => ?_
  rw [hname]
  exact (Draft.Alike.refl _).plus h

/-- Clauses of an UPDATE of the same table that are alike. -/
structure UpdateParts.Alike (cat : Catalog) (d : Dialect) (R : Value → Value → Prop)
    (p q : UpdateParts) : Prop where
  filter : Drafted.Alike cat d R p.filter q.filter
  table : p.table = q.table
  assignments : Drafted.RowAlike (Drafted.AssignmentAlike cat d R) p.assignments q.assignments
  returning : Drafted.RowAlike (Drafted.Alike cat d R) p.returning q.returning
  extras : p.extras = q.extras

theorem UpdateParts.Alike.related {p q : UpdateParts} (h : p.Alike cat d R q) :
    p.Related cat (Draft.Follows cat d R) q where
  filter := h.filter.clauseRelated
  table := by
    rw [h.table]
    exact .refl _
  assignments := (h.assignments.rows .refl).imp fun _ _ hx => hx.draft
  checked := by
    rw [h.table]
    exact Drafted.Rows.checkAssignments _
      ((h.assignments.rows .refl).imp fun _ _ hx => (hx.check _).imp fun _ _ _ => trivial)
  returning := (h.returning.rows .refl).imp fun _ _ hx => hx.returned
  extras := h.extras

end Statements

end SqlCompose
