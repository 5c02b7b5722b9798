import SqlCompose.Proofs.Expr.Congruence
import SqlCompose.Render

/-!
# Clauses of related parts

What a clause sees of its parts beside their drafts: whether a value is there, and how many items a
row has. From parts that agree on these and have related drafts come related clauses and statements,
also if two engines write them.
-/
namespace SqlCompose

/-- A translation of operators that also relates what two engines write for paging, for returned
fields and for an INSERT of nothing. -/
structure Draft.StatementTranslation (cat : Catalog) (e e' : Engine) (S : Draft → Draft → Prop) :
    Prop extends Draft.Translation e e' S where
  paging : ∀ limit offset ordered {x y}, S x y →
    S (paged cat e limit offset ordered x) (paged cat e' limit offset ordered y)
  returning : ∀ {x y}, S x y →
    S (if e.supportsReturning then x else .fail (.returningUnsupported e.name))
      (if e'.supportsReturning then y else .fail (.returningUnsupported e'.name))
  emptyInsert : S (.text (" " ++ e.emptyInsert)) (.text (" " ++ e'.emptyInsert))

variable {cat : Catalog} {S : Draft → Draft → Prop}

/-- For one engine a congruence is enough. -/
theorem Draft.Congruence.statementTranslation (hS : Draft.Congruence S) (cat : Catalog)
    (e : Engine) : Draft.StatementTranslation cat e e S := by
  refine { hS.translation e with paging := ?_, returning := ?_, emptyInsert := hS.refl _ }
  · intro limit offset ordered x y h
    unfold paged
    split
    · exact hS.checked h (hS.refl _)
    · exact hS.extend h (hS.refl _)
    · exact hS.extend h (hS.refl _)
  · intro x y h
    split
    · exact h
    · exact hS.refl _

namespace Drafted

/-- Values that both are or are not there, and make up related clauses. -/
structure ClauseRelated (S : Draft → Draft → Prop) (x y : Drafted) : Prop where
  isNone : x.value.isNone = y.value.isNone
  built : S x.built y.built

/-- Rows of as many items, related one by one. -/
structure Rows (P : Drafted → Drafted → Prop) (x y : Drafted) : Prop where
  truthy : x.value.truthy = y.value.truthy
  length : Except.Alike (· = ·) x.value.length y.value.length
  items : Except.Alike (List.Forall₂ P) x.items y.items

theorem Rows.imp {P Q : Drafted → Drafted → Prop} {x y : Drafted} (h : x.Rows P y)
    (hPQ : ∀ a b, P a b → Q a b) : x.Rows Q y := by
  refine { h with items := ?_ }
  rcases h.items.cases with ⟨e, e', he, he'⟩ | ⟨xs, ys, hxs, hys, hrows⟩
  · rw [he, he']
    trivial
  · rw [hxs, hys]
    exact hrows.imp hPQ

theorem Rows.refl {P : Drafted → Drafted → Prop} (hP : ∀ x, P x x) (x : Drafted) : x.Rows P x :=
  ⟨rfl, .eq_refl _, .refl (fun _ => List.forall₂_same.2 fun x _ => hP x) _⟩

end Drafted

/-! ## Sources that fields imply -/

/-- The columns in an expression, or in what is no expression none. -/
def Value.columnRefs (v : Value) : List ColumnRef := (Value.walk [v]).filterMap Expr.columnRef?

theorem Value.filterMap_walk (vs : List Value) :
    (Value.walk vs).filterMap Expr.columnRef? = vs.flatMap Value.columnRefs := by
  induction vs with
  | nil => rfl
  | cons v vs ih =>
    rw [List.flatMap_cons, ← ih, Value.columnRefs, ← List.filterMap_append]
    cases hv : v.expr? <;> simp [Value.walk, walkAll, hv]

/-- The identities of the columns in an expression. -/
def Value.columnIds (v : Value) : List ColumnId := v.columnRefs.map (·.id)

theorem map_eraseDupsBy {α β : Type} [BEq β] (f : α → β) (as : List α) :
    (as.eraseDupsBy fun a b => f a == f b).map f = (as.map f).eraseDups := by
  induction h : as.length using Nat.strongRecOn generalizing as with
  | ind n ih =>
    cases as with
    | nil => rfl
    | cons a as =>
      have hlength := List.length_filter_le (fun b => (f b == f a) = false) as
      have hrest := ih _ (by rw [← h, List.length_cons]; omega)
        (as.filter fun b => (f b == f a) = false) rfl
      rw [List.eraseDupsBy_cons, List.map_cons, hrest, List.map_cons, List.eraseDups_cons,
        List.filter_map]
      simp [Function.comp_def]

/-- The tables of columns are found by the identities of the columns. -/
theorem collectTables_eq (cat : Catalog) (vs : List Value) : collectTables cat vs
    = ((vs.flatMap Value.columnIds).eraseDups.filterMap cat.owner).eraseDups := by
  have hids : (vs.flatMap Value.columnRefs).map (·.id) = vs.flatMap Value.columnIds :=
    List.map_flatMap
  rw [collectTables, collectColumns, Value.filterMap_walk, ← hids,
    ← map_eraseDupsBy, List.filterMap_map]
  rfl

theorem collectTables_congr {vs ws : List Value}
    (h : List.Forall₂ (fun v w : Value => v.columnIds = w.columnIds) vs ws) :
    collectTables cat vs = collectTables cat ws := by
  have hflat : vs.flatMap Value.columnIds = ws.flatMap Value.columnIds := by
    induction h with
    | nil => rfl
    | cons hv _ ih => rw [List.flatMap_cons, List.flatMap_cons, hv, ih]
  rw [collectTables_eq, collectTables_eq, hflat]

/-- Whether the same table, if any, is joined. -/
def Value.SameSource (cat : Catalog) (v w : Value) : Prop :=
  Except.Alike (fun v w => v.table? = w.table?) (v.get cat "table") (w.get cat "table")

theorem Value.SameSource.refl (v : Value) : v.SameSource cat v :=
  Except.Alike.refl (by intro _; rfl) _

/-- Whether the same tables are found in two values. -/
def SameTables (cat : Catalog) (v w : Value) : Prop :=
  Except.Alike (fun vs ws => vs.filterMap Value.table? = ws.filterMap Value.table?) (v.items cat)
    (w.items cat)

theorem SameTables.refl (v : Value) : SameTables cat v v :=
  Except.Alike.refl (by intro _; rfl) _

section Inferred

variable {fields fields' joins joins' : Value}

/-- The tables that are joined are the same if each JOIN clause has the same source. -/
theorem sameTables_joinedSources (extras : List (String × Value))
    (h : Except.Alike (List.Forall₂ (Value.SameSource cat)) (joins.items cat) (joins'.items cat)) :
    Except.Alike (SameTables cat) (joinedSources cat extras joins)
      (joinedSources cat extras joins') := by
  unfold joinedSources
  split
  · exact .refl SameTables.refl _
  · refine h.bind fun vs ws hvs => (Except.Alike.mapM hvs fun _ _ hv => hv).bind ?_
    intro tables tables' htables
    change tables.filterMap Value.table? = tables'.filterMap Value.table?
    induction htables with
    | nil => rfl
    | cons hv _ ih => simp only [List.filterMap_cons, hv, ih]

/-- Fields in which the same tables occur imply the same sources beside the same JOIN clauses. -/
theorem inferredTables_congr (extras : List (String × Value))
    (hf : Except.Alike (fun vs ws => collectTables cat vs = collectTables cat ws) (fields.items cat)
      (fields'.items cat))
    (hj : Except.Alike (List.Forall₂ (Value.SameSource cat)) (joins.items cat) (joins'.items cat)) :
    Except.Alike (· = ·) (inferredTables cat extras fields joins)
      (inferredTables cat extras fields' joins') := by
  have himplied : Except.Alike (fun vs ws => collectTables cat vs = collectTables cat ws)
      (impliedBy cat fields) (impliedBy cat fields') := by
    unfold impliedBy
    rcases hf.cases with ⟨e, e', he, he'⟩ | ⟨vs, ws, hvs, hws, hfound⟩
    · rw [he, he']
      trivial
    · rw [hvs, hws]
      exact hfound
  refine (sameTables_joinedSources extras hj).bind fun v w hvw => ?_
  refine himplied.bind fun vs ws hfound => ?_
  simp only [hfound]
  split
  · exact .eq_refl _
  · refine Except.Alike.bind hvw fun others others' hothers => ?_
    rw [hothers]
    exact .eq_refl _

end Inferred

/-! ## Clauses -/

namespace Draft.Congruence

variable (hS : Draft.Congruence S) {x y : Drafted} {f : Drafted → Draft}
include hS

theorem clause (keyword : String) (h : x.ClauseRelated S y) :
    S (x.clause keyword) (y.clause keyword) := by
  unfold Drafted.clause
  rw [h.isNone]
  split
  · exact hS.refl _
  · exact hS.plus (hS.refl _) h.built

theorem optionalClause (keyword : String) (h : x.ClauseRelated S y) :
    List.Forall₂ S (x.optionalClause keyword) (y.optionalClause keyword) := by
  unfold Drafted.optionalClause
  rw [h.isNone]
  split
  · exact .nil
  · exact .cons (hS.clause keyword h) .nil

theorem listed (h : x.Rows (fun a b => S (f a) (f b)) y) : S (x.listed f) (y.listed f) :=
  hS.given h.items fun xs ys hrows => hS.commaSeparated (by simpa using hrows)

theorem each (h : x.Rows (fun a b => S (f a) (f b)) y) : List.Forall₂ S (x.each f) (y.each f) := by
  unfold Drafted.each
  rcases h.items.cases with ⟨e, e', he, he'⟩ | ⟨xs, ys, hxs, hys, hrows⟩
  · rw [he, he']
    exact .cons (hS.fail _ _) .nil
  · rw [hxs, hys]
    simpa using hrows

theorem listClause (keyword : String) (h : x.Rows (fun a b => S (f a) (f b)) y) :
    List.Forall₂ S (x.listClause keyword f) (y.listClause keyword f) := by
  unfold Drafted.listClause
  rw [h.truthy]
  split
  · exact .cons (hS.plus (hS.refl _) (hS.listed h)) .nil
  · exact .nil

theorem whereDraft (extras : List (String × Value)) (h : x.ClauseRelated S y) :
    S (SqlCompose.whereDraft extras x) (SqlCompose.whereDraft extras y) := by
  unfold SqlCompose.whereDraft
  split
  · exact hS.refl _
  · exact hS.clause "WHERE" h

/-! ## JOIN and union -/

theorem joinCondition (kind : String) {on on' : Option Drafted}
    (h : Option.Rel (fun x y => S x.built y.built) on on') (shared : List String) :
    List.Forall₂ S (SqlCompose.joinCondition kind on shared)
      (SqlCompose.joinCondition kind on' shared) := by
  have hsome : on.isSome = on'.isSome := by cases h <;> rfl
  unfold SqlCompose.joinCondition
  rw [hsome]
  split
  · exact .cons (hS.fail _ _) .nil
  · split
    · exact .cons (hS.fail _ _) .nil
    · cases h with
      | none => exact hS.refl_all _
      | some h => exact .cons (hS.plus (hS.refl _) h) .nil

theorem joinDraft (kind : String) (h : S x.source y.source) {on on' : Option Drafted}
    (ho : Option.Rel (fun x y => S x.built y.built) on on') (shared : List String) :
    S (SqlCompose.joinDraft kind x on shared) (SqlCompose.joinDraft kind y on' shared) :=
  hS.continued (hS.plus (hS.refl _) (hS.shown h)) (hS.joinCondition kind ho shared)

/-- A further SELECT that is paged alike behind the same set operator. -/
theorem memberOf {operator operator' member member' : Drafted}
    (hx : x.pair = .ok (operator, member)) (hy : y.pair = .ok (operator', member'))
    (hoperator : operator.value = operator'.value)
    (hpaged : Except.Alike (· = ·) (member.value.isPaged cat) (member'.value.isPaged cat))
    (hbuilt : S member.built member'.built) :
    S (SqlCompose.memberOf cat x) (SqlCompose.memberOf cat y) := by
  unfold SqlCompose.memberOf
  rw [hx, hy]
  refine hS.given hpaged fun isPaged isPaged' hpaged => ?_
  rw [hoperator]
  refine hS.given (.eq_refl _) fun word word' hword => ?_
  rw [hpaged, hword]
  split
  · exact hS.fail _ _
  · exact hS.plus (hS.refl _) hbuilt

/-! ## Rows and assignments -/

theorem rowDraft (width : Nat) (h : x.Rows (fun a b => S a.operand b.operand) y) :
    S (SqlCompose.rowDraft width x) (SqlCompose.rowDraft width y) := by
  refine hS.given h.length fun given given' hgiven => ?_
  rw [hgiven]
  split
  · exact hS.fail _ _
  · exact hS.parenthesized (hS.listed h)

end Draft.Congruence

/-! ## Statements -/

namespace Draft.StatementTranslation

variable {e e' : Engine} (hS : Draft.StatementTranslation cat e e' S) {x y fields fields' : Drafted}
include hS

theorem returningDraft
    (h : fields.Rows (fun a b => S (returnedDraft cat a) (returnedDraft cat b)) fields') :
    S (SqlCompose.returningDraft cat e fields) (SqlCompose.returningDraft cat e' fields') := by
  unfold SqlCompose.returningDraft
  rw [h.truthy]
  split
  · exact hS.refl _
  · exact hS.asking _ (hS.returning (hS.plus (hS.refl _) (hS.listed h)))

end Draft.StatementTranslation

/-- Related clauses of a SELECT that reads the same tables, with the same bounds. -/
structure SelectParts.Related (cat : Catalog) (S : Draft → Draft → Prop) (p q : SelectParts) :
    Prop where
  filter : p.filter.ClauseRelated S q.filter
  fields : p.fields.Rows (fun a b => S a.selected b.selected) q.fields
  sources : p.sources.Rows (fun a b => S a.source b.source) q.sources
  inferred : Except.Alike (· = ·) (inferredTables cat p.extras p.fields.value p.joins.value)
    (inferredTables cat q.extras q.fields.value q.joins.value)
  joins : p.joins.Rows (fun a b => S a.built b.built) q.joins
  groupBy : p.groupBy.Rows (fun a b => S a.reference b.reference) q.groupBy
  having : p.having.ClauseRelated S q.having
  orderBy : p.orderBy.Rows (fun a b => S a.built b.built) q.orderBy
  unions : p.unions.Rows (fun a b => S (memberOf cat a) (memberOf cat b)) q.unions
  limit : p.limit = q.limit
  offset : p.offset = q.offset
  distinct : p.distinct = q.distinct
  extras : p.extras = q.extras

namespace SelectParts.Related

variable {p q : SelectParts} (h : p.Related cat S q)
include h

theorem sourceDrafts (hS : Draft.Congruence S) :
    Except.Alike (List.Forall₂ S) (sourceDrafts cat p.extras p.sources p.fields p.joins)
      (sourceDrafts cat q.extras q.sources q.fields q.joins) := by
  have hinferred := h.inferred
  unfold SqlCompose.sourceDrafts
  rw [h.extras] at hinferred ⊢
  split
  · exact .refl hS.refl_all _
  · rw [h.sources.truthy]
    split
    · refine h.sources.items.bind fun xs ys hrows => ?_
      exact List.forall₂_map_left_iff.2 (List.forall₂_map_right_iff.2 hrows)
    · refine hinferred.bind fun ids ids' hids => ?_
      rw [hids]
      exact hS.refl_all _

theorem fieldList (hS : Draft.Congruence S) : S p.fieldList q.fieldList := by
  unfold SelectParts.fieldList
  rw [h.fields.truthy]
  split
  · exact hS.listed h.fields
  · exact hS.refl _

theorem clauses (hS : Draft.Congruence S) {items others : List Draft}
    (hs : List.Forall₂ S items others) :
    List.Forall₂ S (p.clauses cat items) (q.clauses cat others) := by
  have hempty : items.isEmpty = others.isEmpty := by cases hs <;> rfl
  have hjoins : p.joins.Rows
      (fun a b => S (Draft.text " " + a.built) (Draft.text " " + b.built)) q.joins :=
    h.joins.imp fun _ _ hb => hS.plus (hS.refl _) hb
  unfold SelectParts.clauses
  rw [hempty, h.distinct, h.extras]
  refine List.rel_append (List.rel_append (List.rel_append (List.rel_append (List.rel_append
    (List.rel_append (List.rel_append (List.rel_append (hS.refl_all _) ?_) ?_) ?_) ?_) ?_)
    (hS.optionalClause _ h.having)) ?_) ?_
  · exact .cons (h.fieldList hS) .nil
  · split
    · exact .nil
    · exact .cons (hS.plus (hS.refl _) (hS.commaSeparated hs)) .nil
  · exact hS.each hjoins
  · exact .cons (hS.whereDraft _ h.filter) .nil
  · exact hS.listClause _ h.groupBy
  · exact hS.each h.unions
  · exact hS.listClause _ h.orderBy

/-- A SELECT of related clauses. -/
theorem draft {e e' : Engine} (hS : Draft.StatementTranslation cat e e' S) :
    S (p.draft cat e) (q.draft cat e') := by
  unfold SelectParts.draft
  rw [h.limit, h.offset, h.fields.truthy, h.orderBy.truthy]
  refine hS.given (h.sourceDrafts hS.toCongruence) fun items others hs => ?_
  have hempty : items.isEmpty = others.isEmpty := by cases hs <;> rfl
  rw [hempty]
  split
  · exact hS.fail _ _
  · exact hS.paging _ _ _ (hS.continued (hS.refl _) (h.clauses hS.toCongruence hs))

end SelectParts.Related

/-- Related clauses of an INSERT into the same table. -/
structure InsertParts.Related (cat : Catalog) (S : Draft → Draft → Prop) (p q : InsertParts) :
    Prop where
  table : p.table = q.table
  columns : S (columnsDraft cat p.columns) (columnsDraft cat q.columns)
  owned : Except.Alike (· = ·) (checkOwned cat p.table p.columns) (checkOwned cat q.table q.columns)
  width : Except.Alike (· = ·) (rowWidth cat p.table p.columns) (rowWidth cat q.table q.columns)
  rows : p.rows.Rows (fun a b => ∀ width, S (rowDraft width a) (rowDraft width b)) q.rows
  query : p.query.ClauseRelated S q.query
  returning : p.returning.Rows (fun a b => S (returnedDraft cat a) (returnedDraft cat b)) q.returning

namespace InsertParts.Related

variable {p q : InsertParts} (h : p.Related cat S q) {e e' : Engine}
  (hS : Draft.StatementTranslation cat e e' S)
include h hS

theorem content : S (p.content cat e) (q.content cat e') := by
  unfold InsertParts.content
  rw [h.query.isNone, h.rows.truthy]
  simp only
  split
  · split
    · exact hS.before h.columns (hS.fail _ _)
    · exact hS.plus (hS.plus h.columns (hS.refl _)) h.query.built
  · split
    · refine hS.plus (hS.plus h.columns (hS.refl _)) (hS.given h.width fun width width' hwidth => ?_)
      rw [hwidth]
      exact hS.listed (h.rows.imp fun _ _ hb => hb width')
    · exact hS.before h.columns (hS.asking _ hS.emptyInsert)

/-- An INSERT of related clauses. -/
theorem draft : S (p.draft cat e) (q.draft cat e') := by
  unfold InsertParts.draft
  rw [h.table]
  have howned := h.owned
  rw [h.table] at howned
  refine hS.given (.eq_refl _) fun name name' hname => ?_
  rw [hname]
  split
  · exact hS.fail _ _
  · refine hS.guarded howned ?_
    exact hS.plus (hS.extend (hS.refl _) (h.content hS)) (hS.returningDraft h.returning)

end InsertParts.Related

/-- A check of several things, one by one, that go well or wrong together. -/
theorem alike_checkAll {α β : Type} {f : α → Except Error Unit} {g : β → Except Error Unit}
    {xs : List α} {ys : List β}
    (h : List.Forall₂ (fun a b => Except.Alike (fun _ _ => True) (f a) (g b)) xs ys) :
    Except.Alike (· = ·)
      (forIn xs PUnit.unit fun a _ => f a >>= fun _ => pure (ForInStep.yield PUnit.unit))
      (forIn ys PUnit.unit fun b _ => g b >>= fun _ => pure (ForInStep.yield PUnit.unit)) := by
  induction h with
  | nil => exact .eq_refl _
  | cons hx hrest ih =>
    simp only [List.forIn_cons, bind_assoc, pure_bind] at ih ⊢
    exact hx.bind fun _ _ _ => ih

/-- Assignments that set columns of the same table one by one. -/
theorem Drafted.Rows.checkAssignments {x y : Drafted} (table : Value)
    (h : x.Rows (fun a b => Except.Alike (fun _ _ => True) (checkAssignment cat table a)
      (checkAssignment cat table b)) y) :
    Except.Alike (· = ·) (SqlCompose.checkAssignments cat table x)
      (SqlCompose.checkAssignments cat table y) :=
  h.items.bind fun _ _ hrows => (alike_checkAll hrows).bind fun _ _ _ => .eq_refl _

/-- Related clauses of an UPDATE. -/
structure UpdateParts.Related (cat : Catalog) (S : Draft → Draft → Prop) (p q : UpdateParts) :
    Prop where
  filter : p.filter.ClauseRelated S q.filter
  table : S p.table.built q.table.built
  assignments : p.assignments.Rows
    (fun a b => S (assignmentDraft cat a) (assignmentDraft cat b)) q.assignments
  checked : Except.Alike (· = ·) (checkAssignments cat p.table.value p.assignments)
    (checkAssignments cat q.table.value q.assignments)
  returning : p.returning.Rows (fun a b => S (returnedDraft cat a) (returnedDraft cat b)) q.returning
  extras : p.extras = q.extras

/-- An UPDATE of related clauses. -/
theorem UpdateParts.Related.draft {p q : UpdateParts} (h : p.Related cat S q) {e e' : Engine}
    (hS : Draft.StatementTranslation cat e e' S) : S (p.draft cat e) (q.draft cat e') := by
  unfold UpdateParts.draft
  rw [h.assignments.truthy, h.extras]
  split
  · exact hS.fail _ _
  · refine hS.guarded h.checked ?_
    refine hS.plus (hS.extend (hS.extend ?_ (hS.listed h.assignments)) (hS.whereDraft _ h.filter))
      (hS.returningDraft h.returning)
    exact hS.plus (hS.plus (hS.refl _) h.table) (hS.refl _)

/-- A DELETE of related clauses. -/
theorem Draft.StatementTranslation.deleteDraft {e e' : Engine}
    (hS : Draft.StatementTranslation cat e e' S)
    {filter filter' table table' returning returning' : Drafted} (extras : List (String × Value))
    (hf : filter.ClauseRelated S filter') (ht : S table.built table'.built)
    (hr : returning.Rows (fun a b => S (returnedDraft cat a) (returnedDraft cat b)) returning') :
    S (SqlCompose.deleteDraft cat e filter table returning extras)
      (SqlCompose.deleteDraft cat e' filter' table' returning' extras) :=
  hS.plus (hS.extend (hS.plus (hS.refl _) ht) (hS.whereDraft extras hf)) (hS.returningDraft hr)

end SqlCompose
