import SqlCompose.Proofs.Draft.SameRuns
import SqlCompose.Proofs.Expr.Unaliased
import SqlCompose.Proofs.Render.Congruence
import SqlCompose.Proofs.Render.Select

/-!
# Drafts without the aliases out of place

A clause asks for its parts in one of three ways: as a field with the alias, as an operand without
it, or on its own. What the clause asks for is written alike with and without the aliases that are
out of place at its position, though the parts as such are not: an operand with its alias may differ
if it is asked for as a field. Drafted values are therefore related position by position, and each
position yields what is asked for there.
-/
namespace SqlCompose

variable {cat : Catalog}

/-! ## Sources -/

mutual

/-- The columns in an expression stay. -/
theorem Expr.columns_unaliased : ∀ (x : Expr) (p : Position),
    ((x.unaliased p).walk.filterMap Expr.columnRef?).map ColumnRef.id =
      (x.walk.filterMap Expr.columnRef?).map ColumnRef.id
  | .apply _ _ _ arguments, _ => columns_unaliasedExprs arguments
  | .order _ inner _, _ | .group _ inner, _ => inner.columns_unaliased .operand
  | .literal .., _ | .column .., _ | .raw .., _ | .subquery .., _ | .bare .., _ => rfl

theorem columns_unaliasedExprs : ∀ xs : List Expr,
    ((walkAll (unaliasedExprs xs)).filterMap Expr.columnRef?).map ColumnRef.id =
      ((walkAll xs).filterMap Expr.columnRef?).map ColumnRef.id
  | [] => rfl
  | x :: xs => by
    simp [unaliasedExprs, walkAll, x.columns_unaliased .operand, columns_unaliasedExprs xs]

end

namespace Value

theorem columnIds_unaliased (v : Value) (p : Position) :
    (v.unaliased p).columnIds = v.columnIds := by
  cases v with
  | expr x =>
    simp only [unaliased]
    split
    · simpa [columnIds, columnRefs, walk, walkAll, expr?] using x.columns_unaliased p
    · rfl
  | _ => rfl

/-- The same table is joined. -/
theorem sameSource_unaliased (v : Value) (p : Position) : v.SameSource cat (v.unaliased p) := by
  have hsame : ∀ {w : Value}, v.get cat "table" = w.get cat "table" → v.SameSource cat w := by
    intro w h
    rw [SameSource, h]
    exact SameSource.refl w
  cases v with
  | expr x =>
    refine hsame ?_
    simp only [unaliased]
    split
    · cases x <;> rfl
    · rfl
  | join j =>
    simp only [unaliased]
    split
    · cases j
      exact (table?_unaliased _ _).symm
    · exact .refl _
  | select q | insert q | update q | delete q | index q =>
    refine hsame ?_
    simp only [unaliased]
    split
    · cases q
      rfl
    · rfl
  | sequence form items =>
    refine hsame ?_
    simp only [unaliased, get, held?, declaredFields, extras, derived?, lacks, hasFields]
    cases form <;> simp [holder, typeTag]
  | _ => exact .refl _

/-- A SELECT is paged as before. -/
theorem isPaged_unaliased (v : Value) (p : Position) :
    (v.unaliased p).isPaged cat = v.isPaged cat := by
  have hsame : ∀ {w : Value}, (∀ name ∈ ["order_by_fields", "limit_value", "offset_value"],
      w.get cat name = v.get cat name) → w.isPaged cat = v.isPaged cat := by
    intro w h
    rw [isPaged, isPaged, h "order_by_fields" (by simp), h "limit_value" (by simp),
      h "offset_value" (by simp)]
  cases v with
  | select q =>
    simp only [unaliased]
    split
    · cases q
      rw [isPaged_select, isPaged_select, Select.unaliased, truthy_unaliased]
    · rfl
  | expr x =>
    refine hsame fun name hname => ?_
    simp only [List.mem_cons, List.not_mem_nil, or_false] at hname
    simp only [unaliased]
    split
    · cases x <;> rcases hname with rfl | rfl | rfl <;> rfl
    · rfl
  | insert q | update q | delete q | join q | index q =>
    refine hsame fun name hname => ?_
    simp only [List.mem_cons, List.not_mem_nil, or_false] at hname
    simp only [unaliased]
    split
    · cases q
      rcases hname with rfl | rfl | rfl <;> rfl
    · rfl
  | sequence form items =>
    refine hsame fun name hname => ?_
    simp only [List.mem_cons, List.not_mem_nil, or_false] at hname
    simp only [unaliased, get, held?, declaredFields, extras, derived?, lacks, hasFields]
    rcases hname with rfl | rfl | rfl <;> cases form <;> simp [holder, typeTag]
  | _ => rfl

/-- The same columns belong to a table. -/
theorem ownColumn_unaliased (table v : Value) (p : Position) :
    Except.Alike (fun _ _ => True) (ownColumn cat table v) (ownColumn cat table (v.unaliased p)) := by
  have hrefl := Except.Alike.refl (P := fun _ _ => True) (fun _ => trivial) (ownColumn cat table v)
  cases v with
  | expr x =>
    simp only [unaliased]
    split
    · cases x with
      | column a id =>
        simp only [Expr.unaliased, ownColumn]
        cases isOwnedBy cat id table with
        | true => trivial
        | false =>
          exact .of_ne_ok (fun w => refused_ne_ok table (.expr (.column a id)) w)
            (fun w => refused_ne_ok table (.expr (.column (p.columnName a) id)) w)
      | _ => exact .of_ne_ok (refused_ne_ok table _) (refused_ne_ok table _)
    · exact hrefl
  | sequence form items => exact .of_ne_ok (refused_ne_ok table _) (refused_ne_ok table _)
  | select q | insert q | update q | delete q | join q =>
    exact .of_ne_ok (refused_ne_ok table _) (refused_ne_ok table _)
  | index i =>
    exact .of_ne_ok (refused_ne_ok table (.index i)) (refused_ne_ok table ((index i).unaliased p))
  | _ => exact hrefl

end Value

/-! ## Drafts of values at their positions -/

/-- Drafted values of which the second one is the first one without the aliases that are out of
place at a position, and is written alike. -/
inductive Drafted.Unaliased (cat : Catalog) (p : Position) : Drafted → Drafted → Prop
  | refl (x : Drafted) : Unaliased cat p x x
  | changed {x y : Drafted} (hp : p.isSingle = true) (hv : y.value = x.value.unaliased p)
    (hw : Draft.SameRuns cat x.whole y.whole) (ho : Draft.SameRuns cat x.operand y.operand) :
    Unaliased cat p x y

/-- Rows whose first items are related in one way, and all others in another way. -/
inductive Drafted.RowOf (P Q : Drafted → Drafted → Prop) : Drafted → Drafted → Prop
  | refl (x : Drafted) : RowOf P Q x x
  | row (form : SequenceForm) {x y : Drafted} {xs ys : List Drafted} (h : P x y)
    (hrest : List.Forall₂ Q xs ys) :
    RowOf P Q (.unbuilt (.sequence form (x.value :: xs.map Drafted.value)) fun _ => x :: xs)
      (.unbuilt (.sequence form (y.value :: ys.map Drafted.value)) fun _ => y :: ys)

/-- How drafted values are related that stand at a position with all aliases and without those that
are out of place. -/
def Position.Relates (cat : Catalog) : Position → Drafted → Drafted → Prop
  | row first others => Drafted.RowOf (first.Relates cat) (others.Relates cat)
  | p => Drafted.Unaliased cat p

theorem Position.Relates.refl (p : Position) (x : Drafted) : p.Relates cat x x := by
  cases p with
  | row first others => exact Drafted.RowOf.refl x
  | _ => exact Drafted.Unaliased.refl x

namespace Drafted

variable {x y : Drafted}

namespace RowOf

variable {P Q : Drafted → Drafted → Prop}

theorem rows (hP : ∀ x, P x x) (h : RowOf P P x y) : x.Rows P y := by
  cases h with
  | refl => exact .refl hP x
  | row form h hrest =>
    refine ⟨rfl, ?_, List.Forall₂.cons h hrest⟩
    simpa [unbuilt, Value.length, Value.parts?, Except.Alike] using hrest.length_eq

theorem pair (hP : ∀ x, P x x) (hQ : ∀ x, Q x x) (h : RowOf P Q x y) :
    Except.Alike (fun p q => P p.1 q.1 ∧ Q p.2 q.2) x.pair y.pair := by
  cases h with
  | refl => exact .refl (fun p => ⟨hP p.1, hQ p.2⟩) _
  | row form h hrest =>
    rcases hrest with _ | ⟨hb, _ | ⟨hc, hrest⟩⟩
    · trivial
    · exact ⟨h, hb⟩
    · trivial

/-- What the items of a row are as values. -/
theorem valueItems (h : RowOf P P x y) {R : Value → Value → Prop}
    (hR : ∀ v, R v v) (hPR : ∀ a b, P a b → R a.value b.value) :
    Except.Alike (List.Forall₂ R) (x.value.items cat) (y.value.items cat) := by
  cases h with
  | refl => exact .refl (fun vs => List.forall₂_same.2 fun v _ => hR v) _
  | row form h hrest =>
    exact List.Forall₂.cons (hPR _ _ h)
      (List.forall₂_map_left_iff.2 (List.forall₂_map_right_iff.2 (hrest.imp hPR)))

end RowOf

namespace Unaliased

variable {p : Position}

section

variable (h : x.Unaliased cat p y)
include h

theorem whole : Draft.SameRuns cat x.whole y.whole := by
  cases h with
  | refl => exact (Draft.congruence_sameRuns cat).refl _
  | changed hp hv hw ho => exact hw

theorem operand : Draft.SameRuns cat x.operand y.operand := by
  cases h with
  | refl => exact (Draft.congruence_sameRuns cat).refl _
  | changed hp hv hw ho => exact ho

theorem isNone : x.value.isNone = y.value.isNone := by
  cases h with
  | refl => rfl
  | changed hp hv hw ho => rw [hv, Value.isNone_unaliased]

theorem columnIds : x.value.columnIds = y.value.columnIds := by
  cases h with
  | refl => rfl
  | changed hp hv hw ho => rw [hv, Value.columnIds_unaliased]

theorem sameSource : x.value.SameSource cat y.value := by
  cases h with
  | refl => exact .refl _
  | changed hp hv hw ho =>
    rw [hv]
    exact Value.sameSource_unaliased ..

theorem get (name : String) (hname : name ∈ Value.unnamedParts) (f : Value) :
    x.value.get cat name = .ok f ↔ y.value.get cat name = .ok f := by
  cases h with
  | refl => exact Iff.rfl
  | changed hp hv hw ho =>
    rw [hv]
    exact Value.get_unaliased hname ..

end

theorem ownColumn (h : x.Unaliased cat p y) (table : Value) :
    Except.Alike (fun _ _ => True) (SqlCompose.ownColumn cat table x.value)
      (SqlCompose.ownColumn cat table y.value) := by
  cases h with
  | refl => exact .refl (fun _ => trivial) _
  | changed hp hv hw ho =>
    rw [hv]
    exact Value.ownColumn_unaliased ..

/-! ### Fields and sources -/

section Field

variable (h : x.Unaliased cat .field y)
include h

theorem selected : Draft.SameRuns cat x.selected y.selected := by
  have hwhole := h.whole
  have hget := h.get "build_selected" (by simp [Value.unnamedParts])
  cases h with
  | refl => exact (Draft.congruence_sameRuns cat).refl _
  | changed hp hv hw ho =>
    unfold Drafted.selected
    rw [hv] at hget ⊢
    cases hx : x.value with
    | expr z =>
      simp only [Value.unaliased, if_pos hp, Expr.asName_unaliased_field]
      exact (Draft.congruence_sameRuns cat).named hwhole _
    | _ =>
      rw [hx] at hget
      exact Draft.sameRuns_member hget

theorem source : Draft.SameRuns cat x.source y.source := by
  have hwhole := h.whole
  cases h with
  | refl => exact (Draft.congruence_sameRuns cat).refl _
  | changed hp hv hw ho =>
    unfold Drafted.source Drafted.built
    rw [hv]
    cases hx : x.value with
    | expr z =>
      simp only [Value.unaliased, if_pos hp, Expr.isNamed_unaliased_field,
        Expr.asName_unaliased_field]
      by_cases hz : z.isNamed = true
      · simpa only [if_pos hz] using (Draft.congruence_sameRuns cat).named hwhole _
      · simpa only [if_neg hz] using (Draft.congruence_sameRuns cat).fail _ _
    | _ => exact hwhole

theorem returned : Draft.SameRuns cat (returnedDraft cat x) (returnedDraft cat y) := by
  have hselected := h.selected
  cases h with
  | refl => exact (Draft.congruence_sameRuns cat).refl _
  | changed hp hv hw ho =>
    unfold returnedDraft
    rw [hv]
    cases hx : x.value with
    | expr z =>
      cases z with
      | column a id => exact (Draft.congruence_sameRuns cat).refl _
      | _ => exact hselected
    | _ => exact hselected

end Field

/-! ### Clauses -/

theorem built (h : x.Unaliased cat .clause y) : Draft.SameRuns cat x.built y.built := by
  have hwhole := h.whole
  cases h with
  | refl => exact (Draft.congruence_sameRuns cat).refl _
  | changed hp hv hw ho =>
    unfold Drafted.built
    rw [hv]
    cases hx : x.value with
    | expr z =>
      cases z with
      | column a id => exact (Draft.congruence_sameRuns cat).named hwhole _
      | _ => exact hwhole
    | _ => exact hwhole

theorem clauseRelated (h : x.Unaliased cat .clause y) :
    x.ClauseRelated (Draft.SameRuns cat) y := ⟨h.isNone, h.built⟩

/-! ### Operands -/

section Operand

variable (h : x.Unaliased cat .operand y)
include h

theorem reference : Draft.SameRuns cat x.reference y.reference := by
  have hwhole := h.whole
  have hget := h.get "build_reference" (by simp [Value.unnamedParts])
  cases h with
  | refl => exact (Draft.congruence_sameRuns cat).refl _
  | changed hp hv hw ho =>
    unfold Drafted.reference
    rw [hv] at hget ⊢
    cases hx : x.value with
    | expr z => exact hwhole
    | _ =>
      rw [hx] at hget
      exact Draft.sameRuns_member hget

theorem asOperand : (Drafted.asOperand x).Related (Draft.SameRuns cat) (Drafted.asOperand y) := by
  have hwhole := h.whole
  have hS := Draft.congruence_sameRuns cat
  cases h with
  | refl => exact .refl hS _
  | changed hp hv hw ho =>
    unfold Drafted.asOperand
    rw [hv]
    cases hx : x.value with
    | expr z =>
      simp only [Value.unaliased, if_pos hp]
      refine .of_level hS (z.level_unaliased _).symm (z.symbol_unaliased _).symm
        (by rw [z.text?_unaliased]) (fun form s s' hs hs' => ?_) hwhole
      rw [z.text?_unaliased] at hs'
      obtain rfl := Option.some.inj (hs.symm.trans hs')
      exact hS.refl _
    | _ => exact .of_no_text hS rfl rfl rfl rfl hwhole

theorem bareColumn :
    Draft.SameRuns cat (SqlCompose.bareColumn cat x.value) (SqlCompose.bareColumn cat y.value) := by
  have hget := h.get "build_index" (by simp [Value.unnamedParts])
  cases h with
  | refl => exact (Draft.congruence_sameRuns cat).refl _
  | changed hp hv hw ho =>
    rw [hv] at hget ⊢
    unfold SqlCompose.bareColumn
    cases hx : x.value with
    | expr z =>
      rw [hx] at hget
      cases z with
      | column a id => exact (Draft.congruence_sameRuns cat).refl _
      | _ => exact Draft.sameRuns_member hget
    | _ =>
      rw [hx] at hget
      exact Draft.sameRuns_member hget

end Operand

/-! ### Members of a union -/

theorem isPaged (h : x.Unaliased cat p y) :
    Except.Alike (· = ·) (x.value.isPaged cat) (y.value.isPaged cat) := by
  cases h with
  | refl => exact .eq_refl _
  | changed hp hv hw ho =>
    rw [hv, Value.isPaged_unaliased]
    exact .eq_refl _

end Unaliased

end Drafted

/-! ### Rows and their items -/

namespace Position.Relates

variable {x y : Drafted}

/-- Rows of values that all have the same place. -/
theorem rows {p : Position} (h : p.listOf.Relates cat x y) : x.Rows (p.Relates cat) y :=
  Drafted.RowOf.rows (Position.Relates.refl p) h

theorem pair {p q : Position} (h : (Position.row p q).Relates cat x y) :
    Except.Alike (fun a b => p.Relates cat a.1 b.1 ∧ q.Relates cat a.2 b.2) x.pair y.pair :=
  Drafted.RowOf.pair (Position.Relates.refl p) (Position.Relates.refl q) h

/-- Further SELECTs behind the same set operator. -/
theorem memberOf (h : (Position.row .any .clause).Relates cat x y) :
    Draft.SameRuns cat (SqlCompose.memberOf cat x) (SqlCompose.memberOf cat y) := by
  have hpair := h.pair
  rcases hpair.cases with ⟨e, e', he, he'⟩ | ⟨⟨a, b⟩, ⟨c, d⟩, hp, hq, hoperator, hmember⟩
  · unfold SqlCompose.memberOf
    rw [he, he']
    exact (Draft.congruence_sameRuns cat).fail _ _
  · have hsame : a.value = c.value := by
      cases hoperator with
      | refl => rfl
      | changed hp => cases hp
    exact (Draft.congruence_sameRuns cat).memberOf hp hq hsame hmember.isPaged hmember.built

/-! ### Rows and assignments -/

/-- Rows of operands. -/
theorem rowDraft (h : (Position.listOf .operand).Relates cat x y) (width : Nat) :
    Draft.SameRuns cat (SqlCompose.rowDraft width x) (SqlCompose.rowDraft width y) :=
  (Draft.congruence_sameRuns cat).rowDraft width
    (h.rows.imp fun _ _ hx => hx.operand)

section Assignment

variable (h : (Position.listOf .operand).Relates cat x y)
include h

theorem assignmentDraft :
    Draft.SameRuns cat (SqlCompose.assignmentDraft cat x) (SqlCompose.assignmentDraft cat y) := by
  have hS := Draft.congruence_sameRuns cat
  refine hS.given (h.pair) ?_
  rintro ⟨column, v⟩ ⟨column', v'⟩ ⟨hcolumn, hv⟩
  have hname := hcolumn.get "name" (by simp [Value.unnamedParts])
  refine hS.given (Except.alike_of_iff hname) fun name name' hname => ?_
  rw [hname]
  exact hS.plus (hS.refl _) hv.operand

theorem checkAssignment (table : Value) :
    Except.Alike (fun _ _ => True) (SqlCompose.checkAssignment cat table x)
      (SqlCompose.checkAssignment cat table y) := by
  refine (h.pair).bind ?_
  rintro ⟨column, v⟩ ⟨column', v'⟩ ⟨hcolumn, -⟩
  exact (hcolumn.ownColumn table).discard.imp fun _ _ _ => trivial

end Assignment

/-! ### Columns of an INSERT -/

section Columns

variable (h : (Position.listOf .operand).Relates cat x y)
include h

theorem columnsDraft :
    Draft.SameRuns cat (SqlCompose.columnsDraft cat x.value)
      (SqlCompose.columnsDraft cat y.value) := by
  have hS := Draft.congruence_sameRuns cat
  have hitems : Except.Alike (List.Forall₂ fun v w =>
      Draft.SameRuns cat (SqlCompose.bareColumn cat v) (SqlCompose.bareColumn cat w))
      (x.value.items cat) (y.value.items cat) :=
    Drafted.RowOf.valueItems h (fun _ => hS.refl _) fun _ _ hx => hx.bareColumn
  unfold SqlCompose.columnsDraft
  rw [h.rows.truthy]
  split
  · exact hS.refl _
  · refine hS.given hitems fun vs ws hrows => ?_
    exact hS.plus (hS.plus (hS.refl _) (hS.commaSeparated (by simpa using hrows))) (hS.refl _)

theorem checkOwned (table : Value) :
    Except.Alike (· = ·) (SqlCompose.checkOwned cat table x.value)
      (SqlCompose.checkOwned cat table y.value) := by
  have hitems : Except.Alike (List.Forall₂ fun v w => Except.Alike (fun _ _ => True)
      (discard (SqlCompose.ownColumn cat table v)) (discard (SqlCompose.ownColumn cat table w)))
      (x.value.items cat) (y.value.items cat) :=
    Drafted.RowOf.valueItems h (fun _ => .refl (fun _ => trivial) _)
      fun _ _ hx => (hx.ownColumn table).discard.imp fun _ _ _ => trivial
  exact hitems.bind fun _ _ hrows => (alike_checkAll hrows).bind fun _ _ _ => .eq_refl _

theorem rowWidth (table : Value) :
    Except.Alike (· = ·) (SqlCompose.rowWidth cat table x.value)
      (SqlCompose.rowWidth cat table y.value) := by
  refine h.rows.length.bind fun named named' hnamed => ?_
  rw [hnamed]
  exact .eq_refl _

end Columns

/-! ### Tables that fields imply -/

/-- The sources that a SELECT leaves to its fields. -/
theorem inferredTables {joins joins' : Drafted}
    (hf : (Position.listOf .field).Relates cat x y)
    (hj : (Position.listOf .clause).Relates cat joins joins') (extras : List (String × Value)) :
    Except.Alike (· = ·) (SqlCompose.inferredTables cat extras x.value joins.value)
      (SqlCompose.inferredTables cat extras y.value joins'.value) := by
  have hfields : Except.Alike (List.Forall₂ fun v w : Value => v.columnIds = w.columnIds)
      (x.value.items cat) (y.value.items cat) :=
    Drafted.RowOf.valueItems hf (fun _ => rfl) fun _ _ hx => hx.columnIds
  have hjoins : Except.Alike (List.Forall₂ (Value.SameSource cat)) (joins.value.items cat)
      (joins'.value.items cat) :=
    Drafted.RowOf.valueItems hj .refl fun _ _ hx => hx.sameSource
  exact inferredTables_congr extras (hfields.imp fun _ _ => collectTables_congr) hjoins

end Position.Relates

/-! ## Indexes -/

namespace Index

@[simp] theorem columnOf_unaliased (v : Value) : columnOf (v.unaliased .operand) = columnOf v := by
  cases v with
  | expr x =>
    cases x with
    | order a inner descending => cases inner <;> rfl
    | _ => rfl
  | _ => rfl

@[simp] theorem term_unaliased (v : Value) : term cat (v.unaliased .operand) = term cat v := by
  cases v with
  | expr x =>
    cases x with
    | order a inner descending => cases inner <;> rfl
    | _ => rfl
  | _ => rfl

/-- The columns of an index are written without an alias. -/
theorem draft_unaliased (i : Index) : draft cat i.unaliased = draft cat i := by
  cases i with
  | mk name columns unique table =>
    simp [draft, target, unaliased, unaliasedAll_eq_map, Function.comp_def]

end Index

/-! ## Trees -/

theorem map_value_draftAll (cat : Catalog) (e : Engine) (vs : List Value) :
    (draftAll cat e vs).map Drafted.value = vs := by
  simp [draftAll_eq_map, Function.comp_def]

/-- Statements that are written alike but for what goes before them. -/
theorem sameRuns_ofStatement {v v' : Value} {w w' : Draft} {ps ps' : PUnit.{1} → List Drafted}
    (hx : v.extras = v'.extras) (hw : Draft.SameRuns cat w w') :
    Draft.SameRuns cat (Drafted.ofStatement v w ps).whole (Drafted.ofStatement v' w' ps').whole := by
  change Draft.SameRuns cat (((v.extras.lookup "build").map Draft.applied).getD w)
    (((v'.extras.lookup "build").map Draft.applied).getD w')
  rw [hx]
  cases v'.extras.lookup "build" with
  | none => exact hw
  | some f => exact (Draft.congruence_sameRuns cat).refl _

/-- What a value is as an operand follows from what it is as a whole and from its parts. -/
theorem Value.operand_drafted (cat : Catalog) (e : Engine) (v : Value) : (v.drafted cat e).operand =
    Drafted.operandDraft v (v.drafted cat e).whole fun _ => (v.drafted cat e).parts := by
  cases v with
  | expr x => cases x <;> (rw [drafted, Expr.drafted]; rfl)
  | select q => cases q; rw [drafted, Select.drafted]; rfl
  | insert q => cases q; rw [drafted, Insert.drafted]; rfl
  | update q => cases q; rw [drafted, Update.drafted]; rfl
  | delete q => cases q; rw [drafted, Delete.drafted]; rfl
  | join j => cases j; rw [drafted, Join.drafted]; rfl
  | index i => cases i; rw [drafted, Index.drafted]; rfl
  | _ => simp only [drafted]; rfl

/-- Values that are no sequences and are written alike as a whole are so as operands. A statement
that is no SELECT is no operand. -/
theorem sameRuns_operandDraft {v : Value} (hv : ∀ form items, v ≠ .sequence form items)
    (p : Position) {w w' : Draft} (h : Draft.SameRuns cat w w') (ps ps' : PUnit.{1} → List Drafted) :
    Draft.SameRuns cat (Drafted.operandDraft v w ps) (Drafted.operandDraft (v.unaliased p) w' ps') := by
  have hliteral : ∀ {u : Value}, (∀ t, u ≠ .scalar t) → ∀ s, u.toScalar cat ≠ .ok s := by
    intro u hu s hs
    obtain ⟨t, ht⟩ := Value.eq_scalar_of_toScalar hs
    exact hu t ht
  cases v with
  | sequence form items => exact absurd rfl (hv form items)
  | expr x => exact h
  | select q => exact (Draft.congruence_sameRuns cat).parenthesized h
  | insert q | update q | delete q | join q | index q =>
    exact Draft.sameRuns_literal (hliteral nofun) (hliteral nofun)
  | _ => exact (Draft.congruence_sameRuns cat).refl _

/-- A value that is no sequence is written alike if it is so as a whole. -/
theorem Position.Relates.of_whole {e : Engine} {v : Value} {p : Position}
    (hv : ∀ form items, v ≠ .sequence form items)
    (h : p.isSingle = true →
      Draft.SameRuns cat (v.drafted cat e).whole ((v.unaliased p).drafted cat e).whole) :
    p.Relates cat (v.drafted cat e) ((v.unaliased p).drafted cat e) := by
  have hsingle : p.isSingle = true →
      Drafted.Unaliased cat p (v.drafted cat e) ((v.unaliased p).drafted cat e) := by
    intro hp
    refine .changed hp (by simp) (h hp) ?_
    rw [Value.operand_drafted, Value.operand_drafted]
    exact sameRuns_operandDraft hv p (h hp) _ _
  have hkept : p.isSingle = false → v.unaliased p = v := by
    intro hp
    cases v with
    | sequence form items => exact absurd rfl (hv form items)
    | expr x | select q | insert q | update q | delete q | join q | index q =>
      simp [Value.unaliased, hp]
    | _ => rfl
  cases p with
  | any | row =>
    rw [hkept rfl]
    exact .refl _ _
  | field | operand | clause => exact hsingle rfl

/-- An expression is written alike if it is so as a whole. -/
theorem Drafted.Unaliased.of_whole {e : Engine} {x : Expr} {p : Position} (hp : p.isSingle = true)
    (h : Draft.SameRuns cat (x.drafted cat e).whole ((x.unaliased p).drafted cat e).whole) :
    Drafted.Unaliased cat p (x.drafted cat e) ((x.unaliased p).drafted cat e) := by
  refine .changed hp (by simp [Value.unaliased, hp]) h ?_
  rw [← Value.drafted_expr, ← Value.drafted_expr, Value.operand_drafted, Value.operand_drafted,
    Value.drafted_expr, Value.drafted_expr]
  exact h

section Trees

variable {e : Engine}

mutual

/-- A value is written alike without the aliases that are out of place. -/
theorem Value.relates : ∀ (v : Value) (p : Position),
    p.Relates cat (v.drafted cat e) ((v.unaliased p).drafted cat e)
  | .sequence form items, .operand => by
    have hitems := relates_all items .operand
    refine Drafted.Unaliased.changed rfl (by simp) ?_ ?_
    · exact Draft.sameRuns_member
        (Value.get_unaliased (by simp [Value.unnamedParts]) (.sequence form items) .operand)
    · exact (Draft.congruence_sameRuns cat).listDraft
        (by simpa using hitems.imp fun _ _ hx => Drafted.Unaliased.operand hx)
  | .sequence form items, .row first others => by
    have hrow := relates_row form items first others
    simpa only [Value.drafted, Value.unaliased] using hrow
  | .sequence form items, .any | .sequence form items, .field | .sequence form items, .clause =>
    .refl _ _
  | .expr x, p => .of_whole nofun fun hp => by
    simpa only [Value.drafted, Value.unaliased, if_pos hp] using x.relates_whole p
  | .select q, p => .of_whole nofun fun hp => by
    simpa only [Value.drafted, Value.unaliased, if_pos hp] using q.relates_whole
  | .insert q, p => .of_whole nofun fun hp => by
    simpa only [Value.drafted, Value.unaliased, if_pos hp] using q.relates_whole
  | .update q, p => .of_whole nofun fun hp => by
    simpa only [Value.drafted, Value.unaliased, if_pos hp] using q.relates_whole
  | .delete q, p => .of_whole nofun fun hp => by
    simpa only [Value.drafted, Value.unaliased, if_pos hp] using q.relates_whole
  | .join j, p => .of_whole nofun fun hp => by
    simpa only [Value.drafted, Value.unaliased, if_pos hp] using j.relates_whole
  | .index i, p => .of_whole nofun fun hp => by
    simpa only [Value.drafted, Value.unaliased, if_pos hp] using i.relates_whole
  | .scalar _, p | .dict _, p | .table _, p | .statement _, p | .foreignKey _, p
  | .dialect _, p | .context .., p | .kind _, p | .span _, p | .complex _, p | .type _, p
  | .union _, p | .generic .., p | .helpers _, p | .rule _, p | .builder _, p | .executor, p
  | .method .., p | .object _, p => .refl p _

theorem relates_all : ∀ (vs : List Value) (p : Position),
    List.Forall₂ (p.Relates cat) (draftAll cat e vs) (draftAll cat e (unaliasedAll vs p))
  | [], _ => .nil
  | v :: vs, p => .cons (v.relates p) (relates_all vs p)

theorem relates_row : ∀ (form : SequenceForm) (vs : List Value) (first others : Position),
    (Position.row first others).Relates cat
      (.unbuilt (.sequence form vs) fun _ => draftAll cat e vs)
      (.unbuilt (.sequence form (unaliasedRow vs first others)) fun _ =>
        draftAll cat e (unaliasedRow vs first others))
  | _, [], _, _ => .refl _ _
  | form, v :: vs, first, others => by
    have hrow := Drafted.RowOf.row form (v.relates first) (relates_all vs others)
    simp only [Value.value_drafted, map_value_draftAll] at hrow
    exact hrow

/-- An expression is written alike without the aliases that are out of place. -/
theorem Expr.relates_whole : ∀ (x : Expr) (p : Position),
    Draft.SameRuns cat (x.drafted cat e).whole ((x.unaliased p).drafted cat e).whole
  | .literal .., _ | .column .., _ | .raw .., _ | .bare .., _ => by
    simp only [Expr.drafted, Expr.unaliased]
    exact (Draft.congruence_sameRuns cat).refl _
  | .apply _ op symbol arguments, _ => by
    have harguments := relates_exprs arguments
    simp only [Expr.drafted, Expr.unaliased]
    exact ((Draft.congruence_sameRuns cat).translation e).operatorDraft
      (by simpa using harguments.imp fun _ _ hx => hx.asOperand) op symbol
  | .order _ inner descending, _ => by
    simp only [Expr.drafted, Expr.unaliased]
    exact (Draft.congruence_sameRuns cat).directed (inner.relates_whole .operand) descending
  | .group _ inner, _ => by
    simp only [Expr.drafted, Expr.unaliased]
    exact (Draft.congruence_sameRuns cat).parenthesized (inner.relates_whole .operand)
  | .subquery _ body, _ => by
    have hbody := body.relates .clause
    simp only [Expr.drafted, Expr.unaliased]
    exact (Draft.congruence_sameRuns cat).parenthesized hbody.built

theorem relates_exprs : ∀ xs : List Expr,
    List.Forall₂ (Drafted.Unaliased cat .operand) (draftExprs cat e xs)
      (draftExprs cat e (unaliasedExprs xs))
  | [] => .nil
  | x :: xs => .cons (.of_whole rfl (x.relates_whole .operand)) (relates_exprs xs)

theorem relates_optional : ∀ on : Option Expr,
    Option.Rel (fun x y => Draft.SameRuns cat x.built y.built) (draftOptional cat e on)
      (draftOptional cat e (unaliasedOptional on))
  | none => .none
  | some x => .some (Drafted.Unaliased.built (.of_whole rfl (x.relates_whole .clause)))

/-- A JOIN clause is written alike without the aliases that are out of place. -/
theorem Join.relates_whole : ∀ j : Join,
    Draft.SameRuns cat (j.drafted cat e).whole (j.unaliased.drafted cat e).whole
  | ⟨kind, source, on, shared⟩ => by
    have hsource := source.relates .field
    have hon := relates_optional on
    simp only [Join.drafted, Join.unaliased]
    exact (Draft.congruence_sameRuns cat).joinDraft kind (hsource.source) hon shared

/-- An index is written alike without the aliases in it. -/
theorem Index.relates_whole : ∀ i : Index,
    Draft.SameRuns cat (i.drafted cat e).whole (i.unaliased.drafted cat e).whole
  | ⟨name, columns, unique, table⟩ => by
    simp only [Index.drafted, Index.unaliased]
    rw [Drafted.of, ← Index.unaliased, Index.draft_unaliased]
    exact (Draft.congruence_sameRuns cat).refl _

/-- A SELECT is written alike without the aliases that are out of place. -/
theorem Select.relates_whole : ∀ q : Select,
    Draft.SameRuns cat (q.drafted cat e).whole (q.unaliased.drafted cat e).whole
  | ⟨filter, fields, sources, joins, groupBy, having, orderBy, unions, limit, offset, distinct,
      extras⟩ => by
    have hfilter := filter.relates .clause
    have hfields := fields.relates (.listOf .field)
    have hsources := sources.relates (.listOf .field)
    have hjoins := joins.relates (.listOf .clause)
    have hgroupBy := groupBy.relates (.listOf .operand)
    have hhaving := having.relates .clause
    have horderBy := orderBy.relates (.listOf .clause)
    have hunions := unions.relates (.listOf (.row .any .clause))
    simp only [Select.drafted, Select.unaliased]
    refine sameRuns_ofStatement rfl (SelectParts.Related.draft ?_
      ((Draft.congruence_sameRuns cat).statementTranslation cat e))
    exact
      { filter := hfilter.clauseRelated
        fields := hfields.rows.imp fun _ _ hx => hx.selected
        sources := hsources.rows.imp fun _ _ hx => hx.source
        inferred := hfields.inferredTables hjoins extras
        joins := hjoins.rows.imp fun _ _ hx => hx.built
        groupBy := hgroupBy.rows.imp fun _ _ hx => hx.reference
        having := hhaving.clauseRelated
        orderBy := horderBy.rows.imp fun _ _ hx => hx.built
        unions := hunions.rows.imp fun _ _ hx => hx.memberOf
        limit := rfl
        offset := rfl
        distinct := rfl
        extras := rfl }

/-- An INSERT is written alike without the aliases that are out of place. -/
theorem Insert.relates_whole : ∀ q : Insert,
    Draft.SameRuns cat (q.drafted cat e).whole (q.unaliased.drafted cat e).whole
  | ⟨table, columns, values, query, returning, extras⟩ => by
    have hcolumns := columns.relates (.listOf .operand)
    have hvalues := values.relates (.listOf (.listOf .operand))
    have hquery := query.relates .clause
    have hreturning := returning.relates (.listOf .field)
    have hdraft := hcolumns.columnsDraft
    have howned := hcolumns.checkOwned table
    have hwidth := hcolumns.rowWidth table
    rw [Value.value_drafted, Value.value_drafted] at hdraft howned hwidth
    simp only [Insert.drafted, Insert.unaliased]
    refine sameRuns_ofStatement rfl (InsertParts.Related.draft ?_
      ((Draft.congruence_sameRuns cat).statementTranslation cat e))
    exact
      { table := rfl
        columns := hdraft
        owned := howned
        width := hwidth
        rows := hvalues.rows.imp fun _ _ hx => hx.rowDraft
        query := hquery.clauseRelated
        returning := hreturning.rows.imp fun _ _ hx => hx.returned }

/-- An UPDATE is written alike without the aliases that are out of place. -/
theorem Update.relates_whole : ∀ q : Update,
    Draft.SameRuns cat (q.drafted cat e).whole (q.unaliased.drafted cat e).whole
  | ⟨filter, table, assignments, returning, extras⟩ => by
    have hfilter := filter.relates .clause
    have hassignments := assignments.relates (.listOf (.listOf .operand))
    have hreturning := returning.relates (.listOf .field)
    simp only [Update.drafted, Update.unaliased]
    refine sameRuns_ofStatement rfl (UpdateParts.Related.draft ?_
      ((Draft.congruence_sameRuns cat).statementTranslation cat e))
    exact
      { filter := hfilter.clauseRelated
        table := (Draft.congruence_sameRuns cat).refl _
        assignments := hassignments.rows.imp fun _ _ hx => hx.assignmentDraft
        checked := Drafted.Rows.checkAssignments _
          (hassignments.rows.imp fun _ _ hx => hx.checkAssignment _)
        returning := hreturning.rows.imp fun _ _ hx => hx.returned
        extras := rfl }

/-- A DELETE is written alike without the aliases that are out of place. -/
theorem Delete.relates_whole : ∀ q : Delete,
    Draft.SameRuns cat (q.drafted cat e).whole (q.unaliased.drafted cat e).whole
  | ⟨filter, table, returning, extras⟩ => by
    have hfilter := filter.relates .clause
    have hreturning := returning.relates (.listOf .field)
    simp only [Delete.drafted, Delete.unaliased]
    refine sameRuns_ofStatement rfl ?_
    exact ((Draft.congruence_sameRuns cat).statementTranslation cat e).deleteDraft extras
      (hfilter.clauseRelated) ((Draft.congruence_sameRuns cat).refl _)
      (hreturning.rows.imp fun _ _ hx => hx.returned)

end

end Trees

end SqlCompose
