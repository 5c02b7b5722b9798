import SqlCompose.Proofs.Render.Congruence

/-!
# Values drafted for two engines

A value that is drafted for two engines is the same value with the same parts; only its drafts may
differ. A relation of drafts that is kept by all ways of putting drafts together, and that holds
between what two engines write in places of their own, holds between all drafts of a value for the
two engines.
-/
namespace SqlCompose

/-- The same value with related drafts, and so its parts. -/
inductive Drafted.Retargeted (S : Draft → Draft → Prop) : Drafted → Drafted → Prop
  | refl (x : Drafted) : Retargeted S x x
  | mk (v : Value) {w w' o o' : Draft} {ps ps' : PUnit.{1} → List Drafted} (hw : S w w')
    (ho : S o o') (hp : List.Forall₂ (Retargeted S) (ps ()) (ps' ())) :
    Retargeted S (.mk v w o ps) (.mk v w' o' ps')

namespace Drafted.Retargeted

variable {S : Draft → Draft → Prop} {x y : Drafted}

theorem value_eq (h : x.Retargeted S y) : x.value = y.value := by
  cases h <;> rfl

theorem refl_all (xs : List Drafted) : List.Forall₂ (Retargeted S) xs xs :=
  List.forall₂_same.2 fun x _ => .refl x

theorem parts (h : x.Retargeted S y) : List.Forall₂ (Retargeted S) x.parts y.parts := by
  cases h with
  | refl => exact refl_all _
  | mk v hw ho hp => exact hp

section Congruence

variable (hS : Draft.Congruence S) (h : x.Retargeted S y)
include hS h

theorem whole : S x.whole y.whole := by
  cases h with
  | refl => exact hS.refl _
  | mk v hw ho hp => exact hw

omit hS in
theorem items : Except.Alike (List.Forall₂ (Retargeted S)) x.items y.items := by
  unfold Drafted.items
  rw [h.value_eq]
  split
  · exact h.parts
  · trivial

theorem reference : S x.reference y.reference := by
  have hwhole := h.whole hS
  unfold Drafted.reference
  rw [h.value_eq]
  split
  · exact hwhole
  · exact hS.refl _

theorem selected : S x.selected y.selected := by
  have hwhole := h.whole hS
  unfold Drafted.selected
  rw [h.value_eq]
  split
  · exact hS.named hwhole _
  · exact hS.refl _

theorem built : S x.built y.built := by
  have hwhole := h.whole hS
  unfold Drafted.built
  rw [h.value_eq]
  split
  · exact hS.named hwhole _
  · exact hwhole

theorem source : S x.source y.source := by
  have hwhole := h.whole hS
  have hbuilt := h.built hS
  unfold Drafted.source
  rw [h.value_eq]
  split
  · split
    · exact hS.named hwhole _
    · exact hS.fail _ _
  · exact hbuilt

theorem returned (cat : Catalog) : S (returnedDraft cat x) (returnedDraft cat y) := by
  have hselected := h.selected hS
  unfold returnedDraft
  rw [h.value_eq]
  split
  · exact hS.refl _
  · exact hselected

theorem asOperand : (Drafted.asOperand x).Related S (Drafted.asOperand y) := by
  have hwhole := h.whole hS
  unfold Drafted.asOperand
  rw [h.value_eq]
  split
  · refine .of_level hS rfl rfl rfl (fun form s s' hs hs' => ?_) hwhole
    obtain rfl := Option.some.inj (hs.symm.trans hs')
    exact hS.refl _
  · exact .of_no_text hS rfl rfl rfl rfl hwhole

theorem clauseRelated : x.ClauseRelated S y := ⟨by rw [h.value_eq], h.built hS⟩

omit hS in
/-- A row of the same value, whose items are drafted for two engines. -/
theorem rows {P : Drafted → Drafted → Prop} (hP : ∀ a b, a.Retargeted S b → P a b) :
    x.Rows P y := by
  have hall : x.Rows (Retargeted S) y :=
    ⟨by rw [h.value_eq], by rw [h.value_eq]; exact .eq_refl _, h.items⟩
  exact hall.imp hP

omit hS in
theorem pair : Except.Alike (fun p q => p.1.Retargeted S q.1 ∧ p.2.Retargeted S q.2)
    x.pair y.pair := by
  unfold Drafted.pair
  rcases h.items.cases with ⟨e, e', he, he'⟩ | ⟨xs, ys, hxs, hys, hrows⟩
  · rw [he, he']
    trivial
  · rw [hxs, hys]
    rcases hrows with _ | ⟨ha, _ | ⟨hb, _ | ⟨hc, hrest⟩⟩⟩
    · trivial
    · trivial
    · exact ⟨ha, hb⟩
    · trivial

theorem memberOf (cat : Catalog) : S (SqlCompose.memberOf cat x) (SqlCompose.memberOf cat y) := by
  rcases h.pair.cases with ⟨e, e', he, he'⟩ | ⟨p, q, hp, hq, hoperator, hmember⟩
  · unfold SqlCompose.memberOf
    rw [he, he']
    exact hS.fail _ _
  · refine hS.memberOf hp hq hoperator.value_eq ?_ (hmember.built hS)
    rw [hmember.value_eq]
    exact .eq_refl _

theorem operand : S x.operand y.operand := by
  cases h with
  | refl => exact hS.refl _
  | mk v hw ho hp => exact ho

/-! ## Rows and assignments -/

theorem rowDraft (width : Nat) : S (SqlCompose.rowDraft width x) (SqlCompose.rowDraft width y) :=
  hS.rowDraft width (h.rows fun _ _ hx => hx.operand hS)

theorem assignmentDraft (cat : Catalog) :
    S (SqlCompose.assignmentDraft cat x) (SqlCompose.assignmentDraft cat y) := by
  refine hS.given h.pair fun (column, v) (column', v') ⟨hcolumn, hv⟩ => ?_
  simp only [hcolumn.value_eq]
  refine hS.given (.eq_refl _) fun name name' hname => ?_
  rw [hname]
  exact hS.plus (hS.refl _) (hv.operand hS)

omit hS in
theorem checkAssignment (cat : Catalog) (table : Value) :
    Except.Alike (fun _ _ => True) (SqlCompose.checkAssignment cat table x)
      (SqlCompose.checkAssignment cat table y) := by
  refine h.pair.bind fun (column, v) (column', v') ⟨hcolumn, _⟩ => ?_
  simp only [hcolumn.value_eq]
  exact .refl (fun _ => trivial) _

end Congruence

/-! ## Making drafted values -/

section Making

variable {v : Value} {w w' : Draft} {ps ps' : PUnit.{1} → List Drafted}

theorem operandDraft (hS : Draft.Congruence S) (hw : S w w')
    (hp : List.Forall₂ (Retargeted S) (ps ()) (ps' ())) :
    S (Drafted.operandDraft v w ps) (Drafted.operandDraft v w' ps') := by
  cases v with
  | expr x => exact hw
  | select q => exact hS.parenthesized hw
  | sequence form items =>
    exact hS.listDraft (by simpa using hp.imp fun _ _ hx => hx.operand hS)
  | _ => exact hS.refl _

/-- One value with related drafts and parts. -/
theorem of (hS : Draft.Congruence S) (hw : S w w')
    (hp : List.Forall₂ (Retargeted S) (ps ()) (ps' ())) :
    (Drafted.of v w ps).Retargeted S (.of v w' ps') :=
  .mk v hw (operandDraft hS hw hp) hp

theorem unbuilt (hS : Draft.Congruence S) (hp : List.Forall₂ (Retargeted S) (ps ()) (ps' ())) :
    (Drafted.unbuilt v ps).Retargeted S (.unbuilt v ps') := of hS (hS.refl _) hp

theorem ofField (hS : Draft.Congruence S) (name : String) (h : x.Retargeted S y) :
    (Drafted.ofField name x).Retargeted S (.ofField name y) := by
  rw [Drafted.ofField, Drafted.ofField, h.value_eq]
  exact unbuilt hS (.cons (.refl _) (.cons h .nil))

theorem ofFields (hS : Draft.Congruence S) (names : List String) {fields others : List Drafted}
    (h : List.Forall₂ (Retargeted S) fields others) :
    List.Forall₂ (Retargeted S) (Drafted.ofFields names fields) (Drafted.ofFields names others) := by
  induction h generalizing names with
  | nil => simp [Drafted.ofFields]
  | cons hx hrest ih =>
    cases names with
    | nil => exact .nil
    | cons name names => exact .cons (hx.ofField hS name) (ih names)

/-- Values under the same names. -/
abbrev Named (S : Draft → Draft → Prop) : List (String × Drafted) → List (String × Drafted) → Prop :=
  List.Forall₂ fun p q => p.1 = q.1 ∧ p.2.Retargeted S q.2

theorem statementFields (hS : Draft.Congruence S) (names : List String)
    {clauses others : List Drafted} (hc : List.Forall₂ (Retargeted S) clauses others)
    {extras more : List (String × Drafted)} (hx : Named S extras more) :
    List.Forall₂ (Retargeted S) (Drafted.statementFields names clauses extras)
      (Drafted.statementFields names others more) := by
  refine List.rel_append (ofFields hS names hc) ?_
  refine List.rel_map ?_ (List.rel_filter ?_ hx)
  · rintro ⟨name, x⟩ ⟨_, y⟩ ⟨rfl, hxy⟩
    exact hxy.ofField hS name
  · rintro ⟨name, x⟩ ⟨_, y⟩ ⟨rfl, -⟩
    exact Iff.rfl

theorem ofStatement (hS : Draft.Congruence S) (hw : S w w')
    (hp : List.Forall₂ (Retargeted S) (ps ()) (ps' ())) :
    (Drafted.ofStatement v w ps).Retargeted S (.ofStatement v w' ps') := by
  refine of hS ?_ hp
  cases v.extras.lookup "build" with
  | none => exact hw
  | some f => exact hS.refl _

end Making

end Drafted.Retargeted

/-! ## Trees -/

section Trees

variable {cat : Catalog} {e e' : Engine} {S : Draft → Draft → Prop}

open Drafted.Retargeted (ofFields statementFields)

mutual

/-- What a value is drafted as for the two engines. -/
theorem Value.retargeted (hS : Draft.StatementTranslation cat e e' S) :
    ∀ v : Value, (v.drafted cat e).Retargeted S (v.drafted cat e')
  | .sequence form items => by
    simpa only [Value.drafted] using .unbuilt hS.toCongruence (retargeted_draftAll hS items)
  | .dict entries => by
    simpa only [Value.drafted] using .unbuilt hS.toCongruence (retargeted_draftKeys hS entries)
  | .expr x => by simpa only [Value.drafted] using x.retargeted hS
  | .select q => by simpa only [Value.drafted] using q.retargeted hS
  | .insert q => by simpa only [Value.drafted] using q.retargeted hS
  | .update q => by simpa only [Value.drafted] using q.retargeted hS
  | .delete q => by simpa only [Value.drafted] using q.retargeted hS
  | .statement extras => by
    simp only [Value.drafted]
    exact .ofStatement hS.toCongruence (hS.refl _)
      (statementFields hS.toCongruence _ .nil (retargeted_draftNamed hS extras))
  | .join j => by simpa only [Value.drafted] using j.retargeted hS
  | .index i => by simpa only [Value.drafted] using i.retargeted hS
  | .scalar _ | .table _ | .foreignKey _ | .dialect _ | .context .. | .kind _ | .span _ | .complex _
  | .type _ | .union _ | .generic .. | .helpers _ | .rule _ | .builder _ | .executor | .method ..
  | .object _ => by
    simp only [Value.drafted]
    exact .refl _

theorem retargeted_draftAll (hS : Draft.StatementTranslation cat e e' S) :
    ∀ vs : List Value,
    List.Forall₂ (Drafted.Retargeted S) (draftAll cat e vs) (draftAll cat e' vs)
  | [] => .nil
  | v :: vs => .cons (v.retargeted hS) (retargeted_draftAll hS vs)

theorem retargeted_draftKeys (hS : Draft.StatementTranslation cat e e' S) :
    ∀ entries : List (Value × Value),
    List.Forall₂ (Drafted.Retargeted S) (draftKeys cat e entries) (draftKeys cat e' entries)
  | [] => .nil
  | (k, _) :: entries => .cons (k.retargeted hS) (retargeted_draftKeys hS entries)

theorem retargeted_draftNamed (hS : Draft.StatementTranslation cat e e' S) :
    ∀ entries : List (String × Value),
    Drafted.Retargeted.Named S (draftNamed cat e entries) (draftNamed cat e' entries)
  | [] => .nil
  | (_, v) :: entries => .cons ⟨rfl, (v.retargeted hS)⟩ (retargeted_draftNamed hS entries)

/-- What an expression is drafted as for the two engines. -/
theorem Expr.retargeted (hS : Draft.StatementTranslation cat e e' S) :
    ∀ x : Expr, (x.drafted cat e).Retargeted S (x.drafted cat e')
  | .literal a v k => by
    simp only [Expr.drafted]
    exact .of hS.toCongruence (hS.refl _) (ofFields hS.toCongruence _
      (.cons (a.retargeted hS) (.cons (v.retargeted hS) (.cons (.refl _) .nil))))
  | .column _ _ => by
    simp only [Expr.drafted]
    exact .refl _
  | .apply a op symbol arguments => by
    have hoperands := retargeted_draftExprs hS arguments
    simp only [Expr.drafted]
    refine .of hS.toCongruence (hS.operatorDraft ?_ op symbol)
      (List.rel_append (ofFields hS.toCongruence _ ?_) (Drafted.Retargeted.refl_all _))
    · simpa using hoperands.imp fun _ _ hx => hx.asOperand hS.toCongruence
    · exact .cons (a.retargeted hS) (.cons (.refl _)
        (.cons (.unbuilt hS.toCongruence hoperands) .nil))
  | .order a inner descending => by
    have hinner := inner.retargeted hS
    simp only [Expr.drafted]
    exact .of hS.toCongruence (hS.directed (hinner.whole hS.toCongruence) descending)
      (ofFields hS.toCongruence _ (.cons (a.retargeted hS) (.cons hinner (.cons (.refl _) .nil))))
  | .group a inner => by
    have hinner := inner.retargeted hS
    simp only [Expr.drafted]
    exact .of hS.toCongruence (hS.parenthesized (hinner.whole hS.toCongruence))
      (ofFields hS.toCongruence _ (.cons (a.retargeted hS) (.cons hinner .nil)))
  | .raw a _ => by
    simp only [Expr.drafted]
    exact .of hS.toCongruence (hS.refl _)
      (ofFields hS.toCongruence _ (.cons (a.retargeted hS) (.cons (.refl _) .nil)))
  | .subquery a body => by
    have hbody := body.retargeted hS
    simp only [Expr.drafted]
    exact .of hS.toCongruence (hS.parenthesized (hbody.built hS.toCongruence))
      (ofFields hS.toCongruence _ (.cons (a.retargeted hS) (.cons hbody .nil)))
  | .bare a => by
    simp only [Expr.drafted]
    exact .of hS.toCongruence (hS.refl _) (ofFields hS.toCongruence _ (.cons (a.retargeted hS) .nil))

theorem retargeted_draftExprs (hS : Draft.StatementTranslation cat e e' S) :
    ∀ xs : List Expr,
    List.Forall₂ (Drafted.Retargeted S) (draftExprs cat e xs) (draftExprs cat e' xs)
  | [] => .nil
  | x :: xs => .cons (x.retargeted hS) (retargeted_draftExprs hS xs)

theorem retargeted_draftOptional (hS : Draft.StatementTranslation cat e e' S) :
    ∀ x : Option Expr,
    Option.Rel (Drafted.Retargeted S) (draftOptional cat e x) (draftOptional cat e' x)
  | none => .none
  | some x => .some (x.retargeted hS)

/-- What a JOIN clause is drafted as for the two engines. -/
theorem Join.retargeted (hS : Draft.StatementTranslation cat e e' S) :
    ∀ j : Join, (j.drafted cat e).Retargeted S (j.drafted cat e')
  | ⟨kind, source, on, shared⟩ => by
    have hsource := source.retargeted hS
    have hon := retargeted_draftOptional hS on
    simp only [Join.drafted]
    generalize draftOptional cat e on = x at hon ⊢
    generalize draftOptional cat e' on = y at hon ⊢
    refine .of hS.toCongruence (hS.joinDraft kind (hsource.source hS.toCongruence) ?_ shared)
      (ofFields hS.toCongruence _ (.cons (.refl _) (.cons hsource (.cons ?_ (.cons (.refl _) .nil)))))
    · cases hon with
      | none => exact .none
      | some hx => exact .some (hx.built hS.toCongruence)
    · cases hon with
      | none => exact .refl _
      | some hx => exact hx

/-- What an index is drafted as for the two engines. -/
theorem Index.retargeted (hS : Draft.StatementTranslation cat e e' S) :
    ∀ i : Index, (i.drafted cat e).Retargeted S (i.drafted cat e')
  | ⟨name, columns, unique, table⟩ => by
    simp only [Index.drafted]
    exact .of hS.toCongruence (hS.refl _) (ofFields hS.toCongruence _ (.cons (.refl _)
      (.cons (.unbuilt hS.toCongruence (retargeted_draftAll hS columns))
        (.cons (.refl _) (.cons (.refl _) .nil)))))

/-- What a SELECT is drafted as for the two engines. -/
theorem Select.retargeted (hS : Draft.StatementTranslation cat e e' S) :
    ∀ q : Select, (q.drafted cat e).Retargeted S (q.drafted cat e')
  | ⟨filter, fields, sources, joins, groupBy, having, orderBy, unions, limit, offset, distinct,
      extras⟩ => by
    have hfilter := filter.retargeted hS
    have hfields := fields.retargeted hS
    have hsources := sources.retargeted hS
    have hjoins := joins.retargeted hS
    have hgroupBy := groupBy.retargeted hS
    have hhaving := having.retargeted hS
    have horderBy := orderBy.retargeted hS
    have hunions := unions.retargeted hS
    have hlimit := limit.retargeted hS
    have hoffset := offset.retargeted hS
    have hdistinct := distinct.retargeted hS
    have hextras := retargeted_draftNamed hS extras
    simp only [Select.drafted]
    refine .ofStatement hS.toCongruence (SelectParts.Related.draft ?_ hS)
      (statementFields hS.toCongruence _ ?_ hextras)
    · exact
        { filter := hfilter.clauseRelated hS.toCongruence
          fields := hfields.rows fun _ _ hx => hx.selected hS.toCongruence
          sources := hsources.rows fun _ _ hx => hx.source hS.toCongruence
          inferred := by
            rw [hfields.value_eq, hjoins.value_eq]
            exact .eq_refl _
          joins := hjoins.rows fun _ _ hx => hx.built hS.toCongruence
          groupBy := hgroupBy.rows fun _ _ hx => hx.reference hS.toCongruence
          having := hhaving.clauseRelated hS.toCongruence
          orderBy := horderBy.rows fun _ _ hx => hx.built hS.toCongruence
          unions := hunions.rows fun _ _ hx => hx.memberOf hS.toCongruence cat
          limit := rfl
          offset := rfl
          distinct := rfl
          extras := rfl }
    · exact .cons hfilter (.cons hfields (.cons hsources (.cons hjoins (.cons hgroupBy
        (.cons hhaving (.cons horderBy (.cons hunions (.cons hlimit (.cons hoffset
          (.cons hdistinct .nil))))))))))

/-- What an INSERT is drafted as for the two engines. -/
theorem Insert.retargeted (hS : Draft.StatementTranslation cat e e' S) :
    ∀ q : Insert, (q.drafted cat e).Retargeted S (q.drafted cat e')
  | ⟨table, columns, rows, query, returning, extras⟩ => by
    have htable := table.retargeted hS
    have hcolumns := columns.retargeted hS
    have hrows := rows.retargeted hS
    have hquery := query.retargeted hS
    have hreturning := returning.retargeted hS
    have hextras := retargeted_draftNamed hS extras
    simp only [Insert.drafted]
    refine .ofStatement hS.toCongruence (InsertParts.Related.draft ?_ hS)
      (statementFields hS.toCongruence _ ?_ hextras)
    · exact
        { table := rfl
          columns := hS.refl _
          owned := .eq_refl _
          width := .eq_refl _
          rows := hrows.rows fun _ _ hx width => hx.rowDraft hS.toCongruence width
          query := hquery.clauseRelated hS.toCongruence
          returning := hreturning.rows fun _ _ hx => hx.returned hS.toCongruence cat }
    · exact .cons htable (.cons hcolumns (.cons hrows (.cons hquery (.cons hreturning .nil))))

/-- What an UPDATE is drafted as for the two engines. -/
theorem Update.retargeted (hS : Draft.StatementTranslation cat e e' S) :
    ∀ q : Update, (q.drafted cat e).Retargeted S (q.drafted cat e')
  | ⟨filter, table, assignments, returning, extras⟩ => by
    have hfilter := filter.retargeted hS
    have htable := table.retargeted hS
    have hassignments := assignments.retargeted hS
    have hreturning := returning.retargeted hS
    have hextras := retargeted_draftNamed hS extras
    simp only [Update.drafted]
    refine .ofStatement hS.toCongruence (UpdateParts.Related.draft ?_ hS)
      (statementFields hS.toCongruence _ ?_ hextras)
    · exact
        { filter := hfilter.clauseRelated hS.toCongruence
          table := htable.built hS.toCongruence
          assignments := hassignments.rows fun _ _ hx => hx.assignmentDraft hS.toCongruence cat
          checked := by
            rw [htable.value_eq]
            exact Drafted.Rows.checkAssignments _
              (hassignments.rows fun _ _ hx => hx.checkAssignment cat _)
          returning := hreturning.rows fun _ _ hx => hx.returned hS.toCongruence cat
          extras := rfl }
    · exact .cons hfilter (.cons htable (.cons hassignments (.cons hreturning .nil)))

/-- What a DELETE is drafted as for the two engines. -/
theorem Delete.retargeted (hS : Draft.StatementTranslation cat e e' S) :
    ∀ q : Delete, (q.drafted cat e).Retargeted S (q.drafted cat e')
  | ⟨filter, table, returning, extras⟩ => by
    have hfilter := filter.retargeted hS
    have htable := table.retargeted hS
    have hreturning := returning.retargeted hS
    have hextras := retargeted_draftNamed hS extras
    simp only [Delete.drafted]
    refine .ofStatement hS.toCongruence ?_ (statementFields hS.toCongruence _
      (.cons hfilter (.cons htable (.cons hreturning .nil))) hextras)
    exact hS.deleteDraft extras (hfilter.clauseRelated hS.toCongruence)
      (htable.built hS.toCongruence) (hreturning.rows fun _ _ hx => hx.returned hS.toCongruence cat)

end

end Trees

end SqlCompose
