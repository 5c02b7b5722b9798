import SqlCompose.Expr.Operand

/-!
# Properties that operators pass on

A property of drafts that stays when drafts are put together is one of what is written for an
operator whenever its operands have it: each operand is drafted once and in its place, and around
the operands there is nothing but fixed text.
-/
namespace SqlCompose

/-- Whether drafts have a property that are put together, in the ways of operators, from drafts that
have it. -/
structure Draft.Compositional (P : Draft → Prop) : Prop where
  fail : ∀ e, P (.fail e)
  text : ∀ s, P (.text s)
  operator : ∀ fixity symbol, P (.operator fixity symbol)
  literal : ∀ v, P (.literal v)
  packed : ∀ v, P (.packed v)
  asking : ∀ part {x}, P x → P (.asking part x)
  packedBefore : ∀ v {x}, P x → P (.before (.packed v) x)
  plus : ∀ {x y}, P x → P y → P (x + y)
  shown : ∀ {x}, P x → P x.shown
  row : ∀ {separator items}, P (.token separator) → (∀ x ∈ items, P x) → P (.row separator items)
  parenthesized : ∀ {x}, P x → P x.parenthesized
  call : ∀ symbol lead {items}, (∀ x ∈ items, P x) → P (callWith symbol lead items)

namespace Draft.Compositional

variable {P : Draft → Prop} (hP : Compositional P)
include hP

theorem infixed {x y : Draft} (hx : P x) (symbol : String) (hy : P y) : P (.infixed x symbol y) :=
  hP.plus (hP.plus (hP.shown hx) (hP.operator ..)) (hP.shown hy)

theorem under {o : Operand} (h : P o.draft) (parent : Level) (parentSymbol : String) (side : Side) :
    P (o.under parent parentSymbol side) := by
  rw [Operand.under]
  split
  · exact hP.parenthesized h
  · exact h

theorem callDraft (e : Engine) (symbol : String) {items : List Draft} (h : ∀ x ∈ items, P x) :
    P (SqlCompose.callDraft e symbol items) := by
  unfold SqlCompose.callDraft
  split
  · exact hP.asking _ (hP.text _)
  · exact hP.call symbol none h

omit hP in
theorem drafts {operands : List Operand} (h : ∀ o ∈ operands, P o.draft) :
    ∀ x ∈ operands.map (·.draft), P x := by
  intro x hx
  obtain ⟨o, ho, rfl⟩ := List.mem_map.1 hx
  exact h o ho

variable {o left right : Operand}

theorem infixDraft (symbol : String) (hl : P left.draft) (hr : P right.draft) :
    P (SqlCompose.infixDraft symbol left right) :=
  hP.infixed (hP.under hl ..) symbol (hP.under hr ..)

theorem concatDraft (e : Engine) (hl : P left.draft) (hr : P right.draft) :
    P (SqlCompose.concatDraft e left right) := by
  refine hP.asking "f" ?_
  split
  · exact hP.callDraft e "CONCAT" (by simpa using ⟨hl, hr⟩)
  · exact hP.infixDraft "||" hl hr

theorem concatOperand (e : Engine) (hl : P left.draft) (hr : P right.draft) :
    P (SqlCompose.concatOperand e left right).draft := by
  unfold SqlCompose.concatOperand
  split
  · exact hP.callDraft e "CONCAT" (by simpa using ⟨hl, hr⟩)
  · exact hP.concatDraft e hl hr

/-! ## LIKE tests -/

section Like

variable (form : LikeForm) (e : Engine)

theorem fold (h : P o.draft) : P (form.fold e o).draft := by
  unfold LikeForm.fold
  split
  · exact hP.callDraft e "LOWER" (by simpa using h)
  · exact h

theorem computedPattern (h : P o.draft) : P (form.computedPattern e o).draft := by
  have hw : P LikeForm.wildcard.draft := hP.literal _
  have hf := hP.fold form e h
  have hclosed : ∀ x : Operand, P x.draft →
      P (if form.fuzzyEnd then SqlCompose.concatOperand e x LikeForm.wildcard else x).draft := by
    intro x hx
    split
    · exact hP.concatOperand e hx hw
    · exact hx
  unfold LikeForm.computedPattern
  split
  · exact hclosed _ (hP.concatOperand e hw hf)
  · exact hclosed _ hf

theorem escapeClause (escaped : Bool) :
    P (LikeForm.escapeClause (form.escapeLiteral? e escaped)) := by
  unfold LikeForm.escapeLiteral?
  split
  · exact hP.plus (hP.operator ..) (hP.shown (hP.packed _))
  · split
    · cases e.likeEscape? with
      | none => exact hP.text ""
      | some mark => exact hP.plus (hP.operator ..) (hP.text mark)
    · exact hP.text ""

theorem test (symbol : String) (hl : P left.draft) (hr : P right.draft) :
    P (form.test e symbol left right) := by
  unfold LikeForm.test
  refine hP.plus (hP.infixed (hP.under (hP.fold form e hl) ..) _ ?_) (hP.escapeClause form e _)
  refine hP.under ?_ ..
  split
  · exact hP.literal _
  · exact hP.computedPattern form e hr

theorem askingAll {parts : List String} {x : Draft} (h : P x) : P (parts.foldr .asking x) := by
  induction parts with
  | nil => exact h
  | cons part parts ih => exact hP.asking part ih

theorem likeTest (symbol : String) (hl : P left.draft) (hr : P right.draft) :
    P (form.draft e symbol left right) := by
  have ht : P ((form.asked right).foldr .asking (form.test e symbol left right)) :=
    hP.askingAll (hP.test form e symbol hl hr)
  refine hP.asking "" ?_
  split
  · exact hP.packedBefore _ ht
  · exact ht

end Like

/-! ## Operators -/

theorem listDraft {items : List Draft} (h : ∀ x ∈ items, P x) : P (Operator.listDraft items) := by
  unfold Operator.listDraft
  split
  · exact hP.fail _
  · exact hP.parenthesized (hP.row (hP.text ", ") h)

section Operators

variable {operands : List Operand} (h : ∀ o ∈ operands, P o.draft)
include h

theorem functionDraft (e : Engine) (symbol : String) :
    P (Operator.functionDraft e symbol operands) := by
  unfold Operator.functionDraft
  split
  · exact hP.fail _
  · exact hP.callDraft e symbol (drafts h)

theorem aggregateDraft (distinct : Bool) (symbol : String) :
    P (Operator.aggregateDraft distinct symbol operands) := by
  unfold Operator.aggregateDraft
  split
  · exact hP.fail _
  · split
    · exact hP.call symbol none (by simpa using hP.text "*")
    · exact hP.call symbol _ (drafts h)

theorem unaryDraft (trailing : Bool) (symbol : String) :
    P (Operator.unaryDraft trailing symbol operands) := by
  unfold Operator.unaryDraft
  split
  · rename_i o
    have ho : P o.draft := h o (by simp)
    split
    · exact hP.plus (hP.shown (hP.under ho ..)) (hP.operator ..)
    · exact hP.plus (hP.operator ..) (hP.shown (hP.under ho ..))
  · exact hP.fail _

theorem binaryDraft (e : Engine) (symbol : String) :
    P (Operator.binaryDraft e symbol operands) := by
  unfold Operator.binaryDraft
  split
  · exact hP.fail _
  · split
    · rename_i left right
      have hl : P left.draft := h left (by simp)
      have hr : P right.draft := h right (by simp)
      split
      · exact hP.concatDraft e hl hr
      · exact hP.infixDraft symbol hl hr
    · exact hP.fail _

theorem booleanDraft (symbol : String) : P (Operator.booleanDraft symbol operands) := by
  unfold Operator.booleanDraft
  split
  · exact hP.fail _
  · split
    · exact hP.fail _
    · rename_i first others
      refine hP.row (hP.operator ..) fun x hx => ?_
      rcases List.mem_cons.1 hx with rfl | hx
      · exact hP.under (h first (by simp)) ..
      · obtain ⟨o, ho, rfl⟩ := List.mem_map.1 hx
        exact hP.under (h o (by simp [ho])) ..

theorem notDraft (symbol : String) : P (Operator.notDraft symbol operands) := by
  unfold Operator.notDraft
  split
  · exact hP.plus (hP.operator ..) (hP.under (h _ (by simp)) ..)
  · exact hP.fail _

theorem betweenDraft (negated : Bool) (symbol : String) :
    P (Operator.betweenDraft negated symbol operands) := by
  unfold Operator.betweenDraft
  split
  · rename_i o low high
    have ho : P o.draft := h o (by simp)
    have hl : P low.draft := h low (by simp)
    have hh : P high.draft := h high (by simp)
    exact hP.plus (hP.plus (hP.infixed (hP.under ho ..) _ (hP.under hl ..)) (hP.operator ..))
      (hP.shown (hP.under hh ..))
  · exact hP.fail _

theorem likeDraft (e : Engine) (form : LikeForm) (symbol : String) :
    P (Operator.likeDraft e form symbol operands) := by
  unfold Operator.likeDraft
  split
  · exact hP.likeTest form e symbol (h _ (by simp)) (h _ (by simp))
  · exact hP.fail _

/-- An operator has the property if its operands do. -/
theorem operatorDraft (e : Engine) (op : Operator) (symbol : String) :
    P (op.draft e symbol operands) := by
  cases op with
  | function => exact hP.functionDraft h e symbol
  | aggregate distinct => exact hP.aggregateDraft h distinct symbol
  | unary trailing => exact hP.unaryDraft h trailing symbol
  | binary => exact hP.binaryDraft h e symbol
  | boolean => exact hP.booleanDraft h symbol
  | not => exact hP.notDraft h symbol
  | between negated => exact hP.betweenDraft h negated symbol
  | like form => exact hP.likeDraft h e form symbol
  | list => exact hP.listDraft (drafts h)

end Operators

end Draft.Compositional

end SqlCompose
