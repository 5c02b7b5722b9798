import SqlCompose.Expr.Operand
import SqlCompose.Proofs.Draft.Congruence

/-!
# Operators on related operands

What an operator sees of an operand is its draft, whether it needs parentheses, and for a LIKE
needle its text. A congruence that also relates what two engines write for the same operator relates
the drafts of every operator on related operands.
-/
namespace SqlCompose

/-- Operands that look the same to an operator but for related drafts. -/
structure Operand.Related (S : Draft → Draft → Prop) (o o' : Operand) : Prop where
  isSome : o.text.isSome = o'.text.isSome
  pattern : ∀ (form : LikeForm) s s', o.text = some s → o'.text = some s' →
    S (.literal (.text (form.pattern s))) (.literal (.text (form.pattern s')))
  draft : S o.draft o'.draft
  under : ∀ parent symbol side, S (o.under parent symbol side) (o'.under parent symbol side)

/-- A congruence that relates what two engines write for a call without arguments, a concatenation
and the escape character of a LIKE test. -/
structure Draft.Translation (e e' : Engine) (S : Draft → Draft → Prop) : Prop
    extends Draft.Congruence S where
  clock : ∀ symbol, S (callDraft e symbol []) (callDraft e' symbol [])
  concatDraft : ∀ {left left' right right'}, left.Related S left' → right.Related S right' →
    S (concatDraft e left right) (concatDraft e' left' right')
  concatOperand : ∀ {left left' right right'}, left.Related S left' → right.Related S right' →
    (concatOperand e left right).Related S (concatOperand e' left' right')
  escape : S (LikeForm.escapeClause (e.likeEscape?.map Draft.text))
    (LikeForm.escapeClause (e'.likeEscape?.map Draft.text))

variable {S : Draft → Draft → Prop}

namespace Operand.Related

variable {o o' : Operand}

/-- Operands that bind with the same strength are under the same parentheses. -/
theorem of_level (hS : Draft.Congruence S) (hl : o.level = o'.level) (hs : o.symbol = o'.symbol)
    (isSome : o.text.isSome = o'.text.isSome)
    (pattern : ∀ (form : LikeForm) s s', o.text = some s → o'.text = some s' →
      S (.literal (.text (form.pattern s))) (.literal (.text (form.pattern s'))))
    (hd : S o.draft o'.draft) : o.Related S o' := by
  refine ⟨isSome, pattern, hd, fun parent symbol side => ?_⟩
  rw [Operand.under, Operand.under, hl, hs]
  split
  · exact hS.parenthesized hd
  · exact hd

theorem of_no_text (hS : Draft.Congruence S) (hl : o.level = o'.level) (hs : o.symbol = o'.symbol)
    (ht : o.text = none) (ht' : o'.text = none) (hd : S o.draft o'.draft) : o.Related S o' :=
  .of_level hS hl hs (by rw [ht, ht']) (fun _ _ _ h => by simp [ht] at h) hd

theorem refl (hS : Draft.Congruence S) (o : Operand) : o.Related S o := by
  refine .of_level hS rfl rfl rfl (fun form s s' hs hs' => ?_) (hS.refl _)
  obtain rfl := Option.some.inj (hs.symm.trans hs')
  exact hS.refl _

theorem drafts {operands others : List Operand} (h : List.Forall₂ (Operand.Related S) operands others) :
    List.Forall₂ S (operands.map (·.draft)) (others.map (·.draft)) := by
  simpa using h.imp fun _ _ ho => ho.draft

end Operand.Related

/-- A function call of related arguments, if calls without arguments are related. -/
theorem Draft.Congruence.callDraft (hS : Draft.Congruence S) {e e' : Engine} {symbol : String}
    (hclock : S (SqlCompose.callDraft e symbol []) (SqlCompose.callDraft e' symbol []))
    {xs ys : List Draft} (h : List.Forall₂ S xs ys) :
    S (SqlCompose.callDraft e symbol xs) (SqlCompose.callDraft e' symbol ys) := by
  have hcall : ∀ e x xs, SqlCompose.callDraft e symbol (x :: xs) = callWith symbol none (x :: xs) := by
    intro e x xs
    unfold SqlCompose.callDraft
    split
    · contradiction
    · rfl
  cases h with
  | nil => exact hclock
  | cons hx hrest =>
    rw [hcall, hcall]
    exact hS.framed _ _ _ (.cons hx hrest)

theorem Draft.Congruence.listDraft (hS : Draft.Congruence S) {xs ys : List Draft}
    (h : List.Forall₂ S xs ys) : S (Operator.listDraft xs) (Operator.listDraft ys) := by
  cases h with
  | nil => exact hS.refl _
  | cons hx hrest => exact hS.parenthesized (hS.commaSeparated (.cons hx hrest))

namespace Draft.Translation

variable {e e' : Engine} (hS : Translation e e' S) {o o' left left' right right' : Operand}
include hS

theorem callOperand (symbol : String) {operands others : List Operand}
    (h : List.Forall₂ (Operand.Related S) operands others) :
    (SqlCompose.callOperand e symbol operands).Related S
      (SqlCompose.callOperand e' symbol others) :=
  .of_no_text hS.toCongruence rfl rfl rfl rfl
    (hS.callDraft (hS.clock symbol) (Operand.Related.drafts h))

theorem infixDraft (symbol : String) (hl : left.Related S left') (hr : right.Related S right') :
    S (SqlCompose.infixDraft symbol left right) (SqlCompose.infixDraft symbol left' right') :=
  hS.infixed (hl.under ..) symbol (hr.under ..)

/-! ## LIKE -/

section Like

variable (form : LikeForm)

theorem fold (h : o.Related S o') : (form.fold e o).Related S (form.fold e' o') := by
  unfold LikeForm.fold
  split
  · exact hS.callOperand "LOWER" (.cons h .nil)
  · exact h

theorem computedPattern (h : o.Related S o') :
    (form.computedPattern e o).Related S (form.computedPattern e' o') := by
  have hfolded := hS.fold form h
  have hwildcard : LikeForm.wildcard.Related S LikeForm.wildcard := .refl hS.toCongruence _
  have hopened : (if form.fuzzyStart then SqlCompose.concatOperand e LikeForm.wildcard (form.fold e o)
      else form.fold e o).Related S
        (if form.fuzzyStart then SqlCompose.concatOperand e' LikeForm.wildcard (form.fold e' o')
          else form.fold e' o') := by
    split
    · exact hS.concatOperand hwildcard hfolded
    · exact hfolded
  unfold LikeForm.computedPattern
  simp only
  split
  · exact hS.concatOperand hopened hwildcard
  · exact hopened

/-- The pattern of a LIKE test: one value for a literal of text, or what the database puts
together. -/
theorem patternUnder (symbol : String) (h : o.Related S o') :
    S ((match o.text with
        | some s => Operand.ofText (form.pattern s)
        | none => form.computedPattern e o).under .comparison symbol .right)
      ((match o'.text with
        | some s => Operand.ofText (form.pattern s)
        | none => form.computedPattern e' o').under .comparison symbol .right) := by
  have hisSome := h.isSome
  cases ht : o.text with
  | some s =>
    cases ht' : o'.text with
    | some s' => exact h.pattern form s s' ht ht'
    | none => simp [ht, ht'] at hisSome
  | none =>
    cases ht' : o'.text with
    | some s' => simp [ht, ht'] at hisSome
    | none => exact (hS.computedPattern form h).under ..

theorem escapeClause (escaped : Bool) :
    S (LikeForm.escapeClause (form.escapeLiteral? e escaped))
      (LikeForm.escapeClause (form.escapeLiteral? e' escaped)) := by
  unfold LikeForm.escapeLiteral?
  cases form.explicitEscape with
  | some mark => exact hS.refl _
  | none =>
    cases escaped with
    | true => exact hS.escape
    | false => exact hS.refl _

theorem likeTest (symbol : String) (hl : left.Related S left') (hr : right.Related S right') :
    S (form.test e symbol left right) (form.test e' symbol left' right') := by
  unfold LikeForm.test
  rw [hr.isSome]
  have htested := hS.infixed ((hS.fold form hl).under .comparison symbol .left)
    (if form.negated then "NOT LIKE" else "LIKE") (hS.patternUnder form symbol hr)
  exact hS.plus htested (hS.escapeClause form _)

theorem like (symbol : String) (hl : left.Related S left') (hr : right.Related S right') :
    S (form.draft e symbol left right) (form.draft e' symbol left' right') := by
  have hasked : form.asked right = form.asked right' := by
    rw [LikeForm.asked, LikeForm.asked, hr.isSome]
  have htest := hS.askingAll (form.asked right) (hS.likeTest form symbol hl hr)
  refine hS.asking "" ?_
  rw [← hasked]
  split
  · exact hS.before (hS.refl _) htest
  · exact htest

end Like

/-! ## Operators -/

section Operators

variable {operands others : List Operand} (h : List.Forall₂ (Operand.Related S) operands others)
include h

theorem functionDraft (symbol : String) :
    S (Operator.functionDraft e symbol operands) (Operator.functionDraft e' symbol others) := by
  unfold Operator.functionDraft
  split
  · exact hS.fail _ _
  · exact hS.callDraft (hS.clock symbol) (Operand.Related.drafts h)

theorem aggregateDraft (distinct : Bool) (symbol : String) :
    S (Operator.aggregateDraft distinct symbol operands)
      (Operator.aggregateDraft distinct symbol others) := by
  unfold Operator.aggregateDraft
  split
  · exact hS.fail _ _
  · cases h with
    | nil => exact hS.refl _
    | cons ho hrest => exact hS.framed _ _ _ (Operand.Related.drafts (.cons ho hrest))

theorem unaryDraft (trailing : Bool) (symbol : String) :
    S (Operator.unaryDraft trailing symbol operands) (Operator.unaryDraft trailing symbol others) := by
  rcases h with _ | ⟨ho, _ | ⟨ho', hrest⟩⟩
  · exact hS.fail _ _
  · cases trailing with
    | true => exact hS.plus (hS.shown (ho.under ..)) (hS.refl _)
    | false => exact hS.plus (hS.refl _) (hS.shown (ho.under ..))
  · exact hS.fail _ _

theorem binaryDraft (symbol : String) :
    S (Operator.binaryDraft e symbol operands) (Operator.binaryDraft e' symbol others) := by
  unfold Operator.binaryDraft
  split
  · exact hS.fail _ _
  · rcases h with _ | ⟨hl, _ | ⟨hr, _ | ⟨ho, hrest⟩⟩⟩
    · exact hS.fail _ _
    · exact hS.fail _ _
    · simp only
      split
      · exact hS.concatDraft hl hr
      · exact hS.infixDraft symbol hl hr
    · exact hS.fail _ _

theorem booleanDraft (symbol : String) :
    S (Operator.booleanDraft symbol operands) (Operator.booleanDraft symbol others) := by
  unfold Operator.booleanDraft
  split
  · exact hS.fail _ _
  · cases h with
    | nil => exact hS.fail _ _
    | cons ho hrest =>
      refine hS.row _ (.cons (ho.under ..) ?_)
      simpa using hrest.imp fun _ _ hx => hx.under ..

theorem notDraft (symbol : String) :
    S (Operator.notDraft symbol operands) (Operator.notDraft symbol others) := by
  rcases h with _ | ⟨ho, _ | ⟨ho', hrest⟩⟩
  · exact hS.fail _ _
  · exact hS.plus (hS.refl _) (ho.under ..)
  · exact hS.fail _ _

theorem betweenDraft (negated : Bool) (symbol : String) :
    S (Operator.betweenDraft negated symbol operands)
      (Operator.betweenDraft negated symbol others) := by
  rcases h with _ | ⟨ho, _ | ⟨hl, _ | ⟨hh, _ | ⟨hx, hrest⟩⟩⟩⟩
  · exact hS.fail _ _
  · exact hS.fail _ _
  · exact hS.fail _ _
  · have htested := hS.infixed (ho.under .comparison symbol .left)
      (if negated then "NOT BETWEEN" else "BETWEEN") (hl.under .comparison symbol .left)
    exact hS.plus (hS.plus htested (hS.refl _)) (hS.shown (hh.under ..))
  · exact hS.fail _ _

theorem likeDraft (form : LikeForm) (symbol : String) :
    S (Operator.likeDraft e form symbol operands) (Operator.likeDraft e' form symbol others) := by
  rcases h with _ | ⟨hl, _ | ⟨hr, _ | ⟨hx, hrest⟩⟩⟩
  · exact hS.fail _ _
  · exact hS.fail _ _
  · exact hS.like form symbol hl hr
  · exact hS.fail _ _

/-- An operator on related operands, written for two engines. -/
theorem operatorDraft (op : Operator) (symbol : String) :
    S (op.draft e symbol operands) (op.draft e' symbol others) := by
  cases op with
  | function => exact hS.functionDraft h symbol
  | aggregate distinct => exact hS.aggregateDraft h distinct symbol
  | unary trailing => exact hS.unaryDraft h trailing symbol
  | binary => exact hS.binaryDraft h symbol
  | boolean => exact hS.booleanDraft h symbol
  | not => exact hS.notDraft h symbol
  | between negated => exact hS.betweenDraft h negated symbol
  | like form => exact hS.likeDraft h form symbol
  | list => exact hS.toCongruence.listDraft (Operand.Related.drafts h)

end Operators

end Draft.Translation

/-! ## One engine -/

/-- For one engine a congruence is enough. -/
theorem Draft.Congruence.translation (hS : Draft.Congruence S) (e : Engine) :
    Draft.Translation e e S := by
  have hcall : ∀ {left left' right right' : Operand}, left.Related S left' →
      right.Related S right' → S (SqlCompose.callDraft e "CONCAT" [left.draft, right.draft])
        (SqlCompose.callDraft e "CONCAT" [left'.draft, right'.draft]) := fun hl hr =>
    hS.callDraft (hS.refl _) (.cons hl.draft (.cons hr.draft .nil))
  have hdraft : ∀ {left left' right right' : Operand}, left.Related S left' →
      right.Related S right' → S (SqlCompose.concatDraft e left right)
        (SqlCompose.concatDraft e left' right') := by
    intro left left' right right' hl hr
    refine hS.asking "f" ?_
    cases e.concatenation with
    | called => exact hcall hl hr
    | infixed => exact hS.infixed (hl.under ..) "||" (hr.under ..)
  refine { hS with clock := fun _ => hS.refl _, concatDraft := hdraft, concatOperand := ?_,
                   escape := hS.refl _ }
  intro left left' right right' hl hr
  unfold SqlCompose.concatOperand
  cases e.concatenation with
  | called => exact .of_no_text hS rfl rfl rfl rfl (hcall hl hr)
  | infixed => exact .of_no_text hS rfl rfl rfl rfl (hdraft hl hr)

end SqlCompose
