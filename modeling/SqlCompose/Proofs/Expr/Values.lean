import SqlCompose.Proofs.Draft.Values
import SqlCompose.Proofs.Expr.Validity

/-!
# The values in expressions

An expression that can be written has a place for a value if a literal stands anywhere in it, if a
subquery in it has one, or if a LIKE test puts wildcards around a needle that is no literal text: all
of its operands are written, and around them there is nothing but fixed text.
-/
namespace SqlCompose

variable {cat : Catalog} {e : Engine}

/-! ## Operators -/

/-- Whether an operator puts wildcards of its own around an operand, given the literal texts of its
operands. -/
def Operator.AddsWildcards : Operator → List (Option String) → Prop
  | like form, [_, none] => form.fuzzyStart = true ∨ form.fuzzyEnd = true
  | _, _ => False

section Operands

variable {left right : Operand}

@[simp] theorem Operand.values_under (o : Operand) (parent : Level) (symbol : String)
    (side : Side) : (o.under parent symbol side).values = o.draft.values := by
  unfold Operand.under
  split <;> simp

@[simp] theorem Operand.complete_under {o : Operand} (parent : Level) (symbol : String)
    (side : Side) : (o.under parent symbol side).Complete ↔ o.draft.Complete := by
  unfold Operand.under
  split <;> simp

@[simp] theorem values_infixDraft (symbol : String) :
    (infixDraft symbol left right).values = left.draft.values ++ right.draft.values := by
  simp [infixDraft]

@[simp] theorem values_callDraft (symbol : String) (items : List Draft) :
    (callDraft e symbol items).values = items.flatMap Draft.values := by
  unfold callDraft
  split <;> simp

@[simp] theorem complete_callDraft (symbol : String) {items : List Draft} :
    (callDraft e symbol items).Complete ↔ ∀ x ∈ items, x.Complete := by
  unfold callDraft
  split <;> simp

@[simp] theorem values_concatDraft :
    (concatDraft e left right).values = left.draft.values ++ right.draft.values := by
  unfold concatDraft
  cases e.concatenation <;> simp

@[simp] theorem complete_concatDraft :
    (concatDraft e left right).Complete ↔ left.draft.Complete ∧ right.draft.Complete := by
  unfold concatDraft
  cases e.concatenation <;> simp [infixDraft]

@[simp] theorem values_concatOperand :
    (concatOperand e left right).draft.values = left.draft.values ++ right.draft.values := by
  unfold concatOperand
  cases e.concatenation <;> simp [callOperand]

@[simp] theorem complete_concatOperand :
    (concatOperand e left right).draft.Complete ↔ left.draft.Complete ∧ right.draft.Complete := by
  unfold concatOperand
  cases e.concatenation <;> simp [callOperand]

end Operands

/-! ## LIKE tests -/

namespace LikeForm

variable (form : LikeForm) {haystack needle o : Operand}

@[simp] theorem values_fold : (form.fold e o).draft.values = o.draft.values := by
  unfold fold
  split <;> simp [callOperand]

@[simp] theorem complete_fold : (form.fold e o).draft.Complete ↔ o.draft.Complete := by
  unfold fold
  split <;> simp [callOperand]

@[simp] theorem values_escapeClause (escaped : Bool) :
    (escapeClause (form.escapeLiteral? e escaped)).values = [] := by
  unfold escapeLiteral?
  split
  · rfl
  · split
    · cases e.likeEscape? <;> rfl
    · rfl

@[simp] theorem complete_escapeClause (escaped : Bool) :
    (escapeClause (form.escapeLiteral? e escaped)).Complete := by
  unfold escapeLiteral?
  split
  · simp [escapeClause]
  · split
    · cases e.likeEscape? <;> simp [escapeClause, Draft.empty]
    · simp [escapeClause, Draft.empty]

@[simp] theorem values_askingAll (parts : List String) (x : Draft) :
    (parts.foldr Draft.asking x).values = x.values := by
  induction parts with
  | nil => rfl
  | cons part parts ih => exact ih

@[simp] theorem complete_askingAll (parts : List String) {x : Draft} :
    (parts.foldr Draft.asking x).Complete ↔ x.Complete := by
  induction parts with
  | nil => rfl
  | cons part parts ih => rw [List.foldr_cons, Draft.complete_asking, ih]

/-- A pattern that the database puts together has the values of the needle, and the wildcards around
it. -/
theorem values_computedPattern_eq_nil : (form.computedPattern e needle).draft.values = [] ↔
    needle.draft.values = [] ∧ ¬(form.fuzzyStart = true ∨ form.fuzzyEnd = true) := by
  have hwildcard : wildcard.draft.values = [.text "%"] := rfl
  unfold computedPattern
  cases form.fuzzyStart <;> cases form.fuzzyEnd <;> simp [hwildcard]

theorem complete_computedPattern :
    (form.computedPattern e needle).draft.Complete ↔ needle.draft.Complete := by
  have hwildcard : wildcard.draft.Complete := Draft.complete_literal _
  unfold computedPattern
  cases form.fuzzyStart <;> cases form.fuzzyEnd <;> simp [hwildcard]

variable (symbol : String)

/-- The values of a LIKE test are those of its operands, where the pattern of a needle of literal
text is a value as the needle is one, and its own wildcards. -/
theorem values_draft_eq_nil (ht : needle.text.isSome → needle.draft.values ≠ []) :
    (form.draft e symbol haystack needle).values = [] ↔
      (haystack.draft.values = [] ∧ needle.draft.values = []) ∧
        ¬(Operator.like form).AddsWildcards [haystack.text, needle.text] := by
  have htest : (form.draft e symbol haystack needle).values
      = (form.test e symbol haystack needle).values := by
    unfold draft
    split <;> simp [Draft.values]
  rw [htest, test]
  simp only [Draft.values_plus, Draft.values_infixed, Operand.values_under, values_fold,
    values_escapeClause, List.append_nil, List.append_eq_nil_iff, and_assoc]
  refine and_congr_right fun _ => ?_
  cases hs : needle.text with
  | some s =>
    have hne := ht (by rw [hs, Option.isSome_some])
    simp [Operand.ofText, Draft.values, hne]
  | none => exact values_computedPattern_eq_nil form

theorem complete_draft (ht : needle.text.isSome → needle.draft.Complete) :
    (form.draft e symbol haystack needle).Complete ↔
      haystack.draft.Complete ∧ needle.draft.Complete := by
  have htest : (form.draft e symbol haystack needle).Complete ↔
      (form.test e symbol haystack needle).Complete := by
    unfold draft
    split <;> simp
  rw [htest, test]
  simp only [Draft.complete_plus, Draft.complete_infixed, Operand.complete_under, complete_fold,
    complete_escapeClause, and_true]
  refine and_congr_right fun _ => ?_
  cases hs : needle.text with
  | some s => exact iff_of_true (Draft.complete_literal _) (ht (by rw [hs, Option.isSome_some]))
  | none => exact complete_computedPattern form

end LikeForm

/-! ## Complete operators -/

namespace Operator

variable (e : Engine) (symbol : String) {operands : List Operand}

theorem values_booleanDraft_eq_nil : (booleanDraft symbol operands).values = [] ↔
    (symbol ∈ ["AND", "OR"] ∧ 1 ≤ operands.length → ∀ o ∈ operands, o.draft.values = []) := by
  unfold booleanDraft
  split
  · rename_i h
    simp [h, Draft.values]
  · rename_i h
    have hs := mem_connectives h
    cases operands with
    | nil => simp [Draft.values]
    | cons first others => simp [hs, Draft.values, Draft.valuesAll_eq_flatMap]

/-- An operator has the values of its operands if it is complete, and none otherwise. -/
theorem values_draft_eq_nil (op : Operator)
    (ht : ∀ o ∈ operands, o.text.isSome → o.draft.values ≠ []) :
    (op.draft e symbol operands).values = [] ↔
      (op.Admits symbol operands.length → (∀ o ∈ operands, o.draft.values = []) ∧
        ¬op.AddsWildcards (operands.map (·.text))) := by
  cases op with
  | function =>
    simp only [draft, functionDraft, Admits, AddsWildcards]
    split <;> simp_all [Draft.values]
  | aggregate distinct =>
    simp only [draft, aggregateDraft, Admits, AddsWildcards]
    split
    · simp_all [Draft.values]
    · cases operands <;> simp_all
  | unary trailing =>
    rcases operands with _ | ⟨o, _ | ⟨_, _⟩⟩ <;>
      simp only [draft, unaryDraft, Admits, AddsWildcards]
    · simp [Draft.values]
    · split <;> simp [Draft.values]
    · simp [Draft.values]
  | binary =>
    simp only [draft, binaryDraft, Admits, AddsWildcards]
    split
    · simp_all [Draft.values]
    · rcases operands with _ | ⟨left, _ | ⟨right, _ | ⟨_, _⟩⟩⟩ <;> simp_all [Draft.values]
      split <;> simp
  | boolean =>
    simp only [AddsWildcards, not_false_eq_true, and_true]
    exact values_booleanDraft_eq_nil symbol
  | not =>
    rcases operands with _ | ⟨o, _ | ⟨_, _⟩⟩ <;>
      simp [draft, notDraft, Admits, AddsWildcards, Draft.values]
  | between negated =>
    rcases operands with _ | ⟨o, _ | ⟨low, _ | ⟨high, _ | ⟨_, _⟩⟩⟩⟩ <;>
      simp [draft, betweenDraft, Admits, AddsWildcards, Draft.values]
  | like form =>
    rcases operands with _ | ⟨haystack, _ | ⟨needle, _ | ⟨_, _⟩⟩⟩ <;>
      simp only [draft, likeDraft, Admits]
    · simp [Draft.values]
    · simp [Draft.values]
    · simp [LikeForm.values_draft_eq_nil form symbol (ht needle (by simp))]
    · simp [Draft.values]
  | list =>
    cases operands with
    | nil => simp [draft, listDraft, Admits, Draft.values]
    | cons first others => simp [draft, listDraft, Admits, AddsWildcards]

theorem complete_booleanDraft : (booleanDraft symbol operands).Complete ↔
    (symbol ∈ ["AND", "OR"] ∧ 1 ≤ operands.length) ∧ ∀ o ∈ operands, o.draft.Complete := by
  unfold booleanDraft
  split
  · rename_i h
    simp [h]
  · rename_i h
    have hs := mem_connectives h
    cases operands with
    | nil => simp
    | cons first others => simp [hs]

/-- What is written for an operator is complete if the operator is and so are its operands. -/
theorem complete_draft (op : Operator) (ht : ∀ o ∈ operands, o.text.isSome → o.draft.Complete) :
    (op.draft e symbol operands).Complete ↔
      op.Admits symbol operands.length ∧ ∀ o ∈ operands, o.draft.Complete := by
  cases op with
  | function =>
    simp only [draft, functionDraft, Admits]
    split <;> simp_all
  | aggregate distinct =>
    simp only [draft, aggregateDraft, Admits]
    split
    · simp_all
    · cases operands <;> simp_all
  | unary trailing =>
    rcases operands with _ | ⟨o, _ | ⟨_, _⟩⟩ <;> simp only [draft, unaryDraft, Admits]
    · simp
    · split <;> simp
    · simp
  | binary =>
    simp only [draft, binaryDraft, Admits]
    split
    · simp_all
    · rcases operands with _ | ⟨left, _ | ⟨right, _ | ⟨_, _⟩⟩⟩ <;> simp_all
      split <;> simp [infixDraft]
  | boolean => exact complete_booleanDraft symbol
  | not =>
    rcases operands with _ | ⟨o, _ | ⟨_, _⟩⟩ <;> simp [draft, notDraft, Admits]
  | between negated =>
    rcases operands with _ | ⟨o, _ | ⟨low, _ | ⟨high, _ | ⟨_, _⟩⟩⟩⟩ <;>
      simp [draft, betweenDraft, Admits, and_assoc]
  | like form =>
    rcases operands with _ | ⟨haystack, _ | ⟨needle, _ | ⟨_, _⟩⟩⟩ <;>
      simp only [draft, likeDraft, Admits]
    · simp
    · simp
    · simp [LikeForm.complete_draft form symbol (ht needle (by simp))]
    · simp
  | list =>
    cases operands with
    | nil => simp [draft, listDraft, Admits]
    | cons first others => simp [draft, listDraft, Admits, Draft.commaSeparated]

end Operator

/-! ## Expressions -/

namespace Expr

/-- Whether a node has a value of its own: it is a literal, it is a subquery with values, or it puts
wildcards around the needle of a LIKE test. -/
def HasValue (cat : Catalog) (e : Engine) : Expr → Prop
  | literal .. => True
  | apply _ op _ arguments => op.AddsWildcards (arguments.map text?)
  | subquery _ body => (body.built cat e).values ≠ []
  | _ => False

theorem values_columnDraft (id : ColumnId) : (columnDraft cat id).values = [] := by
  unfold columnDraft
  dsimp only
  split <;> rfl

/-- A literal text has a value. -/
theorem values_of_text? {x : Expr} (h : x.text?.isSome) : (x.reference cat e).values ≠ [] := by
  cases x with
  | literal a v k => exact List.cons_ne_nil _ _
  | _ => simp [text?] at h

theorem complete_of_text? {x : Expr} (h : x.text?.isSome) : (x.reference cat e).Complete := by
  cases x with
  | literal a v k => exact Draft.complete_literal v
  | _ => simp [text?] at h

variable {a : Value} {op : Operator} {symbol : String} {arguments : List Expr}

theorem values_apply_eq_nil : ((apply a op symbol arguments).reference cat e).values = [] ↔
    (op.Admits symbol arguments.length → (∀ x ∈ arguments, (x.reference cat e).values = []) ∧
      ¬(apply a op symbol arguments).HasValue cat e) := by
  have ht : ∀ o ∈ arguments.map (·.operand cat e), o.text.isSome → o.draft.values ≠ [] := by
    intro o ho h
    obtain ⟨x, -, rfl⟩ := List.mem_map.1 ho
    exact values_of_text? h
  rw [reference_apply, op.values_draft_eq_nil e symbol ht, List.length_map, List.forall_mem_map,
    List.map_map]
  rfl

theorem complete_apply : ((apply a op symbol arguments).reference cat e).Complete ↔
    op.Admits symbol arguments.length ∧ ∀ x ∈ arguments, (x.reference cat e).Complete := by
  have ht : ∀ o ∈ arguments.map (·.operand cat e), o.text.isSome → o.draft.Complete := by
    intro o ho h
    obtain ⟨x, -, rfl⟩ := List.mem_map.1 ho
    exact complete_of_text? h
  rw [reference_apply, op.complete_draft e symbol ht, List.length_map, List.forall_mem_map]
  rfl

mutual

/-- An expression has no values if no node in it has, and only then if it is complete. -/
theorem values_reference : (x : Expr) →
    ((∀ y ∈ x.walk, ¬y.HasValue cat e) → (x.reference cat e).values = []) ∧
      ((x.reference cat e).Complete → (x.reference cat e).values = [] →
        ∀ y ∈ x.walk, ¬y.HasValue cat e)
  | .literal a v k => by
    simp only [walk, List.mem_singleton, forall_eq]
    exact ⟨fun h => absurd trivial h, fun _ h => nomatch h⟩
  | .column a id => by
    simp only [walk, List.mem_singleton, forall_eq]
    exact ⟨fun _ => values_columnDraft id, fun _ _ h => h⟩
  | .apply a op symbol arguments => by
    have hall := values_references arguments
    rw [walk, List.forall_mem_cons, values_apply_eq_nil, complete_apply]
    refine ⟨fun ⟨hown, hrest⟩ _ => ⟨hall.1 hrest, hown⟩, fun ⟨hadmits, hcomplete⟩ h => ?_⟩
    obtain ⟨hnil, hown⟩ := h hadmits
    exact ⟨hown, hall.2 hcomplete hnil⟩
  | .order a x descending => by
    obtain ⟨hnone, honly⟩ := values_reference x
    have hvalues : ((order a x descending).reference cat e).values = (x.reference cat e).values :=
      List.append_nil _
    have hcomplete : ((order a x descending).reference cat e).Complete ↔
        (x.reference cat e).Complete := by
      simp [reference, drafted, Draft.directed]
    rw [walk, List.forall_mem_cons, hvalues, hcomplete]
    exact ⟨fun h => hnone h.2, fun hc h => ⟨id, honly hc h⟩⟩
  | .group a x => by
    obtain ⟨hnone, honly⟩ := values_reference x
    have hvalues : ((group a x).reference cat e).values = (x.reference cat e).values :=
      Draft.values_parenthesized _
    have hcomplete : ((group a x).reference cat e).Complete ↔ (x.reference cat e).Complete :=
      Draft.complete_parenthesized
    rw [walk, List.forall_mem_cons, hvalues, hcomplete]
    exact ⟨fun h => hnone h.2, fun hc h => ⟨id, honly hc h⟩⟩
  | .raw a s => by
    simp only [walk, List.mem_singleton, forall_eq]
    exact ⟨fun _ => rfl, fun _ _ => id⟩
  | .subquery a body => by
    have hvalues : ((subquery a body).reference cat e).values = (body.built cat e).values :=
      Draft.values_parenthesized _
    simp only [walk, List.mem_singleton, forall_eq, hvalues, HasValue, not_not]
    exact ⟨id, fun _ => id⟩
  | .bare a => by
    simp only [walk, List.mem_singleton, forall_eq]
    exact ⟨fun _ => rfl, fun _ _ => id⟩

/-- Expressions have no values if no node in them has, and only then if they are complete. -/
theorem values_references : (xs : List Expr) →
    ((∀ y ∈ walkAll xs, ¬y.HasValue cat e) → ∀ x ∈ xs, (x.reference cat e).values = []) ∧
      ((∀ x ∈ xs, (x.reference cat e).Complete) → (∀ x ∈ xs, (x.reference cat e).values = []) →
        ∀ y ∈ walkAll xs, ¬y.HasValue cat e)
  | [] => by simp [walkAll]
  | x :: xs => by
    have hx := values_reference x
    have hxs := values_references xs
    rw [walkAll, List.forall_mem_append, List.forall_mem_cons, List.forall_mem_cons]
    exact ⟨fun h => ⟨hx.1 h.1, hxs.1 h.2⟩, fun hc h => ⟨hx.2 hc.1 h.1, hxs.2 hc.2 h.2⟩⟩

end

end Expr

end SqlCompose
