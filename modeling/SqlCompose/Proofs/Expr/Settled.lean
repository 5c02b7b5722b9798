import SqlCompose.Expr.Reference
import SqlCompose.Proofs.Expr.Compositional
import SqlCompose.Proofs.Render.WellFormed

/-!
# Settled operators

The drafts of names and of operators are settled if their operands are: each operand is drafted once
and in its place, and nothing is called on the way.
-/
namespace SqlCompose

namespace Draft.Settled

variable {cat : Catalog} {b : Bool} {x y : Draft}

/-! ## Drafts -/

theorem text (s : String) : Settled cat b (.text s) := .token rfl

theorem operator (fixity : Fixity) (symbol : String) : Settled cat b (.operator fixity symbol) :=
  .token rfl

theorem keyword (fixity : Fixity) (word : String) : Settled cat b (.keyword fixity word) :=
  .token rfl

theorem commaSeparated {items : List Draft} (h : ∀ x ∈ items, Settled cat b x) :
    Settled cat b (.commaSeparated items) := .row rfl h

theorem asking (part : String) (h : Settled cat b x) : Settled cat b (.asking part x) :=
  .before (.ask part) h

theorem continued {items : List Draft} (hx : Settled cat b x)
    (h : ∀ y ∈ items, Settled cat b y) : Settled cat b (x.continued items) := by
  induction items generalizing x with
  | nil => exact hx
  | cons y items ih => exact ih (.extend hx (h y (by simp))) fun z hz => h z (by simp [hz])

theorem guarded {check : Except Error Unit} (h : check = .ok () → Settled cat b x) :
    Settled cat b (.guarded check x) := by
  cases check with
  | error e => exact .fail e
  | ok u => exact h rfl

theorem given {α : Type} {r : Except Error α} {f : α → Draft}
    (h : ∀ a, r = .ok a → Settled cat b (f a)) : Settled cat b (.given r f) := by
  cases r with
  | error e => exact .fail e
  | ok a => exact h a rfl

theorem name_of_isText {v : Value} (h : v.IsText) : Settled cat b (.name v) := by
  obtain ⟨s, rfl⟩ := h
  exact .name s

theorem named {a : Value} (hx : Settled cat b x) (ha : a.IsAlias) : Settled cat b (x.named a) := by
  by_cases ht : a.truthy = true
  · rw [Draft.named, if_pos ht]
    exact .extend hx (.plus (.keyword ..) (name_of_isText (ha ht)))
  · rwa [Draft.named, if_neg ht]

theorem directed (hx : Settled cat b x) (descending : Bool) :
    Settled cat b (x.directed descending) := .plus (.shown hx) (.operator ..)

theorem nameDraft (s : String) : Settled cat b (SqlCompose.nameDraft s) := .name s

theorem enclosed {items : List Draft} (h : ∀ x ∈ items, Settled cat b x) :
    Settled cat b (SqlCompose.enclosed items) :=
  .plus (.plus (.text _) (.commaSeparated h)) (.text _)

theorem nameList (names : List String) : Settled cat b (SqlCompose.nameList names) :=
  .enclosed fun x hx => by
    obtain ⟨s, -, rfl⟩ := List.mem_map.1 hx
    exact .name s

theorem columnName (id : ColumnId) : Settled cat b (SqlCompose.columnName cat id) := .name _

theorem columnDraft (id : ColumnId) : Settled cat b (SqlCompose.columnDraft cat id) := by
  rw [SqlCompose.columnDraft]
  split
  · exact .fail _
  · exact .plus (.plus (.name _) (.text _)) (.name _)

theorem tableDraft (id : TableId) : Settled cat b (SqlCompose.tableDraft cat id) := by
  rw [SqlCompose.tableDraft]
  split
  · exact .fail _
  · refine (Settled.name _).named fun ht => ?_
    cases hs : (cat.table id).asName with
    | none => simp [hs, Value.ofOption, Value.truthy, Value.none, Scalar.truthy] at ht
    | some s => exact ⟨s, rfl⟩

end Draft.Settled

/-! ## Operators -/

section Operators

variable {cat : Catalog}

/-- What is put together from settled drafts is settled. -/
theorem Draft.Settled.compositional : Draft.Compositional (Draft.Settled cat true) where
  fail := .fail
  text := .text
  operator := .operator
  literal := .literal
  packed := .packed
  asking part _ := .asking part
  packedBefore v _ := .before (.packed v)
  plus := .plus
  shown := .shown
  row hs h := by
    cases hs with
    | token ht => exact .row ht h
  parenthesized := .parenthesized
  call symbol lead _ := .call symbol lead

/-- Whether the draft of an operand is settled. -/
def Operand.Settled (cat : Catalog) (o : Operand) : Prop := o.draft.Settled cat true

/-- Whether the drafts of operands are settled. -/
def Operand.AllSettled (cat : Catalog) (operands : List Operand) : Prop :=
  ∀ o ∈ operands, o.Settled cat

theorem Operand.AllSettled.drafts {operands : List Operand} (h : AllSettled cat operands) :
    ∀ x ∈ operands.map (·.draft), x.Settled cat true := Draft.Compositional.drafts h

namespace Operator

theorem settled_listDraft {items : List Draft} (h : ∀ x ∈ items, x.Settled cat true) :
    (listDraft items).Settled cat true := Draft.Settled.compositional.listDraft h

/-- An operator with settled operands is settled. -/
theorem settled_draft {operands : List Operand} (h : Operand.AllSettled cat operands) (e : Engine)
    (op : Operator) (symbol : String) : (op.draft e symbol operands).Settled cat true :=
  Draft.Settled.compositional.operatorDraft h e op symbol

end Operator

end Operators

end SqlCompose
