import SqlCompose.Proofs.Draft.Acceptance
import SqlCompose.Proofs.Expr.Condition
import SqlCompose.Proofs.Expr.Occurrence

/-!
# Valid expressions

An expression compiles if each of its nodes is complete by itself: an operator has as many arguments
as it needs and a name where it needs one, a column belongs to a table with a name, a dialect takes
the value of a literal, and the SELECT in a subquery compiles. What an engine writes in the place of
a node, be it a call for a concatenation, a pattern for the needle of a LIKE test or a clock, neither
adds nor hides a failure.
-/
namespace SqlCompose

/-- Whether an operator is complete with a symbol and a number of arguments. -/
def Operator.Admits (symbol : String) (count : Nat) : Operator → Prop
  | function | aggregate _ => symbol ≠ ""
  | unary _ | not => count = 1
  | binary => symbol ≠ "" ∧ count = 2
  | boolean => symbol ∈ ["AND", "OR"] ∧ 1 ≤ count
  | between _ => count = 3
  | like _ => count = 2
  | list => 1 ≤ count

/-- Whether a node is complete, whatever the nodes below it are. -/
def Expr.IsValid (cat : Catalog) (d : Dialect) : Expr → Prop
  | literal _ v _ => d.Takes v
  | column _ id => ∃ t, cat.owner id = some t ∧ (cat.table t).nameInQuery ≠ ""
  | apply _ op symbol arguments => op.Admits symbol arguments.length
  | subquery _ body => ∃ c, compile cat d body = .ok c
  | bare _ => False
  | order .. | group .. | raw .. => True

variable {cat : Catalog} {d : Dialect}

theorem Dialect.takes_text (s : String) : d.Takes (.text s) :=
  ⟨.text s, rfl, by split <;> trivial⟩

/-! ## Operands -/

section Operands

variable {o left right : Operand}

@[simp] theorem Operand.accepted_under (parent : Level) (symbol : String) (side : Side) :
    (o.under parent symbol side).Accepted cat d ↔ o.draft.Accepted cat d := by
  rw [under]
  split <;> simp

@[simp] theorem accepted_infixDraft (symbol : String) :
    (infixDraft symbol left right).Accepted cat d ↔
      left.draft.Accepted cat d ∧ right.draft.Accepted cat d := by
  simp [infixDraft]

variable (hd : d.WritesText) (e : Engine)
include hd

theorem accepted_callDraft (symbol : String) {items : List Draft} :
    (callDraft e symbol items).Accepted cat d ↔ ∀ x ∈ items, x.Accepted cat d := by
  unfold callDraft
  split
  · simp
  · exact Draft.accepted_callWith hd

theorem accepted_concatDraft : (concatDraft e left right).Accepted cat d ↔
    left.draft.Accepted cat d ∧ right.draft.Accepted cat d := by
  rw [concatDraft, Draft.accepted_asking]
  split
  · simp [accepted_callDraft hd]
  · exact accepted_infixDraft _

theorem accepted_concatOperand : (concatOperand e left right).draft.Accepted cat d ↔
    left.draft.Accepted cat d ∧ right.draft.Accepted cat d := by
  unfold concatOperand
  split
  · simp [callOperand, accepted_callDraft hd]
  · exact accepted_concatDraft hd e

end Operands

/-! ## LIKE tests -/

namespace LikeForm

variable (hd : d.WritesText) (form : LikeForm) (e : Engine) {haystack needle o : Operand}
include hd

theorem accepted_fold : (form.fold e o).draft.Accepted cat d ↔ o.draft.Accepted cat d := by
  unfold fold
  split
  · simp [callOperand, accepted_callDraft hd]
  · rfl

/-- The wildcards around a needle are always taken. -/
theorem accepted_computedPattern :
    (form.computedPattern e needle).draft.Accepted cat d ↔ needle.draft.Accepted cat d := by
  have hwildcard : wildcard.draft.Accepted cat d :=
    Draft.accepted_literal.2 (Dialect.takes_text "%")
  have hclosed : ∀ p : Operand,
      (if form.fuzzyEnd then concatOperand e p wildcard else p).draft.Accepted cat d ↔
        p.draft.Accepted cat d := by
    intro p
    split
    · simp [accepted_concatOperand hd, hwildcard]
    · rfl
  unfold computedPattern
  simp only [hclosed]
  split
  · simp [accepted_concatOperand hd, hwildcard, accepted_fold hd]
  · exact accepted_fold hd form e

theorem accepted_escapeClause (escaped : Bool) :
    (escapeClause (form.escapeLiteral? e escaped)).Accepted cat d := by
  unfold escapeLiteral?
  split
  · simp [escapeClause, Draft.accepted_packed_text hd]
  · split
    · cases e.likeEscape? <;> simp [escapeClause, Draft.empty]
    · simp [escapeClause, Draft.empty]

/-- The pattern that stands for a needle of literal text is taken as the needle itself is. -/
theorem accepted_test (symbol : String)
    (ht : needle.text.isSome → needle.draft.Accepted cat d) :
    (form.test e symbol haystack needle).Accepted cat d ↔
      haystack.draft.Accepted cat d ∧ needle.draft.Accepted cat d := by
  simp only [test, Draft.accepted_plus, Draft.accepted_infixed, Operand.accepted_under,
    accepted_fold hd, accepted_escapeClause hd, and_true]
  refine and_congr_right fun _ => ?_
  cases hs : needle.text with
  | some s =>
    refine iff_of_true (Draft.accepted_literal.2 (Dialect.takes_text _)) (ht ?_)
    rw [hs, Option.isSome_some]
  | none => exact accepted_computedPattern hd form e

omit hd in
theorem accepted_askingAll (parts : List String) {x : Draft} :
    (parts.foldr Draft.asking x).Accepted cat d ↔ x.Accepted cat d := by
  induction parts with
  | nil => rfl
  | cons part parts ih => rw [List.foldr_cons, Draft.accepted_asking, ih]

theorem accepted_draft (symbol : String)
    (ht : needle.text.isSome → needle.draft.Accepted cat d) :
    (form.draft e symbol haystack needle).Accepted cat d ↔
      haystack.draft.Accepted cat d ∧ needle.draft.Accepted cat d := by
  rw [draft, Draft.accepted_asking]
  split
  · rw [Draft.accepted_before_packed hd, accepted_askingAll, accepted_test hd form e symbol ht]
  · rw [accepted_askingAll, accepted_test hd form e symbol ht]

end LikeForm

/-! ## Operators -/

namespace Operator

theorem mem_connectives {symbol : String} (h : ¬(symbol ≠ "AND" ∧ symbol ≠ "OR")) :
    symbol ∈ ["AND", "OR"] := by
  simp only [List.mem_cons, List.not_mem_nil, or_false]
  by_contra hne
  exact h (not_or.1 hne)

theorem accepted_booleanDraft (symbol : String) (operands : List Operand) :
    (booleanDraft symbol operands).Accepted cat d ↔
      (symbol ∈ ["AND", "OR"] ∧ 1 ≤ operands.length) ∧
        ∀ o ∈ operands, o.draft.Accepted cat d := by
  unfold booleanDraft
  split
  · rename_i h
    simp [h]
  · rename_i h
    have hs := mem_connectives h
    cases operands with
    | nil => simp
    | cons first others => simp [hs]

variable (hd : d.WritesText) (e : Engine) (symbol : String) {operands : List Operand}
include hd

theorem accepted_aggregateDraft (distinct : Bool) :
    (aggregateDraft distinct symbol operands).Accepted cat d ↔
      symbol ≠ "" ∧ ∀ o ∈ operands, o.draft.Accepted cat d := by
  unfold aggregateDraft
  split
  · simp_all
  · cases operands with
    | nil => simp_all [Draft.accepted_callWith hd]
    | cons first others => simp_all [Draft.accepted_callWith hd]

/-- An operator is accepted if it is complete and all its operands are accepted. -/
theorem accepted_draft (op : Operator)
    (ht : ∀ o ∈ operands, o.text.isSome → o.draft.Accepted cat d) :
    (op.draft e symbol operands).Accepted cat d ↔
      op.Admits symbol operands.length ∧ ∀ o ∈ operands, o.draft.Accepted cat d := by
  cases op with
  | function =>
    simp only [draft, functionDraft, Admits]
    split <;> simp_all [accepted_callDraft hd]
  | aggregate distinct => exact accepted_aggregateDraft hd symbol distinct
  | unary trailing =>
    rcases operands with _ | ⟨o, _ | ⟨_, _⟩⟩ <;> simp only [draft, unaryDraft, Admits]
    · simp
    · split <;> simp
    · simp
  | binary =>
    simp only [draft, binaryDraft, Admits]
    split
    · simp_all
    · rcases operands with _ | ⟨left, _ | ⟨right, _ | ⟨_, _⟩⟩⟩ <;> simp_all
      split <;> simp [accepted_concatDraft hd]
  | boolean => exact accepted_booleanDraft symbol operands
  | not =>
    rcases operands with _ | ⟨o, _ | ⟨_, _⟩⟩ <;> simp [draft, notDraft, Admits]
  | between negated =>
    rcases operands with _ | ⟨o, _ | ⟨low, _ | ⟨high, _ | ⟨_, _⟩⟩⟩⟩ <;>
      simp [draft, betweenDraft, Admits, and_assoc]
  | like form =>
    rcases operands with _ | ⟨haystack, _ | ⟨needle, _ | ⟨_, _⟩⟩⟩ <;>
      simp only [draft, likeDraft, Admits]
    · simp
    · simp
    · simp [LikeForm.accepted_draft hd form e symbol (ht needle (by simp))]
    · simp
  | list =>
    cases operands with
    | nil => simp [draft, listDraft, Admits]
    | cons first others => simp [draft, listDraft, Admits, Draft.commaSeparated]

end Operator

/-! ## Expressions -/

theorem compiles_iff_accepted (hd : d.WritesText) {v : Value} (hv : v.WellFormed) :
    (∃ c, compile cat d v = .ok c) ↔ (v.built cat d.engine).Accepted cat d := by
  have h := @compiles_iff cat _ _ hd hv d.placeholderStyle d.bindLiterals
  rwa [Dialect.marking_self] at h

namespace Expr

theorem Within.trans {x y z : Expr} (hz : z.Within y) (hy : y.Within x) : z.Within x := by
  induction hy with
  | self => exact hz
  | apply hx _ ih => exact .apply hx ih
  | order _ ih => exact .order ih
  | group _ ih => exact .group ih

/-- Whether all subqueries of an expression hold SELECTs. -/
def HoldsSelects (x : Expr) : Prop := ∀ a body, .subquery a body ∈ x.walk → ∃ q, body = .select q

theorem HoldsSelects.of_within {x y : Expr} (h : x.HoldsSelects) (hy : y.Within x) :
    y.HoldsSelects := by
  intro a body hbody
  exact h a body ((Within.of_mem_walk _ hbody).trans hy).mem_walk

theorem accepted_columnDraft (hd : d.WritesText) (id : ColumnId) :
    (columnDraft cat id).Accepted cat d ↔
      ∃ t, cat.owner id = some t ∧ (cat.table t).nameInQuery ≠ "" := by
  have hname : ∀ s, (nameDraft s).Accepted cat d := Draft.accepted_name hd
  have hqualifier : cat.qualifier id ≠ "" ↔
      ∃ t, cat.owner id = some t ∧ (cat.table t).nameInQuery ≠ "" := by
    rw [Catalog.qualifier]
    cases cat.owner id <;> simp
  rw [← hqualifier, columnDraft]
  split <;> simp_all

/-- A literal text is taken. -/
theorem accepted_of_text? {x : Expr} (h : x.text?.isSome) (e : Engine) :
    (x.reference cat e).Accepted cat d := by
  cases x with
  | literal a v k =>
    obtain ⟨s, hs⟩ := Option.isSome_iff_exists.1 h
    rw [text?_literal] at hs
    obtain rfl := Value.eq_text_of_text? hs
    exact Draft.accepted_literal.2 (Dialect.takes_text s)
  | _ => simp [text?] at h

theorem accepted_subquery (hd : d.WritesText) {a : Value} {q : Select} (hw : (Value.select q).WellFormed) :
    ((subquery a (.select q)).reference cat d.engine).Accepted cat d ↔
      ∃ c, compile cat d (.select q) = .ok c := by
  rw [compiles_iff_accepted hd hw]
  exact Draft.accepted_parenthesized

mutual

/-- An expression is accepted if all its nodes are valid. -/
theorem accepted_reference (hd : d.WritesText) : (x : Expr) → (Value.expr x).WellFormed → x.HoldsSelects →
    ((x.reference cat d.engine).Accepted cat d ↔ ∀ y ∈ x.walk, y.IsValid cat d)
  | .literal a v k, _, _ => by
    simp only [walk, List.mem_singleton, forall_eq]
    exact Draft.accepted_literal
  | .column a id, _, _ => by
    simp only [walk, List.mem_singleton, forall_eq]
    exact accepted_columnDraft hd id
  | .apply a op symbol arguments, hw, hq => by
    have hall := accepted_references hd arguments (wellFormed_arguments hw)
      fun y hy => hq.of_within (.apply hy .self)
    have ht : ∀ o ∈ arguments.map (·.operand cat d.engine),
        o.text.isSome → o.draft.Accepted cat d := by
      intro o ho h
      obtain ⟨y, -, rfl⟩ := List.mem_map.1 ho
      exact accepted_of_text? h d.engine
    rw [walk, List.forall_mem_cons, reference_apply,
      Operator.accepted_draft hd d.engine symbol op ht, List.length_map, ← hall]
    simp [IsValid, operand]
  | .order a x descending, hw, hq => by
    have hx := accepted_reference hd x (by cases hw with | plain h => cases h | order _ _ h => exact h)
      (hq.of_within (.order .self))
    rw [walk, List.forall_mem_cons, ← hx]
    simp [IsValid, reference, drafted, Draft.directed]
  | .group a x, hw, hq => by
    have hx := accepted_reference hd x (by cases hw with | plain h => cases h | group _ h => exact h)
      (hq.of_within (.group .self))
    rw [walk, List.forall_mem_cons, ← hx]
    simp [IsValid, reference, drafted]
  | .raw a s, _, _ => by
    simp only [walk, List.mem_singleton, forall_eq]
    exact iff_of_true (Draft.accepted_text s) trivial
  | .subquery a body, hw, hq => by
    obtain ⟨q, rfl⟩ := hq a body (by simp [walk])
    simp only [walk, List.mem_singleton, forall_eq]
    exact accepted_subquery hd (by cases hw with | plain h => cases h | subquery _ h => exact h)
  | .bare a, _, _ => by
    simp only [walk, List.mem_singleton, forall_eq]
    exact iff_of_false (Draft.not_accepted_fail _) id

/-- Several expressions are accepted if all nodes in them are valid. -/
theorem accepted_references (hd : d.WritesText) : (xs : List Expr) →
    (∀ x ∈ xs, (Value.expr x).WellFormed) → (∀ x ∈ xs, x.HoldsSelects) → ((∀ x ∈ xs, (x.reference cat d.engine).Accepted cat d) ↔
      ∀ y ∈ walkAll xs, y.IsValid cat d)
  | [], _, _ => by simp [walkAll]
  | x :: xs, hw, hq => by
    rw [List.forall_mem_cons] at hw hq
    have hx := accepted_reference hd x hw.1 hq.1
    have hxs := accepted_references hd xs hw.2 hq.2
    rw [walkAll, List.forall_mem_cons, List.forall_mem_append, hx, hxs]

end

/-- The alias that a column shows where it stands alone is accepted. -/
theorem accepted_built (hd : d.WritesText) {x : Expr} (hw : (Value.expr x).WellFormed) :
    ((Value.expr x).built cat d.engine).Accepted cat d ↔
      (x.reference cat d.engine).Accepted cat d := by
  have ha : x.asName.IsAlias := (hw.settled cat d.engine).steady.asName x (by
    rw [Value.drafted_expr, value_drafted])
  rw [Value.built, Value.drafted_expr, Drafted.built, value_drafted]
  cases x with
  | column a id =>
    simp only [Draft.named]
    split
    · rename_i ht
      obtain ⟨s, rfl⟩ := ha ht
      have hbehind : (Draft.keyword .between "AS" + .name (.text s)).Accepted cat d :=
        Draft.accepted_plus.2 ⟨Draft.accepted_token _, Draft.accepted_name hd s⟩
      exact Draft.accepted_plus.trans (and_iff_left hbehind)
    · rfl
  | _ => rfl

end Expr

/-- An expression compiles if all its nodes are valid, and only then. -/
theorem compiles_iff_all_valid (hd : d.WritesText) {x : Expr} (hw : (Value.expr x).WellFormed)
    (hq : x.HoldsSelects) :
    (∃ c, compile cat d (.expr x) = .ok c) ↔ ∀ y ∈ x.walk, y.IsValid cat d := by
  rw [compiles_iff_accepted hd hw, Expr.accepted_built hd hw, Expr.accepted_reference hd x hw hq]

/-- There are rows in a SELECT of texts. -/
def Expr.findsText (field haystack needle : String) : Expr :=
  .apply .none (.unary false) "EXISTS" [.subquery .none (.select (.ofTexts field haystack needle))]

/-- A test that is complete compiles; a negation of a range test without bounds does not. -/
theorem compiles_iff_all_valid_existence : (default : Dialect).WritesText ∧
    (∃ c, compile default default (.expr (.findsText "x" "it" "a%b")) = .ok c) ∧
    ∃ x : Expr, (Value.expr x).WellFormed ∧ x.HoldsSelects ∧
      ¬∃ c, compile default default (.expr x) = .ok c := by
  have hd : (default : Dialect).WritesText := ⟨rfl, rfl⟩
  have hwell : (Value.expr (.findsText "x" "it" "a%b")).WellFormed := by
    refine Expr.wellFormed_apply.2 fun y hy => ?_
    obtain rfl := List.mem_singleton.1 hy
    exact .subquery Value.isAlias_none (Select.wellFormed_ofTexts ..)
  have hselect : ∃ c, compile default default (.select (.ofTexts "x" "it" "a%b")) = .ok c :=
    ⟨⟨.text "SELECT ? WHERE ? LIKE ? ESCAPE '\\'",
      [.text "x", .text "it", .text "%a\\%b%"]⟩, rfl⟩
  refine ⟨hd, (compiles_iff_all_valid hd hwell ?_).2 ?_, ?_⟩
  · simp [Expr.HoldsSelects, Expr.findsText, Expr.walk, walkAll]
  · simp only [Expr.findsText, Expr.walk, walkAll, List.append_nil, List.forall_mem_cons,
      List.not_mem_nil, false_imp_iff, implies_true, and_true]
    exact ⟨rfl, hselect⟩
  · let x : Expr := .apply .none .not "NOT" [.apply .none (.between false) ""
      [.findsText "x" "it" "a%b"]]
    have hx : (Value.expr x).WellFormed := by simpa [x] using hwell
    have hq : x.HoldsSelects := by
      simp [Expr.HoldsSelects, x, Expr.findsText, Expr.walk, walkAll]
    refine ⟨x, hx, hq, fun h => ?_⟩
    have hcount : 1 = 3 := (compiles_iff_all_valid hd hx hq).1 h
      (.apply .none (.between false) "" [.findsText "x" "it" "a%b"])
      (by simp [x, Expr.walk, walkAll])
    exact absurd hcount (by decide)

end SqlCompose
