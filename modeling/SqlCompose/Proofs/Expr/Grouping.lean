import Mathlib.Algebra.BigOperators.Group.List.Basic
import SqlCompose.Proofs.Draft.Row
import SqlCompose.Proofs.Expr.Condition

/-!
# Combinations of combinations

A combination by AND or OR among the operands of one with the same symbol stands without brackets.
So what is written depends only on the terms that a combination comes down to, and these stay the
same when predicates are combined group by group.
-/
namespace SqlCompose

/-- Groups that are not empty have at least as many items as there are groups. -/
theorem length_le_length_flatten {α : Type} {groups : List (List α)}
    (h : ∀ group ∈ groups, group ≠ []) : groups.length ≤ groups.flatten.length := by
  have hsum := List.length_le_sum_of_one_le (groups.map List.length) fun n hn => by
    obtain ⟨group, hgroup, rfl⟩ := List.mem_map.1 hn
    exact List.length_pos_of_ne_nil (h group hgroup)
  rwa [List.length_map, ← List.length_flatten] at hsum

theorem Value.toExprs_eq_map (vs : List Value) : toExprs vs = vs.map toExpr := by
  induction vs with
  | nil => rfl
  | cons v vs ih => rw [toExprs, ih, List.map_cons]

namespace Expr

variable {symbol : String} {x y : Expr}

mutual

/-- The terms that a combination comes down to: its operands, where those that are combinations with
the same symbol are taken apart again. What is no such combination, or an empty one, is its only
term. -/
def terms (symbol : String) : Expr → List Expr
  | .apply a op own arguments =>
    if op = .boolean ∧ own = symbol ∧ arguments ≠ [] then termsAll symbol arguments
    else [.apply a op own arguments]
  | x => [x]

/-- The terms of several expressions, one after the other. -/
def termsAll (symbol : String) : List Expr → List Expr
  | [] => []
  | x :: xs => x.terms symbol ++ termsAll symbol xs

end

theorem termsAll_eq_flatMap (symbol : String) (xs : List Expr) :
    termsAll symbol xs = xs.flatMap (terms symbol) := by
  induction xs with
  | nil => rfl
  | cons x xs ih => rw [termsAll, ih, List.flatMap_cons]

/-- Whether an expression is a combination with a given symbol that is not empty. -/
def Combines (symbol : String) (x : Expr) : Prop :=
  ∃ a arguments, arguments ≠ [] ∧ x = .apply a .boolean symbol arguments

mutual

/-- Induction that goes down to the terms of a combination. -/
theorem terms_induction (symbol : String) {motive : Expr → Prop}
    (term : ∀ x, ¬x.Combines symbol → motive x)
    (combination : ∀ a arguments, arguments ≠ [] → (∀ x ∈ arguments, motive x) →
      motive (.apply a .boolean symbol arguments)) : (x : Expr) → motive x
  | .apply a op own arguments => by
    by_cases h : op = .boolean ∧ own = symbol ∧ arguments ≠ []
    · obtain ⟨rfl, rfl, hne⟩ := h
      exact combination a arguments hne (terms_induction_all own term combination arguments)
    · refine term _ ?_
      rintro ⟨b, others, hne, heq⟩
      obtain ⟨-, rfl, rfl, rfl⟩ := Expr.apply.inj heq
      exact h ⟨rfl, rfl, hne⟩
  | .literal .. | .column .. | .order .. | .group .. | .raw .. | .subquery .. | .bare .. =>
    term _ (by rintro ⟨_, _, _, h⟩; cases h)

theorem terms_induction_all (symbol : String) {motive : Expr → Prop}
    (term : ∀ x, ¬x.Combines symbol → motive x)
    (combination : ∀ a arguments, arguments ≠ [] → (∀ x ∈ arguments, motive x) →
      motive (.apply a .boolean symbol arguments)) : (xs : List Expr) → ∀ x ∈ xs, motive x
  | [] => by simp
  | x :: xs => List.forall_mem_cons.2
    ⟨terms_induction symbol term combination x, terms_induction_all symbol term combination xs⟩

end

theorem terms_apply (a : Value) {arguments : List Expr} (hne : arguments ≠ []) :
    (Expr.apply a .boolean symbol arguments).terms symbol = arguments.flatMap (terms symbol) := by
  rw [terms, if_pos ⟨rfl, rfl, hne⟩, termsAll_eq_flatMap]

theorem terms_of_not_combines (h : ¬x.Combines symbol) : x.terms symbol = [x] := by
  cases x with
  | apply a op own arguments =>
    rw [terms, if_neg]
    rintro ⟨rfl, rfl, hne⟩
    exact h ⟨a, arguments, hne, rfl⟩
  | _ => rfl

theorem terms_ne_nil (symbol : String) (x : Expr) : x.terms symbol ≠ [] := by
  induction x using terms_induction symbol with
  | term x h =>
    rw [terms_of_not_combines h]
    exact List.cons_ne_nil _ _
  | combination a arguments hne ih =>
    obtain ⟨x, hx⟩ := List.exists_mem_of_ne_nil arguments hne
    rw [terms_apply a hne]
    exact fun h => ih x hx (List.flatMap_eq_nil_iff.1 h x hx)

theorem length_le_flatMap_terms (symbol : String) (xs : List Expr) :
    xs.length ≤ (xs.flatMap (terms symbol)).length := by
  have hgroups : ∀ group ∈ xs.map (terms symbol), group ≠ [] := by
    intro group hgroup
    obtain ⟨x, -, rfl⟩ := List.mem_map.1 hgroup
    exact terms_ne_nil symbol x
  simpa [List.flatMap_def] using length_le_length_flatten hgroups

theorem combines_of_terms (h : 2 ≤ (x.terms symbol).length) : x.Combines symbol := by
  by_contra hne
  simp [terms_of_not_combines hne] at h

/-! ## What is written -/

section Written

variable {cat : Catalog} {e : Engine}

/-- A term as it stands under a combination. -/
def termDraft (cat : Catalog) (e : Engine) (symbol : String) (x : Expr) : Draft :=
  (x.operand cat e).under (Operator.boolean.level symbol) symbol .left

/-- The terms of an expression in a row. -/
def termsDraft (cat : Catalog) (e : Engine) (symbol : String) (xs : List Expr) : Draft :=
  .row (.operator .between symbol) (xs.map (termDraft cat e symbol))

/-- Whether a symbol is one of a connective. -/
def IsConnective (symbol : String) : Prop := symbol = "AND" ∨ symbol = "OR"

/-- What cannot be written cannot be written as an operand either. -/
theorem sameTexts_under_of_fail {o : Operand} {error : Error} (h : o.draft = .fail error)
    (parent : Level) (parentSymbol : String) (side : Side) :
    Draft.SameTexts cat (o.under parent parentSymbol side) (.fail error) := by
  have hfails : ∀ host, ((Draft.fail error).parenthesized.assemble cat host).Fails := by
    intro host
    have hplus : ((Draft.plus (.token .opening) (.fail error)).assemble cat host).Fails := by
      rw [Draft.assemble]
      exact Assembly.Fails.after _ fun _ => (Assembly.fails_throw error).bind _
    change ((Draft.plus (.plus (.token .opening) (.fail error)) (.token .closing)).assemble cat
      host).Fails
    rw [Draft.assemble]
    exact hplus.bind _
  rw [Operand.under, h]
  split
  · exact .of_sameRuns fun d number => .of_fails (hfails _) (Assembly.fails_throw error)
  · exact .refl _

/-- The side matters only for what is on the level of the connective and has another symbol. -/
theorem needsParentheses_right {level parent : Level} {own : String} (hs : IsConnective symbol)
    (hp : parent = Operator.boolean.level symbol) (h : level = parent → own = symbol) :
    needsParentheses level own parent symbol .right = needsParentheses level own parent symbol .left := by
  have hne : parent ≠ .comparison := by
    rw [hp, Operator.level]
    split <;> decide
  have hassociative : symbol ∈ associativeSymbols := by
    rcases hs with rfl | rfl <;> decide
  unfold needsParentheses
  by_cases hlt : level.rank < parent.rank
  · simp [hlt]
  · by_cases hgt : parent.rank < level.rank
    · simp [hlt, hgt]
    · have heq : level = parent := Level.rank_injective (by omega)
      simp [hlt, hgt, hne, h heq, hassociative]

/-- On the level of a connective there are only combinations. -/
theorem exists_of_level (hs : IsConnective symbol) (h : x.level = Operator.boolean.level symbol) :
    ∃ a own arguments, x = .apply a .boolean own arguments ∧ (own = "AND" ↔ symbol = "AND") := by
  have hlevel : Operator.boolean.level symbol = .and ∨ Operator.boolean.level symbol = .or := by
    rcases hs with rfl | rfl
    · exact .inl rfl
    · exact .inr rfl
  have hbinary : ∀ own, binaryLevel own ≠ .and ∧ binaryLevel own ≠ .or := by
    intro own
    unfold binaryLevel
    split_ifs <;> decide
  cases x with
  | apply a op own arguments =>
    cases op with
    | boolean =>
      refine ⟨a, own, arguments, rfl, ?_⟩
      simp only [level, Operator.level] at h
      by_cases ho : own = "AND" <;> by_cases hsym : symbol = "AND" <;> simp_all
    | binary =>
      change binaryLevel own = _ at h
      rcases hlevel with hl | hl
      · exact absurd (h.trans hl) (hbinary own).1
      · exact absurd (h.trans hl) (hbinary own).2
    | unary trailing =>
      cases trailing <;> rcases hlevel with hl | hl <;>
        exact absurd (h.trans hl) (by simp [level, Operator.level])
    | _ => rcases hlevel with hl | hl <;> exact absurd (h.trans hl) (by simp [level, Operator.level])
  | _ => rcases hlevel with hl | hl <;> exact absurd (h.trans hl) (by simp [level])

/-- A term is written in the same way on both sides of a connective. -/
theorem sameTexts_under (hs : IsConnective symbol) (side : Side) :
    Draft.SameTexts cat ((x.operand cat e).under (Operator.boolean.level symbol) symbol side)
      (termDraft cat e symbol x) := by
  cases side with
  | left => exact .refl _
  | right =>
    by_cases h : x.level = Operator.boolean.level symbol → x.symbol = symbol
    · have hsame := needsParentheses_right hs rfl h
      unfold termDraft Operand.under
      change Draft.SameTexts cat (if needsParentheses x.level x.symbol _ _ _ then _ else _)
        (if needsParentheses x.level x.symbol _ _ _ then _ else _)
      rw [hsame]
      exact .refl _
    · obtain ⟨hlevel, hsymbol⟩ := Classical.not_imp.1 h
      obtain ⟨a, own, arguments, rfl, hand⟩ := exists_of_level hs hlevel
      change own ≠ symbol at hsymbol
      have hne : own ≠ "AND" := by
        intro hown
        exact hsymbol (hown.trans (hand.1 hown).symm)
      have hor : own ≠ "OR" := by
        rintro rfl
        rcases hs with rfl | rfl
        · exact hne (hand.2 rfl)
        · exact hsymbol rfl
      have hfail : ((Expr.apply a .boolean own arguments).operand cat e).draft
          = .fail (.unknownConnective (Text.display own)) := by
        change (Expr.apply a .boolean own arguments).reference cat e = _
        rw [reference_apply, Operator.draft, Operator.booleanDraft.eq_def, if_pos ⟨hne, hor⟩]
      exact Draft.SameTexts.trans (sameTexts_under_of_fail hfail _ _ _)
        (Draft.SameTexts.symm (sameTexts_under_of_fail hfail _ _ _))

/-- A combination stands under one with the same symbol without brackets. -/
theorem under_of_combines (hs : IsConnective symbol) (h : x.Combines symbol) (side : Side) :
    (x.operand cat e).under (Operator.boolean.level symbol) symbol side = x.reference cat e := by
  obtain ⟨a, arguments, -, rfl⟩ := h
  have hnone : needsParentheses (Operator.boolean.level symbol) symbol
      (Operator.boolean.level symbol) symbol side = false := by
    rcases hs with rfl | rfl <;> cases side <;> decide
  rw [Operand.under, if_neg]
  · rfl
  · exact Bool.not_eq_true _ ▸ hnone

/-- Rows of terms in a row are written like the row of all terms. -/
theorem sameRuns_row_terms (xs : List Expr) :
    Draft.SameRuns cat
      (.row (.operator .between symbol) (xs.map fun x => termsDraft cat e symbol (x.terms symbol)))
      (termsDraft cat e symbol (xs.flatMap (terms symbol))) := by
  have hfilled : ∀ group ∈ xs.map fun x => (x.terms symbol).map (termDraft cat e symbol),
      group ≠ [] := by
    intro group hgroup
    obtain ⟨x, -, rfl⟩ := List.mem_map.1 hgroup
    simp [terms_ne_nil]
  have hrows : Draft.SameRuns cat _ _ :=
    Draft.sameRuns_row_flatten (.operator .between symbol) hfilled
  simpa only [termsDraft, List.flatMap_def, List.map_flatten, List.map_map, Function.comp_def]
    using hrows

/-- A combination is written in a row, of the terms that its operands are written as. -/
theorem sameRuns_combination (hs : IsConnective symbol) (a : Value) {arguments : List Expr}
    (hne : arguments ≠ []) (h : ∀ x ∈ arguments, ∀ side,
      Draft.SameTexts cat ((x.operand cat e).under (Operator.boolean.level symbol) symbol side)
        (termsDraft cat e symbol (x.terms symbol))) :
    Draft.SameRuns cat ((Expr.apply a .boolean symbol arguments).reference cat e)
      (termsDraft cat e symbol ((Expr.apply a .boolean symbol arguments).terms symbol)) := by
  have hoperands : Draft.SameRuns cat ((Expr.apply a .boolean symbol arguments).reference cat e)
      (.row (.operator .between symbol)
        (arguments.map fun x => termsDraft cat e symbol (x.terms symbol))) := by
    have hconnective : ¬(symbol ≠ "AND" ∧ symbol ≠ "OR") := by
      rcases hs with rfl | rfl <;> simp
    obtain ⟨x, rest, rfl⟩ := List.exists_cons_of_ne_nil hne
    obtain ⟨hx, hrest⟩ := List.forall_mem_cons.1 h
    rw [reference_apply, Operator.draft, Operator.booleanDraft.eq_def, if_neg hconnective]
    refine Draft.SameTexts.row _ (.cons (hx .left) ?_)
    rw [List.map_map]
    exact List.forall₂_map_left_iff.2 (List.forall₂_map_right_iff.2
      (List.forall₂_same.2 fun y hy => hrest y hy .right))
  rw [terms_apply a hne]
  exact hoperands.trans (sameRuns_row_terms arguments)

/-- An expression is written under a combination like the row of its terms. -/
theorem sameTexts_terms (hs : IsConnective symbol) (x : Expr) : ∀ side,
    Draft.SameTexts cat ((x.operand cat e).under (Operator.boolean.level symbol) symbol side)
      (termsDraft cat e symbol (x.terms symbol)) := by
  induction x using terms_induction symbol with
  | term x h =>
    intro side
    rw [terms_of_not_combines h]
    exact Draft.SameTexts.trans (sameTexts_under hs side)
      (Draft.SameTexts.symm (.singleton _ (termDraft cat e symbol x)))
  | combination a arguments hne ih =>
    intro side
    rw [under_of_combines hs ⟨a, arguments, hne, rfl⟩]
    exact .of_sameRuns (sameRuns_combination hs a hne ih)

/-- A combination is written like the row of its terms. -/
theorem sameRuns_termsDraft (hs : IsConnective symbol) (h : x.Combines symbol) :
    Draft.SameRuns cat (x.reference cat e) (termsDraft cat e symbol (x.terms symbol)) := by
  obtain ⟨a, arguments, hne, rfl⟩ := h
  exact sameRuns_combination hs a hne fun x _ => sameTexts_terms hs x

/-- Combinations of the same terms are written alike. -/
theorem sameRuns_of_terms (hs : IsConnective symbol) (hx : x.Combines symbol)
    (hy : y.Combines symbol) (h : x.terms symbol = y.terms symbol) :
    Draft.SameRuns cat (x.reference cat e) (y.reference cat e) :=
  (sameRuns_termsDraft hs hx).trans (h ▸ (sameRuns_termsDraft hs hy).symm)

end Written

/-! ## Combining -/

/-- Whether an expression is a combination of nothing. -/
def IsVoid (symbol : String) (x : Expr) : Prop := ∃ a, x = .apply a .boolean symbol []

/-- Whether nothing among the terms of an expression is a combination of nothing. -/
def Filled (symbol : String) (x : Expr) : Prop := ∀ y ∈ x.terms symbol, ¬y.IsVoid symbol

/-- The terms that an expression adds to a combination. -/
def laid (symbol : String) (x : Expr) : List Expr := (x.flattened symbol).flatMap (terms symbol)

theorem laid_of_not_isVoid (h : ¬x.IsVoid symbol) : x.laid symbol = x.terms symbol := by
  have hself : [x].flatMap (terms symbol) = x.terms symbol := by simp
  unfold laid flattened
  split
  · rename_i a own arguments
    split
    · rename_i hown
      obtain ⟨rfl, -⟩ := hown
      exact (terms_apply a fun hnil => h ⟨a, by rw [hnil]⟩).symm
    · exact hself
  · exact hself

theorem Filled.not_isVoid (h : x.Filled symbol) : ¬x.IsVoid symbol := by
  rintro ⟨a, rfl⟩
  have hself : (Expr.apply a .boolean symbol []).terms symbol = [.apply a .boolean symbol []] := by
    rw [terms, if_neg (by simp)]
  exact h _ (hself ▸ List.mem_singleton_self _) ⟨a, rfl⟩

theorem Filled.laid_eq (h : x.Filled symbol) : x.laid symbol = x.terms symbol :=
  laid_of_not_isVoid h.not_isVoid

/-- What can be written is filled: a combination of nothing cannot be written. -/
theorem filled_of_run {cat : Catalog} {e : Engine} (hs : IsConnective symbol) {d : Dialect}
    {number : Nat} {bound rest : Array Value} {v : Value}
    (hrun : ((x.reference cat e).assemble cat (.context d number)).run bound = (.ok v, rest)) :
    x.Filled symbol := by
  have hfail : ∀ a, (Expr.apply a .boolean symbol []).reference cat e = .fail .emptyBoolean := by
    intro a
    rw [reference_apply, Operator.draft, Operator.booleanDraft.eq_def, if_neg]
    · rfl
    · rcases hs with rfl | rfl <;> simp
  by_cases hx : x.Combines symbol
  · obtain ⟨texts, htexts, -⟩ := Draft.run_row.1 ((sameRuns_termsDraft hs hx d number _ _ _).1 hrun)
    rintro - hy ⟨a, rfl⟩
    obtain ⟨before, s, behind, hw⟩ := htexts.exists_writes (List.mem_map_of_mem hy)
    cases (sameTexts_under_of_fail (hfail a) _ _ _ d number _ _ _).1 hw
  · rw [Filled, terms_of_not_combines hx]
    rintro y hy ⟨a, rfl⟩
    rw [← List.mem_singleton.1 hy, hfail] at hrun
    cases hrun

/-- Combining lays the terms of what is combined one after the other, unless they are nothing. -/
theorem exists_combine {given : List Value} {ts : List Expr}
    (hts : given.flatMap (fun v => v.toExpr.laid symbol) = ts) {t : Expr} (ht : t ∈ ts)
    (hvoid : ¬t.IsVoid symbol) :
    ∃ x, combine symbol given = .ok x ∧ x.terms symbol = ts ∧ x.laid symbol = ts := by
  have hne : given.isEmpty = false := by
    cases given with
    | nil =>
      subst hts
      simp at ht
    | cons v given => rfl
  have harguments : ((Value.toExprs given).flatMap (flattened symbol)).flatMap (terms symbol) = ts := by
    rw [← hts, Value.toExprs_eq_map, List.flatMap_assoc, List.flatMap_map]
    rfl
  rw [combine, hne, if_neg Bool.false_ne_true]
  split
  · rename_i x hx
    have hterms : x.terms symbol = ts := by
      rw [← harguments, hx]
      simp
    refine ⟨x, rfl, hterms, (laid_of_not_isVoid ?_).trans hterms⟩
    rintro ⟨a, rfl⟩
    rw [terms, if_neg (by simp)] at hterms
    rw [← hterms, List.mem_singleton] at ht
    exact hvoid ⟨a, ht⟩
  · rename_i arguments _
    have hnil : (Value.toExprs given).flatMap (flattened symbol) ≠ [] := by
      intro hnil
      rw [hnil] at harguments
      subst harguments
      simp at ht
    have hterms : (Expr.apply .none .boolean symbol _).terms symbol = ts :=
      (terms_apply .none hnil).trans harguments
    refine ⟨_, rfl, hterms, (laid_of_not_isVoid ?_).trans hterms⟩
    rintro ⟨a, h⟩
    exact hnil (Expr.apply.inj h).2.2.2

theorem filled_of_terms {xs : List Expr} (hx : x.terms symbol = xs.flatMap (terms symbol))
    (h : ∀ y ∈ xs, y.Filled symbol) : x.Filled symbol := by
  intro z hz
  rw [hx] at hz
  obtain ⟨y, hy, hz⟩ := List.mem_flatMap.1 hz
  exact h y hy z hz

/-- What can be written can be combined. -/
theorem exists_combine_of_filled {xs : List Expr} (hne : xs ≠ [])
    (h : ∀ x ∈ xs, x.Filled symbol) :
    ∃ y, combine symbol (xs.map .expr) = .ok y ∧ y.terms symbol = xs.flatMap (terms symbol) := by
  have hlaid : (xs.map Value.expr).flatMap (fun v => v.toExpr.laid symbol)
      = xs.flatMap (terms symbol) := by
    rw [List.flatMap_map]
    exact List.flatMap_congr fun x hx => (h x hx).laid_eq
  obtain ⟨x, hx⟩ := List.exists_mem_of_ne_nil xs hne
  obtain ⟨t, ht⟩ := List.exists_mem_of_ne_nil _ (terms_ne_nil symbol x)
  obtain ⟨y, hy, hterms, -⟩ :=
    exists_combine hlaid (List.mem_flatMap.2 ⟨x, hx, ht⟩) (h x hx t ht)
  exact ⟨y, hy, hterms⟩

/-- The terms of a well-formed expression are well-formed. -/
theorem wellFormed_of_mem_terms (h : (Value.expr x).WellFormed) (hy : y ∈ x.terms symbol) :
    (Value.expr y).WellFormed := by
  induction x using terms_induction symbol with
  | term x hx =>
    rw [terms_of_not_combines hx] at hy
    exact List.mem_singleton.1 hy ▸ h
  | combination a arguments hne ih =>
    rw [terms_apply a hne] at hy
    obtain ⟨z, hz, hy⟩ := List.mem_flatMap.1 hy
    exact ih z hz (wellFormed_arguments h z hz) hy

/-- Combining one expression takes it apart once. -/
theorem combine_singleton (h : x.flattened symbol = [y]) : combine symbol [.expr x] = .ok y := by
  have hflat : (Value.toExprs [.expr x]).flatMap (flattened symbol) = [y] := by
    simp [Value.toExprs, Value.toExpr, h]
  rw [combine, List.isEmpty_cons, if_neg Bool.false_ne_true, hflat]

end Expr

/-! ## Nested calls -/

/-- Calls that combine predicates and the outcomes of such calls. Every call has an argument. -/
inductive Nesting
  | predicate (x : Expr)
  | call (first : Nesting) (others : List Nesting)

namespace Nesting

variable {symbol : String}

mutual

/-- The predicates in nested calls, in order. -/
def predicates : Nesting → List Expr
  | predicate x => [x]
  | call first others => first.predicates ++ predicatesAll others

/-- The predicates in several nested calls. -/
def predicatesAll : List Nesting → List Expr
  | [] => []
  | n :: ns => n.predicates ++ predicatesAll ns

end

mutual

/-- The outcome of nested calls. -/
def build (symbol : String) : Nesting → Except Error Expr
  | predicate x => .ok x
  | call first others => do
    let x ← first.build symbol
    let xs ← buildAll symbol others
    Expr.combine symbol ((x :: xs).map .expr)

/-- The outcomes of several nested calls. -/
def buildAll (symbol : String) : List Nesting → Except Error (List Expr)
  | [] => .ok []
  | n :: ns => do
    let x ← n.build symbol
    return x :: (← buildAll symbol ns)

end

theorem predicates_ne_nil : ∀ n : Nesting, n.predicates ≠ []
  | predicate _ => List.cons_ne_nil _ _
  | call first _ => List.append_ne_nil_of_left_ne_nil first.predicates_ne_nil _

mutual

/-- Nested calls keep the terms of the predicates. -/
theorem exists_build : ∀ n : Nesting, (∀ x ∈ n.predicates, x.Filled symbol) →
    ∃ y, n.build symbol = .ok y ∧ y.terms symbol = n.predicates.flatMap (Expr.terms symbol)
  | predicate x, _ => ⟨x, rfl, by simp [predicates]⟩
  | call first others, h => by
    rw [predicates, List.forall_mem_append] at h
    obtain ⟨x, hx, hfirst⟩ := first.exists_build h.1
    obtain ⟨xs, hxs, hfilled, hothers⟩ := exists_buildAll others h.2
    obtain ⟨y, hy, hterms⟩ := Expr.exists_combine_of_filled (List.cons_ne_nil x xs)
      (List.forall_mem_cons.2 ⟨Expr.filled_of_terms hfirst h.1, hfilled⟩)
    refine ⟨y, ?_, ?_⟩
    · rw [build, hx, hxs]
      exact hy
    · rw [hterms, predicates, List.flatMap_cons, List.flatMap_append, hfirst, hothers]

theorem exists_buildAll : ∀ ns : List Nesting, (∀ x ∈ predicatesAll ns, x.Filled symbol) →
    ∃ ys, buildAll symbol ns = .ok ys ∧ (∀ y ∈ ys, y.Filled symbol) ∧
      ys.flatMap (Expr.terms symbol) = (predicatesAll ns).flatMap (Expr.terms symbol)
  | [], _ => ⟨[], rfl, by simp, rfl⟩
  | n :: ns, h => by
    rw [predicatesAll, List.forall_mem_append] at h
    obtain ⟨x, hx, hfirst⟩ := n.exists_build h.1
    obtain ⟨xs, hxs, hfilled, hothers⟩ := exists_buildAll ns h.2
    refine ⟨x :: xs, ?_, List.forall_mem_cons.2 ⟨Expr.filled_of_terms hfirst h.1, hfilled⟩, ?_⟩
    · rw [buildAll, hx, hxs]
      rfl
    · rw [List.flatMap_cons, predicatesAll, List.flatMap_append, hfirst, hothers]

end

/-- Calls with a single predicate are calls around calls with one argument each. -/
theorem eq_nil_of_predicates {x : Expr} {first : Nesting} {others : List Nesting}
    (h : (call first others).predicates = [x]) : first.predicates = [x] ∧ others = [] := by
  rw [predicates, List.append_eq_singleton_iff] at h
  rcases h with ⟨hnil, -⟩ | ⟨hfirst, hothers⟩
  · exact absurd hnil first.predicates_ne_nil
  · cases others with
    | nil => exact ⟨hfirst, rfl⟩
    | cons n ns => exact absurd (List.append_eq_nil_iff.1 hothers).1 n.predicates_ne_nil

/-- Calls around a single predicate that is taken apart no further than once. -/
theorem build_of_predicates_eq {x y : Expr} (hx : x.flattened symbol = [y])
    (hy : y.flattened symbol = [y]) : ∀ (first : Nesting) (others : List Nesting),
    (call first others).predicates = [x] → (call first others).build symbol = .ok y
  | predicate z, others, h => by
    obtain ⟨hz, rfl⟩ := eq_nil_of_predicates h
    obtain rfl := List.singleton_inj.1 hz
    exact Expr.combine_singleton hx
  | call first more, others, h => by
    obtain ⟨hfirst, rfl⟩ := eq_nil_of_predicates h
    rw [build, build_of_predicates_eq hx hy first more hfirst]
    exact Expr.combine_singleton hy

end Nesting

end SqlCompose
