import SqlCompose.Object.Function.Predicate
import SqlCompose.Object.Operate
import SqlCompose.Proofs.Compile.Grouping
import SqlCompose.Proofs.Draft.Outcome
import SqlCompose.Proofs.Object.Quiet
import SqlCompose.Proofs.Statement.Keywords

/-!
# Tests for null

What becomes of an expression that is compared with nothing. In SQL nothing equals NULL, so equality
and inequality have to turn into tests for null, whichever way they are asked for. Operators do so on
both sides, and so do the lookups of keywords. Functions of both sides do so for the right one only.
-/
namespace SqlCompose

open SqlCompose.Action

/-! ## Actions that make an object -/

/-- Whether an action always makes an object of a given value, and leaves the session as it is. -/
structure Action.Makes (a : Action Object) (v : Value) : Prop where
  outcome : ∀ w, ∃ o, a.outcome w = .ok o ∧ o.value = v
  session : ∀ w, (a.after w).session = w.session

theorem Action.Quiet.makes {α : Type} {a : Action α} (h : a.Quiet) {f : α → Action Object}
    {v : Value} (hf : ∀ x, (f x).Makes v) : (a >>= f).Makes v := by
  refine ⟨fun w => ?_, fun w => ?_⟩
  all_goals
    obtain ⟨x, hx⟩ := h.succeeds w
    have hrun := run_bind_of_ok hx f
  · rw [outcome, hrun]
    exact (hf x).outcome _
  · rw [after, hrun]
    exact ((hf x).session _).trans (h.session w)

namespace Workspace

theorem makes_lift_bind {α : Type} {r : Except Error α} {x : α} (h : r = .ok x)
    {f : α → Action Object} {v : Value} (hf : (f x).Makes v) : (lift r >>= f).Makes v := by
  subst h
  exact ⟨hf.outcome, hf.session⟩

theorem makes_makeWith {v : Value} (fields : List (String × Object)) :
    (makeWith v fields).Makes v :=
  quiet_fresh.makes fun _ => ⟨fun _ => ⟨_, rfl, rfl⟩, fun _ => rfl⟩

theorem makes_applied (e : Expr) (arguments : List Object) :
    (applied e arguments).Makes (.expr e) :=
  (quiet_asExprs arguments).makes fun _ => (quiet_sequence ..).makes fun _ => makes_makeWith _

end Workspace

/-! ## Comparisons with nothing -/

namespace Expr

/-- The symbols of equality and inequality, each with the test for null that it stands for next to
nothing. -/
def equalities : List (String × (Expr → Expr)) :=
  [("=", isNull), ("<>", isNotNull), ("!=", isNotNull)]

variable {symbol : String} {test : Expr → Expr} (h : (symbol, test) ∈ equalities)
include h

theorem ne_of_mem_equalities : symbol ≠ "" := by
  rintro rfl
  simp [equalities] at h

/-- Next to nothing on its right, anything is tested for null. -/
theorem compare_none (v : Value) : compare symbol v .none = .ok (test v.toExpr) := by
  simp only [equalities, List.mem_cons, Prod.mk.injEq, List.not_mem_nil, or_false] at h
  rcases h with ⟨rfl, rfl⟩ | ⟨rfl, rfl⟩ | ⟨rfl, rfl⟩ <;> rfl

/-- Nothing on the left of an expression is compared with it like any other value. -/
theorem none_compare (x : Expr) :
    compare symbol .none x.value = .ok (binary symbol .none x.value) := by
  simp only [equalities, List.mem_cons, Prod.mk.injEq, List.not_mem_nil, or_false] at h
  rcases h with ⟨rfl, -⟩ | ⟨rfl, -⟩ | ⟨rfl, -⟩ <;> rfl

end Expr

section Makes

variable {symbol : String} {left right : Object} {e : Expr}

theorem Operate.makes_compared (h : Expr.compare symbol left.value right.value = .ok e) :
    (compared symbol left right).Makes (.expr e) := by
  refine Workspace.makes_lift_bind h ?_
  split <;> exact Workspace.makes_applied ..

theorem Function.makes_compareObjects (h : Expr.compare symbol left.value right.value = .ok e) :
    (compareObjects symbol left right).Makes (.expr e) := by
  refine Workspace.makes_lift_bind h ?_
  split <;> exact Workspace.makes_applied ..

theorem Function.makes_compareBy {a : Arguments} (hs : a.value "symbol" = .text symbol)
    (h : Expr.compare symbol (a.value "left") (a.value "right") = .ok e) :
    (compareBy a).Makes (.expr e) := by
  refine Workspace.quiet_catalog.makes fun cat => ?_
  simp only [hs]
  exact Workspace.makes_lift_bind rfl (makes_compareObjects h)

end Makes

/-- What compares two objects for equality or inequality: an operator, a function of both sides, or
the function that takes the symbol as well. -/
inductive Comparison
  | operator (negated : Bool)
  | function (negated : Bool)
  | chosen (symbol : Object)

namespace Comparison

/-- The symbol of a comparison. -/
def symbol : Comparison → String
  | operator negated | function negated => if negated then "<>" else "="
  | chosen symbol => symbol.value.text?.getD ""

/-- A call of a predicate by its name. -/
def called (name : String) (named : List (String × Object)) : Action Object :=
  (Function.predicate? name).elim (throw .badCall) (·.run { named, more := [], others := [] })

/-- Compares two objects. -/
def run (left right : Object) : Comparison → Action Object
  | operator negated => Operate.apply (if negated then "!=" else "==") [left, right]
  | function negated =>
    called (if negated then "ne" else "eq") [("left", left), ("right", right)]
  | chosen symbol => called "compare" [("symbol", symbol), ("left", left), ("right", right)]

/-- Whether a comparison is an operator. -/
def isOperator : Comparison → Bool
  | operator _ => true
  | _ => false

variable {way : Comparison} {left right : Object} {e : Expr}

/-- A symbol that is not empty has been given as a text. -/
theorem value_of_symbol_ne {given : Object} (h : (chosen given).symbol ≠ "") :
    given.value = .text (chosen given).symbol := by
  unfold symbol at h ⊢
  cases hvalue : given.value with
  | scalar s => cases s <;> simp_all [Value.text?, Value.text]
  | _ => simp [hvalue, Value.text?] at h

/-- A function compares its two sides as they are given. -/
theorem makes_run_of_function (hway : way.isOperator = false) (hne : way.symbol ≠ "")
    (h : Expr.compare way.symbol left.value right.value = .ok e) :
    (way.run left right).Makes (.expr e) := by
  cases way with
  | operator negated => cases hway
  | function negated => cases negated <;> exact Function.makes_compareObjects h
  | chosen given =>
    exact Function.makes_compareBy (value_of_symbol_ne hne) h

section Operator

variable {x : Expr} {o nothing : Object} (ho : o.value = .expr x) (hn : nothing.value = .none)
include ho hn

theorem equate_nothing (symbol : String) (negated : Bool) :
    Operate.equate symbol negated o nothing = Operate.compared symbol o nothing := by
  have hyields : Operate.yields (.expr x) .none = false := by cases x <;> rfl
  simp only [Operate.equate, Operate.eitherExpr, Operate.compareExprs, ho, hn, hyields]
  rfl

theorem nothing_equate (symbol : String) (negated : Bool) :
    Operate.equate symbol negated nothing o
      = Operate.compared (Operate.mirrored symbol) o nothing := by
  have hyields : Operate.yields .none (.expr x) = true := rfl
  simp only [Operate.equate, Operate.eitherExpr, Operate.compareExprs, ho, hn, hyields]
  rfl

/-- An operator with an expression on either side compares the expression with the other side. -/
theorem makes_run_of_operator (hway : way.isOperator = true)
    (h : Expr.compare way.symbol x.value .none = .ok e) :
    (way.run o nothing).Makes (.expr e) ∧ (way.run nothing o).Makes (.expr e) := by
  cases way with
  | operator negated =>
    have hcompared : (Operate.compared (operator negated).symbol o nothing).Makes (.expr e) :=
      Operate.makes_compared (by rwa [ho, hn])
    have hfront : (operator negated).run o nothing
        = Operate.equate (operator negated).symbol negated o nothing := by cases negated <;> rfl
    have hback : (operator negated).run nothing o
        = Operate.equate (operator negated).symbol negated nothing o := by cases negated <;> rfl
    have hmirrored : Operate.mirrored (operator negated).symbol = (operator negated).symbol := by
      cases negated <;> rfl
    rw [hfront, hback, equate_nothing ho hn, nothing_equate ho hn, hmirrored]
    exact ⟨hcompared, hcompared⟩
  | function | chosen => cases hway

end Operator

end Comparison

/-! ## Lookups -/

namespace Lookup

/-- The lookups for equality and inequality, each with the test for null that it asks for next to
nothing. -/
def equalities : List (Lookup × (Expr → Expr)) :=
  [(exact, Expr.isNull), (iexact, Expr.isNull), (ne, Expr.isNotNull)]

theorem apply_none {lookup : Lookup} {test : Expr → Expr} (h : (lookup, test) ∈ equalities)
    (x : Expr) : lookup.apply x .none = .ok (test x) := by
  simp only [equalities, List.mem_cons, Prod.mk.injEq, List.not_mem_nil, or_false] at h
  rcases h with ⟨rfl, rfl⟩ | ⟨rfl, rfl⟩ | ⟨rfl, rfl⟩ <;> rfl

theorem test_none {lookup : Lookup} {test : Expr → Expr} (h : (lookup, test) ∈ equalities)
    (cat : Catalog) (x : Expr) : lookup.test cat x.value .none = .ok (.expr (test x)) := by
  have htest : lookup.test cat x.value .none = (lookup.apply x .none).map .expr := rfl
  rw [htest, apply_none h]
  rfl

end Lookup

/-! ## What is compiled -/

/-- A test behind its operand is compiled to the operand with the test behind it. -/
theorem Expr.exists_of_compile_trailing {cat : Catalog} {d : Dialect} {x : Expr} {word sql : String}
    {c : Compiled} (h : compile cat d (.expr (.apply .none (.unary true) word [x])) = .ok c)
    (hsql : c.sql = .text sql) : ∃ operand, sql = operand ++ (" " ++ word) := by
  rw [compile_eq_ok_iff_outcome, Draft.outcome_eq_iff, built_eq_reference rfl, hsql] at h
  have hyields : (((x.operand cat d.engine).under .comparison word .left).shown
      + Draft.operator .behind word).Yields cat (.context d 0) (.text sql) := by
    rw [reference_apply] at h
    exact ⟨_, _, h⟩
  obtain ⟨u, w, -, hw, hjoin⟩ := hyields.plus
  obtain rfl := hw.token
  obtain ⟨operand, -, hall⟩ := hjoin.before rfl
  exact ⟨operand, hall⟩

/-- An expression that is compared with nothing is tested for null. Equality and inequality make the
tests IS NULL and IS NOT NULL of it by an operator, whichever side nothing is on, by a lookup, and by
a function with nothing on its right. A function with nothing on its left is the exception: it makes
a plain comparison, of nothing with the expression. -/
theorem compared_with_nothing {x : Expr} {o nothing : Object} (ho : o.value = .expr x)
    (hn : nothing.value = .none) :
    (∀ (way : Comparison) test, (way.symbol, test) ∈ Expr.equalities →
      (way.run o nothing).Makes (.expr (test x)) ∧
      (way.run nothing o).Makes
        (.expr (if way.isOperator then test x else Expr.binary way.symbol .none x.value))) ∧
    (∀ (lookup : Lookup) test, (lookup, test) ∈ Lookup.equalities →
      (∀ cat, lookup.test cat x.value .none = .ok (.expr (test x))) ∧
      ∀ cat id key name r, Lookup.Denotes key name lookup → cat.find? id name = some r →
        Lookup.condition cat (.table id) key .none = .ok (.expr (test r.expr))) ∧
    ∀ cat d c sql, c.sql = .text sql →
      (compile cat d (.expr x.isNull) = .ok c → ∃ operand, sql = operand ++ " IS NULL") ∧
      (compile cat d (.expr x.isNotNull) = .ok c → ∃ operand, sql = operand ++ " IS NOT NULL") := by
  refine ⟨fun way test htest => ?_, fun lookup test htest => ⟨fun cat => Lookup.test_none htest cat x,
    fun cat id key name r hkey hr => ?_⟩, fun cat d c sql hsql =>
      ⟨fun h => Expr.exists_of_compile_trailing h hsql,
        fun h => Expr.exists_of_compile_trailing h hsql⟩⟩
  · have hright : Expr.compare way.symbol x.value .none = .ok (test x) :=
      Expr.compare_none htest x.value
    have hleft := Expr.none_compare htest x
    cases hway : way.isOperator with
    | true => exact Comparison.makes_run_of_operator ho hn hway hright
    | false =>
      have hne := Expr.ne_of_mem_equalities htest
      exact ⟨Comparison.makes_run_of_function hway hne (by rwa [ho, hn]),
        Comparison.makes_run_of_function hway hne (by rwa [ho, hn])⟩
  · rw [Lookup.condition_of_find hkey hr, Lookup.apply_none htest]
    rfl

/-- The operator makes a test of nothing and an expression, where the function makes a comparison that
holds for no row. -/
theorem compared_with_nothing_raw :
    let x := Expr.raw .none "a"
    let o := Object.ofValue default x.value
    ((Comparison.operator false).run .none o).Makes (.expr x.isNull) ∧
    ((Comparison.function false).run .none o).Makes (.expr (Expr.binary "=" .none x.value)) ∧
    compile default (.standard .generic) (.expr x.isNull) = .ok ⟨.text "a IS NULL", []⟩ ∧
    compile default (.standard .generic) (.expr (Expr.binary "=" .none x.value))
      = .ok ⟨.text "? = a", [.none]⟩ := by
  intro x o
  have hways := (@compared_with_nothing x o .none rfl rfl).1
  exact ⟨(hways (.operator false) _ List.mem_cons_self).2,
    (hways (.function false) _ List.mem_cons_self).2, rfl, rfl⟩

end SqlCompose
