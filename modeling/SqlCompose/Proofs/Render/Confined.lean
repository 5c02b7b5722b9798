import SqlCompose.Proofs.Expr.Compositional
import SqlCompose.Proofs.Expr.Condition
import SqlCompose.Proofs.Expr.Occurrence

/-!
# Columns that are written

A draft is confined to some columns and some queries if every qualified column in it is one of these
columns, except for what stands in brackets as a whole and is one of these queries. An expression is
written with the columns and the subqueries that occur in it and with no others.
-/
namespace SqlCompose

variable {cat : Catalog} {C : ColumnId → Prop} {Q : Draft → Prop}

/-- Whether a draft is put together from fixed text, values, calls, an alias, columns in `C`, and
queries in `Q` in brackets. -/
inductive Draft.Confined (cat : Catalog) (C : ColumnId → Prop) (Q : Draft → Prop) : Draft → Prop
  | column {id : ColumnId} (h : C id) : Confined cat C Q (columnDraft cat id)
  | query {y : Draft} (h : Q y) : Confined cat C Q y.parenthesized
  | fail (e : Error) : Confined cat C Q (.fail e)
  | text (s : String) : Confined cat C Q (.text s)
  | operator (fixity : Fixity) (symbol : String) : Confined cat C Q (.operator fixity symbol)
  | literal (v : Value) : Confined cat C Q (.literal v)
  | packed (v : Value) : Confined cat C Q (.packed v)
  | asking (part : String) {x : Draft} (h : Confined cat C Q x) : Confined cat C Q (.asking part x)
  | packedBefore (v : Value) {x : Draft} (h : Confined cat C Q x) :
    Confined cat C Q (.before (.packed v) x)
  | plus {x y : Draft} (hx : Confined cat C Q x) (hy : Confined cat C Q y) : Confined cat C Q (x + y)
  | shown {x : Draft} (h : Confined cat C Q x) : Confined cat C Q x.shown
  | row (separator : Token) {items : List Draft} (h : ∀ x ∈ items, Confined cat C Q x) :
    Confined cat C Q (.row separator items)
  | parenthesized {x : Draft} (h : Confined cat C Q x) : Confined cat C Q x.parenthesized
  | call (symbol : String) (lead : Option String) {items : List Draft}
    (h : ∀ x ∈ items, Confined cat C Q x) : Confined cat C Q (callWith symbol lead items)
  | named {x : Draft} (h : Confined cat C Q x) (a : Value) : Confined cat C Q (x.named a)

namespace Draft.Confined

theorem compositional : Draft.Compositional (Draft.Confined cat C Q) where
  fail := .fail
  text := .text
  operator := .operator
  literal := .literal
  packed := .packed
  asking part _ := .asking part
  packedBefore v _ := .packedBefore v
  plus := .plus
  shown := .shown
  row _ h := .row _ h
  parenthesized := .parenthesized
  call symbol lead _ h := .call symbol lead h

/-- A column that no table owns cannot be written. -/
theorem ofColumn {id : ColumnId} (h : ∀ t, cat.owner id = some t → C id) :
    Confined cat C Q (columnDraft cat id) := by
  cases ht : cat.owner id with
  | some t => exact .column (h t ht)
  | none =>
    have hq : cat.qualifier id = "" := by rw [Catalog.qualifier, ht]
    rw [columnDraft, if_pos hq]
    exact .fail _

end Draft.Confined

variable {e : Engine}

mutual

/-- An expression is written with the columns and the subqueries that occur in it. -/
theorem Expr.confined_reference : (x : Expr) →
    (∀ a id t, (Expr.column a id).Within x → cat.owner id = some t → C id) →
    (∀ a body, (Expr.subquery a body).Within x → Q (body.built cat e)) →
    (x.reference cat e).Confined cat C Q
  | .literal a v k, _, _ => .literal v
  | .column a id, hC, _ => .ofColumn fun t ht => hC a id t .self ht
  | .apply a op symbol arguments, hC, hQ => by
    rw [reference_apply]
    refine Draft.Confined.compositional.operatorDraft (fun o ho => ?_) e op symbol
    obtain ⟨y, hy, rfl⟩ := List.mem_map.1 ho
    exact confined_arguments arguments (fun b id t z hz h => hC b id t (.apply hz h))
      (fun b body z hz h => hQ b body (.apply hz h)) y hy
  | .order a x descending, hC, hQ =>
    have hx := confined_reference x (fun b id t h => hC b id t (.order h))
      fun b body h => hQ b body (.order h)
    .plus (.shown hx) (.operator ..)
  | .group a x, hC, hQ =>
    .parenthesized (confined_reference x (fun b id t h => hC b id t (.group h))
      fun b body h => hQ b body (.group h))
  | .raw a s, _, _ => .text s
  | .subquery a body, _, hQ => .query (hQ a body .self)
  | .bare a, _, _ => .fail _

theorem Expr.confined_arguments : (xs : List Expr) →
    (∀ a id t, ∀ x ∈ xs, (Expr.column a id).Within x → cat.owner id = some t → C id) →
    (∀ a body, ∀ x ∈ xs, (Expr.subquery a body).Within x → Q (body.built cat e)) →
    ∀ x ∈ xs, (x.reference cat e).Confined cat C Q
  | [], _, _ => by simp
  | x :: xs, hC, hQ => by
    rw [List.forall_mem_cons]
    exact ⟨confined_reference x (fun a id t => hC a id t x List.mem_cons_self)
        fun a body => hQ a body x List.mem_cons_self,
      confined_arguments xs (fun a id t y hy => hC a id t y (List.mem_cons_of_mem _ hy))
        fun a body y hy => hQ a body y (List.mem_cons_of_mem _ hy)⟩

end

/-! ## What is selected -/

/-- With its alias, too, an expression is written with the columns and the subqueries that occur in
it. -/
theorem Expr.confined_selected (x : Expr)
    (hC : ∀ a id t, (Expr.column a id).Within x → cat.owner id = some t → C id) :
    (x.selected cat e).Confined cat C
      fun y => ∃ a body, (Expr.subquery a body).Within x ∧ y = body.built cat e := by
  have hnamed : x.selected cat e = (x.reference cat e).named x.asName := by
    rw [selected, Drafted.selected, value_drafted]
    rfl
  rw [hnamed]
  exact .named (x.confined_reference hC fun a body hbody => ⟨a, body, hbody, rfl⟩) x.asName

/-- Only an expression can be selected. -/
theorem Value.exists_expr_of_selected {d : Dialect} {v : Value} {ps : List Piece}
    (hp : (v.drafted cat d.engine).selected.pieces cat d = .ok ps) :
    ∃ x, v = .expr x ∧ (x.selected cat d.engine).pieces cat d = .ok ps := by
  cases hx : v.expr? with
  | none =>
    have hmember : (v.drafted cat d.engine).selected = .member v "build_selected" := by
      rw [Drafted.selected, value_drafted]
      cases v <;> first | rfl | simp [expr?] at hx
    simp [hmember, Draft.pieces] at hp
  | some x =>
    obtain rfl : v = .expr x := by
      cases v <;> simp_all [expr?]
    rw [drafted_expr] at hp
    exact ⟨x, rfl, hp⟩

end SqlCompose
