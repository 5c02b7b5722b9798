import Mathlib.Data.List.Forall2
import SqlCompose.Proofs.Draft.Template

/-!
# Drafts that differ in their values

Two drafts are alike if they are written with the same tokens and words in the same places, and the
values that stand in the same place are related. Drafts that cannot be written at all are alike too.
Every way of putting drafts together keeps this, so the text of alike drafts is the same.
-/
namespace SqlCompose

/-! ## Outcomes -/

namespace Except

variable {ε α β γ δ : Type} {P : α → β → Prop} {Q : γ → δ → Prop}

/-- Whether two outcomes are both failures, or results that are related. -/
def Alike (P : α → β → Prop) : Except ε α → Except ε β → Prop
  | .ok a, .ok b => P a b
  | .error _, .error _ => True
  | _, _ => False

theorem Alike.refl {P : α → α → Prop} (h : ∀ a, P a a) (r : Except ε α) : Alike P r r := by
  cases r with
  | ok a => exact h a
  | error e => trivial

theorem Alike.eq_refl (r : Except ε α) : Alike (· = ·) r r := .refl (fun _ => rfl) r

theorem Alike.imp {r : Except ε α} {s : Except ε β} (h : Alike P r s) {P' : α → β → Prop}
    (hP : ∀ a b, P a b → P' a b) : Alike P' r s := by
  cases r <;> cases s <;> simp_all [Alike]

theorem Alike.bind {r : Except ε α} {s : Except ε β} (h : Alike P r s) {f : α → Except ε γ}
    {g : β → Except ε δ} (hf : ∀ a b, P a b → Alike Q (f a) (g b)) :
    Alike Q (r >>= f) (s >>= g) := by
  cases r <;> cases s <;> simp_all [Alike, Bind.bind, Except.bind]

/-- Outcomes that are the same where they are results. -/
theorem alike_of_iff {r s : Except ε α} (h : ∀ a, r = .ok a ↔ s = .ok a) : Alike (· = ·) r s := by
  cases r with
  | ok a =>
    rw [(h a).1 rfl]
    rfl
  | error e =>
    cases s with
    | ok a => exact absurd ((h a).2 rfl) (by simp)
    | error e' => trivial

theorem Alike.of_ne_ok {r : Except ε α} {s : Except ε β} (hr : ∀ a, r ≠ .ok a)
    (hs : ∀ b, s ≠ .ok b) : Alike P r s := by
  cases r with
  | ok a => exact absurd rfl (hr a)
  | error e =>
    cases s with
    | ok b => exact absurd rfl (hs b)
    | error e' => trivial

theorem Alike.discard {r : Except ε α} {s : Except ε β} (h : Alike P r s) :
    Alike (· = ·) (discard r) (discard s) := by
  cases r <;> cases s <;> simp_all [Alike, Functor.discard, Functor.mapConst, Except.map]

theorem Alike.mapM {f : α → Except ε γ} {g : β → Except ε δ} {xs : List α} {ys : List β}
    (h : List.Forall₂ P xs ys) (hf : ∀ a b, P a b → Alike Q (f a) (g b)) :
    Alike (List.Forall₂ Q) (xs.mapM f) (ys.mapM g) := by
  induction h with
  | nil => exact List.Forall₂.nil
  | cons hab hrest ih =>
    rw [List.mapM_cons, List.mapM_cons]
    exact (hf _ _ hab).bind fun _ _ hc => ih.bind fun _ _ hcs => .cons hc hcs

/-- Outcomes that are alike are both failures or both results. -/
theorem Alike.cases {r : Except ε α} {s : Except ε β} (h : Alike P r s) :
    (∃ e e', r = .error e ∧ s = .error e') ∨ ∃ a b, r = .ok a ∧ s = .ok b ∧ P a b := by
  cases r with
  | error e =>
    cases s with
    | error e' => exact .inl ⟨e, e', rfl, rfl⟩
    | ok b => exact h.elim
  | ok a =>
    cases s with
    | error e' => exact h.elim
    | ok b => exact .inr ⟨a, b, rfl, rfl, h⟩

end Except

/-! ## Pieces -/

namespace Template

variable {t u : Template}

theorem spelled_after_congr (s : String) (h : t.spelled = u.spelled) :
    (t.after s).spelled = (u.after s).spelled := by
  funext marks
  rw [spelled_after, spelled_after, h]

/-- What stands in a place makes no difference to the text around it. -/
theorem spelled_behind_congr (v w : Value) (h : t.spelled = u.spelled) :
    (t.behind v).spelled = (u.behind w).spelled := by
  funext marks
  cases marks with
  | nil => simp [spelled, behind]
  | cons mark marks => rw [spelled_behind, spelled_behind, h]

end Template

namespace Piece

variable {R : Value → Value → Prop} {ps qs xs ys : List Piece}

/-- Pieces that are the same but for related values. -/
inductive Alike (R : Value → Value → Prop) : Piece → Piece → Prop
  | same (p : Piece) : Alike R p p
  | value {v w : Value} (h : R v w) : Alike R (.value v) (.value w)

/-- Rows of pieces that are the same but for related values. -/
abbrev RowsAlike (R : Value → Value → Prop) : List Piece → List Piece → Prop :=
  List.Forall₂ (Alike R)

theorem RowsAlike.refl (ps : List Piece) : RowsAlike R ps ps :=
  List.forall₂_same.2 fun p _ => .same p

theorem RowsAlike.append (h : RowsAlike R ps qs) (h' : RowsAlike R xs ys) :
    RowsAlike R (ps ++ xs) (qs ++ ys) := List.rel_append h h'

theorem RowsAlike.separated (separator : Token) {rows others : List (List Piece)}
    (h : List.Forall₂ (RowsAlike R) rows others) :
    RowsAlike R (Piece.separated separator rows) (Piece.separated separator others) := by
  induction h with
  | nil => exact .nil
  | cons hp hrest ih =>
    cases hrest with
    | nil => exact hp
    | cons hq hrest => exact hp.append (.cons (.same _) ih)

theorem RowsAlike.led (lead : Option String) {rows others : List (List Piece)}
    (h : List.Forall₂ (RowsAlike R) rows others) :
    List.Forall₂ (RowsAlike R) (Piece.led lead rows) (Piece.led lead others) := by
  cases lead with
  | none => simpa [Piece.led] using h
  | some s =>
    cases h with
    | nil => exact .nil
    | cons hp hrest => exact .cons (.cons (.same _) hp) hrest

/-- The values of rows that are alike are related one by one. -/
theorem RowsAlike.values (hR : ∀ v, R v v) (h : RowsAlike R ps qs) :
    List.Forall₂ R (Piece.values ps) (Piece.values qs) := by
  induction h with
  | nil => exact .nil
  | @cons p q ps qs hp hrest ih =>
    cases hp with
    | value hv => exact .cons hv ih
    | same =>
      cases p with
      | value v => exact .cons (hR v) ih
      | token t => exact ih
      | word s => exact ih

/-- Rows that are alike are the same text with the same marks in the places of their values. -/
theorem RowsAlike.spelled_eq (h : RowsAlike R ps qs) :
    (Template.ofPieces ps).spelled = (Template.ofPieces qs).spelled := by
  induction h with
  | nil => rfl
  | @cons p q ps qs hp hrest ih =>
    cases hp with
    | value hv => exact Template.spelled_behind_congr _ _ ih
    | same =>
      cases p with
      | value v => exact Template.spelled_behind_congr v v ih
      | token t => exact Template.spelled_after_congr t.spelling ih
      | word s => exact Template.spelled_after_congr s ih

end Piece

/-! ## Drafts -/

namespace Draft

/-- Whether two drafts have pieces that are alike, or both have none. -/
def Alike (cat : Catalog) (d : Dialect) (R : Value → Value → Prop) (x y : Draft) : Prop :=
  Except.Alike (Piece.RowsAlike R) (x.pieces cat d) (y.pieces cat d)

/-- Whether a draft has no pieces. -/
def Lost (cat : Catalog) (d : Dialect) (x : Draft) : Prop := ∃ e, x.pieces cat d = .error e

variable {cat : Catalog} {d : Dialect} {R : Value → Value → Prop} {x y x' y' : Draft}

theorem lost_fail (e : Error) : (fail e).Lost cat d := ⟨e, by rw [pieces]⟩

theorem lost_member (v : Value) (word : String) : (member v word).Lost cat d :=
  ⟨_, by rw [pieces]⟩

namespace Alike

theorem refl (x : Draft) : Alike cat d R x x := Except.Alike.refl Piece.RowsAlike.refl _

theorem lost (hx : x.Lost cat d) (hy : y.Lost cat d) : Alike cat d R x y := by
  obtain ⟨e, hx⟩ := hx
  obtain ⟨e', hy⟩ := hy
  rw [Alike, hx, hy]
  trivial

theorem fail (e e' : Error) : Alike cat d R (.fail e) (.fail e') := lost (lost_fail e) (lost_fail e')

theorem member (v w : Value) (word other : String) :
    Alike cat d R (.member v word) (.member w other) := lost (lost_member ..) (lost_member ..)

theorem literal {v w : Value} (h : R v w) : Alike cat d R (.literal v) (.literal w) := by
  rw [Alike, pieces, pieces]
  exact .cons (.value h) .nil

theorem plus (hx : Alike cat d R x x') (hy : Alike cat d R y y') :
    Alike cat d R (x + y) (x' + y') := by
  change Alike cat d R (Draft.plus x y) (Draft.plus x' y')
  rw [Alike, pieces, pieces]
  exact hx.bind fun ps qs hp => hy.bind fun xs ys hq => hp.append hq

theorem extend (hx : Alike cat d R x x') (hy : Alike cat d R y y') :
    Alike cat d R (x ++ y) (x' ++ y') := by
  change Alike cat d R (Draft.extend x y) (Draft.extend x' y')
  rw [Alike, pieces_extend, pieces_extend]
  exact hx.plus hy

theorem shown (h : Alike cat d R x x') : Alike cat d R x.shown x'.shown := by
  rw [Alike, pieces, pieces]
  exact h

theorem before (hx : Alike cat d R x x') (hy : Alike cat d R y y') :
    Alike cat d R (.before x y) (.before x' y') := by
  rw [Alike, pieces, pieces]
  exact hx.discard.bind fun _ _ _ => hy

theorem checked (hx : Alike cat d R x x') (hy : Alike cat d R y y') :
    Alike cat d R (.checked x y) (.checked x' y') := by
  rw [Alike, pieces, pieces]
  exact hx.bind fun ps qs hp => hy.discard.bind fun _ _ _ => hp

/-- Drafts that are alike one by one. -/
theorem piecesAll {items others : List Draft} (h : List.Forall₂ (Alike cat d R) items others) :
    Except.Alike (List.Forall₂ (Piece.RowsAlike R)) (Draft.piecesAll cat d items)
      (Draft.piecesAll cat d others) := by
  induction h with
  | nil =>
    rw [Draft.piecesAll]
    exact List.Forall₂.nil
  | cons hx hrest ih =>
    rw [Draft.piecesAll, Draft.piecesAll]
    exact hx.bind fun ps qs hp => ih.bind fun rows others hrows => .cons hp hrows

theorem row (separator : Token) {items others : List Draft}
    (h : List.Forall₂ (Alike cat d R) items others) :
    Alike cat d R (.row separator items) (.row separator others) := by
  rw [Alike, pieces, pieces]
  exact (piecesAll h).bind fun rows others hrows => .separated separator hrows

theorem framed (lead : Option String) (opening : Draft) {items others : List Draft}
    (h : List.Forall₂ (Alike cat d R) items others) (closing : Draft) :
    Alike cat d R (.framed lead opening items closing) (.framed lead opening others closing) := by
  rw [Alike, pieces, pieces]
  have hopening : Alike cat d R opening opening := refl opening
  have hclosing : Alike cat d R closing closing := refl closing
  refine (piecesAll h).bind fun rows others hrows => hopening.bind fun ps qs hp => ?_
  exact hclosing.bind fun xs ys hx =>
    (hp.append (.separated _ (Piece.RowsAlike.led lead hrows))).append hx

end Alike

end Draft

end SqlCompose
