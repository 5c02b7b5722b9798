import Mathlib.Data.List.Forall2
import SqlCompose.Expr.Reference
import SqlCompose.Proofs.Draft.Alike

/-!
# Relations that drafts pass on

A relation of drafts is a congruence if it is kept whenever drafts are put together, and if drafts
that cannot be written are related whatever went wrong in them. What is written in the same way from
related parts is then related, however it is put together.
-/
namespace SqlCompose

/-- Whether a relation of drafts is kept by all ways of putting drafts together. -/
structure Draft.Congruence (S : Draft → Draft → Prop) : Prop where
  refl : ∀ x, S x x
  fail : ∀ e e', S (.fail e) (.fail e')
  before : ∀ {x x' y y'}, S x x' → S y y' → S (.before x y) (.before x' y')
  checked : ∀ {x x' y y'}, S x x' → S y y' → S (.checked x y) (.checked x' y')
  plus : ∀ {x x' y y'}, S x x' → S y y' → S (x + y) (x' + y')
  extend : ∀ {x x' y y'}, S x x' → S y y' → S (x ++ y) (x' ++ y')
  shown : ∀ {x x'}, S x x' → S x.shown x'.shown
  row : ∀ separator {xs ys}, List.Forall₂ S xs ys → S (.row separator xs) (.row separator ys)
  framed : ∀ lead opening closing {xs ys}, List.Forall₂ S xs ys →
    S (.framed lead opening xs closing) (.framed lead opening ys closing)

namespace Draft.Congruence

variable {S : Draft → Draft → Prop} (hS : Congruence S) {x x' y y' : Draft} {xs ys : List Draft}
include hS

theorem refl_all (xs : List Draft) : List.Forall₂ S xs xs :=
  List.forall₂_same.2 fun x _ => hS.refl x

theorem asking (part : String) (h : S x x') : S (.asking part x) (.asking part x') :=
  hS.before (hS.refl _) h

theorem askingAll (parts : List String) (h : S x x') :
    S (parts.foldr .asking x) (parts.foldr .asking x') := by
  induction parts with
  | nil => exact h
  | cons part parts ih => exact hS.asking part ih

theorem parenthesized (h : S x x') : S x.parenthesized x'.parenthesized :=
  hS.plus (hS.plus (hS.refl _) h) (hS.refl _)

theorem infixed (hx : S x x') (symbol : String) (hy : S y y') :
    S (.infixed x symbol y) (.infixed x' symbol y') :=
  hS.plus (hS.plus (hS.shown hx) (hS.refl _)) (hS.shown hy)

theorem commaSeparated (h : List.Forall₂ S xs ys) : S (.commaSeparated xs) (.commaSeparated ys) :=
  hS.row _ h

theorem continued (hx : S x x') (h : List.Forall₂ S xs ys) : S (x.continued xs) (x'.continued ys) := by
  induction h generalizing x x' with
  | nil => exact hx
  | cons hy hrest ih => exact ih (hS.extend hx hy)

theorem named (h : S x x') (a : Value) : S (x.named a) (x'.named a) := by
  unfold Draft.named
  split
  · exact hS.extend h (hS.refl _)
  · exact h

theorem directed (h : S x x') (descending : Bool) :
    S (x.directed descending) (x'.directed descending) := hS.plus (hS.shown h) (hS.refl _)

/-- What is made of two outcomes that are alike. -/
theorem given {α β : Type} {P : α → β → Prop} {r : Except Error α} {s : Except Error β}
    (h : Except.Alike P r s) {f : α → Draft} {g : β → Draft} (hf : ∀ a b, P a b → S (f a) (g b)) :
    S (.given r f) (.given s g) := by
  rcases h.cases with ⟨e, e', rfl, rfl⟩ | ⟨a, b, rfl, rfl, hab⟩
  · exact hS.fail e e'
  · exact hf a b hab

theorem guarded {r s : Except Error Unit} (h : Except.Alike (· = ·) r s) (hx : S x x') :
    S (.guarded r x) (.guarded s x') := by
  rcases h.cases with ⟨e, e', rfl, rfl⟩ | ⟨a, b, rfl, rfl, -⟩
  · exact hS.fail e e'
  · exact hx

end Draft.Congruence

/-- Being drafted alike is kept by all ways of putting drafts together. -/
theorem Draft.congruence_alike (cat : Catalog) (d : Dialect) (R : Value → Value → Prop) :
    Congruence (Draft.Alike cat d R) where
  refl := .refl
  fail := .fail
  before := .before
  checked := .checked
  plus := .plus
  extend := .extend
  shown := .shown
  row separator _ _ h := .row separator h
  framed lead opening closing _ _ h := .framed lead opening h closing

end SqlCompose
