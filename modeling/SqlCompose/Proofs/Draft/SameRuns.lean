import SqlCompose.Proofs.Draft.Congruence
import SqlCompose.Proofs.Draft.Settled

/-!
# Drafts that are written alike

Two drafts are written alike if in every dialect they come out as the same text with the same values
bound, or both fail, for whatever reason. All ways of putting drafts together keep this.
-/
namespace SqlCompose

namespace Assembly

variable {α β : Type} {s t : Assembly α}

/-- Whether two steps go well with the same outcome, and otherwise both go wrong. -/
def SameRuns (s t : Assembly α) : Prop :=
  ∀ bound a rest, s.run bound = (.ok a, rest) ↔ t.run bound = (.ok a, rest)

namespace SameRuns

theorem refl (s : Assembly α) : SameRuns s s := fun _ _ _ => Iff.rfl

theorem symm (h : SameRuns s t) : SameRuns t s := fun bound a rest => (h bound a rest).symm

theorem trans {u : Assembly α} (h : SameRuns s t) (h' : SameRuns t u) : SameRuns s u :=
  fun bound a rest => (h bound a rest).trans (h' bound a rest)

theorem of_fails (hs : s.Fails) (ht : t.Fails) : SameRuns s t := by
  intro bound a rest
  obtain ⟨e, r, he⟩ := hs bound
  obtain ⟨e', r', he'⟩ := ht bound
  rw [he, he']
  constructor <;> intro h <;> cases h

/-- Half of `SameRuns.bind`. -/
theorem run_bind (h : SameRuns s t) {f g : α → Assembly β} (hfg : ∀ a, SameRuns (f a) (g a))
    {bound rest : Array Value} {b : β} (hrun : (s >>= f).run bound = (.ok b, rest)) :
    (t >>= g).run bound = (.ok b, rest) := by
  obtain ⟨a, between, hs, hf⟩ := run_bind_eq_ok hrun
  rw [run_bind_of_ok ((h _ _ _).1 hs)]
  exact (hfg a _ _ _).1 hf

theorem bind (h : SameRuns s t) {f g : α → Assembly β} (hfg : ∀ a, SameRuns (f a) (g a)) :
    SameRuns (s >>= f) (t >>= g) := fun _ _ _ =>
  ⟨h.run_bind hfg, h.symm.run_bind fun a => (hfg a).symm⟩

theorem before (h : SameRuns s t) (f : α → Assembly β) : SameRuns (s >>= f) (t >>= f) :=
  h.bind fun a => .refl (f a)

theorem discard (h : SameRuns s t) : SameRuns (discard s) (discard t) := by
  change SameRuns (Functor.mapConst PUnit.unit s) (Functor.mapConst PUnit.unit t)
  rw [map_const, Function.comp_apply, map_eq_pure_bind, map_eq_pure_bind]
  exact h.before _

theorem lift {r r' : Except Error α} (h : ∀ a, r = .ok a ↔ r' = .ok a) :
    SameRuns (Assembly.lift r) (Assembly.lift r') := by
  cases r with
  | ok a =>
    rw [(h a).1 rfl]
    exact .refl _
  | error e =>
    cases r' with
    | ok a => exact absurd ((h a).2 rfl) (by simp)
    | error e' => exact .of_fails (fails_throw e) (fails_throw e')

end SameRuns

end Assembly

namespace Draft

variable {cat : Catalog}

/-- Whether two drafts are written alike in every dialect. -/
def SameRuns (cat : Catalog) (x y : Draft) : Prop :=
  ∀ d number, Assembly.SameRuns (x.assemble cat (.context d number))
    (y.assemble cat (.context d number))

theorem SameRuns.symm {x y : Draft} (h : SameRuns cat x y) : SameRuns cat y x :=
  fun d number => (h d number).symm

theorem SameRuns.trans {x y z : Draft} (h : SameRuns cat x y) (h' : SameRuns cat y z) :
    SameRuns cat x z := fun d number => (h d number).trans (h' d number)

/-- Drafts that are written alike one by one. -/
theorem sameRuns_assembleAll {items others : List Draft}
    (h : List.Forall₂ (SameRuns cat) items others) (d : Dialect) (number : Nat) :
    Assembly.SameRuns (assembleAll cat (.context d number) items)
      (assembleAll cat (.context d number) others) := by
  induction h with
  | nil => exact .refl _
  | cons hx hrest ih =>
    rw [assembleAll, assembleAll]
    exact (hx d number).bind fun _ => ih.before _

/-- Being written alike is kept by all ways of putting drafts together. -/
theorem congruence_sameRuns (cat : Catalog) : Congruence (SameRuns cat) where
  refl x d number := .refl _
  fail e e' d number := .of_fails (Assembly.fails_throw e) (Assembly.fails_throw e')
  before hx hy d number := by
    rw [assemble, assemble]
    exact (hx d number).discard.bind fun _ => hy d number
  checked hx hy d number := by
    rw [assemble, assemble]
    exact (hx d number).bind fun _ => (hy d number).discard.before _
  plus {x x' y y'} hx hy d number := by
    change Assembly.SameRuns ((Draft.plus x y).assemble cat _) ((Draft.plus x' y').assemble cat _)
    rw [assemble, assemble]
    exact (hx d number).bind fun _ => (hy d number).before _
  extend {x x' y y'} hx hy d number := by
    change Assembly.SameRuns ((Draft.extend x y).assemble cat _) ((Draft.extend x' y').assemble cat _)
    rw [assemble, assemble]
    exact (hx d number).bind fun _ => (hy d number).before _
  shown hx d number := by
    rw [assemble, assemble]
    exact (hx d number).before _
  row separator xs ys h d number := by
    rw [assemble, assemble]
    exact (sameRuns_assembleAll h d number).before _
  framed lead opening closing xs ys h d number := by
    rw [assemble, assemble]
    exact (sameRuns_assembleAll h d number).before _

theorem sameRuns_member {v w : Value} {word : String}
    (h : ∀ f, v.get cat word = .ok f ↔ w.get cat word = .ok f) :
    SameRuns cat (.member v word) (.member w word) := by
  intro d number
  rw [assemble, assemble]
  exact (Assembly.SameRuns.lift h).before _

/-- Values that SQL has no literals for. -/
theorem sameRuns_literal {v w : Value} (hv : ∀ s, v.toScalar cat ≠ .ok s)
    (hw : ∀ s, w.toScalar cat ≠ .ok s) : SameRuns cat (.literal v) (.literal w) := by
  have hfails : ∀ {u : Value}, (∀ s, u.toScalar cat ≠ .ok s) → ∀ d number,
      ((literal u).assemble cat (.context d number)).Fails := by
    intro u hu d number
    cases hs : u.toScalar cat with
    | ok s => exact absurd hs (hu s)
    | error e =>
      rw [assemble, Assembly.literal]
      split
      · rw [Assembly.bind, hs]
        exact (Assembly.fails_throw e).discard.bind _
      · rw [Dialect.pack, hs]
        exact Assembly.fails_throw e
  exact fun d number => .of_fails (hfails hv d number) (hfails hw d number)

end Draft

end SqlCompose
