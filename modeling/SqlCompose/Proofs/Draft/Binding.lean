import Mathlib.Data.Option.NAry
import SqlCompose.Proofs.Draft.Congruence
import SqlCompose.Proofs.Draft.Settled

/-!
# What drafts bind

The values that a draft binds can be told without writing it: they do not depend on the engine, nor
on what else the draft is written with. Where a draft has to be written in vain they are not there
at all.
-/
namespace SqlCompose

/-! ## Bindings -/

/-- What is bound by two drafts that are written one after the other. -/
def Draft.together (first second : Option (List Value)) : Option (List Value) :=
  Option.map₂ (· ++ ·) first second

namespace Draft

mutual

/-- The values that a draft binds, in the order in which they are bound, unless it fails. -/
def bindings? : Draft → Option (List Value)
  | literal v => some [v]
  | token _ | inlined _ | packed _ | name _ | spelling _ | ofDialect _ | applied _ | member .. | ask _ =>
    some []
  | fail _ => none
  | before x y | checked x y | plus x y | extend x y => together x.bindings? y.bindings?
  | shown x => x.bindings?
  | row _ items => bindingsAll? items
  | framed _ opening items closing =>
    together (bindingsAll? items) (together opening.bindings? closing.bindings?)

/-- The values that several drafts bind, one after the other. -/
def bindingsAll? : List Draft → Option (List Value)
  | [] => some []
  | x :: items => together x.bindings? (bindingsAll? items)

end

variable {x y : Option (List Value)} {vs ws : List Value}

@[simp] theorem together_some : together (some vs) (some ws) = some (vs ++ ws) := rfl

@[simp] theorem together_nil_left : together (some []) x = x := by
  cases x <;> rfl

@[simp] theorem together_nil_right : together x (some []) = x := by
  cases x <;> simp [together]

theorem together_eq_some :
    together x y = some vs ↔ ∃ first second, x = some first ∧ y = some second ∧ first ++ second = vs := by
  simp [together, Option.map₂_eq_some_iff]

end Draft

/-! ## Assembling -/

namespace Assembly

variable {α β : Type} {step : Assembly α} {next : α → Assembly β} {vs ws : Option (List Value)}

/-- Whether a step that goes well has bound the given values. -/
def Binds (step : Assembly α) (vs : Option (List Value)) : Prop :=
  ∀ bound a rest, step.run bound = (.ok a, rest) →
    ∃ added, vs = some added ∧ rest.toList = bound.toList ++ added

theorem binds_pure (a : α) : (pure a : Assembly α).Binds (some []) := by
  intro bound b rest h
  obtain rfl := (Prod.mk.inj h).2
  exact ⟨[], rfl, by simp⟩

theorem binds_lift (r : Except Error α) : (lift r).Binds (some []) := by
  cases r with
  | error e =>
    intro bound b rest h
    cases h
  | ok a => exact binds_pure a

theorem binds_get : (get : Assembly (Array Value)).Binds (some []) := by
  intro bound b rest h
  obtain rfl := (Prod.mk.inj h).2
  exact ⟨[], rfl, by simp⟩

theorem Binds.bind (h : step.Binds vs) (hn : ∀ a, (next a).Binds ws) :
    (step >>= next).Binds (Draft.together vs ws) := by
  intro bound b rest hrun
  obtain ⟨a, between, hstep, hnext⟩ := run_bind_eq_ok hrun
  obtain ⟨first, rfl, hfirst⟩ := h _ _ _ hstep
  obtain ⟨second, rfl, hsecond⟩ := hn a _ _ _ hnext
  refine ⟨first ++ second, rfl, ?_⟩
  rw [hsecond, hfirst, List.append_assoc]

/-- A step between others that binds nothing. -/
theorem Binds.after (h : step.Binds (some [])) (hn : ∀ a, (next a).Binds ws) :
    (step >>= next).Binds ws := by
  simpa using h.bind hn

theorem Binds.followed (h : step.Binds vs) (hn : ∀ a, (next a).Binds (some [])) :
    (step >>= next).Binds vs := by
  simpa using h.bind hn

theorem Binds.discard (h : step.Binds vs) : (discard step).Binds vs := by
  change (Functor.mapConst PUnit.unit step).Binds vs
  rw [map_const, Function.comp_apply, map_eq_pure_bind]
  exact h.followed fun _ => binds_pure _

/-- A literal is bound where literals are. -/
theorem binds_literal (cat : Catalog) {d : Dialect} (hb : d.bindLiterals = true) (number : Nat)
    (v : Value) : (literal cat (.context d number) v).Binds (some [v]) := by
  have hpush : (modify (·.push v) : Assembly PUnit).Binds (some [v]) := by
    intro bound b rest h
    obtain rfl := (Prod.mk.inj h).2
    exact ⟨[v], rfl, by simp⟩
  rw [literal, if_pos hb, Assembly.bind]
  exact (binds_lift _).discard.after fun _ => hpush.followed fun _ =>
    binds_get.after fun _ => binds_pure _

end Assembly

namespace Draft

variable {cat : Catalog} {d : Dialect}

mutual

/-- Writing a draft binds its values. -/
theorem binds_assemble (hb : d.bindLiterals = true) (number : Nat) : ∀ x : Draft,
    (x.assemble cat (.context d number)).Binds x.bindings?
  | token _ => Assembly.binds_pure _
  | literal v => Assembly.binds_literal cat hb number v
  | inlined _ | packed _ | name _ | spelling _ | ofDialect _ => Assembly.binds_lift _
  | applied _ => Assembly.binds_get.after fun _ => Assembly.binds_lift _
  | member _ _ =>
    (Assembly.binds_lift _).after fun _ => Assembly.binds_get.after fun _ => Assembly.binds_lift _
  | ask _ => (Assembly.binds_lift _).after fun _ => Assembly.binds_pure _
  | fail _ => fun _ _ _ h => by cases h
  | before first rest =>
    (binds_assemble hb number first).discard.bind fun _ => binds_assemble hb number rest
  | checked x last =>
    (binds_assemble hb number x).bind fun _ =>
      (binds_assemble hb number last).discard.followed fun _ => Assembly.binds_pure _
  | plus x y | extend x y =>
    (binds_assemble hb number x).bind fun _ =>
      (binds_assemble hb number y).followed fun _ => Assembly.binds_lift _
  | shown x =>
    (binds_assemble hb number x).followed fun _ => (Assembly.binds_lift _).after fun _ =>
      Assembly.binds_pure _
  | row _ items => (binds_assembleAll hb number items).followed fun _ => Assembly.binds_lift _
  | framed _ opening items closing =>
    (binds_assembleAll hb number items).bind fun _ => (Assembly.binds_lift _).after fun _ =>
      (binds_assemble hb number opening).bind fun _ => (Assembly.binds_lift _).after fun _ =>
        (Assembly.binds_lift _).after fun _ =>
          (binds_assemble hb number closing).followed fun _ => Assembly.binds_lift _

/-- Writing several drafts binds their values. -/
theorem binds_assembleAll (hb : d.bindLiterals = true) (number : Nat) : ∀ items : List Draft,
    (assembleAll cat (.context d number) items).Binds (bindingsAll? items)
  | [] => Assembly.binds_pure _
  | x :: items =>
    (binds_assemble hb number x).bind fun _ =>
      (binds_assembleAll hb number items).followed fun _ => Assembly.binds_pure _

end

/-! ## Drafts that bind the same -/

/-- Whether the same values are bound, if any can be. -/
def AgreeOn (x y : Option (List Value)) : Prop := ∀ vs ws, x = some vs → y = some ws → vs = ws

/-- Whether two drafts bind the same values, if both can be written. -/
def Agree (x y : Draft) : Prop := AgreeOn x.bindings? y.bindings?

section Agree

variable {x x' y y' : Option (List Value)}

theorem AgreeOn.refl (x : Option (List Value)) : AgreeOn x x := fun _ _ hv hw =>
  Option.some.inj (hv.symm.trans hw)

theorem AgreeOn.together (hx : AgreeOn x x') (hy : AgreeOn y y') :
    AgreeOn (together x y) (together x' y') := by
  intro vs ws hv hw
  obtain ⟨first, second, hfirst, hsecond, rfl⟩ := together_eq_some.1 hv
  obtain ⟨first', second', hfirst', hsecond', rfl⟩ := together_eq_some.1 hw
  rw [hx _ _ hfirst hfirst', hy _ _ hsecond hsecond']

theorem agreeOn_bindingsAll {items others : List Draft} (h : List.Forall₂ Agree items others) :
    AgreeOn (bindingsAll? items) (bindingsAll? others) := by
  induction h with
  | nil => exact .refl _
  | cons hx hrest ih => exact hx.together ih

/-- Binding the same is kept by all ways of putting drafts together. -/
theorem congruence_agree : Congruence Agree where
  refl x := .refl _
  fail e e' vs ws h := by cases h
  before hx hy := hx.together hy
  checked hx hy := hx.together hy
  plus hx hy := hx.together hy
  extend hx hy := hx.together hy
  shown hx := hx
  row separator xs ys h := agreeOn_bindingsAll h
  framed lead opening closing xs ys h := (agreeOn_bindingsAll h).together (.refl _)

end Agree

end Draft

end SqlCompose
