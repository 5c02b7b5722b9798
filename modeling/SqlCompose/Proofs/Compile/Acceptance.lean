import SqlCompose.Proofs.Compile.Independence

/-!
# Values that are taken

A dialect that binds its literals takes every scalar but floats that are not finite. One that writes
them out needs a text for each, so it refuses decimals that are not finite too, and whole numbers with
more digits than are ever written. Nothing else that decides whether a statement compiles depends on
where its values go.
-/
namespace SqlCompose

namespace Scalar

/-- Whether a scalar may stand behind a placeholder. -/
def Bindable : Scalar → Prop
  | float x => x.isFinite
  | _ => True

/-- Whether a scalar has a literal. -/
def Writable : Scalar → Prop
  | float x => x.isFinite
  | decimal x => x.isFinite
  | int n => n.natAbs < Nat.pow 10 largestWritten
  | _ => True

theorem Writable.bindable {s : Scalar} (h : s.Writable) : s.Bindable := by
  cases s <;> first | exact h | trivial

end Scalar

/-- Whether a dialect has a place for a value: a scalar that may be bound where values are bound, and
one that has a literal where they are written out. -/
def Dialect.Takes (d : Dialect) (v : Value) : Prop :=
  ∃ s, v = .scalar s ∧ if d.bindLiterals then s.Bindable else s.Writable

section

variable (cat : Catalog) {d : Dialect} {v : Value}

theorem Value.toScalar_scalar_eq_ok_iff {s t : Scalar} :
    (Value.scalar s).toScalar cat = .ok t ↔ s = t ∧ s.Bindable := by
  cases s with
  | float x =>
    simp only [toScalar, Scalar.Bindable]
    split <;> simp_all
  | _ => simp [toScalar, Scalar.Bindable]

theorem Value.exists_toScalar_iff :
    (∃ s, v.toScalar cat = .ok s) ↔ ∃ s, v = .scalar s ∧ s.Bindable := by
  constructor
  · rintro ⟨s, hs⟩
    obtain ⟨t, rfl⟩ := eq_scalar_of_toScalar hs
    exact ⟨t, rfl, ((toScalar_scalar_eq_ok_iff cat).1 hs).2⟩
  · rintro ⟨s, rfl, hs⟩
    exact ⟨s, (toScalar_scalar_eq_ok_iff cat).2 ⟨rfl, hs⟩⟩

/-- Of the scalars that can be bound, the writable ones have a literal. -/
theorem Dialect.exists_packScalar_iff (hd : d.WritesText) {s : Scalar} (hs : s.Bindable) :
    (∃ w, d.packScalar cat s = .ok w) ↔ s.Writable := by
  cases s with
  | null | bool b => simp [packScalar, spelling_eq_text cat hd, Scalar.Writable]
  | int n =>
    simp only [packScalar, Scalar.wholeText, Scalar.Writable]
    split <;> simp_all [bind, Except.bind, pure, Except.pure]
  | float x => simp_all [packScalar, Scalar.Bindable, Scalar.Writable]
  | decimal x =>
    simp only [packScalar, Scalar.Writable]
    split <;> simp_all
  | _ => simp [packScalar, Scalar.Writable]

theorem Dialect.exists_literalText_iff (hd : d.WritesText) :
    (∃ s, d.literalText cat v = .ok s) ↔ ∃ s, v = .scalar s ∧ s.Writable := by
  constructor
  · rintro ⟨s, hs⟩
    obtain ⟨w, hw, -⟩ := Except.bind_eq_ok_iff.1 hs
    obtain ⟨t, ht, hpack⟩ := Except.bind_eq_ok_iff.1 hw
    obtain ⟨u, rfl⟩ := Value.eq_scalar_of_toScalar ht
    obtain ⟨rfl, hbindable⟩ := (Value.toScalar_scalar_eq_ok_iff cat).1 ht
    exact ⟨u, rfl, (exists_packScalar_iff cat hd hbindable).1 ⟨w, hpack⟩⟩
  · rintro ⟨s, rfl, hs⟩
    obtain ⟨w, hw⟩ := (exists_packScalar_iff cat hd hs.bindable).2 hs
    obtain ⟨t, rfl⟩ := packScalar_eq_text cat hd s w hw
    have hscalar : (Value.scalar s).toScalar cat = .ok s :=
      (Value.toScalar_scalar_eq_ok_iff cat).2 ⟨rfl, hs.bindable⟩
    exact ⟨t, by simp [literalText, pack, hscalar, hw, bind, Except.bind]⟩

/-- Values that are written out all have literals if each of them has one. -/
theorem Dialect.exists_mapM_literalText_iff (hd : d.WritesText) {vs : List Value} :
    (∃ texts, vs.mapM (d.literalText cat) = .ok texts) ↔
      ∀ w ∈ vs, ∃ s, w = .scalar s ∧ s.Writable := by
  simp only [← exists_literalText_iff cat hd]
  induction vs with
  | nil => simp [pure, Except.pure]
  | cons w vs ih =>
    simp only [Except.mapM_cons_eq_ok_iff, List.forall_mem_cons, ← ih]
    constructor
    · rintro ⟨_, s, rest, hs, hrest, -⟩
      exact ⟨⟨s, hs⟩, rest, hrest⟩
    · rintro ⟨⟨s, hs⟩, rest, hrest⟩
      exact ⟨_, s, rest, hs, hrest, rfl⟩

end

variable {cat : Catalog} {d : Dialect} {v : Value} (hd : d.WritesText) (hv : v.WellFormed)
include hd hv

/-- A well-formed value compiles if it has pieces, and the dialect takes the values in them. -/
theorem compiles_iff (style : PlaceholderStyle) (binding : Bool) :
    (∃ c, compile cat (d.marking style binding) v = .ok c) ↔
      ∃ ps, (v.built cat d.engine).pieces cat d = .ok ps ∧
        ∀ w ∈ Piece.values ps, (d.marking style binding).Takes w := by
  cases binding with
  | true =>
    simp only [compile_binding_eq_ok_iff hd hv, Value.exists_toScalar_iff, Dialect.Takes,
      Dialect.bindLiterals_marking, if_true]
    constructor
    · rintro ⟨_, ps, hp, htakes, -⟩
      exact ⟨ps, hp, htakes⟩
    · rintro ⟨ps, hp, htakes⟩
      exact ⟨_, ps, hp, htakes, rfl⟩
  | false =>
    simp only [compile_inlining_eq_ok_iff hd hv, Dialect.Takes, Dialect.bindLiterals_marking,
      Bool.false_eq_true, if_false, ← Dialect.exists_mapM_literalText_iff cat hd]
    constructor
    · rintro ⟨_, ps, texts, hp, ht, -⟩
      exact ⟨ps, hp, texts, ht⟩
    · rintro ⟨ps, hp, texts, ht⟩
      exact ⟨_, ps, texts, hp, ht, rfl⟩

/-- With its values written out a well-formed value compiles if it does with its values bound, and
every parameter that it then has can be written: no decimal that is not finite is among them, and no
whole number with too many digits. However placeholders are spelled, nothing else decides. -/
theorem inlining_compiles_iff (style style' : PlaceholderStyle) :
    (∃ c, compile cat (d.marking style false) v = .ok c) ↔
      ∃ c, compile cat (d.marking style' true) v = .ok c ∧
        ∀ s, .scalar s ∈ c.parameters → s.Writable := by
  simp only [compiles_iff hd hv style, compile_binding_eq_ok_iff hd hv, Value.exists_toScalar_iff,
    Dialect.Takes, Dialect.bindLiterals_marking, Bool.false_eq_true, if_false]
  constructor
  · rintro ⟨ps, hp, hwritable⟩
    refine ⟨_, ⟨ps, hp, fun w hw => ?_, rfl⟩, fun s hs => ?_⟩
    · obtain ⟨s, rfl, hs⟩ := hwritable w hw
      exact ⟨s, rfl, hs.bindable⟩
    · obtain ⟨t, ht, hwritten⟩ := hwritable _ hs
      obtain rfl := Value.scalar.inj ht
      exact hwritten
  · rintro ⟨_, ⟨ps, hp, hbindable, rfl⟩, hwritable⟩
    refine ⟨ps, hp, fun w hw => ?_⟩
    obtain ⟨s, rfl, -⟩ := hbindable w hw
    exact ⟨s, rfl, hwritable s hw⟩

omit hd hv in
/-- A decimal that is not a number compiles only while it is bound; a text compiles in both ways. -/
theorem inlining_compiles_iff_not_a_number : (default : Dialect).WritesText ∧
    (∃ c, compile default ((default : Dialect).marking .qmark false)
      (.select (.ofTexts "x" "it" "a%b")) = .ok c) ∧
    ∃ v : Value, v.WellFormed ∧
      (∃ c, compile default ((default : Dialect).marking .qmark true) v = .ok c) ∧
      ¬∃ c, compile default ((default : Dialect).marking .qmark false) v = .ok c := by
  have hd : (default : Dialect).WritesText := ⟨rfl, rfl⟩
  have hv := Select.wellFormed_ofTexts "x" "it" "a%b"
  have hc : compile default ((default : Dialect).marking .qmark true)
      (.select (.ofTexts "x" "it" "a%b")) = .ok ⟨.text "SELECT ? WHERE ? LIKE ? ESCAPE '\\'",
        [.text "x", .text "it", .text "%a\\%b%"]⟩ := rfl
  refine ⟨hd, (inlining_compiles_iff hd hv .qmark .qmark).2 ⟨_, hc, fun s hs => ?_⟩, ?_⟩
  · simp only [Value.text, List.mem_cons, Value.scalar.injEq, List.not_mem_nil, or_false] at hs
    rcases hs with rfl | rfl | rfl <;> trivial
  · let v : Value := .expr (.literal .none (.scalar (.decimal (.notANumber false false 0))) none)
    have hwell : v.WellFormed := .literal _ _ Value.isAlias_none
    have hbound : compile default ((default : Dialect).marking .qmark true) v
        = .ok ⟨.text "?", [.scalar (.decimal (.notANumber false false 0))]⟩ := rfl
    refine ⟨v, hwell, ⟨_, hbound⟩, fun hinlined => ?_⟩
    obtain ⟨c, hc, hwritable⟩ := (inlining_compiles_iff hd hwell .qmark .qmark).1 hinlined
    obtain rfl := Except.ok.inj (hbound.symm.trans hc)
    exact Bool.false_ne_true (hwritable _ (List.mem_singleton_self _))

end SqlCompose
