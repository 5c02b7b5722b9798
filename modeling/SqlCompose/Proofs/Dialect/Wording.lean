import SqlCompose.Dialect.Identifier
import SqlCompose.Dialect.Literal

/-!
# Words of a dialect

Names, spellings and literals are texts unless something other than texts was put in the place of
the quotes or the spellings of a dialect. None of them depends on how a dialect marks the place of a
bound value.
-/
namespace SqlCompose

namespace Except

variable {ε α β : Type} {r : Except ε α} {f : α → Except ε β}

/-- Steps in a row succeed if the first one does and then the others do. -/
theorem bind_eq_ok_iff {b : β} : (r >>= f) = .ok b ↔ ∃ a, r = .ok a ∧ f a = .ok b := by
  cases r <;> simp [bind, Except.bind]

/-- Steps in a row fail if the first one fails or the others do after it. -/
theorem bind_eq_error_iff {e : ε} :
    (r >>= f) = .error e ↔ r = .error e ∨ ∃ a, r = .ok a ∧ f a = .error e := by
  cases r <;> simp [bind, Except.bind]

theorem discard_eq_ok_iff {u : Unit} : discard r = .ok u ↔ ∃ a, r = .ok a := by
  cases r <;> simp [discard, Functor.mapConst, Except.map]

theorem discard_eq_error_iff {e : ε} : discard r = .error e ↔ r = .error e := by
  cases r <;> simp [discard, Functor.mapConst, Except.map]

theorem bind_pure_eq_error_iff {g : α → β} {e : ε} :
    (do return g (← r)) = (.error e : Except ε β) ↔ r = .error e := by
  cases r <;> simp [bind, Except.bind, pure, Except.pure]

/-- A step on each of several things succeeds if it does on the first one and then on the others. -/
theorem mapM_cons_eq_ok_iff {x : α} {xs : List α} {ys : List β} :
    (x :: xs).mapM f = .ok ys ↔ ∃ y rest, f x = .ok y ∧ xs.mapM f = .ok rest ∧ ys = y :: rest := by
  simp only [List.mapM_cons, bind_eq_ok_iff, pure, Except.pure, Except.ok.injEq]
  constructor
  · rintro ⟨y, hy, rest, hrest, h⟩
    exact ⟨y, rest, hy, hrest, h.symm⟩
  · rintro ⟨y, rest, hy, hrest, h⟩
    exact ⟨y, hy, rest, hrest, h.symm⟩

theorem exists_mem_of_mapM {xs : List α} {ys : List β} (h : xs.mapM f = .ok ys) :
    ∀ x ∈ xs, ∃ y ∈ ys, f x = .ok y := by
  induction xs generalizing ys with
  | nil => simp
  | cons x xs ih =>
    obtain ⟨y, rest, hy, hrest, rfl⟩ := mapM_cons_eq_ok_iff.1 h
    refine List.forall_mem_cons.2 ⟨⟨y, List.mem_cons_self, hy⟩, fun z hz => ?_⟩
    obtain ⟨w, hw, hzw⟩ := ih hrest z hz
    exact ⟨w, List.mem_cons_of_mem _ hw, hzw⟩

end Except

theorem Value.eq_text_of_text? {v : Value} {s : String} (h : v.text? = some s) : v = .text s := by
  unfold text? at h
  split at h
  · rw [Option.some.inj h]
    rfl
  · cases h

theorem Expr.text?_literal (a v : Value) (k : Option DataKind) :
    (literal a v k).text? = v.text? := by
  cases v with
  | scalar s => cases s <;> rfl
  | _ => rfl

/-- The text that a value has to be. -/
def Value.asText (v : Value) : Except Error String :=
  match v.text? with
  | some s => .ok s
  | Option.none => .error (.badPart 0 v.typeTag)

@[simp] theorem Value.asText_text (s : String) : (Value.text s).asText = .ok s := rfl

namespace Dialect

/-- A dialect whose quotes and spellings are texts, as they are unless something else was put in
their place. -/
structure WritesText (d : Dialect) : Prop where
  quotes : d.given.lookup "identifier_quote" = none
  spellings : d.given.lookup "substitutions" = none

/-- A dialect that marks the places of values in a style, or writes the values out. -/
def marking (d : Dialect) (style : PlaceholderStyle) (binding : Bool) : Dialect :=
  { d with placeholderStyle := style, bindLiterals := binding }

/-- The literal of a value. -/
def literalText (cat : Catalog) (d : Dialect) (v : Value) : Except Error String := do
  (← d.pack cat v).asText

section Marking

variable (cat : Catalog) (d : Dialect) (style : PlaceholderStyle) (binding : Bool)

@[simp] theorem marking_self : d.marking d.placeholderStyle d.bindLiterals = d := by
  cases d
  rfl

@[simp] theorem engine_marking : (d.marking style binding).engine = d.engine := rfl

@[simp] theorem bindLiterals_marking : (d.marking style binding).bindLiterals = binding := rfl

@[simp] theorem quote_marking (v : Value) :
    (d.marking style binding).quote cat v = d.quote cat v := rfl

@[simp] theorem spelling_marking (v : Value) :
    (d.marking style binding).spelling cat v = d.spelling cat v := rfl

@[simp] theorem packScalar_marking (s : Scalar) :
    (d.marking style binding).packScalar cat s = d.packScalar cat s := by
  cases s <;> rfl

@[simp] theorem pack_marking (v : Value) :
    (d.marking style binding).pack cat v = d.pack cat v := by
  simp only [pack, packScalar_marking]

@[simp] theorem literalText_marking :
    (d.marking style binding).literalText cat = d.literalText cat := by
  funext v
  simp only [literalText, pack_marking]

end Marking

section Texts

variable (cat : Catalog) {d : Dialect} (hd : d.WritesText)
include hd

theorem WritesText.marking (style : PlaceholderStyle) (binding : Bool) :
    (d.marking style binding).WritesText := ⟨hd.quotes, hd.spellings⟩

theorem quote_eq_text (s : String) :
    d.quote cat (.text s) = .ok (.text (quoteName d.identifierQuote s)) :=
  quote_text cat d hd.quotes s

theorem spelling_eq_text (keyword : String) : d.spelling cat (.text keyword)
    = .ok (.text ((d.substitutions.lookup keyword).getD keyword)) :=
  spelling_text cat d hd.spellings keyword

theorem packScalar_eq_text (s : Scalar) (v : Value) (h : d.packScalar cat s = .ok v) :
    ∃ t, v = .text t := by
  cases s with
  | null => exact ⟨_, by simpa [packScalar, spelling_eq_text cat hd] using h.symm⟩
  | bool b => exact ⟨_, by simpa [packScalar, spelling_eq_text cat hd] using h.symm⟩
  | int n =>
    simp only [packScalar] at h
    obtain ⟨t, -, ht⟩ := Except.bind_eq_ok_iff.1 h
    exact ⟨t, by simpa [pure, Except.pure] using ht.symm⟩
  | float x =>
    simp only [packScalar] at h
    split at h
    · exact ⟨_, by simpa using h.symm⟩
    · simp at h
  | decimal x =>
    simp only [packScalar] at h
    split at h
    · exact ⟨_, by simpa using h.symm⟩
    · simp at h
  | text s => exact ⟨_, by simpa [packScalar] using h.symm⟩
  | date t => exact ⟨_, by simpa [packScalar] using h.symm⟩
  | time t => exact ⟨_, by simpa [packScalar] using h.symm⟩
  | timestamp t => exact ⟨_, by simpa [packScalar] using h.symm⟩
  | binary buffer bytes => exact ⟨_, by simpa [packScalar] using h.symm⟩

/-- What a dialect writes out is a text. -/
theorem pack_eq_text (v : Value) : d.pack cat v = (d.literalText cat v).map .text := by
  cases hp : d.pack cat v with
  | error e => simp [literalText, hp, bind, Except.bind, Except.map]
  | ok w =>
    have hw := hp
    simp only [pack] at hw
    obtain ⟨s, -, hs⟩ := Except.bind_eq_ok_iff.1 hw
    obtain ⟨t, rfl⟩ := packScalar_eq_text cat hd s w hs
    simp [literalText, hp, bind, Except.bind, Except.map]

end Texts

end Dialect

end SqlCompose
