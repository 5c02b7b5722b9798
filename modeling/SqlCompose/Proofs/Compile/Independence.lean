import SqlCompose.Proofs.Compile.Parameter
import SqlCompose.Proofs.Render.Revalued

/-!
# Texts without the values

Where literals are bound, no value shows in the SQL text. Two statements of the same structure, whose
literals hold values that can stand for each other, compile both or not at all. Their texts are the
same; their parameters differ only where a literal was given another value, and in a LIKE test the
patterns differ in the same way as their needles.
-/
namespace SqlCompose

variable {cat : Catalog} {d : Dialect} {R : Value → Value → Prop} {v w : Value}

section

variable (hR : ∀ v w, R v w → v.Interchangeable cat w)
include hR

/-- Of two parameters that come about in the same way both have literals, or none has one. -/
theorem Derived.toScalar (h : Derived R v w) :
    (∃ s, v.toScalar cat = .ok s) ↔ ∃ s, w.toScalar cat = .ok s := by
  cases h with
  | same => rfl
  | literal h => exact iff_of_true (hR _ _ h).left (hR _ _ h).right
  | pattern form h => exact iff_of_true ⟨_, rfl⟩ ⟨_, rfl⟩

theorem Derived.forall_toScalar {vs ws : List Value} (h : List.Forall₂ (Derived R) vs ws) :
    (∀ v ∈ vs, ∃ s, v.toScalar cat = .ok s) ↔ ∀ w ∈ ws, ∃ s, w.toScalar cat = .ok s := by
  induction h with
  | nil => simp
  | cons hv _ ih => rw [List.forall_mem_cons, List.forall_mem_cons, hv.toScalar hR, ih]

end

/-- How a well-formed value compiles where its literals are bound: if it has pieces, and literals for
the values in them, then to the text of the pieces and to these values. -/
theorem compile_eq_ok_iff_of_binding (hd : d.WritesText) (hb : d.bindLiterals = true)
    (hv : v.WellFormed) (c : Compiled) :
    compile cat d v = .ok c ↔ ∃ ps, (v.built cat d.engine).pieces cat d = .ok ps ∧
      (∀ w ∈ Piece.values ps, ∃ s, w.toScalar cat = .ok s) ∧
      c = ⟨.text ((Template.ofPieces ps).spelled (d.placeholders 0 (Piece.values ps).length)),
        Piece.values ps⟩ := by
  have hself : d.marking d.placeholderStyle true = d := by rw [← hb, Dialect.marking_self]
  have h := @compile_binding_eq_ok_iff cat _ hd _ hv d.placeholderStyle c
  rwa [hself] at h

/-- Two values of the same structure compile both or not at all, to the same text and to parameters
that come about in the same way. -/
theorem text_independent_of_values (hd : d.WritesText) (hb : d.bindLiterals = true)
    (hR : ∀ v w, R v w → v.Interchangeable cat w) (hv : v.WellFormed) (hw : w.WellFormed)
    (h : Revalued R .clause v w) :
    ((∃ c, compile cat d v = .ok c) ↔ ∃ c, compile cat d w = .ok c) ∧
      ∀ c c', compile cat d v = .ok c → compile cat d w = .ok c' →
        c.sql = c'.sql ∧ List.Forall₂ (Derived R) c.parameters c'.parameters := by
  have hpieces : Except.Alike (Piece.RowsAlike (Derived R)) ((v.built cat d.engine).pieces cat d)
      ((w.built cat d.engine).pieces cat d) := Drafted.Alike.built (h.alike hR)
  simp only [compile_eq_ok_iff_of_binding hd hb hv, compile_eq_ok_iff_of_binding hd hb hw]
  rcases hpieces.cases with ⟨e, e', he, he'⟩ | ⟨ps, qs, hps, hqs, hrows⟩
  · simp [he, he']
  · have hvalues := hrows.values .same
    have hscalar := Derived.forall_toScalar hR hvalues
    simp only [hps, hqs, Except.ok.injEq, exists_eq_left', hscalar]
    refine ⟨by simp, ?_⟩
    rintro c c' ⟨-, rfl⟩ ⟨-, rfl⟩
    exact ⟨by rw [hrows.spelled_eq, hvalues.length_eq], hvalues⟩

/-- Any two texts. -/
def Value.BothTexts (v w : Value) : Prop := ∃ s t, v = .text s ∧ w = .text t

theorem Value.BothTexts.interchangeable (h : v.BothTexts w) : v.Interchangeable cat w := by
  obtain ⟨s, t, rfl, rfl⟩ := h
  exact ⟨⟨_, rfl⟩, ⟨_, rfl⟩, rfl⟩

/-- SELECTs of texts have the same structure. -/
theorem Select.revalued_ofTexts (s t u s' t' u' : String) :
    Revalued Value.BothTexts .clause (.select (.ofTexts s t u)) (.select (.ofTexts s' t' u')) := by
  have hliteral : ∀ s t, Revalued Value.BothTexts .clause (.expr (.literal .none (.text s) none))
      (.expr (.literal .none (.text t) none)) := fun s t => .literal _ _ _ ⟨s, t, rfl, rfl⟩
  refine .select (.apply _ _ _ (by rfl) ?_) (.sequence rfl _ (by rfl) ?_) (.same _ _) (.same _ _)
    (.same _ _) (.same _ _) (.same _ _) (.same _ _) _ _ _ _
  · intro x y hxy
    simp only [List.zip_cons_cons, List.zip_nil_right, List.mem_cons, List.not_mem_nil, or_false,
      Prod.mk.injEq] at hxy
    rcases hxy with ⟨rfl, rfl⟩ | ⟨rfl, rfl⟩ <;> exact hliteral _ _
  · intro x y hxy
    simp only [List.zip_cons_cons, List.zip_nil_right, List.mem_cons, List.not_mem_nil, or_false,
      Prod.mk.injEq] at hxy
    obtain ⟨rfl, rfl⟩ := hxy
    exact hliteral _ _

/-- A needle with a wildcard and one without leave the same text. -/
theorem text_independent_of_values_texts : ∃ c c',
    compile default default (.select (.ofTexts "x" "it" "a%b")) = .ok c ∧
    compile default default (.select (.ofTexts "" "that" "c")) = .ok c' ∧
    c.parameters = [.text "x", .text "it", .text "%a\\%b%"] ∧
    c'.parameters = [.text "", .text "that", .text "%c%"] ∧ c.sql = c'.sql ∧
    List.Forall₂ (Derived Value.BothTexts) c.parameters c'.parameters := by
  have hc : compile default default (.select (.ofTexts "x" "it" "a%b"))
      = .ok ⟨.text "SELECT ? WHERE ? LIKE ? ESCAPE '\\'",
        [.text "x", .text "it", .text "%a\\%b%"]⟩ := rfl
  have hc' : compile default default (.select (.ofTexts "" "that" "c"))
      = .ok ⟨.text "SELECT ? WHERE ? LIKE ? ESCAPE '\\'",
        [.text "", .text "that", .text "%c%"]⟩ := rfl
  have h := @text_independent_of_values default default _ _ _ ⟨rfl, rfl⟩ rfl
    (fun _ _ => Value.BothTexts.interchangeable) (Select.wellFormed_ofTexts "x" "it" "a%b")
    (Select.wellFormed_ofTexts "" "that" "c") (Select.revalued_ofTexts ..)
  exact ⟨_, _, hc, hc', rfl, rfl, h.2 _ _ hc hc'⟩

end SqlCompose
