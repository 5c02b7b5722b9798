import SqlCompose.Proofs.Draft.Template

/-!
# What pieces are written as

Pieces are written one after the other, and in the place of a value stands a mark: a placeholder or a
literal. What is said of a text piece by piece does not depend on which of the two it is.
-/
namespace SqlCompose

/-- Whether a text can stand in the place of a value: a placeholder or its literal. -/
def Dialect.Marks (cat : Catalog) (d : Dialect) (v : Value) (s : String) : Prop :=
  (∃ (style : PlaceholderStyle) (n : Int), s = style.spell (toString n)) ∨
    d.literalText cat v = .ok s

/-- Whether a text is what pieces are written as with marks for their values. -/
inductive Piece.Written (M : Value → String → Prop) : List Piece → List Char → Prop
  | nil : Written M [] []
  | token (t : Token) {ps : List Piece} {cs : List Char} (h : Written M ps cs) :
    Written M (.token t :: ps) (t.spelling.toList ++ cs)
  | word (s : String) {ps : List Piece} {cs : List Char} (h : Written M ps cs) :
    Written M (.word s :: ps) (s.toList ++ cs)
  | value {v : Value} {s : String} (hv : M v s) {ps : List Piece} {cs : List Char}
    (h : Written M ps cs) : Written M (.value v :: ps) (s.toList ++ cs)

namespace Piece.Written

variable {M : Value → String → Prop} {ps qs : List Piece} {cs : List Char}

/-- Pieces are written before those that follow them. -/
theorem exists_of_append (h : Written M (ps ++ qs) cs) :
    ∃ as bs, Written M ps as ∧ Written M qs bs ∧ cs = as ++ bs := by
  induction ps generalizing cs with
  | nil => exact ⟨[], cs, .nil, h, rfl⟩
  | cons p ps ih =>
    cases h with
    | token t h =>
      obtain ⟨as, bs, ha, hb, rfl⟩ := ih h
      exact ⟨_, bs, .token t ha, hb, (List.append_assoc ..).symm⟩
    | word s h =>
      obtain ⟨as, bs, ha, hb, rfl⟩ := ih h
      exact ⟨_, bs, .word s ha, hb, (List.append_assoc ..).symm⟩
    | value hv h =>
      obtain ⟨as, bs, ha, hb, rfl⟩ := ih h
      exact ⟨_, bs, .value hv ha, hb, (List.append_assoc ..).symm⟩

/-- A token stands between the texts on its two sides. -/
theorem exists_of_between {t : Token} (h : Written M (ps ++ .token t :: qs) cs) :
    ∃ as bs, Written M ps as ∧ Written M qs bs ∧ cs = as ++ (t.spelling.toList ++ bs) := by
  obtain ⟨as, bs, ha, hb, rfl⟩ := exists_of_append h
  cases hb with
  | token _ hq => exact ⟨as, _, ha, hq, rfl⟩

theorem eq_of_token {t : Token} (h : Written M [.token t] cs) : cs = t.spelling.toList := by
  cases h with
  | token _ h =>
    cases h
    exact List.append_nil _

theorem eq_of_word {s : String} (h : Written M [.word s] cs) : cs = s.toList := by
  cases h with
  | word _ h =>
    cases h
    exact List.append_nil _

theorem exists_of_value {v : Value} (h : Written M [.value v] cs) :
    ∃ s, M v s ∧ cs = s.toList := by
  cases h with
  | value hv h =>
    cases h
    exact ⟨_, hv, List.append_nil _⟩

end Piece.Written

variable {cat : Catalog} {d : Dialect}

theorem Assembly.marks_of_run {v : Value} {bound rest : Array Value} {s : String}
    (h : (mark cat d v).run bound = (.ok s, rest)) : d.Marks cat v s := by
  by_cases hb : d.bindLiterals = true
  · cases hv : v.toScalar cat with
    | ok x =>
      rw [run_mark_of_binding hb hv] at h
      obtain rfl := Except.ok.inj (Prod.mk.inj h).1
      exact .inl ⟨_, _, rfl⟩
    | error e =>
      simp only [mark, hb, hv, if_true] at h
      cases h
  · rw [mark, if_neg hb] at h
    cases hl : d.literalText cat v with
    | ok t =>
      rw [hl] at h
      obtain rfl := Except.ok.inj (Prod.mk.inj h).1
      exact .inr hl
    | error e =>
      rw [hl] at h
      cases h

/-- However values are marked, what is written has a placeholder or a literal in the place of each.
-/
theorem Assembly.written_of_run {ps : List Piece} {bound rest : Array Value} {s : String}
    (h : (write cat d ps).run bound = (.ok s, rest)) :
    Piece.Written (d.Marks cat) ps s.toList := by
  induction ps generalizing bound rest s with
  | nil =>
    obtain rfl := Except.ok.inj (Prod.mk.inj h).1
    exact .nil
  | cons p ps ih =>
    cases p with
    | token t =>
      obtain ⟨behind, between, hbehind, hs⟩ := run_bind_eq_ok h
      obtain rfl := Except.ok.inj (Prod.mk.inj hs).1
      rw [String.toList_append]
      exact .token t (ih hbehind)
    | word w =>
      obtain ⟨behind, between, hbehind, hs⟩ := run_bind_eq_ok h
      obtain rfl := Except.ok.inj (Prod.mk.inj hs).1
      rw [String.toList_append]
      exact .word w (ih hbehind)
    | value v =>
      obtain ⟨written, between, hwritten, hrest⟩ := run_bind_eq_ok h
      obtain ⟨behind, between', hbehind, hs⟩ := run_bind_eq_ok hrest
      obtain rfl := Except.ok.inj (Prod.mk.inj hs).1
      rw [String.toList_append]
      exact .value (marks_of_run hwritten) (ih hbehind)

/-- What comes out of a settled draft is its pieces as they are written. -/
theorem Draft.exists_written_of_outcome {draft : Draft} (hd : d.WritesText)
    (h : Settled cat true draft) {style : PlaceholderStyle} {binding : Bool} {number : Nat}
    {bound rest : List Value} {v : Value}
    (ho : draft.outcome cat (.context (d.marking style binding) number) bound = (.ok v, rest)) :
    ∃ ps s, draft.pieces cat d = .ok ps ∧ v = .text s ∧ Piece.Written (d.Marks cat) ps s.toList := by
  obtain ⟨ps, s, between, hp, hv, hrun⟩ := exists_run_of_outcome hd h ho
  refine ⟨ps, s, hp, hv, ?_⟩
  have hmarks : (d.marking style binding).Marks cat = d.Marks cat := by
    funext v s
    simp only [Dialect.Marks, Dialect.literalText_marking]
  exact hmarks ▸ Assembly.written_of_run hrun

end SqlCompose
