import SqlCompose.Proofs.Compile.Acceptance

/-!
# Accepted drafts

A draft is accepted if it has pieces and the dialect takes the values in them. Drafts that are put
together are accepted if their parts are: no part is left out, and what is put between them never
fails.
-/
namespace SqlCompose

namespace Draft

/-- Whether a draft can be written for a dialect. -/
def Accepted (cat : Catalog) (d : Dialect) (draft : Draft) : Prop :=
  ∃ ps, draft.pieces cat d = .ok ps ∧ ∀ w ∈ Piece.values ps, d.Takes w

variable {cat : Catalog} {d : Dialect} {x y : Draft}

@[simp] theorem accepted_token (t : Token) : (token t).Accepted cat d :=
  ⟨_, rfl, by simp⟩

@[simp] theorem accepted_text (s : String) : (text s).Accepted cat d := accepted_token _

@[simp] theorem accepted_operator (fixity : Fixity) (symbol : String) :
    (operator fixity symbol).Accepted cat d := accepted_token _

@[simp] theorem accepted_literal {v : Value} : (literal v).Accepted cat d ↔ d.Takes v := by
  simp [Accepted, pieces]

@[simp] theorem not_accepted_fail (e : Error) : ¬(fail e).Accepted cat d := by
  rintro ⟨ps, hp, -⟩
  simp [pieces] at hp

@[simp] theorem accepted_plus : (x + y).Accepted cat d ↔ x.Accepted cat d ∧ y.Accepted cat d := by
  rw [show x + y = plus x y from rfl]
  simp only [Accepted, pieces_plus_eq_ok]
  constructor
  · rintro ⟨_, ⟨xs, ys, hx, hy, rfl⟩, htakes⟩
    simp only [Piece.values_append, List.forall_mem_append] at htakes
    exact ⟨⟨xs, hx, htakes.1⟩, ys, hy, htakes.2⟩
  · rintro ⟨⟨xs, hx, hxs⟩, ys, hy, hys⟩
    refine ⟨_, ⟨xs, ys, hx, hy, rfl⟩, ?_⟩
    simpa [or_imp, forall_and] using ⟨hxs, hys⟩

@[simp] theorem accepted_shown : x.shown.Accepted cat d ↔ x.Accepted cat d := by
  simp [Accepted, pieces]

@[simp] theorem accepted_asking (part : String) :
    (asking part x).Accepted cat d ↔ x.Accepted cat d := Iff.rfl

@[simp] theorem accepted_parenthesized : x.parenthesized.Accepted cat d ↔ x.Accepted cat d := by
  simp [parenthesized]

@[simp] theorem accepted_infixed (symbol : String) :
    (infixed x symbol y).Accepted cat d ↔ x.Accepted cat d ∧ y.Accepted cat d := by
  simp [infixed]

/-- Several drafts have rows of pieces whose values the dialect takes if each of them is accepted. -/
theorem accepted_all {items : List Draft} :
    (∃ rows, piecesAll cat d items = .ok rows ∧
      ∀ w ∈ rows.flatMap Piece.values, d.Takes w) ↔ ∀ x ∈ items, x.Accepted cat d := by
  induction items with
  | nil => exact iff_of_true ⟨[], rfl, by simp⟩ (by simp)
  | cons x items ih =>
    simp only [piecesAll_cons_eq_ok, List.forall_mem_cons, ← ih]
    constructor
    · rintro ⟨_, ⟨xs, rest, hx, hrest, rfl⟩, htakes⟩
      simp only [List.flatMap_cons, List.forall_mem_append] at htakes
      exact ⟨⟨xs, hx, htakes.1⟩, rest, hrest, htakes.2⟩
    · rintro ⟨⟨xs, hx, hxs⟩, rest, hrest, htakes⟩
      refine ⟨_, ⟨xs, rest, hx, hrest, rfl⟩, ?_⟩
      rw [List.flatMap_cons, List.forall_mem_append]
      exact ⟨hxs, htakes⟩

@[simp] theorem accepted_row {separator : Token} {items : List Draft} :
    (row separator items).Accepted cat d ↔ ∀ x ∈ items, x.Accepted cat d := by
  rw [← accepted_all]
  simp only [Accepted, pieces_row_eq_ok]
  constructor
  · rintro ⟨_, ⟨rows, hrows, rfl⟩, htakes⟩
    exact ⟨rows, hrows, by rwa [Piece.values_separated] at htakes⟩
  · rintro ⟨rows, hrows, htakes⟩
    exact ⟨_, ⟨rows, hrows, rfl⟩, by rwa [Piece.values_separated]⟩

@[simp] theorem accepted_extend :
    (x ++ y).Accepted cat d ↔ x.Accepted cat d ∧ y.Accepted cat d := by
  rw [← accepted_plus]
  simp only [Accepted, show x + y = plus x y from rfl, ← pieces_extend]
  rfl

@[simp] theorem accepted_commaSeparated {items : List Draft} :
    (commaSeparated items).Accepted cat d ↔ ∀ x ∈ items, x.Accepted cat d := accepted_row

theorem accepted_continued {items : List Draft} : (x.continued items).Accepted cat d ↔
    x.Accepted cat d ∧ ∀ y ∈ items, y.Accepted cat d := by
  induction items generalizing x with
  | nil => simp [continued]
  | cons y items ih =>
    have hcons : x.continued (y :: items) = (x ++ y).continued items := rfl
    rw [hcons, ih, accepted_extend, List.forall_mem_cons, and_assoc]

theorem accepted_given {α : Type} {r : Except Error α} {f : α → Draft} :
    (given r f).Accepted cat d ↔ ∃ a, r = .ok a ∧ (f a).Accepted cat d := by
  cases r <;> simp [given]

theorem accepted_guarded {check : Except Error Unit} :
    (guarded check x).Accepted cat d ↔ check = .ok () ∧ x.Accepted cat d := by
  cases check <;> simp [guarded]

@[simp] theorem not_accepted_member (v : Value) (name : String) :
    ¬(member v name).Accepted cat d := by
  rintro ⟨ps, hp, -⟩
  simp [pieces] at hp

theorem Accepted.of_before (h : (before x y).Accepted cat d) : y.Accepted cat d := by
  obtain ⟨ps, hp, htakes⟩ := h
  exact ⟨ps, (pieces_before_eq_ok.1 hp).2, htakes⟩

theorem Accepted.of_checked (h : (checked x y).Accepted cat d) : x.Accepted cat d := by
  obtain ⟨ps, hp, htakes⟩ := h
  exact ⟨ps, (pieces_checked_eq_ok.1 hp).1, htakes⟩

/-- What is accepted with an alias is accepted without it. -/
theorem Accepted.of_named {a : Value} (h : (x.named a).Accepted cat d) : x.Accepted cat d := by
  unfold named at h
  split at h
  · exact (accepted_extend.1 h).1
  · exact h

variable (hd : d.WritesText)
include hd

@[simp] theorem accepted_packed_text (s : String) : (packed (.text s)).Accepted cat d := by
  refine ⟨[.word (d.packText s)], ?_, by simp⟩
  rw [pieces_packed hd]
  rfl

theorem accepted_before_packed (s : String) :
    (before (packed (.text s)) x).Accepted cat d ↔ x.Accepted cat d := by
  obtain ⟨ps, hp, -⟩ : (packed (.text s)).Accepted cat d := accepted_packed_text hd s
  simp [Accepted, pieces_before_eq_ok, hp]

theorem accepted_name (s : String) : (name (.text s)).Accepted cat d :=
  ⟨_, pieces_name hd s, by simp⟩

theorem accepted_callWith {symbol : String} {lead : Option String} {items : List Draft} :
    (callWith symbol lead items).Accepted cat d ↔ ∀ x ∈ items, x.Accepted cat d := by
  rw [← accepted_all]
  simp only [Accepted, pieces_callWith_eq_ok hd]
  constructor
  · rintro ⟨_, ⟨rows, hrows, rfl⟩, htakes⟩
    refine ⟨rows, hrows, ?_⟩
    simpa using htakes
  · rintro ⟨rows, hrows, htakes⟩
    refine ⟨_, ⟨rows, hrows, rfl⟩, ?_⟩
    simpa using htakes

end Draft

end SqlCompose
