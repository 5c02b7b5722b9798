import SqlCompose.Proofs.Draft.Piece

/-!
# Phrases and the marks between them

Outside of its expressions a statement is a row of phrases, each of which may be empty, with commas,
keywords and the like between them. What is said of a statement by its phrases and its marks does not
depend on how its clauses are nested.
-/
namespace SqlCompose

namespace Piece

variable {R : List Piece → Prop} {T : Token → Prop} {ps qs : List Piece} {ts us : List Token}

/-- What is true of the rows and of what separates them is true of all pieces. -/
theorem forall_mem_separated {P : Piece → Prop} {t : Token} (ht : P (.token t))
    {rows : List (List Piece)} (h : ∀ ps ∈ rows, ∀ p ∈ ps, P p) : ∀ p ∈ separated t rows, P p := by
  induction rows using Piece.separated.induct with
  | case1 => simp [separated]
  | case2 ps => exact h ps (by simp)
  | case3 ps qs rows ih =>
    rw [List.forall_mem_cons] at h
    exact List.forall_mem_append.2 ⟨h.1, List.forall_mem_cons.2 ⟨ht, ih h.2⟩⟩

/-- Whether pieces are phrases with the given marks between them. -/
inductive Marked (R : List Piece → Prop) : List Token → List Piece → Prop
  | phrase {ps : List Piece} (h : R ps) : Marked R [] ps
  | mark {ts : List Token} {ps qs : List Piece} (h : Marked R ts ps) (t : Token) (hq : R qs) :
    Marked R (ts ++ [t]) (ps ++ .token t :: qs)

/-- Whether pieces are phrases with marks of one kind between them. -/
def Linked (R : List Piece → Prop) (T : Token → Prop) (ps : List Piece) : Prop :=
  ∃ ts, Marked R ts ps ∧ ∀ t ∈ ts, T t

namespace Marked

theorem append (h : Marked R ts ps) (t : Token) (h' : Marked R us qs) :
    Marked R (ts ++ t :: us) (ps ++ .token t :: qs) := by
  induction h' with
  | phrase hq => exact .mark h t hq
  | mark h' u hq ih =>
    have hall := ih.mark u hq
    simpa only [List.append_assoc, List.cons_append] using hall

theorem imp {S : List Piece → Prop} (hS : ∀ ps, R ps → S ps) (h : Marked R ts ps) :
    Marked S ts ps := by
  induction h with
  | phrase h => exact .phrase (hS _ h)
  | mark h t hq ih => exact .mark ih t (hS _ hq)

end Marked

namespace Linked

theorem phrase (h : R ps) : Linked R T ps := ⟨[], .phrase h, by simp⟩

theorem append (h : Linked R T ps) {t : Token} (ht : T t) (h' : Linked R T qs) :
    Linked R T (ps ++ .token t :: qs) := by
  obtain ⟨ts, hp, hts⟩ := h
  obtain ⟨us, hq, hus⟩ := h'
  refine ⟨_, hp.append t hq, fun u hu => ?_⟩
  rcases List.mem_append.1 hu with hu | hu
  · exact hts u hu
  · rcases List.mem_cons.1 hu with rfl | hu
    · exact ht
    · exact hus u hu

theorem lead (hn : R []) {t : Token} (ht : T t) (h : Linked R T ps) : Linked R T (.token t :: ps) :=
  (phrase hn).append ht h

/-- What may stand before a phrase may stand before several ones. -/
theorem led {t : Token} (hl : ∀ ps, R ps → R (.token t :: ps)) (h : Linked R T ps) :
    Linked R T (.token t :: ps) := by
  obtain ⟨ts, hp, hts⟩ := h
  refine ⟨ts, ?_, hts⟩
  clear hts
  induction hp with
  | phrase h => exact .phrase (hl _ h)
  | mark h u hq ih => exact ih.mark u hq

theorem separated (hn : R []) {t : Token} (ht : T t) {rows : List (List Piece)}
    (h : ∀ ps ∈ rows, Linked R T ps) : Linked R T (Piece.separated t rows) := by
  induction rows using Piece.separated.induct with
  | case1 => exact phrase hn
  | case2 ps => exact h ps (by simp)
  | case3 ps qs rows ih =>
    rw [List.forall_mem_cons] at h
    exact h.1.append ht (ih h.2)

theorem imp {U : Token → Prop} (hU : ∀ t, T t → U t) (h : Linked R T ps) : Linked R U ps := by
  obtain ⟨ts, hp, hts⟩ := h
  exact ⟨ts, hp, fun t ht => hU t (hts t ht)⟩

/-- Rows of phrases with marks between them are phrases with marks between them. -/
theorem ofMarked (h : Marked (Linked R T) ts ps) (ht : ∀ t ∈ ts, T t) : Linked R T ps := by
  induction h with
  | phrase h => exact h
  | mark h t hq ih => exact (ih fun u hu => ht u (by simp [hu])).append (ht t (by simp)) hq

end Linked

/-- Whether pieces are nothing, or a mark with phrases behind it. -/
def Behind (R : List Piece → Prop) (T : Token → Prop) (t : Token) (ps : List Piece) : Prop :=
  ps = [] ∨ ∃ qs, ps = .token t :: qs ∧ Linked R T qs

theorem Behind.imp {U : Token → Prop} (hU : ∀ t, T t → U t) {t : Token} (h : Behind R T t ps) :
    Behind R U t ps := by
  rcases h with rfl | ⟨qs, rfl, hq⟩
  · exact .inl rfl
  · exact .inr ⟨qs, rfl, hq.imp hU⟩

theorem Linked.link (h : Linked R T ps) {t : Token} (ht : T t) (hq : Behind R T t qs) :
    Linked R T (ps ++ qs) := by
  rcases hq with rfl | ⟨qs, rfl, hq⟩
  · rwa [List.append_nil]
  · exact h.append ht hq

/-- What is linked behind the last phrases belongs to them. -/
theorem Marked.link (h : Marked (Linked R T) ts ps) {t : Token} (ht : T t) (hq : Behind R T t qs) :
    Marked (Linked R T) ts (ps ++ qs) := by
  cases h with
  | phrase h => exact .phrase (h.link ht hq)
  | mark h u hr =>
    have hlast := h.mark u (hr.link ht hq)
    simpa only [List.append_assoc, List.cons_append] using hlast

/-- A clause that may be missing behind other ones. -/
theorem Marked.clause (h : Marked (Linked R T) ts ps) {t : Token} (hq : Behind R T t qs) :
    ∃ us, us.Sublist [t] ∧ Marked (Linked R T) (ts ++ us) (ps ++ qs) := by
  rcases hq with rfl | ⟨qs, rfl, hq⟩
  · exact ⟨[], List.nil_sublist _, by rwa [List.append_nil, List.append_nil]⟩
  · exact ⟨[t], List.Sublist.refl _, h.mark t hq⟩

end Piece

/-- Whether whatever is written of a draft has a property. -/
def Draft.PiecesIn (cat : Catalog) (d : Dialect) (R : List Piece → Prop) (x : Draft) : Prop :=
  ∀ ps, x.pieces cat d = .ok ps → R ps

namespace Draft.PiecesIn

open Piece

variable {cat : Catalog} {d : Dialect} {R : List Piece → Prop} {T : Token → Prop} {x y : Draft}

theorem fail (e : Error) : PiecesIn cat d R (.fail e) := fun _ hp => by simp [pieces] at hp

theorem phrase (h : PiecesIn cat d R x) : PiecesIn cat d (Linked R T) x :=
  fun ps hp => .phrase (h ps hp)

/-- A draft with a further clause behind it. -/
theorem extend (h : PiecesIn cat d (Linked R T) x) {t : Token} (ht : T t) (he : t ≠ .text "")
    (h' : PiecesIn cat d (Linked R T) y) : PiecesIn cat d (Linked R T) (x ++ (token t + y)) := by
  intro ps hp
  obtain ⟨xs, rest, hx, hrest, rfl⟩ := pieces_extend_eq_ok.1 hp
  obtain ⟨own, ys, hown, hy, rfl⟩ := pieces_plus_eq_ok.1 hrest
  obtain rfl := eq_of_pieces_token hown he
  exact (h xs hx).append ht (h' ys hy)

theorem commaSeparated (hn : R []) (ht : T (.text ", ")) {items : List Draft}
    (h : ∀ x ∈ items, PiecesIn cat d (Linked R T) x) :
    PiecesIn cat d (Linked R T) (commaSeparated items) := by
  intro ps hp
  obtain ⟨rows, hrows, rfl⟩ := pieces_row_eq_ok.1 hp
  refine .separated hn ht fun qs hqs => ?_
  obtain ⟨x, hx, hpx⟩ := mem_piecesAll hrows hqs
  exact h x hx qs hpx

end Draft.PiecesIn

end SqlCompose
