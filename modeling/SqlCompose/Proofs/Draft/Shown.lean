import SqlCompose.Proofs.Dialect.Delimited
import SqlCompose.Proofs.Draft.Marked

/-!
# What pieces show

Pieces leave nothing open, and show words that start clauses, if whatever a standard dialect writes
for them does. Rows of pieces are put together from such rows with tokens between them, or between
brackets, where they show nothing.
-/
namespace SqlCompose

open Text (IsInert clausesOf startsApart endsApart)

/-! ## Rows of pieces -/

namespace Piece

/-- Whether whatever pieces are written as leaves nothing open, and shows the given words that start
clauses. -/
def Shows (cat : Catalog) (e : Engine) (ws : List String) (ps : List Piece) : Prop :=
  ∀ cs, Written ((Dialect.standard e).Marks cat) ps cs → e.Shows ws cs

/-- Whether whatever pieces are written as leaves nothing open. -/
def Closes (cat : Catalog) (e : Engine) (ps : List Piece) : Prop :=
  ∀ cs, Written ((Dialect.standard e).Marks cat) ps cs → e.IsBalanced cs

variable {cat : Catalog} {e : Engine} {us ws : List String} {ps qs : List Piece} {t : Token}
  {shown : List Char} {s : String}

namespace Shows

theorem closes (h : Shows cat e ws ps) : Closes cat e ps := fun cs hcs => (h cs hcs).isBalanced

theorem nil : Shows cat e [] [] := by
  intro cs hcs
  cases hcs
  exact .nil

theorem token (h : e.Shows ws t.spelling.toList) : Shows cat e ws [.token t] := by
  intro cs hcs
  rwa [hcs.eq_of_token]

theorem word (h : e.Shows ws s.toList) : Shows cat e ws [.word s] := by
  intro cs hcs
  rwa [hcs.eq_of_word]

theorem between (h : Shows cat e ws ps) (ht : e.Parts shown t.spelling.toList)
    (hs : startsApart shown = true) (hl : endsApart shown = true) (h' : Shows cat e us qs) :
    Shows cat e (ws ++ (clausesOf shown ++ us)) (ps ++ .token t :: qs) := by
  intro cs hcs
  obtain ⟨as, bs, ha, hb, rfl⟩ := hcs.exists_of_between
  exact (h as ha).between ht hs hl (h' bs hb)

theorem before (ht : e.Parts shown t.spelling.toList) (hl : endsApart shown = true)
    (h : Shows cat e ws ps) : Shows cat e (clausesOf shown ++ ws) (.token t :: ps) := by
  intro cs hcs
  cases hcs with
  | token _ hcs => exact .before ht hl (h _ hcs)

theorem behind (h : Shows cat e ws ps) (ht : e.Parts shown t.spelling.toList)
    (hs : startsApart shown = true) :
    Shows cat e (ws ++ clausesOf shown) (ps ++ [.token t]) := by
  intro cs hcs
  obtain ⟨as, bs, ha, hb, rfl⟩ := hcs.exists_of_append
  rw [hb.eq_of_token]
  exact (h as ha).behind ht hs

end Shows

/-- Pieces between brackets of any kind. -/
theorem Closes.brackets {u : Token} (ht : t.spelling = "(") (hu : u.spelling = ")")
    (h : Closes cat e ps) : Shows cat e [] (.token t :: ps ++ [.token u]) := by
  intro cs hcs
  obtain ⟨front, last, hfront, hlast, rfl⟩ := hcs.exists_of_append
  cases hfront with
  | token _ hinner =>
    rw [hlast.eq_of_token, ht, hu]
    exact .bracketed (h _ hinner)

end Piece

/-! ## Marks -/

/-- Whether a token is apart from the words on its two sides and starts no clause. -/
structure Token.IsApart (t : Token) : Prop where
  inert : IsInert t.spelling
  starts : startsApart t.spelling.toList = true
  ends : endsApart t.spelling.toList = true

instance : DecidablePred Token.IsApart := fun t =>
  decidable_of_iff (IsInert t.spelling ∧ startsApart t.spelling.toList = true ∧
    endsApart t.spelling.toList = true)
    ⟨fun ⟨h, hs, he⟩ => ⟨h, hs, he⟩, fun h => ⟨h.inert, h.starts, h.ends⟩⟩

namespace Piece

variable {cat : Catalog} {e : Engine} {us ws : List String} {ps qs : List Piece} {t : Token}

namespace Shows

theorem apart (h : Shows cat e ws ps) (ht : t.IsApart) (h' : Shows cat e us qs) :
    Shows cat e (ws ++ us) (ps ++ .token t :: qs) := by
  have hall := h.between (.ofPlain (Text.ne_nil_of_startsApart ht.starts) ht.inert.1) ht.starts
    ht.ends h'
  rwa [ht.inert.2, List.nil_append] at hall

/-- Phrases without words that start clauses, and such tokens between them. -/
theorem ofLinked {T : Token → Prop} (hT : ∀ t, T t → t.IsApart)
    (h : Linked (Shows cat e []) T ps) : Shows cat e [] ps := by
  obtain ⟨ts, hps, hts⟩ := h
  induction hps with
  | phrase h => exact h
  | mark h t hq ih => exact (ih fun u hu => hts u (by simp [hu])).apart (hT t (hts t (by simp))) hq

/-- A token before a row that starts no clause. -/
theorem beforeInert (ht : IsInert t.spelling ∧ endsApart t.spelling.toList = true)
    (h : Shows cat e ws ps) : Shows cat e ws (.token t :: ps) := by
  have hall := before (.ofPlain (Text.ne_nil_of_endsApart ht.2) ht.1.1) ht.2 h
  rwa [ht.1.2] at hall

/-- A token behind a row that starts no clause. -/
theorem behindInert (ht : IsInert t.spelling ∧ startsApart t.spelling.toList = true)
    (h : Shows cat e ws ps) : Shows cat e ws (ps ++ [.token t]) := by
  have hall := h.behind (.ofPlain (Text.ne_nil_of_startsApart ht.2) ht.1.1) ht.2
  rwa [ht.1.2, List.append_nil] at hall

end Shows

/-! ## What follows -/

/-- Whether whatever pieces are written as may stand behind what leaves nothing open, and leaves
nothing open itself. -/
def Follows (cat : Catalog) (e : Engine) (ps : List Piece) : Prop :=
  ∀ cs, Written ((Dialect.standard e).Marks cat) ps cs → e.Continues cs

theorem Follows.nil : Follows cat e [] := by
  intro cs hcs
  cases hcs
  exact .nil

theorem Follows.append (h : Follows cat e ps) (h' : Follows cat e qs) : Follows cat e (ps ++ qs) := by
  intro cs hcs
  obtain ⟨as, bs, ha, hb, rfl⟩ := hcs.exists_of_append
  exact (h as ha).append (h' bs hb)

theorem Follows.closes (h : Follows cat e ps) : Closes cat e ps := fun cs hcs => (h cs hcs).isBalanced

theorem Closes.append (h : Closes cat e ps) (h' : Follows cat e qs) : Closes cat e (ps ++ qs) := by
  intro cs hcs
  obtain ⟨as, bs, ha, hb, rfl⟩ := hcs.exists_of_append
  exact (h as ha).append (h' bs hb)

/-- A token from which the scanner comes out outside of everything, and what stands behind it. -/
theorem Closes.led (ht : ∃ shown, e.Parts shown t.spelling.toList) (h : Closes cat e ps) :
    Follows cat e (.token t :: ps) := by
  intro cs hcs
  obtain ⟨shown, ht⟩ := ht
  cases hcs with
  | token _ hcs => exact ht.led (h _ hcs)

/-- Phrases that close what they open, with marks between them. -/
theorem Closes.ofLinked {R : List Piece → Prop} {T : Token → Prop}
    (hR : ∀ ps, R ps → Closes cat e ps) (hT : ∀ t, T t → ∃ shown, e.Parts shown t.spelling.toList)
    (h : Linked R T ps) : Closes cat e ps := by
  obtain ⟨ts, hps, hts⟩ := h
  induction hps with
  | phrase h => exact hR _ h
  | mark h t hq ih =>
    exact (ih fun u hu => hts u (by simp [hu])).append ((hR _ hq).led (hT t (hts t (by simp))))

end Piece

end SqlCompose
