import SqlCompose.Proofs.Draft.Shown
import SqlCompose.Proofs.Expr.Phrasing
import SqlCompose.Proofs.Render.Paging

/-!
# Nesting

What a standard dialect writes of a composed expression closes all that it opens, and outside of
parentheses, literals and names no word in it starts a clause. A SELECT has such words of its own,
and where it stands in an expression it stands in parentheses.
-/
namespace SqlCompose

open Text (IsInert startsApart endsApart)

theorem Token.IsLink.isApart {t : Token} (h : t.IsLink) : t.IsApart := by
  cases h <;> decide

/-- The names, operators and joins whose words start no clause. The functions and joins of SQL are
among them. A name does not start with the opening quote. -/
def Vocabulary.inert (e : Engine) : Vocabulary where
  name s := ¬(Dialect.standardQuote e).1.toList <+: s.toList
  operation op symbol _ := op.HasSymbol IsInert symbol
  joinKind := IsInert

section Phrases

open Phrase Piece

variable {cat : Catalog} {e : Engine} {ps : List Piece}

theorem Token.IsMark.exists_parts {t : Token} (h : t.IsMark e) :
    ∃ shown, e.Parts shown t.spelling.toList := by
  have hplain : ∀ t : Token, t.spelling.toList ≠ [] ∧ t.spelling.toList.all Text.isPlain = true →
      ∃ shown, e.Parts shown t.spelling.toList := fun t ht => ⟨_, .ofPlain ht.1 ht.2⟩
  cases h with
  | link h => exact hplain t ⟨Text.ne_nil_of_startsApart h.isApart.starts, h.isApart.inert.1⟩
  | clause h =>
    have hmarks : ∀ t ∈ selectMark :: (coreMarks ++ [orderMark]),
        t.spelling.toList ≠ [] ∧ t.spelling.toList.all Text.isPlain = true := by decide
    exact hplain t (hmarks t h)
  | member op => exact hplain _ (by cases op <;> decide)
  | paging ordered hl ho =>
    obtain ⟨shown, hparts, -, -⟩ := Engine.exists_parts_paging hl ho e ordered
    exact ⟨shown, hparts⟩

theorem shows_names (he : e ≠ .generic) {names : List String}
    (hn : ∀ s ∈ names, (Vocabulary.inert e).name s) :
    (nameList names).PiecesIn cat (Dialect.standard e) (Shows cat e []) := by
  have hd := Dialect.writesText_standard e
  intro ps hp
  obtain ⟨front, last, hfront, hlast, rfl⟩ := Draft.pieces_plus_eq_ok.1 hp
  obtain ⟨first, list, hfirst, hlist, rfl⟩ := Draft.pieces_plus_eq_ok.1 hfront
  obtain rfl := Draft.eq_of_pieces_token hfirst (by decide)
  obtain rfl := Draft.eq_of_pieces_token hlast (by decide)
  have hlinked : (Draft.commaSeparated (names.map nameDraft)).PiecesIn cat (Dialect.standard e)
      (Linked (Shows cat e []) Token.IsLink) := by
    refine .commaSeparated .nil .comma fun x hx => ?_
    obtain ⟨s, hs, rfl⟩ := List.mem_map.1 hx
    refine Draft.PiecesIn.phrase fun qs hqs => ?_
    obtain rfl := Except.ok.inj ((Draft.pieces_name hd s).symm.trans hqs)
    exact .word (Dialect.shows_name he (hn s hs))
  exact (Shows.ofLinked (fun _ => Token.IsLink.isApart) (hlinked list hlist)).closes.brackets rfl rfl

/-- What the phrases of all clauses have in common starts no clause. -/
theorem covers_shows (he : e ≠ .generic) :
    Covers cat (Dialect.standard e) (.inert e) (Shows cat e []) where
  nil := .nil
  rows := .token (Text.IsInert.shows (by decide) e)
  name s hs := .word (Dialect.shows_name he hs)
  list names hn := shows_names he hn
  distinct ps h := h.beforeInert (by decide)
  join kind hk ps h := by
    have hword : IsInert (kind ++ " JOIN") := Text.IsInert.before hk (by decide)
    exact h.beforeInert ⟨hword.before (by decide),
      by simp [Token.spelling, Fixity.spell, endsApart, Text.isWordChar]⟩

/-- A call closes what it opens. -/
theorem Piece.Shows.call {s : String} (hs : IsInert s) (h : Closes cat e ps) :
    Shows cat e [] (.word s :: (.token .opening :: ps ++ [.token .closing])) := by
  intro cs hcs
  cases hcs with
  | @word _ _ bs hrest =>
    have hbrackets := h.brackets (t := .opening) (u := .closing) rfl rfl bs hrest
    obtain ⟨rest, rfl⟩ : ∃ rest, bs = '(' :: rest := by
      cases hrest with
      | token _ h => exact ⟨_, rfl⟩
    have hall := hbrackets.led s.toList hs.1 rfl
    rwa [hs.2] at hall

/-- However expressions are put together, they start no clause. -/
theorem phrasing_shows (he : e ≠ .generic) : Phrasing cat (Dialect.standard e) (.inert e) IsInert
    (fun _ => Shows cat e []) (Shows cat e []) (Closes cat e) := by
  have hsigns : ∀ s ∈ signSymbols, IsInert (Token.operator .before s).spelling ∧
      endsApart (Token.operator .before s).spelling.toList = true := by decide
  have hnulls : ∀ s ∈ nullTests, IsInert (Token.operator .behind s).spelling ∧
      startsApart (Token.operator .behind s).spelling.toList = true := by decide
  have hbetween : ∀ s ∈ scalarSymbols ++ pairTests, (Token.operator .between s).IsApart := by decide
  have hlinked : ∀ words ∈ linkedTests, (Token.operator .between words.1).IsApart ∧
      (Token.operator .between words.2).IsApart := by decide
  exact {
    toCovers := covers_shows he
    operation := id
    operand := fun _ _ _ _ _ _ h => h
    lower := by decide
    concat := by decide
    phrase := id
    statement := Closes.ofLinked (fun _ => Shows.closes) fun _ => Token.IsMark.exists_parts
    weaken := fun h _ _ => h
    value := fun v cs hcs => by
      obtain ⟨s, hs, rfl⟩ := hcs.exists_of_value
      exact Dialect.shows_mark hs
    column := fun hq hn =>
      (Shows.word (Dialect.shows_name he hq)).apart (by decide) (.word (Dialect.shows_name he hn))
    clock := .token Dialect.shows_clock
    packed := fun s => .word (Dialect.shows_packText (Dialect.standard e) s)
    escape := fun s hs => .token (Dialect.shows_escape hs)
    bracketed := fun h => h.brackets rfl rfl
    call := fun hs h => .call (Dialect.isInert_spelled hs) h.closes
    comma := fun h h' => h.apart (by decide) h'
    direction := fun descending h => h.behindInert (by cases descending <;> decide)
    sign := fun hs h => h.beforeInert (hsigns _ hs)
    infixed := fun hs h h' => h.apart (hbetween _ (List.mem_append_left _ hs)) h'
    null := fun hs _ h => h.behindInert (hnulls _ hs)
    pair := fun hs _ _ h h' => h.apart (hbetween _ (List.mem_append_right _ hs)) h'
    linked := fun hs _ _ _ h h' h'' => h.apart (hlinked _ hs).1 (h'.apart (hlinked _ hs).2 h'')
    not := fun h => h.beforeInert (by decide)
    chain := fun c h h' => h.apart (by cases c <;> decide) h' }

end Phrases

end SqlCompose
