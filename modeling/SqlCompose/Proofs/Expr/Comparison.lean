import SqlCompose.Proofs.Expr.Condition

/-!
# Reading comparisons back

What is rendered from an operator of scalars reads as a scalar, and what is rendered from a
comparison or a test reads as that comparison of its operands. The AND of a range and the escape
character of a LIKE test belong to them.
-/
namespace SqlCompose

section Reading

variable {cat : Catalog} {d : Dialect} {x y : Expr} {ps : List Piece} {a : Value} {symbol : String}

/-! ## Signs and infix operators -/

theorem not_mem_conditionWords (h : symbol ∈ scalarSymbols) :
    symbol ∉ Predicate.conditionWords := by
  revert symbol
  decide

theorem ne_exists_of_scalarSymbols (h : symbol ∈ scalarSymbols) : symbol ≠ "EXISTS" := by
  rintro rfl
  exact absurd h (by decide)

/-- The operators of scalars bind more strongly than comparisons. -/
theorem concat_le_binaryLevel (h : symbol ∈ scalarSymbols) :
    Level.concat.rank ≤ (binaryLevel symbol).rank := by
  revert symbol
  decide

theorem binaryLevel_le_unary (h : symbol ∈ scalarSymbols) :
    (binaryLevel symbol).rank ≤ Level.unary.rank := by
  revert symbol
  decide

theorem mem_scalarSymbols_of_sign (h : symbol ∈ ["+", "-"]) : symbol ∈ scalarSymbols := by
  revert symbol
  decide

theorem Expr.isRead_sign (hs : symbol ∈ ["+", "-"]) (h : x.IsRead cat d) :
    (Expr.apply a (.unary false) symbol [x]).IsRead cat d := by
  have hscalar := mem_scalarSymbols_of_sign hs
  have hne := ne_exists_of_scalarSymbols hscalar
  intro ps hp
  have hparts := hp
  rw [reference_apply] at hparts
  obtain ⟨own, hown, rfl⟩ := Draft.pieces_before_operator_eq_ok.1 hparts
  rw [Draft.pieces] at hown
  obtain ⟨row, q, hread, -, -⟩ := h.under hown
  have hplain := hread.fits.plain (by decide)
  have hx : (Expr.apply a (.unary false) symbol [x]).predicate d
      = .scalar (.apply a (.unary false) symbol [x]) := by
    exact Expr.predicate_sign d a x hne
  have hf : Predicate.Fits .unary (.leaf (.token (.operator .before symbol)) :: row) := by
    refine .ofPlain (by simp) ?_ fun h => absurd h (by decide)
    simpa using ⟨not_mem_conditionWords hscalar, hplain⟩
  have hlevel : Level.comparison.rank < Level.unary.rank := by decide
  refine ⟨_, _, readsAs_row hx hp (.cons_token rfl hread.scanned) hf hlevel (by simp) ?_ rfl⟩
  rintro item rest heq hi
  obtain ⟨rfl, rfl⟩ := List.cons.inj heq
  exact absurd (Option.some.inj hi) hne

/-- An infix operator of scalars reads as itself. -/
theorem Expr.readsAs_infixed (hs : symbol ∈ scalarSymbols) (hx : x.IsRead cat d)
    (hy : y.IsRead cat d)
    (hp : ((Expr.apply a .binary symbol [x, y]).reference cat d.engine).pieces cat d = .ok ps)
    (hparts : (infixDraft symbol (x.operand cat d.engine) (y.operand cat d.engine)).pieces cat d
      = .ok ps) : ∃ row q, ((Expr.apply a .binary symbol [x, y]).predicate d).ReadsAs cat d ps
        (binaryLevel symbol) row q := by
  obtain ⟨left, right, hleft, hright, rfl⟩ := Draft.pieces_infixed_eq_ok.1 hparts
  obtain ⟨row, p, hl, -, -⟩ := hx.under hleft
  obtain ⟨other, q, hr, -, -⟩ := hy.under hright
  have hlevel : Level.comparison.rank < (binaryLevel symbol).rank := concat_le_binaryLevel hs
  have hlplain := hl.fits.plain hlevel
  have hrplain := hr.fits.plain hlevel
  have hsymbol : symbol ∉ comparisonSymbols := by
    intro h
    exact not_mem_conditionWords hs (by simp [Predicate.conditionWords, Predicate.comparisonWords, h])
  have hscalar : (Expr.apply a .binary symbol [x, y]).predicate d
      = .scalar (.apply a .binary symbol [x, y]) := by
    exact Expr.predicate_infixed d a x y hsymbol
  have hf : Predicate.Fits (binaryLevel symbol)
      (row ++ .leaf (.token (.operator .between symbol)) :: other) := by
    refine .ofPlain (by simp) ?_ fun h => absurd h (Nat.not_lt.2 (binaryLevel_le_unary hs))
    intro word hword
    simp only [Item.operators_append, Item.operators_operator, List.mem_append,
      List.mem_cons] at hword
    rcases hword with hword | rfl | hword
    · exact hlplain word hword
    · exact not_mem_conditionWords hs
    · exact hrplain word hword
  have hn : left ≠ [] := hl.scanned.pieces_ne_nil hl.fits.nonempty
  have hopens : Predicate.startsStatement
      (left ++ .token (.operator .between symbol) :: right) = false := by
    rw [Predicate.startsStatement_append hn, hl.opens]
  refine ⟨_, _, readsAs_row hscalar hp (hl.scanned.append (.cons_token rfl hr.scanned)) hf hlevel
    ?_ ?_ hopens⟩
  · cases row with
    | nil => exact absurd rfl hl.fits.nonempty
    | cons item row => simp
  · rintro item rest heq -
    cases row with
    | nil => exact absurd rfl hl.fits.nonempty
    | cons item' row =>
      obtain ⟨rfl, rfl⟩ := List.cons.inj heq
      simp

/-- Joined texts read as themselves, whether an engine has an operator or a function for them. -/
theorem Expr.isRead_infixed (hd : d.WritesText) (hs : symbol ∈ scalarSymbols) (hx : x.IsRead cat d)
    (hy : y.IsRead cat d) (hw : (Value.expr (.apply a .binary symbol [x, y])).WellFormed) :
    (Expr.apply a .binary symbol [x, y]).IsRead cat d := by
  intro ps hp
  have hlevel : Level.comparison.rank < (binaryLevel symbol).rank := concat_le_binaryLevel hs
  have hparts := hp
  rw [reference_apply] at hparts
  change (if symbol = "" then Draft.fail _
    else if symbol = "||" then concatDraft d.engine (x.operand cat d.engine) (y.operand cat d.engine)
    else infixDraft symbol (x.operand cat d.engine) (y.operand cat d.engine)).pieces cat d = _
    at hparts
  split at hparts
  · simp [Draft.pieces] at hparts
  · split at hparts
    · rename_i heq
      subst heq
      rw [concatDraft, Draft.pieces_asking] at hparts
      split at hparts
      · have hitems := (settled_operands cat d.engine hw).drafts
        exact readsAs_call rfl hp (isCall_callDraft hd hitems hparts) hlevel
      · exact readsAs_infixed hs hx hy hp hparts
    · exact readsAs_infixed hs hx hy hp hparts

/-! ## Tests -/

/-- EXISTS reads as a test of its operand, which is bare or in brackets. -/
theorem Expr.isRead_existence (h : x.IsRead cat d) :
    (Expr.apply a (.unary false) "EXISTS" [x]).IsRead cat d := by
  intro ps hp
  rw [reference_apply] at hp
  obtain ⟨own, hown, rfl⟩ := Draft.pieces_before_operator_eq_ok.1 hp
  rw [Draft.pieces] at hown
  obtain ⟨row, q, hread, hwritten, hfits⟩ := h.under hown
  have hatom : Predicate.Fits .atom row := hfits (.inr ⟨rfl, by decide⟩) .atom (by decide)
  have hbare := hatom.bare (by decide)
  have hf : Predicate.Fits .unary (.leaf (.token (.operator .before "EXISTS")) :: row) := by
    refine .ofPlain (by simp) ?_ fun h => absurd h (by decide)
    rw [Item.operators_operator, hbare]
    decide
  have hconcat : Predicate.Fits .concat _ := hf.mono (by decide)
  refine ⟨_, .existence own, .cons_token rfl hread.scanned, hf, ?_, ?_, rfl⟩
  · rw [hconcat.readRow_of_scalar, Predicate.readScalar, if_pos ⟨rfl, hatom.nonempty, hbare⟩,
      hread.scanned.flatten_eq]
    simp
  · rw [Expr.predicate_existence]
    exact .existence hwritten

section Tests

variable {ls rs : List Piece} {left right : Predicate.Row}

/-- A comparison reads as its first operand and what follows. -/
theorem Expr.StandsAs.readsAs_test (hl : x.StandsAs cat d ls left) {fixity : Fixity}
    {word : String} (hw : word ∈ Predicate.comparisonWords)
    (hr : ScannedAs Predicate.readRow rs right)
    (hf : Predicate.Fits .comparison (left ++ .leaf (.token (.operator fixity word)) :: right))
    {p : Predicate Expr} {q : Predicate (List Piece)}
    (ht : Predicate.readTest ls word right = some q) (ha : p.Alike (IsWrittenAs cat d) q) :
    p.ReadsAs cat d (ls ++ .token (.operator fixity word) :: rs) .comparison
      (left ++ .leaf (.token (.operator fixity word)) :: right) q := by
  have hfree : ∀ other ∈ Item.operators left, other ∉ Predicate.comparisonWords :=
    fun other ho hc => hl.fits.plain (by decide) other ho (List.mem_append_right _ hc)
  refine ⟨hl.scanned.append (.cons_token rfl hr), hf, ?_, ha, ?_⟩
  · rw [hf.readRow_of_comparison, Predicate.readComparison,
      Predicate.breakAt_append hfree fixity hw]
    simp [hl.operand_eq, ht]
  · rw [Predicate.startsStatement_append (hl.scanned.pieces_ne_nil hl.fits.nonempty), hl.opens]

/-- A null test behind its operand. -/
theorem Expr.isRead_null (hs : symbol ∈ ["IS NULL", "IS NOT NULL"]) (h : x.IsRead cat d) :
    (Expr.apply a (.unary true) symbol [x]).IsRead cat d := by
  have hw : symbol ∈ Predicate.comparisonWords ∧ symbol ∉ Predicate.linkWords := by
    revert symbol
    decide
  intro ps hp
  rw [reference_apply] at hp
  obtain ⟨own, behind, hown, hbehind, rfl⟩ := Draft.pieces_plus_eq_ok.1 hp
  obtain rfl := Draft.eq_of_pieces_token hbehind (by simp)
  rw [Draft.pieces] at hown
  obtain ⟨row, hrow⟩ := h.stands hown
  refine ⟨_, .null (symbol = "IS NOT NULL") own, hrow.readsAs_test hw.1 .nil
    (.ofFreeTest hrow.fits .behind hw.1 hw.2 (by simp)) ?_ ?_⟩
  · simp only [List.mem_cons, List.not_mem_nil, or_false] at hs
    simp [Predicate.readTest, hs]
  · rw [Expr.predicate_null]
    exact .null _ hrow.written

theorem Predicate.readTest_compare {word : String} (h : word ∈ comparisonSymbols)
    {b : List Piece} (ho : operand right = some b) :
    readTest ls word right = some (.compare word ls b) := by
  simp only [comparisonSymbols, List.mem_cons, List.not_mem_nil, or_false] at h
  rcases h with rfl | rfl | rfl | rfl | rfl | rfl | rfl | rfl | rfl | rfl | rfl <;>
    simp [readTest, ho]

/-- A comparison of two operands that stand as they are rendered on their own. -/
theorem Expr.isRead_compare (hs : symbol ∈ comparisonSymbols) (hx : x.IsRead cat d)
    (hy : ∀ rs, ((y.operand cat d.engine).under .comparison symbol .right).pieces cat d = .ok rs →
      ∃ right, y.StandsAs cat d rs right) :
    (Expr.apply a .binary symbol [x, y]).IsRead cat d := by
  have hw : symbol ∈ Predicate.comparisonWords := List.mem_append_right _ hs
  have hn : symbol ∉ Predicate.linkWords ∧ symbol ≠ "" ∧ symbol ≠ "||" := by
    clear hy
    revert symbol
    decide
  have hlevel := binaryLevel_of_comparison hs
  intro ps hp
  rw [reference_apply] at hp
  change (if symbol = "" then Draft.fail _
    else if symbol = "||" then concatDraft d.engine (x.operand cat d.engine) (y.operand cat d.engine)
    else infixDraft symbol (x.operand cat d.engine) (y.operand cat d.engine)).pieces cat d = _ at hp
  rw [if_neg hn.2.1, if_neg hn.2.2, infixDraft, hlevel] at hp
  obtain ⟨ls, rs, hls, hrs, rfl⟩ := Draft.pieces_infixed_eq_ok.1 hp
  obtain ⟨left, hl⟩ := hx.stands hls
  obtain ⟨right, hr⟩ := hy rs hrs
  have hread : ((Expr.apply a .binary symbol [x, y]).predicate d).Alike (IsWrittenAs cat d)
      (.compare symbol ls rs) := by
    rw [Expr.predicate_compare d a x y hs]
    exact .compare symbol hl.written hr.written
  rw [show (Expr.apply a .binary symbol [x, y]).level = .comparison from hlevel]
  exact ⟨_, _, hl.readsAs_test hw hr.scanned (.ofFreeTest hl.fits .between hw hn.1 hr.fits.free)
    (Predicate.readTest_compare hs hr.operand_eq) hread⟩

/-- A list of values stands in brackets. -/
theorem Expr.standsAs_list (hd : d.WritesText) {b : Value} {listSymbol : String}
    {items : List Expr} (hw : (Value.expr (.apply b .list listSymbol items)).WellFormed)
    (hp : (((Expr.apply b .list listSymbol items).operand cat d.engine).under .comparison symbol
      .right).pieces cat d = .ok ps) :
    ∃ row, (Expr.apply b .list listSymbol items).StandsAs cat d ps row := by
  have hown : ((Expr.apply b .list listSymbol items).reference cat d.engine).pieces cat d
      = .ok ps := by
    have hne : Level.comparison ≠ .atom := by decide
    rwa [Operand.under_of_atom (o := (Expr.apply b .list listSymbol items).operand cat d.engine)
      rfl hne] at hp
  have hparts := hown
  rw [reference_apply, Operator.draft, Operator.listDraft] at hparts
  split at hparts
  · simp [Draft.pieces] at hparts
  · obtain ⟨content, hcontent, rfl⟩ := Draft.pieces_parenthesized_eq_ok.1 hparts
    have hsettled : (Draft.commaSeparated _).Settled cat true :=
      .commaSeparated (settled_operands cat d.engine hw).drafts
    obtain ⟨row, hrow⟩ := hsettled.exists_scannedAs Predicate.readRow hd hcontent
    exact ⟨_, hrow.group, .group .., ⟨_, hown, .inl rfl⟩, rfl⟩

/-- The AND of a range belongs to the range. -/
theorem Expr.isRead_between {negated : Bool} {low high : Expr} (hx : x.IsRead cat d)
    (hl : low.IsRead cat d) (hh : high.IsRead cat d) :
    (Expr.apply a (.between negated) symbol [x, low, high]).IsRead cat d := by
  intro ps hp
  rw [reference_apply] at hp
  obtain ⟨front, highs, hfront, hhighs, rfl⟩ := Draft.pieces_plus_eq_ok.1 hp
  obtain ⟨test, link, htest, hlink, rfl⟩ := Draft.pieces_plus_eq_ok.1 hfront
  obtain rfl := Draft.eq_of_pieces_token hlink (by simp)
  obtain ⟨ls, lows, hls, hlows, rfl⟩ := Draft.pieces_infixed_eq_ok.1 htest
  rw [Draft.pieces] at hhighs
  obtain ⟨left, hleft⟩ := hx.stands hls
  obtain ⟨lower, hlower⟩ := hl.stands hlows
  obtain ⟨upper, hupper⟩ := hh.stands hhighs
  have hshape : ls ++ Piece.token (.operator .between (if negated then "NOT BETWEEN" else "BETWEEN"))
      :: lows ++ [Piece.token (.operator .between "AND")] ++ highs
      = ls ++ .token (.operator .between (if negated then "NOT BETWEEN" else "BETWEEN"))
        :: (lows ++ .token (.operator .between "AND") :: highs) := by
    simp
  have hbreak : Predicate.breakAt ["AND"]
      (lower ++ .leaf (.token (.operator .between "AND")) :: upper) = some (lower, "AND", upper) := by
    refine Predicate.breakAt_append (fun word hword hand => ?_) .between (by decide)
    obtain rfl := List.mem_singleton.1 hand
    exact hlower.fits.and_free hword
  rw [hshape]
  refine ⟨_, .between negated ls lows highs, hleft.readsAs_test (by cases negated <;> decide)
    (hlower.scanned.append (.cons_token rfl hupper.scanned))
    (.ofRange hleft.fits hlower.fits hupper.fits negated) ?_ ?_⟩
  · cases negated <;>
      simp [Predicate.readTest, hbreak, hlower.operand_eq, hupper.operand_eq]
  · rw [Expr.predicate_between]
    exact .between negated hleft.written hlower.written hupper.written

/-! ## LIKE -/

/-- Operands that are written in the same way under a comparison. Where texts are joined by an
operator they are the same. -/
structure Operand.Matches (cat : Catalog) (d : Dialect) (o o' : Operand) : Prop where
  pieces : o.draft.pieces cat d = o'.draft.pieces cat d
  under : ∀ symbol side, (o.under .comparison symbol side).pieces cat d
    = (o'.under .comparison symbol side).pieces cat d
  infixed : d.engine.concatenation = .infixed → o = o'

theorem Operand.Matches.refl (o : Operand) : o.Matches cat d o :=
  ⟨rfl, fun _ _ => rfl, fun _ => rfl⟩

theorem callDraft_of_ne (e : Engine) (h : symbol ≠ "NOW") (items : List Draft) :
    callDraft e symbol items = callWith symbol none items := by
  unfold callDraft
  split
  · exact absurd rfl h
  · rfl

variable (cat) in
theorem operand_concat (e : Engine) (x y : Expr) :
    (Expr.apply .none .binary "||" [x, y]).operand cat e
      = { level := .concat, symbol := "||", text := none
          draft := concatDraft e (x.operand cat e) (y.operand cat e) } := by
  rw [Expr.operand, reference_apply]
  rfl

/-- Joined texts as an operand are the operator that joins them, however an engine spells it. -/
theorem Operand.Matches.concat {o o' : Operand} (ho : o.Matches cat d (x.operand cat d.engine))
    (ho' : o'.Matches cat d (y.operand cat d.engine)) :
    (concatOperand d.engine o o').Matches cat d
      ((Expr.apply .none .binary "||" [x, y]).operand cat d.engine) := by
  rw [operand_concat]
  generalize x.operand cat d.engine = left at ho
  generalize y.operand cat d.engine = right at ho'
  cases he : d.engine.concatenation with
  | infixed =>
    obtain rfl := ho.infixed he
    obtain rfl := ho'.infixed he
    rw [concatOperand, he]
    exact .refl _
  | called =>
    have hargs : Draft.piecesAll cat d [o.draft, o'.draft]
        = Draft.piecesAll cat d [left.draft, right.draft] := by
      simp only [Draft.piecesAll, ho.pieces, ho'.pieces]
    have hpieces : (callDraft d.engine "CONCAT" [o.draft, o'.draft]).pieces cat d
        = (concatDraft d.engine left right).pieces cat d := by
      rw [concatDraft, Draft.pieces_asking, he, callDraft_of_ne _ (by decide)]
      simp only [callDraft_of_ne _ (show "CONCAT" ≠ "NOW" by decide), callWith, Draft.pieces, hargs]
    have hnone : ∀ symbol side, needsParentheses .concat "||" .comparison symbol side = false := by
      simp [needsParentheses, Level.rank, Level.isArithmetic]
    have hne : Level.comparison ≠ .atom := by decide
    rw [concatOperand, he]
    refine ⟨hpieces, fun symbol side => ?_, fun h => by simp [he] at h⟩
    rw [Operand.under_of_atom rfl hne, Operand.under, hnone, if_neg Bool.false_ne_true]
    exact hpieces

namespace LikeForm

variable (form : LikeForm)

theorem operand_foldedExpr (x : Expr) :
    (form.foldedExpr x).operand cat d.engine = form.fold d.engine (x.operand cat d.engine) := by
  unfold foldedExpr fold
  split
  · rw [Expr.operand, reference_apply]
    rfl
  · rfl

theorem matches_wildcard :
    wildcard.Matches cat d (wildcardExpr.operand cat d.engine) := by
  refine (?_ : wildcard = wildcardExpr.operand cat d.engine) ▸ .refl _
  rw [Expr.operand, wildcardExpr, Expr.reference, Expr.drafted]
  rfl

/-- The pattern of a LIKE test is written as its expression is. -/
theorem matches_pattern (y : Expr) :
    (match (y.operand cat d.engine).text with
      | some s => Operand.ofText (form.pattern s)
      | none => form.computedPattern d.engine (y.operand cat d.engine)).Matches cat d
        ((form.patternExpr y).operand cat d.engine) := by
  change (match y.text? with
      | some s => Operand.ofText (form.pattern s)
      | none => form.computedPattern d.engine (y.operand cat d.engine)).Matches cat d _
  cases ht : y.text? with
  | some s =>
    simp only [patternExpr, ht]
    refine (?_ : Operand.ofText (form.pattern s) = _) ▸ .refl _
    rw [Expr.operand, Expr.reference, Expr.drafted]
    rfl
  | none =>
    simp only [patternExpr, computedPattern, ht]
    have hfolded : (form.fold d.engine (y.operand cat d.engine)).Matches cat d
        ((form.foldedExpr y).operand cat d.engine) := form.operand_foldedExpr y ▸ .refl _
    have hopened : (if form.fuzzyStart then
        concatOperand d.engine wildcard (form.fold d.engine (y.operand cat d.engine))
        else form.fold d.engine (y.operand cat d.engine)).Matches cat d
          ((if form.fuzzyStart then
            .apply .none .binary "||" [wildcardExpr, form.foldedExpr y]
            else form.foldedExpr y : Expr).operand cat d.engine) := by
      split
      · exact matches_wildcard.concat hfolded
      · exact hfolded
    by_cases hend : form.fuzzyEnd = true
    · rw [if_pos hend, if_pos hend]
      exact hopened.concat matches_wildcard
    · rw [if_neg hend, if_neg hend]
      exact hopened

end LikeForm

/-- The escape character of a LIKE test is one piece of text behind its keyword. -/
theorem LikeForm.pieces_escapeClause (hd : d.WritesText) {form : LikeForm} {es : List Piece}
    (hp : (escapeClause (form.escapeLiteral? d.engine (y.text?.isSome && form.escapeNeedle))).pieces
      cat d = .ok es) :
    (form.escapePieces d y = none ∧ es = []) ∨
      ∃ p, form.escapePieces d y = some [p] ∧ es = [.token (.operator .between "ESCAPE"), p] ∧
        ScannedAs Predicate.readRow [p] [.leaf p] ∧
          Item.operators (α := Predicate (List Piece)) [.leaf p] = [] := by
  unfold escapeLiteral? at hp
  unfold escapePieces
  cases hm : form.explicitEscape with
  | some mark =>
    right
    simp only [hm, escapeClause] at hp
    obtain ⟨link, own, hlink, hown, rfl⟩ := Draft.pieces_plus_eq_ok.1 hp
    obtain rfl := Draft.eq_of_pieces_token hlink (by simp)
    have hliteral : d.literalText cat (.text mark) = .ok (d.packText mark) := by
      rfl
    rw [Draft.pieces, Draft.pieces_packed hd, hliteral] at hown
    obtain rfl := Except.ok.inj hown
    exact ⟨_, rfl, rfl, .word _, rfl⟩
  | none =>
    simp only [hm] at hp
    by_cases he : (y.text?.isSome && form.escapeNeedle) = true
    · rw [if_pos he] at hp
      rw [if_pos he]
      cases hl : d.engine.likeEscape? with
      | none =>
        left
        simp only [hl, Option.map_none, escapeClause] at hp
        exact ⟨rfl, Except.ok.inj hp |>.symm⟩
      | some mark =>
        right
        simp only [hl, Option.map_some, escapeClause] at hp
        obtain ⟨link, own, hlink, hown, rfl⟩ := Draft.pieces_plus_eq_ok.1 hp
        obtain rfl := Draft.eq_of_pieces_token hlink (by simp)
        have hmark : mark ≠ "" := by
          cases hengine : d.engine <;> simp [hengine, Engine.likeEscape?] at hl <;> simp [← hl]
        obtain rfl := Draft.eq_of_pieces_token hown (by simpa using hmark)
        exact ⟨_, rfl, rfl, .token rfl, rfl⟩
    · left
      rw [if_neg he] at hp
      rw [if_neg he]
      exact ⟨rfl, Except.ok.inj hp |>.symm⟩

namespace LikeForm

variable (form : LikeForm)

/-- A LIKE test has the pieces of the test itself: all else is looked at for its failures alone. -/
theorem pieces_draft {e : Engine} {o o' : Operand}
    (hp : (form.draft e symbol o o').pieces cat d = .ok ps) :
    (form.test e symbol o o').pieces cat d = .ok ps := by
  have hasked : ∀ (parts : List String) (z : Draft),
      (parts.foldr Draft.asking z).pieces cat d = z.pieces cat d := by
    intro parts z
    induction parts with
    | nil => rfl
    | cons part parts ih => rw [List.foldr_cons, Draft.pieces_asking, ih]
  unfold draft at hp
  rw [Draft.pieces_asking] at hp
  split at hp
  · rw [← hasked]
    exact (Draft.pieces_before_eq_ok.1 hp).2
  · rwa [hasked] at hp

section Patterns

variable (hd : d.WritesText) (h : x.IsRead cat d) (hw : (Value.expr x).WellFormed)
include hd h hw

theorem isRead_foldedExpr : (form.foldedExpr x).IsRead cat d := by
  unfold foldedExpr
  split
  · exact Expr.isRead_function hd (by simpa using hw)
  · exact h

omit hd h in
theorem wellFormed_foldedExpr : (Value.expr (form.foldedExpr x)).WellFormed := by
  unfold foldedExpr
  split
  · simpa using hw
  · exact hw

theorem isRead_patternExpr : (form.patternExpr x).IsRead cat d := by
  have hjoined : ∀ {y z : Expr}, y.IsRead cat d → (Value.expr y).WellFormed → z.IsRead cat d →
      (Value.expr z).WellFormed → (Expr.apply .none .binary "||" [y, z]).IsRead cat d ∧
        (Value.expr (.apply .none .binary "||" [y, z])).WellFormed := by
    intro y z hy hyw hz hzw
    have hboth : (Value.expr (.apply .none .binary "||" [y, z])).WellFormed := by
      simpa using ⟨hyw, hzw⟩
    exact ⟨Expr.isRead_infixed hd (by decide) hy hz hboth, hboth⟩
  have hwild : wildcardExpr.IsRead cat d := Expr.isRead_literal _ _ _
  have hwildw : (Value.expr wildcardExpr).WellFormed := Expr.wellFormed_literal _ _
  have hfolded := form.isRead_foldedExpr hd h hw
  have hfoldedw := form.wellFormed_foldedExpr hw
  have hopened := hjoined hwild hwildw hfolded hfoldedw
  unfold patternExpr
  split
  · exact Expr.isRead_literal _ _ _
  · dsimp only
    split
    · split
      · exact (hjoined hopened.1 hopened.2 hwild hwildw).1
      · exact (hjoined hfolded hfoldedw hwild hwildw).1
    · split
      · exact hopened.1
      · exact hfolded

end Patterns

end LikeForm

theorem Predicate.readTest_like (negated : Bool)
    (hf : ∀ word ∈ Item.operators right, word ∉ ["ESCAPE"]) (ho : operand right = some rs) :
    readTest ls (if negated then "NOT LIKE" else "LIKE") right = some (.like negated ls rs none) := by
  have hbreak := breakAt_eq_none hf
  cases negated <;> simp [readTest, hbreak, ho]

theorem Predicate.readTest_like_escape (negated : Bool)
    (hf : ∀ word ∈ Item.operators right, word ∉ ["ESCAPE"]) (ho : operand right = some rs)
    {p : Piece} (hp : Item.operators (α := Predicate (List Piece)) [.leaf p] = []) :
    readTest ls (if negated then "NOT LIKE" else "LIKE")
      (right ++ [.leaf (.token (.operator .between "ESCAPE")), .leaf p])
      = some (.like negated ls rs (some [p])) := by
  have hbreak : _ = some (_, _, [Item.leaf p]) :=
    breakAt_append hf .between (List.mem_singleton.2 rfl)
  have hmark : operand [.leaf p] = some [p] := by
    rw [(Fits.ofBare (by simp) hp).operand_eq]
    rfl
  cases negated <;> simp [readTest, hbreak, ho, hmark]

/-- A LIKE test reads as a test of its haystack for its pattern, with its escape character. -/
theorem Expr.isRead_like (hd : d.WritesText) {form : LikeForm} (hx : x.IsRead cat d)
    (hxw : (Value.expr x).WellFormed) (hy : y.IsRead cat d) (hyw : (Value.expr y).WellFormed) :
    (Expr.apply a (.like form) symbol [x, y]).IsRead cat d := by
  intro ps hp
  rw [reference_apply] at hp
  have htest : (form.test d.engine symbol (x.operand cat d.engine)
      (y.operand cat d.engine)).pieces cat d = .ok ps := form.pieces_draft hp
  obtain ⟨front, es, hfront, hes, rfl⟩ := Draft.pieces_plus_eq_ok.1 htest
  obtain ⟨ls, rs, hls, hrs, rfl⟩ := Draft.pieces_infixed_eq_ok.1 hfront
  rw [← form.operand_foldedExpr] at hls
  have hrs := ((form.matches_pattern y).under symbol .right).symm.trans hrs
  obtain ⟨left, hleft⟩ := (form.isRead_foldedExpr hd hx hxw).stands hls
  obtain ⟨right, hright⟩ := (form.isRead_patternExpr hd hy hyw).stands hrs
  have hword : (if form.negated then "NOT LIKE" else "LIKE") ∈ Predicate.comparisonWords ∧
      (if form.negated then "NOT LIKE" else "LIKE") ∉ Predicate.linkWords := by
    cases form.negated <;> decide
  have hfree : ∀ word ∈ Item.operators right, word ∉ ["ESCAPE"] := by
    intro word hw hescape
    obtain rfl := List.mem_singleton.1 hescape
    exact hright.fits.plain (by decide) _ hw (by decide)
  have halike : ∀ escape, ((Expr.apply a (.like form) symbol [x, y]).predicate d) =
      .like form.negated (form.foldedExpr x) (form.patternExpr y) escape →
      ((Expr.apply a (.like form) symbol [x, y]).predicate d).Alike (IsWrittenAs cat d)
        (.like form.negated ls rs escape) := by
    intro escape heq
    rw [heq]
    exact .like _ escape hleft.written hright.written
  rcases LikeForm.pieces_escapeClause hd hes with ⟨hnone, rfl⟩ | ⟨p, hsome, rfl, hscan, hbare⟩
  · rw [List.append_nil]
    refine ⟨_, _, hleft.readsAs_test hword.1 hright.scanned
      (.ofFreeTest hleft.fits .between hword.1 hword.2 hright.fits.free)
      (Predicate.readTest_like form.negated hfree hright.operand_eq) (halike _ ?_)⟩
    rw [Expr.predicate_like, hnone]
  · rw [List.append_assoc, List.cons_append]
    have hescape : ScannedAs Predicate.readRow [.token (.operator .between "ESCAPE"), p]
        [.leaf (.token (.operator .between "ESCAPE")), .leaf p] := .cons_token rfl hscan
    refine ⟨_, _, hleft.readsAs_test hword.1 (hright.scanned.append hescape)
      (.ofFreeTest hleft.fits .between hword.1 hword.2 ?_)
      (Predicate.readTest_like_escape form.negated hfree hright.operand_eq hbare) (halike _ ?_)⟩
    · intro word hw
      rw [Item.operators_append, Item.operators_operator, hbare, List.mem_append] at hw
      rcases hw with hw | hw
      · exact hright.fits.free word hw
      · obtain rfl := List.mem_singleton.1 hw
        decide
    · rw [Expr.predicate_like, hsome]

end Tests

end Reading

end SqlCompose
