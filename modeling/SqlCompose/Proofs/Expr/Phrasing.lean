import SqlCompose.Proofs.Expr.Comparison
import SqlCompose.Proofs.Expr.Grammar
import SqlCompose.Proofs.Render.Clauses

/-!
# How expressions are written

What is written of an expression is put together from names, values, calls, brackets and operators,
level by level. A property of rows of pieces that all of these keep is one of whatever is written of
a composed expression, SELECTs in brackets included.
-/
namespace SqlCompose

open Phrase

/-! ## Operators -/

/-- Whether an expression is a term of an order. -/
def Expr.isOrder : Expr → Bool
  | .order .. => true
  | _ => false

/-- Whether an operator is written with its operands between brackets. -/
def Operator.brackets : Operator → Bool
  | .function | .aggregate _ | .list => true
  | _ => false

/-- Whether a symbol is one of an operator, where functions have some symbols. The symbols of
conditions are their own. -/
def Operator.HasSymbol (F : String → Prop) : Operator → String → Prop
  | .function, symbol | .aggregate _, symbol => F symbol
  | .binary, symbol => symbol ∈ scalarSymbols ++ comparisonSymbols
  | .unary trailing, symbol => symbol ∈ if trailing then nullTests else signSymbols
  | _, _ => True

/-- Rows of pieces for each level of expressions, rows of phrases, and rows of statements, which are
closed under how expressions and SELECTs of a vocabulary are written. -/
structure Phrasing (cat : Catalog) (d : Dialect) (V : Vocabulary) (F : String → Prop)
    (R : Level → List Piece → Prop) (P Q : List Piece → Prop) : Prop
    extends Piece.Covers cat d V P where
  /- Operators and their operands. -/
  operation : ∀ {op symbol arguments}, V.operation op symbol arguments → op.HasSymbol F symbol
  operand : ∀ {op symbol arguments}, V.operation op symbol arguments → op.brackets = false →
    ∀ x ∈ arguments, x.isOrder = true → ∀ ps, P ps → R .atom ps
  lower : F "LOWER"
  concat : F "CONCAT"
  /- From one kind of rows to another one. -/
  phrase : ∀ {level ps}, R level ps → P ps
  statement : ∀ {ps}, Piece.Linked P (Token.IsMark d.engine) ps → Q ps
  weaken : ∀ {level parent ps}, R level ps → parent.rank ≤ level.rank →
    (level.isArithmetic = true → parent.isArithmetic = true →
      level = .concat ∨ parent = .concat → level = parent) → R parent ps
  /- Names, values and other atoms. -/
  value : ∀ v, R .atom [.value v]
  column : ∀ {qualifier name}, V.name qualifier → V.name name →
    R .atom [.word (quoteName d.identifierQuote qualifier), .token (.text "."),
      .word (quoteName d.identifierQuote name)]
  clock : R .atom [.token (.text Dialect.clock)]
  packed : ∀ s, R .atom [.word (d.packText s)]
  escape : ∀ s, d.engine.likeEscape? = some s → R .atom [.token (.text s)]
  bracketed : ∀ {ps}, Q ps → R .atom (.token .opening :: ps ++ [.token .closing])
  call : ∀ {symbol ps}, F symbol → P ps →
    R .atom (.word (d.spelled symbol) :: (.token .opening :: ps ++ [.token .closing]))
  /- Phrases. -/
  comma : ∀ {ps qs}, P ps → P qs → P (ps ++ .token (.text ", ") :: qs)
  direction : ∀ {ps} (descending : Bool), P ps →
    P (ps ++ [.token (.operator .behind (if descending then "DESC" else "ASC"))])
  /- Operators, the strongest first. -/
  sign : ∀ {symbol ps}, symbol ∈ signSymbols → R .unary ps →
    R .unary (.token (.operator .before symbol) :: ps)
  infixed : ∀ {symbol ps qs}, symbol ∈ scalarSymbols → R (binaryLevel symbol) ps →
    R (binaryLevel symbol) qs →
    R (binaryLevel symbol) (ps ++ .token (.operator .between symbol) :: qs)
  null : ∀ {symbol level ps}, symbol ∈ nullTests → Level.comparison.rank < level.rank →
    R level ps → R .comparison (ps ++ [.token (.operator .behind symbol)])
  pair : ∀ {symbol left right ps qs}, symbol ∈ pairTests → Level.comparison.rank < left.rank →
    Level.comparison.rank < right.rank → R left ps → R right qs →
    R .comparison (ps ++ .token (.operator .between symbol) :: qs)
  linked : ∀ {word link left middle right ps qs rs}, (word, link) ∈ linkedTests →
    Level.comparison.rank < left.rank → Level.comparison.rank < middle.rank →
    Level.comparison.rank < right.rank → R left ps → R middle qs → R right rs →
    R .comparison (ps ++ .token (.operator .between word)
      :: (qs ++ .token (.operator .between link) :: rs))
  not : ∀ {ps}, R .not ps → R .not (.token (.operator .before "NOT") :: ps)
  chain : ∀ {ps qs} (c : Connective), R c.level ps → R c.level qs →
    R c.level (ps ++ .token (.operator .between c.symbol) :: qs)

/-- Without parentheses concatenation and other arithmetic never stand under one another. -/
theorem eq_of_not_needsParentheses {level parent : Level} {symbol parentSymbol : String} {side : Side}
    (h : ¬needsParentheses level symbol parent parentSymbol side = true)
    (hl : level.isArithmetic = true) (hp : parent.isArithmetic = true)
    (hc : level = .concat ∨ parent = .concat) : level = parent := by
  have hle : parent.rank ≤ level.rank :=
    Nat.not_lt.1 fun hlt => h (needsParentheses_of_weaker _ _ _ hlt)
  refine Level.rank_injective (Nat.le_antisymm (Nat.not_lt.1 fun hlt => h ?_) hle)
  rw [needsParentheses, if_neg (Nat.not_lt.2 hle), if_pos hlt]
  simpa [hl, hp] using hc

namespace Phrasing

variable {cat : Catalog} {d : Dialect} {V : Vocabulary} {F : String → Prop}
  {R : Level → List Piece → Prop} {P Q : List Piece → Prop} {x y : Expr} {a : Value}
  {symbol : String} {arguments : List Expr} {ps : List Piece}

/-- Whether whatever is written of an expression is a row of its level. -/
def Fits (cat : Catalog) (d : Dialect) (R : Level → List Piece → Prop) (x : Expr) : Prop :=
  (x.reference cat d.engine).PiecesIn cat d (R x.level)

section Rules

variable (h : Phrasing cat d V F R P Q)
include h

theorem statement_of_phrase (hp : P ps) : Q ps := h.statement (.phrase hp)

theorem separated {rows : List (List Piece)} (hr : ∀ ps ∈ rows, P ps) :
    P (Piece.separated (.text ", ") rows) := by
  induction rows using Piece.separated.induct with
  | case1 => exact h.nil
  | case2 ps => exact hr ps (by simp)
  | case3 ps qs rows ih =>
    rw [List.forall_mem_cons] at hr
    exact h.comma hr.1 (ih hr.2)

theorem phrases (hx : Fits cat d R x) : (x.reference cat d.engine).PiecesIn cat d P :=
  fun ps hp => h.phrase (hx ps hp)

/-- An atom stands at every level. -/
theorem atom_weaken {level : Level} (hp : R .atom ps) : R level ps :=
  h.weaken hp (by cases level <;> decide) fun harithmetic => by cases harithmetic

/-! ## Operands -/

/-- An operand under an operator is a row of the operator's level, and a comparison has operands of
stronger levels. -/
theorem exists_under (hx : Fits cat d R x) {parent : Level} {parentSymbol : String} {side : Side}
    (hp : ((x.operand cat d.engine).under parent parentSymbol side).pieces cat d = .ok ps) :
    R parent ps ∧ (parent = .comparison → ∃ level : Level,
      Level.comparison.rank < level.rank ∧ R level ps) := by
  unfold Operand.under at hp
  split at hp
  · obtain ⟨own, hown, rfl⟩ := Draft.pieces_parenthesized_eq_ok.1 hp
    have hatom := h.bracketed (h.statement_of_phrase (h.phrases hx own hown))
    exact ⟨h.atom_weaken hatom, fun _ => ⟨.atom, by decide, hatom⟩⟩
  · rename_i hn
    have hle : parent.rank ≤ x.level.rank :=
      Nat.not_lt.1 fun hlt => hn (needsParentheses_of_weaker _ _ _ hlt)
    refine ⟨h.weaken (hx ps hp) hle (eq_of_not_needsParentheses hn), ?_⟩
    rintro rfl
    exact ⟨x.level, rank_lt_of_not_needsParentheses hn (.inl rfl), hx ps hp⟩

theorem under (hx : Fits cat d R x) {parent : Level} {parentSymbol : String} {side : Side}
    (hp : ((x.operand cat d.engine).under parent parentSymbol side).pieces cat d = .ok ps) :
    R parent ps := (h.exists_under hx hp).1

theorem compared (hx : Fits cat d R x) {parentSymbol : String} {side : Side}
    (hp : ((x.operand cat d.engine).under .comparison parentSymbol side).pieces cat d = .ok ps) :
    ∃ level : Level, Level.comparison.rank < level.rank ∧ R level ps := (h.exists_under hx hp).2 rfl

/-! ## Names, values and calls -/

theorem fits_literal (a v : Value) (k : Option DataKind) : Fits cat d R (.literal a v k) := by
  intro ps hp
  rw [Expr.reference, Expr.drafted, Drafted.whole_of, Draft.pieces] at hp
  obtain rfl := Except.ok.inj hp
  exact h.value v

theorem fits_column (hd : d.WritesText) (a : Value) {id : ColumnId} (hc : V.HasColumn cat id) :
    Fits cat d R (.column a id) := by
  intro ps hp
  rw [Expr.reference, Expr.drafted, Drafted.whole_of] at hp
  have hnamed : cat.qualifier id ≠ "" := by
    intro hnone
    simp [columnDraft, hnone, Draft.pieces] at hp
  obtain rfl := pieces_columnDraft hd hp
  exact h.column (hc.name_qualifier hnamed) hc.1

section Calls

variable (hd : d.WritesText)
include hd

theorem callWith {lead : Option String} (hl : ∀ s ∈ lead, s = "DISTINCT ") {items : List Draft}
    (hs : F symbol) (hi : ∀ z ∈ items, z.PiecesIn cat d P) :
    (callWith symbol lead items).PiecesIn cat d (R .atom) := by
  intro ps hp
  obtain ⟨rows, hrows, rfl⟩ := (Draft.pieces_callWith_eq_ok hd).1 hp
  have hrow : ∀ qs ∈ rows, P qs := by
    intro qs hqs
    obtain ⟨z, hz, hpz⟩ := Draft.mem_piecesAll hrows hqs
    exact hi z hz qs hpz
  refine h.call hs (h.separated ?_)
  cases lead with
  | none => exact hrow
  | some s =>
    obtain rfl := hl s rfl
    cases rows with
    | nil => simp [Piece.led]
    | cons first others =>
      rw [List.forall_mem_cons] at hrow
      exact List.forall_mem_cons.2 ⟨h.distinct first hrow.1, hrow.2⟩

theorem callDraft {e : Engine} {items : List Draft} (hs : F symbol)
    (hi : ∀ z ∈ items, z.PiecesIn cat d P) :
    (callDraft e symbol items).PiecesIn cat d (R .atom) := by
  unfold SqlCompose.callDraft
  split
  · intro ps hp
    rw [Draft.pieces_asking] at hp
    obtain rfl := Draft.eq_of_pieces_token hp (by decide)
    exact h.clock
  · exact h.callWith hd (by simp) hs hi

omit h hd in
theorem piecesIn_operands (hx : ∀ y ∈ arguments, (y.reference cat d.engine).PiecesIn cat d P) :
    ∀ z ∈ (arguments.map (·.operand cat d.engine)).map (·.draft), z.PiecesIn cat d P := by
  intro z hz
  rw [List.map_map] at hz
  obtain ⟨y, hy, rfl⟩ := List.mem_map.1 hz
  exact hx y hy

theorem fits_function (hs : F symbol)
    (hx : ∀ y ∈ arguments, (y.reference cat d.engine).PiecesIn cat d P) :
    Fits cat d R (.apply a .function symbol arguments) := by
  intro ps hp
  rw [reference_apply, Operator.draft, Operator.functionDraft] at hp
  split at hp
  · simp [Draft.pieces] at hp
  · exact h.callDraft hd hs (piecesIn_operands hx) ps hp

theorem fits_aggregate {distinct : Bool} (hs : F symbol)
    (hx : ∀ y ∈ arguments, (y.reference cat d.engine).PiecesIn cat d P) :
    Fits cat d R (.apply a (.aggregate distinct) symbol arguments) := by
  intro ps hp
  rw [reference_apply, Operator.draft, Operator.aggregateDraft.eq_def] at hp
  split at hp
  · simp [Draft.pieces] at hp
  · cases arguments with
    | nil =>
      refine h.callWith hd (by simp) hs (fun z hz qs hqs => ?_) ps hp
      obtain rfl := List.mem_singleton.1 hz
      obtain rfl := Draft.eq_of_pieces_token hqs (by decide)
      exact h.rows
    | cons first others =>
      refine h.callWith hd ?_ hs (piecesIn_operands hx) ps hp
      cases distinct <;> simp

end Calls

/-! ## Brackets -/

theorem parenthesized {z : Draft} (hz : z.PiecesIn cat d Q) :
    z.parenthesized.PiecesIn cat d (R .atom) := by
  intro ps hp
  obtain ⟨own, hown, rfl⟩ := Draft.pieces_parenthesized_eq_ok.1 hp
  exact h.bracketed (hz own hown)

theorem fits_list (hx : ∀ y ∈ arguments, (y.reference cat d.engine).PiecesIn cat d P) :
    Fits cat d R (.apply a .list symbol arguments) := by
  intro ps hp
  rw [reference_apply, Operator.draft, Operator.listDraft] at hp
  split at hp
  · simp [Draft.pieces] at hp
  · refine h.parenthesized (fun qs hqs => h.statement_of_phrase ?_) ps hp
    obtain ⟨rows, hrows, rfl⟩ := Draft.pieces_row_eq_ok.1 hqs
    refine h.separated fun rs hrs => ?_
    obtain ⟨z, hz, hpz⟩ := Draft.mem_piecesAll hrows hrs
    exact piecesIn_operands hx z hz rs hpz

theorem fits_group (hx : (x.reference cat d.engine).PiecesIn cat d P) :
    Fits cat d R (.group a x) := by
  intro ps hp
  rw [Expr.reference, Expr.drafted, Drafted.whole_of] at hp
  exact h.parenthesized (fun qs hqs => h.statement_of_phrase (hx qs hqs)) ps hp

theorem fits_subquery {q : Select} (hq : ((Value.select q).built cat d.engine).PiecesIn cat d Q) :
    Fits cat d R (.subquery a (.select q)) := by
  intro ps hp
  rw [Expr.reference, Expr.drafted, Drafted.whole_of] at hp
  exact h.parenthesized hq ps hp

theorem phrases_order {descending : Bool} (hx : (x.reference cat d.engine).PiecesIn cat d P) :
    ((Expr.order a x descending).reference cat d.engine).PiecesIn cat d P := by
  intro ps hp
  rw [Expr.reference, Expr.drafted, Drafted.whole_of] at hp
  obtain ⟨own, direction, hown, hdirection, rfl⟩ := Draft.pieces_plus_eq_ok.1 hp
  obtain rfl := Draft.eq_of_pieces_token hdirection (by simp)
  exact h.direction descending (hx own hown)

/-! ## Operators of scalars -/

/-- An infix operator, or a function in its place. -/
theorem fits_binary (hd : d.WritesText) (hs : symbol ∈ scalarSymbols ++ comparisonSymbols)
    (hx : Fits cat d R x) (hy : Fits cat d R y) :
    Fits cat d R (.apply a .binary symbol [x, y]) := by
  intro ps hp
  change R (binaryLevel symbol) ps
  rw [reference_apply] at hp
  change (if symbol = "" then Draft.fail _
    else if symbol = "||" then concatDraft d.engine (x.operand cat d.engine) (y.operand cat d.engine)
    else infixDraft symbol (x.operand cat d.engine) (y.operand cat d.engine)).pieces cat d = _ at hp
  have hinfixed : (infixDraft symbol (x.operand cat d.engine) (y.operand cat d.engine)).pieces cat d
      = .ok ps → R (binaryLevel symbol) ps := by
    intro hp
    obtain ⟨left, right, hleft, hright, rfl⟩ := Draft.pieces_infixed_eq_ok.1 hp
    rcases List.mem_append.1 hs with hs | hs
    · exact h.infixed hs (h.under hx hleft) (h.under hy hright)
    · have hlevel := binaryLevel_of_comparison hs
      rw [hlevel] at hleft hright ⊢
      obtain ⟨l, hl, hleft⟩ := h.compared hx hleft
      obtain ⟨r, hr, hright⟩ := h.compared hy hright
      exact h.pair (List.mem_append_right _ hs) hl hr hleft hright
  split at hp
  · simp [Draft.pieces] at hp
  · split at hp
    · rename_i heq
      subst heq
      rw [concatDraft, Draft.pieces_asking] at hp
      split at hp
      · refine h.atom_weaken (h.callDraft hd h.concat (fun z hz => ?_) ps hp)
        simp only [List.mem_cons, List.not_mem_nil, or_false] at hz
        rcases hz with rfl | rfl
        · exact h.phrases hx
        · exact h.phrases hy
      · exact hinfixed hp
    · exact hinfixed hp

theorem fits_sign (hs : symbol ∈ signSymbols) (hx : Fits cat d R x) :
    Fits cat d R (.apply a (.unary false) symbol [x]) := by
  intro ps hp
  rw [reference_apply] at hp
  obtain ⟨own, hown, rfl⟩ := Draft.pieces_before_operator_eq_ok.1 hp
  rw [Draft.pieces] at hown
  exact h.sign hs (h.under hx hown)

/-! ## Conditions -/

theorem fits_null (hs : symbol ∈ nullTests) (hx : Fits cat d R x) :
    Fits cat d R (.apply a (.unary true) symbol [x]) := by
  intro ps hp
  rw [reference_apply] at hp
  obtain ⟨own, behind, hown, hbehind, rfl⟩ := Draft.pieces_plus_eq_ok.1 hp
  obtain rfl := Draft.eq_of_pieces_token hbehind (by simp)
  rw [Draft.pieces] at hown
  obtain ⟨level, hlevel, hown⟩ := h.compared hx hown
  exact h.null hs hlevel hown

theorem fits_not (hx : Fits cat d R x) : Fits cat d R (.apply a .not symbol [x]) := by
  intro ps hp
  rw [reference_apply] at hp
  obtain ⟨own, hown, rfl⟩ := Draft.pieces_before_operator_eq_ok.1 hp
  exact h.not (h.under hx hown)

theorem chained (c : Connective) {rows : List (List Piece)} (hp : R c.level ps)
    (hr : ∀ qs ∈ rows, R c.level qs) :
    R c.level (Piece.separated (.operator .between c.symbol) (ps :: rows)) := by
  induction rows generalizing ps with
  | nil => exact hp
  | cons qs rows ih =>
    rw [List.forall_mem_cons] at hr
    exact h.chain c hp (ih hr.1 hr.2)

theorem fits_boolean (hx : ∀ y ∈ arguments, Fits cat d R y) :
    Fits cat d R (.apply a .boolean symbol arguments) := by
  intro ps hp
  rw [reference_apply, Operator.draft, Operator.booleanDraft.eq_def] at hp
  split at hp
  · simp [Draft.pieces] at hp
  · rename_i hsymbol
    obtain ⟨c, rfl⟩ : ∃ c : Connective, symbol = c.symbol := by
      by_cases hand : symbol = "AND"
      · exact ⟨.and, hand⟩
      · exact ⟨.or, not_not.1 fun hor => hsymbol ⟨hand, hor⟩⟩
    have hlevel : Operator.boolean.level c.symbol = c.level := by cases c <;> rfl
    cases arguments with
    | nil => simp [Draft.pieces] at hp
    | cons first others =>
      rw [List.forall_mem_cons] at hx
      simp only [List.map_cons, hlevel] at hp
      obtain ⟨rows, hrows, rfl⟩ := Draft.pieces_row_eq_ok.1 hp
      obtain ⟨own, rest, hown, hrest, rfl⟩ := Draft.piecesAll_cons_eq_ok.1 hrows
      change R (Operator.boolean.level c.symbol) _
      rw [hlevel]
      refine h.chained c (h.under hx.1 hown) fun qs hqs => ?_
      obtain ⟨z, hz, hpz⟩ := Draft.mem_piecesAll hrest hqs
      rw [List.map_map] at hz
      obtain ⟨y, hy, rfl⟩ := List.mem_map.1 hz
      exact h.under (hx.2 y hy) hpz

theorem fits_between {negated : Bool} {low high : Expr} (hx : Fits cat d R x)
    (hl : Fits cat d R low) (hh : Fits cat d R high) :
    Fits cat d R (.apply a (.between negated) symbol [x, low, high]) := by
  intro ps hp
  rw [reference_apply] at hp
  obtain ⟨front, highs, hfront, hhighs, rfl⟩ := Draft.pieces_plus_eq_ok.1 hp
  obtain ⟨test, link, htest, hlink, rfl⟩ := Draft.pieces_plus_eq_ok.1 hfront
  obtain rfl := Draft.eq_of_pieces_token hlink (by simp)
  obtain ⟨ls, lows, hls, hlows, rfl⟩ := Draft.pieces_infixed_eq_ok.1 htest
  rw [Draft.pieces] at hhighs
  obtain ⟨left, hleft, hls⟩ := h.compared hx hls
  obtain ⟨middle, hmiddle, hlows⟩ := h.compared hl hlows
  obtain ⟨right, hright, hhighs⟩ := h.compared hh hhighs
  have hwords : (if negated then "NOT BETWEEN" else "BETWEEN", "AND") ∈ linkedTests := by
    cases negated <;> decide
  have htested := h.linked hwords hleft hmiddle hright hls hlows hhighs
  simpa [Expr.level, Operator.level] using htested

/-! ## LIKE -/

section Like

variable (form : LikeForm) (hd : d.WritesText)
include hd

theorem fits_foldedExpr (hx : Fits cat d R x) : Fits cat d R (form.foldedExpr x) := by
  unfold LikeForm.foldedExpr
  split
  · exact h.fits_function hd h.lower (by simpa using h.phrases hx)
  · exact hx

/-- The pattern of a LIKE test joins the needle and its wildcards. -/
theorem fits_patternExpr (hx : Fits cat d R x) : Fits cat d R (form.patternExpr x) := by
  have hfolded := h.fits_foldedExpr form hd hx
  have hwild : Fits cat d R LikeForm.wildcardExpr := h.fits_literal _ _ _
  have hjoined : ∀ {y z : Expr}, Fits cat d R y → Fits cat d R z →
      Fits cat d R (.apply .none .binary "||" [y, z]) :=
    fun hy hz => h.fits_binary hd (by decide) hy hz
  unfold LikeForm.patternExpr
  split
  · exact h.fits_literal _ _ _
  · dsimp only
    split
    · split
      · exact hjoined (hjoined hwild hfolded) hwild
      · exact hjoined hfolded hwild
    · split
      · exact hjoined hwild hfolded
      · exact hfolded

omit hd in
theorem escapePieces {p : Piece} (hp : form.escapePieces d y = some [p]) : R .atom [p] := by
  unfold LikeForm.escapePieces at hp
  split at hp
  · obtain rfl := List.singleton_inj.1 (Option.some.inj hp)
    exact h.packed _
  · split at hp
    · obtain ⟨s, hs, hp⟩ := Option.map_eq_some_iff.1 hp
      obtain rfl := List.singleton_inj.1 hp
      exact h.escape s hs
    · cases hp

theorem fits_like (hx : Fits cat d R x) (hy : Fits cat d R y) :
    Fits cat d R (.apply a (.like form) symbol [x, y]) := by
  intro ps hp
  rw [reference_apply] at hp
  have htest : (form.test d.engine symbol (x.operand cat d.engine)
      (y.operand cat d.engine)).pieces cat d = .ok ps := form.pieces_draft hp
  obtain ⟨front, es, hfront, hes, rfl⟩ := Draft.pieces_plus_eq_ok.1 htest
  obtain ⟨ls, rs, hls, hrs, rfl⟩ := Draft.pieces_infixed_eq_ok.1 hfront
  rw [← form.operand_foldedExpr] at hls
  have hrs := ((form.matches_pattern y).under symbol .right).symm.trans hrs
  obtain ⟨left, hl, hls⟩ := h.compared (h.fits_foldedExpr form hd hx) hls
  obtain ⟨right, hr, hrs⟩ := h.compared (h.fits_patternExpr form hd hy) hrs
  rcases LikeForm.pieces_escapeClause hd hes with ⟨-, rfl⟩ | ⟨p, hsome, rfl, -, -⟩
  · rw [List.append_nil]
    exact h.pair (by cases form.negated <;> decide) hl hr hls hrs
  · have hwords : (if form.negated then "NOT LIKE" else "LIKE", "ESCAPE") ∈ linkedTests := by
      cases form.negated <;> decide
    have htested := h.linked hwords hl hr (by decide) hls hrs (h.escapePieces form hsome)
    simpa [Expr.level, Operator.level] using htested

end Like

/-! ## Composed values -/

omit h in
/-- What is not rendered at all is rendered as whatever there is to show. -/
theorem fits_of_fail {op : Operator} {e : Error}
    (hf : op.draft d.engine symbol (arguments.map (·.operand cat d.engine)) = .fail e) :
    Fits cat d R (.apply a op symbol arguments) := by
  intro ps hp
  rw [reference_apply, hf, Draft.pieces] at hp
  cases hp

/-- An operator of operands that fit is a row of its level. With another number of operands than it
has it is not rendered. -/
theorem fits_apply (hd : d.WritesText) {op : Operator} (hs : op.HasSymbol F symbol)
    (hp : ∀ y ∈ arguments, (y.reference cat d.engine).PiecesIn cat d P)
    (hx : op.brackets = false → ∀ y ∈ arguments, Fits cat d R y) :
    Fits cat d R (.apply a op symbol arguments) := by
  cases op with
  | function => exact h.fits_function hd hs hp
  | aggregate distinct => exact h.fits_aggregate hd hs hp
  | list => exact h.fits_list hp
  | boolean => exact h.fits_boolean (hx rfl)
  | binary =>
    have hx := hx rfl
    have hne : symbol ≠ "" := by
      rintro rfl
      have hempty : "" ∉ scalarSymbols ++ comparisonSymbols := by decide
      exact hempty hs
    match arguments, hx with
    | [x, y], hx => exact h.fits_binary hd hs (hx x (by simp)) (hx y (by simp))
    | [], _ | [_], _ | _ :: _ :: _ :: _, _ => exact fits_of_fail (if_neg hne)
  | unary trailing =>
    have hx := hx rfl
    match arguments, hx with
    | [x], hx =>
      cases trailing with
      | false => exact h.fits_sign hs (hx x (by simp))
      | true => exact h.fits_null hs (hx x (by simp))
    | [], _ | _ :: _ :: _, _ => exact fits_of_fail rfl
  | not =>
    have hx := hx rfl
    match arguments, hx with
    | [x], hx => exact h.fits_not (hx x (by simp))
    | [], _ | _ :: _ :: _, _ => exact fits_of_fail rfl
  | between negated =>
    have hx := hx rfl
    match arguments, hx with
    | [x, low, high], hx =>
      exact h.fits_between (hx x (by simp)) (hx low (by simp)) (hx high (by simp))
    | [], _ | [_], _ | [_, _], _ | _ :: _ :: _ :: _ :: _, _ => exact fits_of_fail rfl
  | like form =>
    have hx := hx rfl
    match arguments, hx with
    | [x, y], hx => exact h.fits_like form hd (hx x (by simp)) (hx y (by simp))
    | [], _ | [_], _ | _ :: _ :: _ :: _, _ => exact fits_of_fail rfl

/-- Whether whatever is written of an expression is a phrase, and a row of its level unless it is a
term of an order, and whatever is written of a SELECT is phrases with marks between them. -/
def Keeps (cat : Catalog) (d : Dialect) (R : Level → List Piece → Prop) (P : List Piece → Prop) :
    Value → Prop
  | .expr x => (x.reference cat d.engine).PiecesIn cat d P ∧ (x.isOrder = false → Fits cat d R x)
  | .select q => ((Value.select q).built cat d.engine).PiecesIn cat d
    (Piece.Linked P (Token.IsMark d.engine))
  | _ => True

theorem keeps (hd : d.WritesText) {v : Value} (hv : v.Composed cat V) : Keeps cat d R P v := by
  have hkeeps : ∀ {x : Expr}, Fits cat d R x → Keeps cat d R P (.expr x) :=
    fun hx => ⟨h.phrases hx, fun _ => hx⟩
  induction hv with
  | literal v k ha => exact hkeeps (h.fits_literal _ _ _)
  | column ha hc => exact hkeeps (h.fits_column hd _ hc)
  | @apply a op symbol arguments ha ho hx ih =>
    refine hkeeps (h.fits_apply hd (h.operation ho) (fun y hy => (ih y hy).1) fun hb y hy => ?_)
    cases horder : y.isOrder with
    | false => exact (ih y hy).2 horder
    | true =>
      intro ps hp
      exact h.atom_weaken (h.operand ho hb y hy horder ps ((ih y hy).1 ps hp))
  | order descending ha hx ih => exact ⟨h.phrases_order ih.1, nofun⟩
  | group ha hx ih => exact hkeeps (h.fits_group ih.1)
  | subquery ha hq ih => exact hkeeps (h.fits_subquery fun ps hp => h.statement (ih ps hp))
  | @select c ho ht hj hx hm ih ihm =>
    have hcovered : c.Covered cat d V P := c.covered ho ht hj hx fun x hx => (ih x hx).1
    exact hcovered.linked_built hd h.toCovers ihm

end Rules

end Phrasing

end SqlCompose
