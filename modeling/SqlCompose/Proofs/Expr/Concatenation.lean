import SqlCompose.Proofs.Expr.Placed
import SqlCompose.Proofs.Expr.Reading

/-!
# The place of concatenation

Engines disagree on where concatenation stands among the arithmetic operators. Parentheses keep it
and arithmetic apart wherever one stands under the other, so whatever is rendered from an expression
of known operators is read in the same way by all engines, SELECTs in brackets included.
-/
namespace SqlCompose

open Phrase

/-- All names, functions and joins, and the operators with known symbols. A term of an order is no
operand. -/
def Vocabulary.ofOperators : Vocabulary where
  name _ := True
  operation op symbol arguments := op.HasSymbol (fun _ => True) symbol ∧
    (op.brackets = false → ∀ x ∈ arguments, x.isOrder = false)
  joinKind _ := True

section Expressions

variable {cat : Catalog} {d : Dialect} {x : Expr} {ps : List Piece}

/-- The marks of a SELECT part its phrases. -/
theorem Token.IsMark.parts {e : Engine} {t : Token} (h : t.IsMark e) : t.Parts := by
  cases h with
  | link h => cases h <;> rfl
  | clause h =>
    simp only [selectMark, coreMarks, orderMark, List.cons_append, List.nil_append, List.mem_cons,
      List.not_mem_nil, or_false] at h
    rcases h with rfl | rfl | rfl | rfl | rfl | rfl <;> rfl
  | member op => rfl
  | paging ordered hl ho => simp [Token.Parts, Phrase.IsMark, Cutter.isMark]

/-- Names between parentheses that belong to a clause. -/
theorem scans_nameList (hd : d.WritesText) (names : List String) :
    (nameList names).PiecesIn cat d (Scans IsParted) := by
  intro ps hp
  obtain ⟨front, closing, hfront, hclosing, rfl⟩ := Draft.pieces_plus_eq_ok.1 hp
  obtain ⟨opening, content, hopening, hcontent, rfl⟩ := Draft.pieces_plus_eq_ok.1 hfront
  obtain rfl := Draft.eq_of_pieces_token hopening (by decide)
  obtain rfl := Draft.eq_of_pieces_token hclosing (by decide)
  obtain ⟨rows, hrows, rfl⟩ := Draft.pieces_row_eq_ok.1 hcontent
  have hcomma : (Piece.token (.text ", ")).isPlain = true := rfl
  have hplain : ∀ p ∈ Piece.separated (.text ", ") rows, p.isPlain = true := by
    refine Piece.forall_mem_separated hcomma fun qs hqs p hp => ?_
    obtain ⟨y, hy, hpy⟩ := Draft.mem_piecesAll hrows hqs
    obtain ⟨s, -, rfl⟩ := List.mem_map.1 hy
    obtain rfl := Except.ok.inj ((Draft.pieces_name hd s).symm.trans hpy)
    obtain rfl := List.mem_singleton.1 hp
    rfl
  have hall : ∀ p ∈ [Piece.token (.text "(")] ++ Piece.separated (.text ", ") rows
      ++ [Piece.token (.text ")")], p.isPlain = true := by
    intro p hp
    rw [List.mem_append, List.mem_append, List.mem_singleton, List.mem_singleton] at hp
    rcases hp with (rfl | hp) | rfl
    · rfl
    · exact hplain p hp
    · rfl
  exact Scans.plain hall [] (by simp)

/-- The rows that fit their levels are closed under how expressions are written. -/
theorem phrasing_scans (hd : d.WritesText) : Phrasing cat d .ofOperators (fun _ => True)
    (fun level => Scans (Fits level)) (Scans IsParted) (Scans IsParted) where
  nil := Scans.nil
  rows := .ofUnit (.atom (by simp) (by decide))
  name _ _ := .ofUnit (.atom (by simp) (by simp [Piece.isPlain, Cutter.isMark]))
  list names _ := scans_nameList hd names
  distinct _ hp := .led rfl hp
  join _ _ _ hp := .led rfl hp
  operation ho := ho.1
  operand ho hb x hx horder := by
    rw [ho.2 hb x hx] at horder
    cases horder
  lower := trivial
  concat := trivial
  phrase hp := hp.imp fun _ => Fits.isParted
  statement hp := .ofLinked (hp.imp fun _ => Token.IsMark.parts)
  weaken hp hle hm := hp.imp fun _ hrow => hrow.weaken _ hle hm
  value _ := .atom (by simp) (by simp [Piece.isPlain, Cutter.isMark])
  column _ _ := .atom (by simp) (by simp [Piece.isPlain, Cutter.isMark])
  clock := .atom (by simp) (by decide)
  packed _ := .atom (by simp) (by simp [Piece.isPlain, Cutter.isMark])
  escape s hs := by
    refine .atom (by simp) ?_
    revert hs
    cases d.engine <;> simp [Engine.likeEscape?] <;> rintro rfl <;> decide
  bracketed hp := hp.bracketed
  call _ hp := hp.call _
  comma hp hq := hp.marked rfl hq
  direction descending hp := hp.marked (by cases descending <;> rfl) .nil
  sign hs hp := hp.before rfl fun _ => IsUnit.sign .before hs
  infixed hs hp hq := hp.infixed hs hq
  null hs hl hp := (hp.isOperand hl).behind rfl fun _ hrow =>
    IsTest.null hrow (isOperator_leaf .behind hs)
  pair hs hl hr hp hq := (hp.isOperand hl).between rfl (hq.isOperand hr) fun _ _ hrow hother =>
    IsTest.pair hrow (isOperator_leaf .between hs) hother
  linked hw hl hm hr hp hq hs := .linked hw (hp.isOperand hl) (hq.isOperand hm) (hs.isOperand hr)
  not hp := hp.before rfl fun _ => IsNegation.not .before
  chain c hp hq := by
    refine hp.between rfl hq fun row other hrow hother => ?_
    cases c with
    | and => exact Joined.append hrow (isOperator_leaf .between (by decide)) hother
    | or => exact Joined.append hrow (isOperator_leaf .between (by decide)) hother

/-- Phrases are read in the same way wherever concatenation is placed. -/
theorem Phrase.Scans.exists_parse (h : Scans IsParted ps) :
    ∃ t, ∀ p : Placement, Phrase.parse p ps = some t := by
  obtain ⟨row, hrow, hr⟩ := h
  obtain ⟨t, ht⟩ := hr.steady
  exact ⟨t, fun p => (hrow p).readPieces_eq.trans (ht p)⟩

/-- The alias behind an expression is a phrase of its own. -/
theorem Expr.scans_alias (h : Scans IsParted ps) : Scans IsParted (ps ++ x.aliasPieces d) := by
  cases x with
  | column a id =>
    rw [aliasPieces]
    split
    · exact h.marked rfl (.ofUnit (.atom (by simp) (by simp [Piece.isPlain, Cutter.isMark])))
    · rwa [List.append_nil]
  | _ => simpa [aliasPieces] using h

/-- The SQL of an expression of known operators reads as one and the same tree wherever concatenation
stands between the comparisons and the signs, however values are marked. -/
theorem concatenation_read_alike (hd : d.WritesText)
    (hx : (Value.expr x).Composed cat .ofOperators) {style : PlaceholderStyle} {binding : Bool}
    {number : Nat} {bound rest : List Value} {sql : Value}
    (h : ((Value.expr x).built cat d.engine).outcome cat (.context (d.marking style binding) number)
      bound = (.ok sql, rest)) :
    ∃ (ps : List Piece) (marks : List String),
      (x.reference cat d.engine).pieces cat d = .ok ps ∧
      marks.length = (Piece.values ps).length ∧
      sql = .text ((Template.ofPieces (ps ++ x.aliasPieces d)).spelled marks) ∧
      ∃ t, ∀ p : Placement, Phrase.parse p (ps ++ x.aliasPieces d) = some t := by
  obtain ⟨ps, marks, hps, hlength, hsql⟩ := Expr.exists_pieces_of_outcome hd hx.wellFormed h
  have hphrases := ((phrasing_scans hd).keeps hd hx).1 ps hps
  exact ⟨ps, marks, hps, hlength, hsql, (Expr.scans_alias hphrases).exists_parse⟩

/-- Joined texts with a number added to them, like the ending of another text. -/
def Expr.ofJoinedTexts (s t : String) : Expr :=
  let literal := fun (v : Value) => Expr.literal .none v none
  .apply .none (.like { fuzzyEnd := false }) ""
    [.apply .none .binary "+"
      [.apply .none .binary "||" [literal (.text s), literal (.text t)], literal (.int 1)],
    .apply .none .function "TRIM" [literal (.text t)]]

theorem concatenation_read_alike_joined : (default : Dialect).WritesText ∧
    (Value.expr (.ofJoinedTexts "s" "t")).Composed default .ofOperators ∧
    ∃ (ps : List Piece) (marks : List String),
      Value.text "(? || ?) + ? LIKE ? || TRIM(?)" = .text ((Template.ofPieces ps).spelled marks) ∧
      ∃ t, ∀ p : Placement, Phrase.parse p ps = some t := by
  have hd : (default : Dialect).WritesText := ⟨rfl, rfl⟩
  have hnone : Vocabulary.ofOperators.IsAlias .none := fun h => absurd h (by decide)
  have hliteral : ∀ v, (Value.expr (.literal .none v none)).Composed default .ofOperators :=
    fun v => .literal v none hnone
  have hx : (Value.expr (.ofJoinedTexts "s" "t")).Composed default .ofOperators := by
    have hsymbol : Vocabulary.ofOperators.operation .binary "||"
        [.literal .none (.text "s") none, .literal .none (.text "t") none] :=
      ⟨List.mem_append_left _ (by decide), fun _ => by simp [Expr.isOrder]⟩
    refine .apply hnone ⟨trivial, fun _ => by simp [Expr.isOrder]⟩ ?_
    refine List.forall_mem_cons.2 ⟨.apply hnone ?_ ?_, List.forall_mem_singleton.2
      (.apply hnone ⟨trivial, nofun⟩ (by simpa using hliteral _))⟩
    · exact ⟨List.mem_append_left _ (by decide), fun _ => by simp [Expr.isOrder]⟩
    · exact List.forall_mem_cons.2 ⟨.apply hnone hsymbol (by simp [hliteral]), by simp [hliteral]⟩
  refine ⟨hd, hx, ?_⟩
  have h : ((Value.expr (.ofJoinedTexts "s" "t")).built default (default : Dialect).engine).outcome
      default (.context ((default : Dialect).marking .qmark true) 0) []
      = (.ok (.text "(? || ?) + ? LIKE ? || TRIM(?)"),
        [.text "s", .text "t", .int 1, .text "%", .text "t"]) := rfl
  obtain ⟨ps, marks, -, -, hsql, hparse⟩ := concatenation_read_alike hd hx h
  have hnothing : (Expr.ofJoinedTexts "s" "t").aliasPieces default = [] := rfl
  rw [hnothing, List.append_nil] at hsql hparse
  exact ⟨ps, marks, hsql, hparse⟩

/-- Without the parentheses the trees are different ones. -/
example :
    let operator := fun symbol => Piece.token (.operator .between symbol)
    let name := fun s => Piece.word s
    let ps := [name "s", operator "||", name "t", operator "+", name "n"]
    Phrase.parse .below ps = some (.joined [operator "||"] (.leaf [name "s"])
      (.joined [operator "+"] (.leaf [name "t"]) (.leaf [name "n"]))) ∧
    Phrase.parse .above ps = some (.joined [operator "+"]
      (.joined [operator "||"] (.leaf [name "s"]) (.leaf [name "t"])) (.leaf [name "n"])) :=
  ⟨rfl, rfl⟩

end Expressions

end SqlCompose
