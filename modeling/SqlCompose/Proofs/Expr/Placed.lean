import SqlCompose.Proofs.Expr.Phrasing
import SqlCompose.Proofs.Expr.Placement

/-!
# Pieces that read the same everywhere

The rows of a level are those of its operators. Pieces are scanned as such rows in the same way by
the grammars of all engines when what stands in their brackets reads the same by all of them.
-/
namespace SqlCompose

open Phrase

/-! ## Rows of a level -/

/-- The rows of the operators of a level. -/
def Phrase.Fits : Level → Row → Prop
  | .or => IsDisjunction
  | .and => IsConjunction
  | .not => IsNegation
  | .comparison => IsTest
  | .concat => IsConcat
  | .additive => IsSum
  | .multiplicative => IsProduct
  | .unary | .atom => IsUnit

namespace Phrase.Fits

variable {row : Row} {level parent : Level}

theorem ofUnit (h : IsUnit row) (level : Level) : Fits level row := by
  have htest : IsTest row := .operand h.isOperand
  cases level with
  | or => exact .one (.one (.test htest))
  | and => exact .one (.test htest)
  | not => exact .test htest
  | comparison => exact htest
  | concat => exact .one h
  | additive => exact .one (.one h)
  | multiplicative => exact .one h
  | unary | atom => exact h

theorem isOperand (h : Fits level row) (hl : Level.comparison.rank < level.rank) :
    IsOperand row := by
  cases level with
  | concat => exact .inl h
  | additive => exact .inr h
  | multiplicative => exact .inr (.one h)
  | unary | atom => exact IsUnit.isOperand h
  | _ => exact absurd hl (by decide)

/-- A row fits at every weaker level that has no other arithmetic than its own. -/
theorem weaken (h : Fits level row) (parent : Level) (hle : parent.rank ≤ level.rank)
    (hm : level.isArithmetic = true → parent.isArithmetic = true →
      level = .concat ∨ parent = .concat → level = parent) : Fits parent row := by
  cases level with
  | unary | atom => exact ofUnit h parent
  | or | and | not | comparison =>
    cases parent with
    | or => first | exact h | exact .one h | exact .one (.one h) | exact .one (.one (.test h))
    | and => first | exact h | exact .one h | exact .one (.test h) | exact absurd hle (by decide)
    | not => first | exact h | exact .test h | exact absurd hle (by decide)
    | comparison => first | exact h | exact absurd hle (by decide)
    | _ => exact absurd hle (by decide)
  | concat | additive | multiplicative =>
    have htest : IsTest row := .operand (h.isOperand (by decide))
    cases parent with
    | or => exact .one (.one (.test htest))
    | and => exact .one (.test htest)
    | not => exact .test htest
    | comparison => exact htest
    | concat => first | exact h | exact absurd (hm rfl rfl (by simp)) (by simp)
    | additive =>
      first | exact h | exact .one h | exact absurd hle (by decide)
    | multiplicative => first | exact h | exact absurd hle (by decide)
    | unary | atom => exact absurd hle (by decide)

theorem isDisjunction (h : Fits level row) : IsDisjunction row :=
  h.weaken .or (by cases level <;> decide) fun _ hp => absurd hp (by decide)

theorem isParted (h : Fits level row) : IsParted row := .one (.inr h.isDisjunction)

end Phrase.Fits

/-! ## Pieces that read the same everywhere -/

/-- Whether pieces are scanned as a row of some kind, which is the same wherever concatenation is
placed. -/
def Phrase.Scans (R : Row → Prop) (ps : List Piece) : Prop :=
  ∃ row, (∀ p : Placement, ScannedAs (readParts p.levels) ps row) ∧ R row

/-- Whether a token is a mark between phrases. -/
def Token.Parts (t : Token) : Prop := Phrase.IsMark (.leaf (.token t))

/-- Whether a piece is a name, a value, or text that is no keyword, operator or bracket. -/
def Piece.isPlain : Piece → Bool
  | .token (.text _) | .word _ | .value _ => true
  | .token _ => false

theorem Piece.operator?_of_isPlain {p : Piece} (h : p.isPlain = true) :
    (Item.leaf p : Item Phrase).operator? = none := by
  cases p with
  | token t => cases t <;> first | rfl | cases h
  | _ => rfl

namespace Phrase.Scans

variable {R S T : Row → Prop} {ps qs : List Piece} {t : Token}

theorem imp (hS : ∀ row, R row → S row) (h : Scans R ps) : Scans S ps := by
  obtain ⟨row, hrow, hr⟩ := h
  exact ⟨row, hrow, hS row hr⟩

/-- A token between two rows. -/
theorem between (h : Scans R ps) (ht : t.isBracket = false) (h' : Scans S qs)
    (hT : ∀ row other, R row → S other → T (row ++ .leaf (.token t) :: other)) :
    Scans T (ps ++ .token t :: qs) := by
  obtain ⟨row, hrow, hr⟩ := h
  obtain ⟨other, hother, hs⟩ := h'
  exact ⟨_, fun p => (hrow p).append (.cons_token ht (hother p)), hT row other hr hs⟩

/-- A token before a row. -/
theorem before (ht : t.isBracket = false) (h : Scans R ps)
    (hT : ∀ row, R row → T (.leaf (.token t) :: row)) : Scans T (.token t :: ps) := by
  obtain ⟨row, hrow, hr⟩ := h
  exact ⟨_, fun p => .cons_token ht (hrow p), hT row hr⟩

/-- A token behind a row. -/
theorem behind (h : Scans R ps) (ht : t.isBracket = false)
    (hT : ∀ row, R row → T (row ++ [.leaf (.token t)])) : Scans T (ps ++ [.token t]) := by
  obtain ⟨row, hrow, hr⟩ := h
  exact ⟨_, fun p => (hrow p).append (.token ht), hT row hr⟩

/-- What stands in brackets has been read, and its reading is the same everywhere. -/
theorem brackets (h : Scans IsParted ps) :
    ∃ content, Scans (· = [.group ps (some content)])
      (.token .opening :: ps ++ [.token .closing]) := by
  obtain ⟨row, hrow, hr⟩ := h
  obtain ⟨content, hcontent⟩ := hr.steady
  refine ⟨content, _, fun p => ?_, rfl⟩
  rw [← hcontent p]
  exact (hrow p).group

theorem bracketed (h : Scans IsParted ps) :
    Scans IsUnit (.token .opening :: ps ++ [.token .closing]) := by
  obtain ⟨content, hcontent⟩ := h.brackets
  refine hcontent.imp ?_
  rintro row rfl
  exact .atom (t := .brackets content) rfl (by simp [Cutter.isMark, Item.operator?])

/-- The name of a function before its arguments. -/
theorem call (name : String) (h : Scans IsParted ps) :
    Scans IsUnit (.word name :: (.token .opening :: ps ++ [.token .closing])) := by
  obtain ⟨content, row, hrow, rfl⟩ := h.brackets
  refine ⟨_, fun p => .cons_word name (hrow p), ?_⟩
  exact .atom (t := .call (.word name) content) rfl (by simp [Cutter.isMark, Item.operator?])

theorem nil : Scans IsParted [] := ⟨[], fun _ => .nil, .one (.inl rfl)⟩

theorem leaves (h : ∀ p ∈ ps, p.isPlain = true) (read : Row → Option Phrase) :
    ScannedAs read ps (ps.map .leaf) := by
  induction ps with
  | nil => exact .nil
  | cons p ps ih =>
    rw [List.forall_mem_cons] at h
    have hleaf : ScannedAs read [p] [.leaf p] := by
      cases p with
      | word s => exact .word s
      | value v => exact .value v
      | token t =>
        cases t with
        | text s => exact .token rfl
        | _ => cases h.1
    exact hleaf.append (ih h.2)

/-- Names, values and other text in a row are one atom. -/
theorem atom (hn : ps ≠ []) (h : ∀ p ∈ ps, p.isPlain = true ∧ Cutter.isMark (.leaf p) = false) :
    Scans IsUnit ps := by
  refine ⟨_, fun p => leaves (fun p hp => (h p hp).1) _, ?_⟩
  cases ps with
  | nil => exact absurd rfl hn
  | cons p ps =>
    have hread : readAtom ((p :: ps).map .leaf)
        = some (.leaf (Item.flatten ((p :: ps).map .leaf : Row))) := by
      unfold readAtom
      split
      · rename_i heq
        cases heq
      · rename_i heq
        simp at heq
      · simp
    refine .atom hread fun item hitem => ?_
    obtain ⟨q, hq, rfl⟩ := List.mem_map.1 (show item ∈ (p :: ps).map Item.leaf from hitem)
    exact ⟨(h q hq).2, Piece.operator?_of_isPlain (h q hq).1⟩

theorem isBracket_of_parts (ht : t.Parts) : t.isBracket = false := by
  cases t <;> first | rfl | cases ht

/-- Phrases on both sides of a mark. -/
theorem marked (h : Scans IsParted ps) (ht : t.Parts) (h' : Scans IsParted qs) :
    Scans IsParted (ps ++ .token t :: qs) :=
  h.between (isBracket_of_parts ht) h' fun _ _ hr hs => hr.append ht hs

/-- Phrases behind a mark. -/
theorem led (ht : t.Parts) (h : Scans IsParted ps) : Scans IsParted (.token t :: ps) :=
  nil.marked ht h

theorem ofUnit (h : Scans IsUnit ps) : Scans IsParted ps :=
  h.imp fun _ hrow => (Fits.ofUnit hrow .atom).isParted

/-- Names, values and other text are phrases with what text there is between them. -/
theorem plain (h : ∀ p ∈ ps, p.isPlain = true) (before : List Piece)
    (hb : ∀ p ∈ before, p.isPlain = true ∧ Cutter.isMark (.leaf p) = false) :
    Scans IsParted (before ++ ps) := by
  have hbefore : ∀ qs : List Piece,
      (∀ p ∈ qs, p.isPlain = true ∧ Cutter.isMark (.leaf p) = false) → Scans IsParted qs := by
    intro qs hqs
    by_cases hn : qs = []
    · exact hn ▸ nil
    · exact (atom hn hqs).ofUnit
  induction ps generalizing before with
  | nil => exact hbefore _ (by simpa using hb)
  | cons p ps ih =>
    rw [List.forall_mem_cons] at h
    by_cases hm : Cutter.isMark (.leaf p) = true
    · cases p with
      | token t =>
        exact (hbefore before hb).marked hm (ih h.2 [] (by simp))
      | _ => cases hm
    · have hfurther := ih h.2 (before ++ [p])
        (List.forall_mem_append.2 ⟨hb, by simp [h.1, hm]⟩)
      simpa using hfurther

/-- Phrases with marks between them are one row of phrases. -/
theorem ofLinked (h : Piece.Linked (Scans IsParted) Token.Parts ps) : Scans IsParted ps := by
  obtain ⟨ts, hps, hts⟩ := h
  induction hps with
  | phrase h => exact h
  | mark h t hq ih =>
    exact (ih fun u hu => hts u (by simp [hu])).marked (hts t (by simp)) hq

/-- An arithmetic operator between its operands is a row of its level. -/
theorem infixed {symbol : String} (hs : symbol ∈ scalarSymbols)
    (h : Scans (Fits (binaryLevel symbol)) ps) (h' : Scans (Fits (binaryLevel symbol)) qs) :
    Scans (Fits (binaryLevel symbol)) (ps ++ .token (.operator .between symbol) :: qs) := by
  refine h.between rfl h' fun row other hrow hother => ?_
  have hjoin : ∀ {symbols : List String} {R : Row → Prop}, symbol ∈ symbols →
      Joined (IsOperator symbols) R row → Joined (IsOperator symbols) R other →
      Joined (IsOperator symbols) R
        (row ++ .leaf (.token (.operator .between symbol)) :: other) :=
    fun h hrow hother => hrow.append (isOperator_leaf .between h) hother
  clear h h'
  simp only [scalarSymbols, List.mem_cons, List.not_mem_nil, or_false] at hs
  rcases hs with rfl | rfl | rfl | rfl | rfl | rfl
  all_goals exact hjoin (by decide) hrow hother

/-- A test of three operands. -/
theorem linked {word link : String} (hw : (word, link) ∈ linkedTests) {ms : List Piece}
    (h : Scans IsOperand ps) (hm : Scans IsOperand ms) (h' : Scans IsOperand qs) :
    Scans IsTest (ps ++ .token (.operator .between word)
      :: (ms ++ .token (.operator .between link) :: qs)) := by
  obtain ⟨left, hleft, hl⟩ := h
  obtain ⟨middle, hmiddle, hm⟩ := hm
  obtain ⟨right, hright, hr⟩ := h'
  refine ⟨_, fun p => (hleft p).append (.cons_token rfl
    ((hmiddle p).append (.cons_token rfl (hright p)))), ?_⟩
  exact .linked hl rfl hm rfl hw hr

/-- An operand of a comparison. -/
theorem isOperand {level : Level} (hl : Level.comparison.rank < level.rank)
    (h : Scans (Fits level) ps) : Scans IsOperand ps := h.imp fun _ hrow => hrow.isOperand hl

end Phrase.Scans

end SqlCompose
