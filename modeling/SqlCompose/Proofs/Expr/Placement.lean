import SqlCompose.Proofs.Expr.Grammar

/-!
# Rows that read the same everywhere

Where an engine places concatenation matters only for rows in which it stands beside arithmetic
operators outside of brackets. Rows of one kind of operator read the same by every grammar, and so do
the comparisons, conditions and clauses that are made of them.
-/
namespace SqlCompose.Phrase

variable {row other : Row} {item : Item Phrase}

/-! ## Operators among the items of a row -/

/-- Whether an item is no mark, and some word if it is an operator. -/
def IsAmong (ws : List String) (item : Item Phrase) : Prop :=
  Cutter.isMark item = false ∧ ∀ word, item.operator? = some word → word ∈ ws

/-- Whether the operators of a row are some words, and it has no marks. -/
def HasWords (ws : List String) (row : Row) : Prop := ∀ item ∈ row, IsAmong ws item

/-- Whether an item is an operator with one of some symbols. -/
def IsOperator (symbols : List String) (item : Item Phrase) : Prop :=
  ∃ symbol ∈ symbols, item.operator? = some symbol

/-- Whether an item is a mark between phrases. -/
def IsMark (item : Item Phrase) : Prop := Cutter.isMark item = true

theorem isOperator_leaf (fixity : Fixity) {symbol : String} {symbols : List String}
    (h : symbol ∈ symbols) : IsOperator symbols (.leaf (.token (.operator fixity symbol))) :=
  ⟨symbol, h, rfl⟩

theorem isAmong_operator (fixity : Fixity) {symbol : String} {ws : List String} (h : symbol ∈ ws)
    (hm : symbol ∉ ["ASC", "DESC"]) : IsAmong ws (.leaf (.token (.operator fixity symbol))) := by
  refine ⟨by simpa [Cutter.isMark] using hm, fun word hw => ?_⟩
  obtain rfl := Option.some.inj hw
  exact h

theorem IsOperator.isAmong {symbols ws : List String} (h : IsOperator symbols item)
    (hs : ∀ s ∈ symbols, s ∈ ws ∧ s ∉ ["ASC", "DESC"]) : IsAmong ws item := by
  obtain ⟨symbol, hsymbol, hi⟩ := h
  obtain ⟨hw, hm⟩ := hs symbol hsymbol
  cases item with
  | group content reading => cases hi
  | leaf p =>
    cases p with
    | word s => cases hi
    | value v => cases hi
    | token t =>
      cases t with
      | operator fixity word =>
        obtain rfl := Option.some.inj hi
        exact isAmong_operator fixity hw hm
      | _ => cases hi

namespace HasWords

variable {ws : List String}

theorem append (h : HasWords ws row) (h' : HasWords ws other) : HasWords ws (row ++ other) :=
  List.forall_mem_append.2 ⟨h, h'⟩

theorem cons (hi : IsAmong ws item) (h : HasWords ws row) : HasWords ws (item :: row) :=
  List.forall_mem_cons.2 ⟨hi, h⟩

theorem mono (h : HasWords ws row) {others : List String} (hw : ∀ w ∈ ws, w ∈ others) :
    HasWords others row :=
  fun item hitem => ⟨(h item hitem).1, fun word hword => hw word ((h item hitem).2 word hword)⟩

/-- A row is in one part where it is cut at other words. -/
theorem uncut_words (h : HasWords ws row) {others : List String} (hd : ∀ w ∈ ws, w ∉ others)
    (b : Bool) : (Cutter.words others).split b row = (row, []) ∧
      (Cutter.words others).after b row = b := by
  refine Cutter.split_of_uncut fun item hitem => ⟨?_, rfl⟩
  change item.operator?.any (· ∈ others) = false
  cases ho : item.operator? with
  | none => rfl
  | some word => simpa using hd word ((h item hitem).2 word ho)

/-- A row is in one part where it is cut at marks. -/
theorem uncut_marks (h : HasWords ws row) (b : Bool) :
    Cutter.marks.split b row = (row, []) ∧ Cutter.marks.after b row = b :=
  Cutter.split_of_uncut fun item hitem => ⟨(h item hitem).1, rfl⟩

/-- A row without AND and ranges is in one part where it is cut at AND. -/
theorem uncut_conjunctions (h : HasWords ws row)
    (hd : ∀ w ∈ ws, w ∉ ["AND", "BETWEEN", "NOT BETWEEN"]) (b : Bool) :
    Cutter.conjunctions.split b row = (row, []) ∧ Cutter.conjunctions.after b row = b := by
  refine Cutter.split_of_uncut fun item hitem => ?_
  cases ho : item.operator? with
  | none => simp [Cutter.conjunctions, ho]
  | some word =>
    have hword := hd word ((h item hitem).2 word ho)
    simp only [List.mem_cons, List.not_mem_nil, or_false, not_or] at hword
    simp [Cutter.conjunctions, ho, hword]

end HasWords

/-! ## Infix operators -/

/-- The operators that stand behind an operand, in order. -/
def infixSymbols (behind : Bool) : Row → List String
  | [] => []
  | item :: row =>
    (if behind then item.operator?.toList else []) ++ infixSymbols item.operator?.isNone row

/-- Whether what follows a row stands behind an operand. -/
def endsOperand : Bool → Row → Bool := (Cutter.infixes []).after

theorem after_infixes (symbols : List String) (b : Bool) (row : Row) :
    (Cutter.infixes symbols).after b row = endsOperand b row := by
  induction row generalizing b with
  | nil => rfl
  | cons item row ih => exact ih _

theorem infixSymbols_append (b : Bool) : infixSymbols b (row ++ other)
    = infixSymbols b row ++ infixSymbols (endsOperand b row) other := by
  induction row generalizing b with
  | nil => rfl
  | cons item row ih =>
    rw [List.cons_append, infixSymbols, infixSymbols, ih, List.append_assoc]
    rfl

/-- What a row is cut at is what it has of the symbols that are looked for. -/
theorem split_infixes_congr {symbols others : List String} {b : Bool}
    (h : ∀ s ∈ infixSymbols b row, s ∈ symbols ↔ s ∈ others) :
    (Cutter.infixes symbols).split b row = (Cutter.infixes others).split b row := by
  induction row generalizing b with
  | nil => rfl
  | cons item row ih =>
    have hrow := ih fun s hs => h s (List.mem_append_right _ hs)
    have hcut : (Cutter.infixes symbols).cuts b item = (Cutter.infixes others).cuts b item := by
      cases b with
      | false => rfl
      | true =>
        cases ho : item.operator? with
        | none => simp [Cutter.infixes, ho]
        | some word =>
          have hword := h word (by simp [infixSymbols, ho])
          simp [Cutter.infixes, ho, hword]
    have hnext : (Cutter.infixes symbols).next b item = item.operator?.isNone := rfl
    have hnext' : (Cutter.infixes others).next b item = item.operator?.isNone := rfl
    rw [Cutter.split, Cutter.split, hnext, hnext', hrow, hcut]

/-- A row without the infix operators that are looked for is in one part. -/
theorem uncut_infixes {symbols : List String} {b : Bool}
    (h : ∀ s ∈ infixSymbols b row, s ∉ symbols) :
    (Cutter.infixes symbols).split b row = (row, []) := by
  have hsame : (Cutter.infixes symbols).split b row = (Cutter.infixes []).split b row :=
    split_infixes_congr fun s hs => by simp [h s hs]
  rw [hsame]
  clear h hsame
  induction row generalizing b with
  | nil => rfl
  | cons item row ih =>
    have hcut : (Cutter.infixes []).cuts b item = false := by
      cases ho : item.operator? <;> simp [Cutter.infixes]
    rw [Cutter.split, hcut, ih]
    rfl

/-- The parts of a row have no other infix operators than the row. -/
theorem infixSymbols_split {S : List String} (symbols : List String) {b : Bool}
    (h : ∀ s ∈ infixSymbols b row, s ∈ S) :
    (∀ s ∈ infixSymbols b ((Cutter.infixes symbols).split b row).1, s ∈ S) ∧
      ∀ part ∈ ((Cutter.infixes symbols).split b row).2,
        ∀ s ∈ infixSymbols false part.2, s ∈ S := by
  induction row generalizing b with
  | nil => simp [Cutter.split, infixSymbols]
  | cons item row ih =>
    obtain ⟨hfirst, hothers⟩ := ih fun s hs => h s (List.mem_append_right _ hs)
    have hnext : (Cutter.infixes symbols).next b item = item.operator?.isNone := rfl
    by_cases hc : (Cutter.infixes symbols).cuts b item = true
    · have hop : item.operator?.isNone = false := by
        cases ho : item.operator? with
        | none => simp [Cutter.infixes, ho] at hc
        | some word => rfl
      rw [hop] at hfirst hothers
      simp only [Cutter.split, hnext, hc, if_true, hop, infixSymbols, List.forall_mem_cons]
      exact ⟨by simp, hfirst, hothers⟩
    · simp only [Cutter.split, hnext, hc, Bool.false_eq_true, if_false, infixSymbols]
      refine ⟨List.forall_mem_append.2 ⟨fun s hs => h s (List.mem_append_left _ hs), hfirst⟩, hothers⟩

/-! ## Arithmetic -/

/-- The levels that are left when only some symbols occur. -/
def restrict (S : List String) (levels : List (List String)) : List (List String) :=
  (levels.map fun symbols => symbols.filter (· ∈ S)).filter (· ≠ [])

theorem readChain_congr {c c' : Cutter} {read read' : Row → Option Phrase}
    (hs : c.split false row = c'.split false row)
    (hf : read (c'.split false row).1 = read' (c'.split false row).1)
    (hp : ∀ part ∈ (c'.split false row).2, read part.2 = read' part.2) :
    readChain c read row = readChain c' read' row := by
  rw [readChain, readChain, hs, hf]
  refine List.foldl_ext _ _ _ fun left? part hpart => ?_
  rw [hp part hpart]

/-- Levels without an operator of the row do not matter. -/
theorem readArithmetic_restrict {S : List String} (levels : List (List String))
    (h : ∀ s ∈ infixSymbols false row, s ∈ S) :
    readArithmetic levels row = readArithmetic (restrict S levels) row := by
  induction levels generalizing row with
  | nil => rfl
  | cons symbols levels ih =>
    have hsplit : (Cutter.infixes symbols).split false row
        = (Cutter.infixes (symbols.filter (· ∈ S))).split false row :=
      split_infixes_congr fun s hs => by simp [h s hs]
    obtain ⟨hfirst, hothers⟩ := infixSymbols_split (symbols.filter (· ∈ S)) h
    by_cases hn : symbols.filter (· ∈ S) = []
    · have hrest : restrict S (symbols :: levels) = restrict S levels := by
        simp [restrict, hn]
      rw [hrest, ← ih h, readArithmetic, readChain, hsplit, hn, uncut_infixes (by simp)]
      rfl
    · have hrest : restrict S (symbols :: levels)
          = symbols.filter (· ∈ S) :: restrict S levels := by
        rw [restrict, List.map_cons, List.filter_cons_of_pos (by simpa using hn)]
        rfl
      rw [hrest, readArithmetic, readArithmetic]
      exact readChain_congr hsplit (ih hfirst) fun part hpart => ih (hothers part hpart)

/-! ## Units -/

/-- Rows without infix operators: what reads as a whole, under any signs. -/
inductive IsUnit : Row → Prop
  | atom {item : Item Phrase} {row : Row} {t : Phrase} (hr : readAtom (item :: row) = some t)
    (h : ∀ i ∈ item :: row, Cutter.isMark i = false ∧ i.operator? = none) : IsUnit (item :: row)
  | sign (fixity : Fixity) {symbol : String} (hs : symbol ∈ signSymbols) {row : Row}
    (h : IsUnit row) : IsUnit (.leaf (.token (.operator fixity symbol)) :: row)

namespace IsUnit

theorem exists_readUnary (h : IsUnit row) : ∃ t, readUnary row = some t := by
  induction h with
  | atom hr h => exact ⟨_, by rw [readUnary, (h _ List.mem_cons_self).2, hr]⟩
  | @sign fixity symbol hs row h ih =>
    obtain ⟨t, ht⟩ := ih
    exact ⟨.sign symbol t, by simp [readUnary, Item.operator?, hs, ht]⟩

theorem hasWords (h : IsUnit row) : HasWords signSymbols row := by
  induction h with
  | atom hr h =>
    intro i hi
    exact ⟨(h i hi).1, fun word hw => by simp [(h i hi).2] at hw⟩
  | sign fixity hs h ih =>
    refine ih.cons (isAmong_operator fixity hs ?_)
    clear h ih
    revert hs
    decide +revert

/-- No operator of a unit stands behind an operand, but what follows it does. -/
theorem infixSymbols_eq (h : IsUnit row) :
    infixSymbols false row = [] ∧ endsOperand false row = true := by
  have hatom : ∀ (row : Row), (∀ i ∈ row, i.operator? = none) → ∀ b,
      infixSymbols b row = [] ∧ (row ≠ [] → endsOperand b row = true) := by
    intro row
    induction row with
    | nil => exact fun _ b => ⟨rfl, fun hn => absurd rfl hn⟩
    | cons item row ih =>
      intro h b
      rw [List.forall_mem_cons] at h
      obtain ⟨hrest, hends⟩ := ih h.2 true
      have hnext : endsOperand b (item :: row) = endsOperand true row := by
        have hstep : endsOperand b (item :: row) = endsOperand item.operator?.isNone row := rfl
        rw [hstep, h.1]
        rfl
      refine ⟨by cases b <;> simp [infixSymbols, h.1, hrest], fun _ => ?_⟩
      rw [hnext]
      cases row with
      | nil => rfl
      | cons other row => exact hends (by simp)
  induction h with
  | atom hr h =>
    obtain ⟨hnone, hends⟩ := hatom _ (fun i hi => (h i hi).2) false
    exact ⟨hnone, hends (by simp)⟩
  | sign fixity hs h ih => exact ih

end IsUnit

/-! ## Sums, products and concatenations -/

/-- Rows of products, quotients and remainders. -/
def IsProduct : Row → Prop := Joined (IsOperator ["*", "/", "%"]) IsUnit

/-- Rows of sums and differences of products. -/
def IsSum : Row → Prop := Joined (IsOperator ["+", "-"]) IsProduct

/-- Rows of concatenations. -/
def IsConcat : Row → Prop := Joined (IsOperator ["||"]) IsUnit

theorem infixSymbols_cons {symbol : String} (hi : item.operator? = some symbol) :
    infixSymbols true (item :: row) = symbol :: infixSymbols false row := by
  simp [infixSymbols, hi]

theorem endsOperand_cons {symbol : String} (hi : item.operator? = some symbol) (b : Bool) :
    endsOperand b (item :: row) = endsOperand false row := by
  have hstep : endsOperand b (item :: row) = endsOperand item.operator?.isNone row := rfl
  rw [hstep, hi]
  rfl

section Operands

variable {S T : List String} {R : Row → Prop}

/-- Operands with infix operators between them have these operators besides their own. -/
theorem Joined.infixSymbols_mem (hR : ∀ row, R row →
      (∀ s ∈ infixSymbols false row, s ∈ T) ∧ endsOperand false row = true)
    (h : Joined (IsOperator S) R row) :
    (∀ s ∈ infixSymbols false row, s ∈ S ++ T) ∧ endsOperand false row = true := by
  induction h with
  | one h =>
    obtain ⟨hT, hends⟩ := hR _ h
    exact ⟨fun s hs => List.mem_append_right _ (hT s hs), hends⟩
  | more h hi hr ih =>
    obtain ⟨hST, hends⟩ := ih
    obtain ⟨hT, hends'⟩ := hR _ hr
    obtain ⟨symbol, hsymbol, hi⟩ := hi
    rw [infixSymbols_append, hends, infixSymbols_cons hi]
    refine ⟨?_, by rw [endsOperand, Cutter.after_append]; exact (endsOperand_cons hi _).trans hends'⟩
    refine List.forall_mem_append.2 ⟨hST, List.forall_mem_cons.2 ⟨?_, ?_⟩⟩
    · exact List.mem_append_left _ hsymbol
    · exact fun s hs => List.mem_append_right _ (hT s hs)

/-- Operands are parted at the operators between them. -/
theorem parts_infixes (hR : ∀ row, R row →
      (∀ s ∈ infixSymbols false row, s ∈ T) ∧ endsOperand false row = true)
    (hd : ∀ s ∈ T, s ∉ S) : (Cutter.infixes S).Parts true (IsOperator S) R where
  whole row h := uncut_infixes fun s hs => hd s ((hR row h).1 s hs)
  ends row h := (after_infixes S false row).trans (hR row h).2
  cuts item hi := by
    obtain ⟨symbol, hs, hi⟩ := hi
    simp [Cutter.infixes, hi, hs]
  next item hi := by
    obtain ⟨symbol, -, hi⟩ := hi
    simp [Cutter.infixes, hi]

theorem Joined.hasWords {ws : List String} (hR : ∀ row, R row → HasWords ws row)
    (hS : ∀ s ∈ S, s ∈ ws ∧ s ∉ ["ASC", "DESC"]) (h : Joined (IsOperator S) R row) :
    HasWords ws row := by
  induction h with
  | one h => exact hR _ h
  | more h hi hr ih => exact ih.append ((hR _ hr).cons (hi.isAmong hS))

end Operands

theorem IsUnit.operands (h : IsUnit row) :
    (∀ s ∈ infixSymbols false row, s ∈ ([] : List String)) ∧ endsOperand false row = true := by
  obtain ⟨hnone, hends⟩ := h.infixSymbols_eq
  exact ⟨by simp [hnone], hends⟩

theorem IsProduct.operands (h : IsProduct row) :
    (∀ s ∈ infixSymbols false row, s ∈ ["*", "/", "%"]) ∧ endsOperand false row = true :=
  h.infixSymbols_mem fun _ => IsUnit.operands

/-- The operators of rows without comparisons. -/
def scalarWords : List String := ["||", "+", "-", "*", "/", "%", "EXISTS"]

theorem IsUnit.hasScalarWords (h : IsUnit row) : HasWords scalarWords row :=
  h.hasWords.mono (by decide)

/-- Rows without comparisons: concatenations, or sums. -/
def IsOperand (row : Row) : Prop := IsConcat row ∨ IsSum row

theorem IsUnit.isOperand (h : IsUnit row) : IsOperand row := .inl (.one h)

theorem IsOperand.hasWords (h : IsOperand row) : HasWords scalarWords row := by
  have hunit : ∀ row, IsUnit row → HasWords scalarWords row := fun _ => IsUnit.hasScalarWords
  rcases h with h | h
  · exact Joined.hasWords hunit (by decide) h
  · exact Joined.hasWords (fun _ hr => Joined.hasWords hunit (by decide) hr) (by decide) h

/-- Wherever concatenation is placed, what has no concatenation reads the same, and so does what has
no other operator. -/
theorem IsOperand.steady (h : IsOperand row) :
    Steady (fun p => readArithmetic p.levels) row := by
  have hunit : ∀ row, IsUnit row → Steady (fun _ => readUnary) row := fun row hr => by
    obtain ⟨t, ht⟩ := hr.exists_readUnary
    exact ⟨t, fun _ => ht⟩
  rcases h with h | h
  · have hsymbols := (h.infixSymbols_mem fun _ => IsUnit.operands).1
    obtain ⟨t, ht⟩ := h.steady (parts_infixes (fun _ => IsUnit.operands) (by simp)) hunit
    refine ⟨t, fun p => (readArithmetic_restrict p.levels hsymbols).trans ?_⟩
    have hread := ht p
    cases p <;> exact hread
  · have hsymbols := (h.infixSymbols_mem fun _ => IsProduct.operands).1
    obtain ⟨t, ht⟩ := h.steady (parts_infixes (fun _ => IsProduct.operands) (by decide))
      fun row hr => Joined.steady (parts_infixes (fun _ => IsUnit.operands) (by simp)) hunit hr
    refine ⟨t, fun p => (readArithmetic_restrict p.levels hsymbols).trans ?_⟩
    have hread := ht p
    cases p <;> exact hread

/-! ## Comparisons -/

/-- Rows without connectives and negations: an operand, or a test of operands. -/
inductive IsTest : Row → Prop
  | operand {row : Row} (h : IsOperand row) : IsTest row
  | null {row : Row} {test : Item Phrase} (h : IsOperand row) (ht : IsOperator nullTests test) :
    IsTest (row ++ [test])
  | pair {row other : Row} {test : Item Phrase} (h : IsOperand row)
    (ht : IsOperator pairTests test) (h' : IsOperand other) : IsTest (row ++ test :: other)
  | linked {row middle other : Row} {test link : Item Phrase} {symbol word : String}
    (h : IsOperand row) (ht : test.operator? = some symbol) (hm : IsOperand middle)
    (hl : link.operator? = some word) (hw : (symbol, word) ∈ linkedTests) (h' : IsOperand other) :
    IsTest (row ++ test :: (middle ++ link :: other))

/-- The operators of rows without connectives and negations. -/
def plainWords : List String := scalarWords ++ testWords

theorem mem_testWords_of_linked {symbol word : String} (h : (symbol, word) ∈ linkedTests) :
    symbol ∈ testWords ∧ word ∈ testWords := by
  simp only [linkedTests, List.mem_cons, Prod.mk.injEq, List.not_mem_nil, or_false] at h
  rcases h with ⟨rfl, rfl⟩ | ⟨rfl, rfl⟩ | ⟨rfl, rfl⟩ | ⟨rfl, rfl⟩ <;> decide

/-- An operand is in one part where it is cut at the words of tests. -/
theorem IsOperand.uncut (h : IsOperand row) (b : Bool) :
    (Cutter.words testWords).split b row = (row, []) ∧
      (Cutter.words testWords).after b row = b := h.hasWords.uncut_words (by decide) b

theorem cuts_words {ws : List String} {symbol : String} (hi : item.operator? = some symbol)
    (hs : symbol ∈ ws) (b : Bool) : (Cutter.words ws).cuts b item = true := by
  simp [Cutter.words, hi, hs]

/-- An operand before a test. -/
theorem IsOperand.split_test (h : IsOperand row) {symbol : String}
    (hi : item.operator? = some symbol) (hs : symbol ∈ testWords) :
    (Cutter.words testWords).split false (row ++ item :: other)
      = (row, (item, ((Cutter.words testWords).split false other).1)
          :: ((Cutter.words testWords).split false other).2) := by
  obtain ⟨hsplit, hafter⟩ := h.uncut false
  rw [Cutter.split_append_cons (cuts_words hi hs _), hsplit, hafter]
  rfl

namespace IsTest

theorem steady (h : IsTest row) :
    Steady (fun p => readTest (readArithmetic p.levels)) row := by
  cases h with
  | operand h =>
    obtain ⟨t, ht⟩ := h.steady
    exact ⟨t, fun p => by simp only [readTest, (h.uncut false).1, ht]⟩
  | @null row test h ht =>
    obtain ⟨t, hread⟩ := h.steady
    obtain ⟨symbol, hs, hi⟩ := ht
    have hw : symbol ∈ testWords := List.mem_append_left _ (List.mem_append_left _ hs)
    refine ⟨.joined test.pieces t (.leaf []), fun p => ?_⟩
    simp only [readTest, h.split_test hi hw, Cutter.split, hi, hread]
    simp [hs]
  | @pair row other test h ht h' =>
    obtain ⟨t, hread⟩ := h.steady
    obtain ⟨u, hread'⟩ := h'.steady
    obtain ⟨symbol, hs, hi⟩ := ht
    have hw : symbol ∈ testWords := List.mem_append_left _ (List.mem_append_right _ hs)
    have hn : symbol ∉ nullTests := by
      revert hs
      clear hi hw
      decide +revert
    refine ⟨.joined test.pieces t u, fun p => ?_⟩
    simp only [readTest, h.split_test hi hw, (h'.uncut false).1, hi, hread, hread']
    simp [hs, hn]
  | @linked row middle other test link symbol word h ht hm hl hw h' =>
    obtain ⟨t, hread⟩ := h.steady
    obtain ⟨u, hmiddle⟩ := hm.steady
    obtain ⟨v, hread'⟩ := h'.steady
    obtain ⟨hs, hws⟩ := mem_testWords_of_linked hw
    refine ⟨.joined link.pieces (.joined test.pieces t u) v, fun p => ?_⟩
    simp only [readTest, h.split_test ht hs, hm.split_test hl hws, (h'.uncut false).1, ht, hl,
      hread, hmiddle, hread', Option.getD_some, hw, if_true]
    rfl

theorem hasWords (h : IsTest row) : HasWords plainWords row := by
  have hoperand : ∀ {row : Row}, IsOperand row → HasWords plainWords row :=
    fun h => h.hasWords.mono fun w hw => List.mem_append_left _ hw
  have htest : ∀ {i : Item Phrase} {symbol : String}, i.operator? = some symbol →
      symbol ∈ testWords → IsAmong plainWords i := by
    intro i symbol hi hs
    have ht : IsOperator testWords i := ⟨symbol, hs, hi⟩
    exact ht.isAmong (by decide)
  cases h with
  | operand h => exact hoperand h
  | null h ht =>
    obtain ⟨symbol, hs, hi⟩ := ht
    have hw : symbol ∈ testWords := List.mem_append_left _ (List.mem_append_left _ hs)
    exact (hoperand h).append (.cons (htest hi hw) (by simp [HasWords]))
  | pair h ht h' =>
    obtain ⟨symbol, hs, hi⟩ := ht
    have hw : symbol ∈ testWords := List.mem_append_left _ (List.mem_append_right _ hs)
    exact (hoperand h).append (.cons (htest hi hw) (hoperand h'))
  | linked h ht hm hl hw h' =>
    obtain ⟨hs, hws⟩ := mem_testWords_of_linked hw
    exact (hoperand h).append (.cons (htest ht hs)
      ((hoperand hm).append (.cons (htest hl hws) (hoperand h'))))

theorem ne_nil (h : IsTest row) : row ≠ [] := by
  rintro rfl
  obtain ⟨t, ht⟩ := h.steady
  cases ht .below

end IsTest

/-- What stands behind an operand and what belongs to no connective. -/
theorem IsOperand.split_conjunctions (h : IsOperand row) (other : Row) {b : Bool}
    (hc : Cutter.conjunctions.cuts b item = false) :
    Cutter.conjunctions.split b (row ++ item :: other)
        = (row ++ item :: (Cutter.conjunctions.split (Cutter.conjunctions.next b item) other).1,
          (Cutter.conjunctions.split (Cutter.conjunctions.next b item) other).2) ∧
      Cutter.conjunctions.after b (row ++ item :: other)
        = Cutter.conjunctions.after (Cutter.conjunctions.next b item) other := by
  obtain ⟨hsplit, hafter⟩ := h.hasWords.uncut_conjunctions (by decide) b
  rw [Cutter.split_append hsplit, Cutter.after_append, hafter, Cutter.split, hc, Cutter.after]
  exact ⟨rfl, rfl⟩

/-- The AND of a range belongs to it, so a test is in one part between connectives. -/
theorem IsTest.uncut_conjunctions (h : IsTest row) :
    Cutter.conjunctions.split false row = (row, []) ∧
      Cutter.conjunctions.after false row = false := by
  have huncut : ∀ {row : Row}, IsOperand row → ∀ b, Cutter.conjunctions.split b row = (row, []) ∧
      Cutter.conjunctions.after b row = b := fun h => h.hasWords.uncut_conjunctions (by decide)
  have hfree : ∀ {i : Item Phrase} {symbol : String}, i.operator? = some symbol →
      symbol ∉ ["AND", "BETWEEN", "NOT BETWEEN"] → Cutter.conjunctions.cuts false i = false ∧
        Cutter.conjunctions.next false i = false := by
    intro i symbol hi hs
    simp only [List.mem_cons, List.not_mem_nil, or_false, not_or] at hs
    simp [Cutter.conjunctions, hi, hs]
  cases h with
  | operand h => exact huncut h false
  | null h ht =>
    obtain ⟨symbol, hs, hi⟩ := ht
    obtain ⟨hcut, hnext⟩ := hfree hi (by revert hs; clear hi; decide +revert)
    obtain ⟨hsplit, hafter⟩ := h.split_conjunctions [] hcut
    rw [hsplit, hafter, hnext]
    exact ⟨rfl, rfl⟩
  | @pair row other test h ht h' =>
    obtain ⟨symbol, hs, hi⟩ := ht
    obtain ⟨hcut, hnext⟩ := hfree hi (by revert hs; clear hi; decide +revert)
    obtain ⟨hsplit, hafter⟩ := h.split_conjunctions other hcut
    rw [hsplit, hafter, hnext, (huncut h' false).1, (huncut h' false).2]
    exact ⟨rfl, rfl⟩
  | @linked row middle other test link symbol word h ht hm hl hw h' =>
    -- behind BETWEEN an AND is pending, and behind LIKE there is none
    obtain ⟨b, hcut, hnext, hcut', hnext'⟩ : ∃ b, Cutter.conjunctions.cuts false test = false ∧
        Cutter.conjunctions.next false test = b ∧ Cutter.conjunctions.cuts b link = false ∧
        Cutter.conjunctions.next b link = false := by
      simp only [linkedTests, List.mem_cons, Prod.mk.injEq, List.not_mem_nil, or_false] at hw
      rcases hw with ⟨rfl, rfl⟩ | ⟨rfl, rfl⟩ | ⟨rfl, rfl⟩ | ⟨rfl, rfl⟩
      · exact ⟨true, by simp [Cutter.conjunctions, ht, hl]⟩
      · exact ⟨true, by simp [Cutter.conjunctions, ht, hl]⟩
      · exact ⟨false, by simp [Cutter.conjunctions, ht, hl]⟩
      · exact ⟨false, by simp [Cutter.conjunctions, ht, hl]⟩
    obtain ⟨hsplit, hafter⟩ := h.split_conjunctions (middle ++ link :: other) hcut
    obtain ⟨hsplit', hafter'⟩ := hm.split_conjunctions other hcut'
    rw [hsplit, hafter, hnext, hsplit', hafter', hnext', (huncut h' false).1, (huncut h' false).2]
    exact ⟨rfl, rfl⟩

/-! ## Conditions -/

/-- Rows without connectives. -/
inductive IsNegation : Row → Prop
  | test {row : Row} (h : IsTest row) : IsNegation row
  | not (fixity : Fixity) {row : Row} (h : IsNegation row) :
    IsNegation (.leaf (.token (.operator fixity "NOT")) :: row)

/-- The operators of rows without OR. -/
def negatedWords : List String := "NOT" :: plainWords

namespace IsNegation

theorem hasWords (h : IsNegation row) : HasWords negatedWords row := by
  induction h with
  | test h => exact h.hasWords.mono fun w hw => List.mem_cons_of_mem _ hw
  | not fixity h ih => exact ih.cons (isAmong_operator fixity (by decide) (by decide))

theorem uncut_conjunctions (h : IsNegation row) :
    Cutter.conjunctions.split false row = (row, []) ∧
      Cutter.conjunctions.after false row = false := by
  induction h with
  | test h => exact h.uncut_conjunctions
  | not fixity h ih =>
    obtain ⟨hsplit, hafter⟩ := ih
    have hnext : Cutter.conjunctions.next false (.leaf (.token (.operator fixity "NOT")))
        = false := rfl
    rw [Cutter.split, Cutter.after, hnext, hsplit, hafter]
    exact ⟨rfl, rfl⟩

theorem steady (h : IsNegation row) :
    Steady (fun p => readNegation (readTest (readArithmetic p.levels))) row := by
  induction h with
  | @test row h =>
    obtain ⟨t, ht⟩ := h.steady
    refine ⟨t, fun p => ?_⟩
    cases row with
    | nil => exact absurd rfl h.ne_nil
    | cons item row =>
      have hnot : item.operator? ≠ some "NOT" := fun hi =>
        absurd ((h.hasWords item List.mem_cons_self).2 _ hi) (by decide)
      change readNegation _ _ = _
      rw [readNegation, if_neg hnot]
      exact ht p
  | not fixity h ih =>
    obtain ⟨t, ht⟩ := ih
    refine ⟨.sign "NOT" t, fun p => ?_⟩
    have hnot : (Item.leaf (.token (.operator fixity "NOT")) : Item Phrase).operator?
        = some "NOT" := rfl
    change readNegation _ _ = _
    rw [readNegation, if_pos hnot]
    exact congrArg (Option.map (sign "NOT")) (ht p)

end IsNegation

/-- Rows without OR: negations with AND between them. -/
def IsConjunction : Row → Prop := Joined (IsOperator ["AND"]) IsNegation

/-- Rows of conditions. -/
def IsDisjunction : Row → Prop := Joined (IsOperator ["OR"]) IsConjunction

theorem parts_conjunctions : Cutter.conjunctions.Parts false (IsOperator ["AND"]) IsNegation where
  whole row h := h.uncut_conjunctions.1
  ends row h := h.uncut_conjunctions.2
  cuts item hi := by
    obtain ⟨symbol, hs, hi⟩ := hi
    obtain rfl := List.mem_singleton.1 hs
    simp [Cutter.conjunctions, hi]
  next item hi := by
    obtain ⟨symbol, hs, hi⟩ := hi
    obtain rfl := List.mem_singleton.1 hs
    simp [Cutter.conjunctions, hi]

theorem IsConjunction.hasWords (h : IsConjunction row) : HasWords negatedWords row :=
  Joined.hasWords (fun _ => IsNegation.hasWords) (by decide) h

theorem parts_disjunctions : (Cutter.words ["OR"]).Parts false (IsOperator ["OR"]) IsConjunction where
  whole row h := (h.hasWords.uncut_words (by decide) false).1
  ends row h := (h.hasWords.uncut_words (by decide) false).2
  cuts item hi := by
    obtain ⟨symbol, hs, hi⟩ := hi
    exact cuts_words hi hs false
  next item hi := rfl

theorem IsDisjunction.hasWords (h : IsDisjunction row) : HasWords ("OR" :: negatedWords) row :=
  Joined.hasWords (fun _ hr => (IsConjunction.hasWords hr).mono fun w hw => List.mem_cons_of_mem _ hw)
    (by decide) h

theorem IsDisjunction.steady (h : IsDisjunction row) :
    Steady (fun p => readExpression p.levels) row :=
  Joined.steady parts_disjunctions
    (fun _ hr => Joined.steady parts_conjunctions (fun _ => IsNegation.steady) hr) h

/-! ## Clauses -/

/-- Rows of one condition, or of nothing at all. -/
def IsPart (row : Row) : Prop := row = [] ∨ IsDisjunction row

/-- Rows of conditions with marks between them. -/
def IsParted : Row → Prop := Joined IsMark IsPart

theorem IsPart.steady (h : IsPart row) : Steady (fun p => readPart p.levels) row := by
  rcases h with rfl | h
  · exact ⟨.leaf [], fun _ => rfl⟩
  · obtain ⟨t, ht⟩ := h.steady
    refine ⟨t, fun p => ?_⟩
    cases row with
    | nil => cases ht p
    | cons item row => exact ht p

theorem parts_marks : Cutter.marks.Parts false IsMark IsPart where
  whole row h := by
    rcases h with rfl | h
    · rfl
    · exact (h.hasWords.uncut_marks false).1
  ends row h := by
    rcases h with rfl | h
    · rfl
    · exact (h.hasWords.uncut_marks false).2
  cuts item hi := hi
  next item hi := rfl

/-- What stands in brackets reads the same wherever concatenation is placed. -/
theorem IsParted.steady (h : IsParted row) : Steady (fun p => readParts p.levels) row :=
  Joined.steady parts_marks (fun _ => IsPart.steady) h

end SqlCompose.Phrase
