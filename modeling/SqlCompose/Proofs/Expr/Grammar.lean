import SqlCompose.Expr.Precedence
import SqlCompose.Proofs.Draft.Bracket

/-!
# Grammars of different engines

Engines agree on how rows of tokens are read except for the place of concatenation, which may stand
at any level between the comparisons and the signs. Here are the grammars for all places it can have:
they read whatever stands in brackets, clause by clause, and each clause from the weakest operator to
the strongest.
-/
namespace SqlCompose

/-- Where concatenation stands among the arithmetic operators. -/
inductive Placement
  | below
  | withSums
  | between
  | withProducts
  | above
deriving DecidableEq

/-- The infix operators between comparisons and signs, level by level, the weakest first. -/
def Placement.levels : Placement → List (List String)
  | below => [["||"], ["+", "-"], ["*", "/", "%"]]
  | withSums => [["||", "+", "-"], ["*", "/", "%"]]
  | between => [["+", "-"], ["||"], ["*", "/", "%"]]
  | withProducts => [["+", "-"], ["||", "*", "/", "%"]]
  | above => [["+", "-"], ["*", "/", "%"], ["||"]]

/-- What a row of tokens is read as. -/
inductive Phrase
  /-- A name, a value, or nothing at all. -/
  | leaf (ps : List Piece)
  | call (name : Piece) (arguments : Phrase)
  | brackets (content : Phrase)
  | sign (symbol : String) (a : Phrase)
  /-- An operator or another mark with what stands on its sides. -/
  | joined (mark : List Piece) (left right : Phrase)

namespace Phrase

/-- A row of items whose groups have been read. -/
abbrev Row := List (Item Phrase)

/-! ## Cutting rows -/

/-- A way to cut rows at some of their items, from left to right. The flag is what it knows of the
items that it has passed. -/
structure Cutter where
  cuts : Bool → Item Phrase → Bool
  next : Bool → Item Phrase → Bool

namespace Cutter

/-- The parts of a row, the first of them apart, and each other one with the item before it. -/
def split (c : Cutter) (b : Bool) : Row → Row × List (Item Phrase × Row)
  | [] => ([], [])
  | item :: row =>
    let (first, others) := c.split (c.next b item) row
    if c.cuts b item then ([], (item, first) :: others) else (item :: first, others)

/-- What is known behind a row. -/
def after (c : Cutter) (b : Bool) : Row → Bool
  | [] => b
  | item :: row => c.after (c.next b item) row

/-- Cuts at some operators wherever they stand. -/
def words (ws : List String) : Cutter where
  cuts _ item := item.operator?.any (· ∈ ws)
  next b _ := b

/-- Cuts at some infix operators. They stand behind an operand, which signs do not. -/
def infixes (symbols : List String) : Cutter where
  cuts behind item := behind && item.operator?.any (· ∈ symbols)
  next _ item := item.operator?.isNone

/-- Cuts at AND, unless it belongs to the range before it. -/
def conjunctions : Cutter where
  cuts pending item := !pending && item.operator? == some "AND"
  next pending item :=
    if item.operator? = some "AND" then false
    else pending || item.operator?.any (· ∈ ["BETWEEN", "NOT BETWEEN"])

/-- Whether a token stands between phrases: a keyword, text with a blank at an edge such as a comma,
or the direction of an order. -/
def isMark : Item Phrase → Bool
  | .leaf (.token (.keyword ..)) => true
  | .leaf (.token (.text s)) => s.toList.head? == some ' ' || s.toList.getLast? == some ' '
  | .leaf (.token (.operator _ symbol)) => symbol ∈ ["ASC", "DESC"]
  | _ => false

/-- Cuts at the marks between phrases. -/
def marks : Cutter where
  cuts _ item := isMark item
  next b _ := b

end Cutter

/-- The parts of a row, read one by one and joined from the left. -/
def readChain (c : Cutter) (read : Row → Option Phrase) (row : Row) : Option Phrase :=
  (c.split false row).2.foldl
    (fun left? part => do return .joined part.1.pieces (← left?) (← read part.2))
    (read (c.split false row).1)

/-! ## Reading rows -/

/-- The operators before an operand. -/
def signSymbols : List String := ["+", "-", "EXISTS"]

/-- A row without operators: brackets, a call, or a name or a value. -/
def readAtom : Row → Option Phrase
  | [.group _ reading] => reading.map .brackets
  | [.leaf p, .group _ reading] => reading.map (.call p)
  | row =>
    if row.all fun | .leaf _ => true | .group .. => false then some (.leaf (Item.flatten row))
    else none

/-- A row without infix operators. -/
def readUnary : Row → Option Phrase
  | [] => none
  | item :: row =>
    match item.operator? with
    | some symbol =>
      if symbol ∈ signSymbols then (readUnary row).map (.sign symbol) else none
    | none => readAtom (item :: row)

/-- A row without comparisons, by the levels of its infix operators. -/
def readArithmetic : List (List String) → Row → Option Phrase
  | [] => readUnary
  | symbols :: levels => readChain (.infixes symbols) (readArithmetic levels)

/-- The tests that have nothing on their right. -/
def nullTests : List String := ["IS NULL", "IS NOT NULL"]

/-- The tests of two operands. -/
def pairTests : List String := ["LIKE", "NOT LIKE"] ++ comparisonSymbols

/-- The tests of three operands, with what stands between the second one and the third one. -/
def linkedTests : List (String × String) :=
  [("BETWEEN", "AND"), ("NOT BETWEEN", "AND"), ("LIKE", "ESCAPE"), ("NOT LIKE", "ESCAPE")]

/-- The operators of comparisons. -/
def testWords : List String :=
  nullTests ++ pairTests ++ ["BETWEEN", "NOT BETWEEN", "AND", "ESCAPE"]

/-- A row without connectives and negations. Comparisons do not associate. -/
def readTest (read : Row → Option Phrase) (row : Row) : Option Phrase :=
  let left := ((Cutter.words testWords).split false row).1
  match ((Cutter.words testWords).split false row).2 with
  | [] => read left
  | [(test, right)] =>
    if test.operator?.any (· ∈ nullTests) && right.isEmpty then do
      return .joined test.pieces (← read left) (.leaf [])
    else if test.operator?.any (· ∈ pairTests) then do
      return .joined test.pieces (← read left) (← read right)
    else none
  | [(test, middle), (link, right)] =>
    if (test.operator?.getD "", link.operator?.getD "") ∈ linkedTests then do
      return .joined link.pieces (.joined test.pieces (← read left) (← read middle)) (← read right)
    else none
  | _ => none

/-- A row without connectives. -/
def readNegation (read : Row → Option Phrase) : Row → Option Phrase
  | [] => none
  | item :: row =>
    if item.operator? = some "NOT" then (readNegation read row).map (.sign "NOT")
    else read (item :: row)

/-- A row without OR. -/
def readConjunction (levels : List (List String)) : Row → Option Phrase :=
  readChain .conjunctions (readNegation (readTest (readArithmetic levels)))

/-- A row of items as an expression. -/
def readExpression (levels : List (List String)) : Row → Option Phrase :=
  readChain (.words ["OR"]) (readConjunction levels)

/-- An expression, or nothing at all. -/
def readPart (levels : List (List String)) (row : Row) : Option Phrase :=
  if row.isEmpty then some (.leaf []) else readExpression levels row

/-- A row of items as expressions with marks between them. -/
def readParts (levels : List (List String)) : Row → Option Phrase :=
  readChain .marks (readPart levels)

/-- What pieces are read as where concatenation has a given place. -/
def parse (p : Placement) (ps : List Piece) : Option Phrase := readPieces (readParts p.levels) ps

/-! ## Cuts -/

namespace Cutter

variable {c : Cutter} {b : Bool} {row other : Row} {item : Item Phrase}

theorem after_append : c.after b (row ++ other) = c.after (c.after b row) other := by
  induction row generalizing b with
  | nil => rfl
  | cons item row ih => exact ih

/-- A row is in one part if it is cut at none of its items, and nothing new is known behind it. -/
theorem split_of_uncut (h : ∀ item ∈ row, c.cuts b item = false ∧ c.next b item = b) :
    c.split b row = (row, []) ∧ c.after b row = b := by
  induction row with
  | nil => exact ⟨rfl, rfl⟩
  | cons item row ih =>
    rw [List.forall_mem_cons] at h
    obtain ⟨⟨hcut, hnext⟩, hrow⟩ := h
    obtain ⟨hsplit, hafter⟩ := ih hrow
    exact ⟨by simp [split, hnext, hsplit, hcut], by rw [after, hnext, hafter]⟩

/-- A row in one part stays in one part with what follows. -/
theorem split_append (h : c.split b row = (row, [])) : c.split b (row ++ other)
    = (row ++ (c.split (c.after b row) other).1, (c.split (c.after b row) other).2) := by
  induction row generalizing b with
  | nil => rfl
  | cons item row ih =>
    by_cases hc : c.cuts b item = true
    · simp [split, hc] at h
    · have hrow : c.split (c.next b item) row = (row, []) := by
        simpa [split, hc, Prod.ext_iff] using h
      simp [split, hc, after, ih hrow]

/-- A row is cut at an item wherever it stands. -/
theorem split_append_cons (hc : c.cuts (c.after b row) item = true) :
    c.split b (row ++ item :: other) = ((c.split b row).1, (c.split b row).2 ++
      (item, (c.split (c.next (c.after b row) item) other).1)
        :: (c.split (c.next (c.after b row) item) other).2) := by
  induction row generalizing b with
  | nil =>
    have hc : c.cuts b item = true := hc
    simp [split, hc, after]
  | cons first row ih =>
    have hrow := ih hc
    by_cases hf : c.cuts b first = true <;> simp [split, hf, after, hrow]

end Cutter

/-! ## Rows of parts -/

/-- Whether a row reads as the same phrase wherever concatenation is placed. -/
def Steady (read : Placement → Row → Option Phrase) (row : Row) : Prop :=
  ∃ t, ∀ p, read p row = some t

/-- Rows with items of one kind between them. -/
inductive Joined (C : Item Phrase → Prop) (R : Row → Prop) : Row → Prop
  | one {row : Row} (h : R row) : Joined C R row
  | more {row other : Row} {item : Item Phrase} (h : Joined C R row) (hc : C item) (hr : R other) :
    Joined C R (row ++ item :: other)

/-- Whether rows of one kind are in one part, and items of one kind part them. -/
structure Cutter.Parts (c : Cutter) (b : Bool) (C : Item Phrase → Prop) (R : Row → Prop) :
    Prop where
  whole : ∀ row, R row → c.split false row = (row, [])
  ends : ∀ row, R row → c.after false row = b
  cuts : ∀ item, C item → c.cuts b item = true
  next : ∀ item, C item → c.next b item = false

namespace Joined

variable {c : Cutter} {b : Bool} {C : Item Phrase → Prop} {R : Row → Prop} {row other : Row}
  {item : Item Phrase}

theorem append (h : Joined C R row) (hc : C item) (h' : Joined C R other) :
    Joined C R (row ++ item :: other) := by
  induction h' with
  | one hr => exact .more h hc hr
  | more h' hc' hr ih =>
    have hall := ih.more hc' hr
    simpa only [List.append_assoc, List.cons_append] using hall

theorem after_eq (hc : c.Parts b C R) (h : Joined C R row) : c.after false row = b := by
  induction h with
  | one h => exact hc.ends _ h
  | more h hi hr ih => rw [Cutter.after_append, ih, Cutter.after, hc.next _ hi, hc.ends _ hr]

/-- A row of parts that read the same everywhere reads the same everywhere. -/
theorem steady (hc : c.Parts b C R) {read : Placement → Row → Option Phrase}
    (hread : ∀ row, R row → Steady read row) (h : Joined C R row) :
    Steady (fun p => readChain c (read p)) row := by
  induction h with
  | one h =>
    obtain ⟨t, ht⟩ := hread _ h
    refine ⟨t, fun p => ?_⟩
    change readChain c (read p) _ = _
    rw [readChain, hc.whole _ h, List.foldl_nil, ht]
  | @more row other item h hi hr ih =>
    obtain ⟨t, ht⟩ := ih
    obtain ⟨u, hu⟩ := hread _ hr
    refine ⟨.joined item.pieces t u, fun p => ?_⟩
    have hrow : readChain c (read p) row = some t := ht p
    rw [readChain] at hrow
    have hcut : c.cuts (c.after false row) item = true := by rw [h.after_eq hc, hc.cuts _ hi]
    change readChain c (read p) _ = _
    rw [readChain, Cutter.split_append_cons hcut, h.after_eq hc, hc.next _ hi, hc.whole _ hr,
      List.foldl_append, hrow, List.foldl_cons, List.foldl_nil, hu]
    rfl

end Joined

end Phrase

end SqlCompose
