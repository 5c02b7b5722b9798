import SqlCompose.Expr.Precedence
import SqlCompose.Proofs.Draft.Bracket

/-!
# Predicates

The structure of a condition down to the operands of its comparisons, and the grammar by which rows
of tokens are read as conditions: OR binds weakest, then AND, then NOT, then comparisons, which do
not associate, and all else is scalar. Chains of one connective come out flat.
-/
namespace SqlCompose

/-- The connectives of conditions. -/
inductive Connective
  | and
  | or
deriving DecidableEq

/-- The structure of a condition with operands of some type. -/
inductive Predicate (α : Type)
  | scalar (a : α)
  | not (p : Predicate α)
  | join (c : Connective) (p q : Predicate α)
  | compare (symbol : String) (left right : α)
  | between (negated : Bool) (a low high : α)
  /-- The escape character is fixed text. -/
  | like (negated : Bool) (haystack pattern : α) (escape : Option (List Piece))
  | null (negated : Bool) (a : α)
  | existence (a : α)

namespace Predicate

section Structure

variable {α β : Type} {R : α → β → Prop}

/-- Two conditions put together. A chain of the same connective goes on with the second one. -/
def joined (c : Connective) : Predicate α → Predicate α → Predicate α
  | .join c' p p', q => if c' = c then .join c p (joined c p' q) else .join c (.join c' p p') q
  | p, q => .join c p q

theorem joined_assoc (c : Connective) (p q r : Predicate α) :
    joined c (joined c p q) r = joined c p (joined c q r) := by
  induction p with
  | join c' p p' ihp ihp' =>
    by_cases hc : c' = c
    · simp [joined, hc, ihp']
    · simp [joined, hc]
  | _ => simp [joined]

/-- Conditions of the same structure whose operands are related. -/
inductive Alike (R : α → β → Prop) : Predicate α → Predicate β → Prop
  | scalar {a : α} {b : β} (h : R a b) : Alike R (.scalar a) (.scalar b)
  | not {p : Predicate α} {q : Predicate β} (h : Alike R p q) : Alike R (.not p) (.not q)
  | join (c : Connective) {p p' : Predicate α} {q q' : Predicate β} (h : Alike R p q)
    (h' : Alike R p' q') : Alike R (.join c p p') (.join c q q')
  | compare (symbol : String) {a a' : α} {b b' : β} (h : R a b) (h' : R a' b') :
    Alike R (.compare symbol a a') (.compare symbol b b')
  | between (negated : Bool) {a low high : α} {b low' high' : β} (h : R a b) (hl : R low low')
    (hh : R high high') : Alike R (.between negated a low high) (.between negated b low' high')
  | like (negated : Bool) (escape : Option (List Piece)) {a a' : α} {b b' : β} (h : R a b)
    (h' : R a' b') : Alike R (.like negated a a' escape) (.like negated b b' escape)
  | null (negated : Bool) {a : α} {b : β} (h : R a b) : Alike R (.null negated a) (.null negated b)
  | existence {a : α} {b : β} (h : R a b) : Alike R (.existence a) (.existence b)

theorem Alike.joined (c : Connective) {p p' : Predicate α} {q q' : Predicate β}
    (h : Alike R p q) (h' : Alike R p' q') : Alike R (joined c p p') (Predicate.joined c q q') := by
  induction h with
  | join c' hp hq ihp ihq =>
    by_cases hc : c' = c
    · simp only [Predicate.joined, hc, if_true]
      exact .join c hp ihq
    · simp only [Predicate.joined, hc, if_false]
      exact .join c (.join c' hp hq) h'
  | scalar h => exact .join c (.scalar h) h'
  | not h => exact .join c (.not h) h'
  | compare symbol h hr => exact .join c (.compare symbol h hr) h'
  | between negated h hl hh => exact .join c (.between negated h hl hh) h'
  | like negated escape h hr => exact .join c (.like negated escape h hr) h'
  | null negated h => exact .join c (.null negated h) h'
  | existence h => exact .join c (.existence h) h'

end Structure

/-! ## The grammar -/

/-- A row of items whose groups have been read as conditions. -/
abbrev Row := List (Item (Predicate (List Piece)))

/-- The operators of comparisons. -/
def comparisonWords : List String :=
  ["LIKE", "NOT LIKE", "BETWEEN", "NOT BETWEEN", "IS NULL", "IS NOT NULL"] ++ comparisonSymbols

/-- The operators that part conditions from each other, and those that open a range. -/
def linkWords : List String := ["OR", "AND", "BETWEEN", "NOT BETWEEN"]

/-- The operators that no scalar has outside of brackets. -/
def conditionWords : List String := ["OR", "AND", "NOT", "ESCAPE"] ++ comparisonWords

/-- The parts of a row between its ORs, the first of them apart. -/
def disjuncts : Row → Row × List Row
  | [] => ([], [])
  | item :: row =>
    let (first, others) := disjuncts row
    if item.operator? = some "OR" then ([], first :: others) else (item :: first, others)

/-- Whether an item starts a range, which has an AND of its own. -/
def isBetween (item : Item (Predicate (List Piece))) : Bool :=
  item.operator? == some "BETWEEN" || item.operator? == some "NOT BETWEEN"

/-- The parts of a row between its ANDs, the first of them apart. An AND that is pending belongs to
the range before it. -/
def conjuncts (pending : Bool) : Row → Row × List Row
  | [] => ([], [])
  | item :: row =>
    if item.operator? = some "AND" then
      let (first, others) := conjuncts false row
      if pending then (item :: first, others) else ([], first :: others)
    else
      let (first, others) := conjuncts (pending || isBetween item) row
      (item :: first, others)

/-- Whether an AND is pending behind a row. -/
def pendingAfter (pending : Bool) : Row → Bool
  | [] => pending
  | item :: row =>
    if item.operator? = some "AND" then pendingAfter false row
    else pendingAfter (pending || isBetween item) row

/-- A row up to the first of some operators, that operator, and what follows it. -/
def breakAt (words : List String) : Row → Option (Row × String × Row)
  | [] => none
  | item :: row =>
    match item.operator? with
    | some word =>
      if word ∈ words then some ([], word, row)
      else (breakAt words row).map fun (left, found, right) => (item :: left, found, right)
    | none => (breakAt words row).map fun (left, found, right) => (item :: left, found, right)

/-- The pieces of a row that is an operand of a comparison. -/
def operand (row : Row) : Option (List Piece) :=
  if row = [] ∨ ∃ word ∈ Item.operators row, word ∈ conditionWords then none
  else some (Item.flatten row)

/-- What follows the first operand of a comparison. -/
def readTest (a : List Piece) (word : String) (row : Row) : Option (Predicate (List Piece)) :=
  if word = "IS NULL" ∨ word = "IS NOT NULL" then
    if row = [] then some (.null (word = "IS NOT NULL") a) else none
  else if word = "BETWEEN" ∨ word = "NOT BETWEEN" then
    match breakAt ["AND"] row with
    | some (low, _, high) => do
      return .between (word = "NOT BETWEEN") a (← operand low) (← operand high)
    | none => none
  else if word = "LIKE" ∨ word = "NOT LIKE" then
    match breakAt ["ESCAPE"] row with
    | some (pattern, _, escape) => do
      return .like (word = "NOT LIKE") a (← operand pattern) (some (← operand escape))
    | none => do return .like (word = "NOT LIKE") a (← operand row) none
  else do return .compare word a (← operand row)

/-- Whether pieces are a statement: they start with the keyword of a clause. -/
def startsStatement : List Piece → Bool
  | .token (.keyword ..) :: _ => true
  | _ => false

/-- A row without comparisons: brackets around another condition, an EXISTS test, or a scalar. -/
def readScalar : Row → Option (Predicate (List Piece))
  | [.group content reading] =>
    if startsStatement content then some (.scalar (Item.pieces (.group content reading)))
    else reading
  | item :: row =>
    if item.operator? = some "EXISTS" ∧ row ≠ [] ∧ Item.operators row = [] then
      some (.existence (Item.flatten row))
    else (operand (item :: row)).map .scalar
  | [] => none

/-- A row without connectives and negations. -/
def readComparison (row : Row) : Option (Predicate (List Piece)) :=
  match breakAt comparisonWords row with
  | some (left, word, right) => do readTest (← operand left) word right
  | none => readScalar row

/-- A row without connectives. -/
def readNegation : Row → Option (Predicate (List Piece))
  | [] => none
  | item :: row =>
    if item.operator? = some "NOT" then (readNegation row).map .not
    else readComparison (item :: row)

/-- Rows with one connective between them. -/
def readJoined (c : Connective) (read : Row → Option (Predicate (List Piece))) :
    Row → List Row → Option (Predicate (List Piece))
  | row, [] => read row
  | row, next :: rows => do return joined c (← read row) (← readJoined c read next rows)

/-- A row without OR. -/
def readConjunction (row : Row) : Option (Predicate (List Piece)) :=
  readJoined .and readNegation (conjuncts false row).1 (conjuncts false row).2

/-- A row of items as a condition. -/
def readRow (row : Row) : Option (Predicate (List Piece)) :=
  readJoined .or readConjunction (disjuncts row).1 (disjuncts row).2

/-- The condition that pieces read as. -/
def parse (ps : List Piece) : Option (Predicate (List Piece)) := readPieces readRow ps

/-! ## Rows -/

section Rows

variable {row other : Row} {b : Bool}

theorem disjuncts_of_or_free (h : "OR" ∉ Item.operators row) : disjuncts row = (row, []) := by
  induction row with
  | nil => rfl
  | cons item row ih =>
    rw [Item.mem_operators_cons, not_or] at h
    simp [disjuncts, h.1, ih h.2]

theorem disjuncts_append_or (fixity : Fixity) :
    disjuncts (row ++ .leaf (.token (.operator fixity "OR")) :: other)
      = ((disjuncts row).1, (disjuncts row).2 ++ (disjuncts other).1 :: (disjuncts other).2) := by
  induction row with
  | nil => rfl
  | cons item row ih =>
    by_cases hi : item.operator? = some "OR"
    · simp [disjuncts, hi, ih]
    · simp [disjuncts, hi, ih]

theorem conjuncts_append_and (fixity : Fixity) (h : pendingAfter b row = false) :
    conjuncts b (row ++ .leaf (.token (.operator fixity "AND")) :: other)
      = ((conjuncts b row).1,
        (conjuncts b row).2 ++ (conjuncts false other).1 :: (conjuncts false other).2) := by
  induction row generalizing b with
  | nil =>
    obtain rfl : b = false := h
    rfl
  | cons item row ih =>
    by_cases hi : item.operator? = some "AND"
    · simp only [pendingAfter, hi, if_true] at h
      cases b <;> simp [conjuncts, hi, ih h]
    · simp only [pendingAfter, hi, if_false] at h
      simp [conjuncts, hi, ih h]

theorem pendingAfter_append (xs ys : Row) :
    pendingAfter b (xs ++ ys) = pendingAfter (pendingAfter b xs) ys := by
  induction xs generalizing b with
  | nil => rfl
  | cons item xs ih =>
    by_cases hi : item.operator? = some "AND"
    · simp [pendingAfter, hi, ih]
    · simp [pendingAfter, hi, ih]

/-- A row without AND stays in one part with what follows. -/
theorem conjuncts_append (h : "AND" ∉ Item.operators row) :
    conjuncts b (row ++ other) = (row ++ (conjuncts (pendingAfter b row) other).1,
      (conjuncts (pendingAfter b row) other).2) := by
  induction row generalizing b with
  | nil => rfl
  | cons item row ih =>
    rw [Item.mem_operators_cons, not_or] at h
    simp [conjuncts, pendingAfter, h.1, ih h.2]

theorem conjuncts_of_and_free (h : "AND" ∉ Item.operators row) : conjuncts b row = (row, []) := by
  have hrow : conjuncts b (row ++ []) = _ := conjuncts_append h
  simpa [conjuncts] using hrow

/-- Where no range starts, no AND becomes pending. -/
theorem pendingAfter_of_free (h : "AND" ∉ Item.operators row)
    (hb : ∀ item ∈ row, isBetween item = false) : pendingAfter b row = b := by
  induction row generalizing b with
  | nil => rfl
  | cons item row ih =>
    rw [Item.mem_operators_cons, not_or] at h
    have hitem := hb item (by simp)
    simp [pendingAfter, h.1, hitem, ih h.2 fun other hother => hb other (by simp [hother])]

theorem breakAt_eq_none {words : List String}
    (h : ∀ word ∈ Item.operators row, word ∉ words) : breakAt words row = none := by
  induction row with
  | nil => rfl
  | cons item row ih =>
    have hrest := ih fun word hword => h word (Item.mem_operators_cons.2 (.inr hword))
    cases hi : item.operator? with
    | none => simp [breakAt, hi, hrest]
    | some word =>
      have hword := h word (Item.mem_operators_cons.2 (.inl hi))
      simp [breakAt, hi, hrest, hword]

/-- A row is broken at the first operator that is looked for. -/
theorem breakAt_append {words : List String} (h : ∀ word ∈ Item.operators row, word ∉ words)
    (fixity : Fixity) {word : String} (hw : word ∈ words) :
    breakAt words (row ++ .leaf (.token (.operator fixity word)) :: other)
      = some (row, word, other) := by
  induction row with
  | nil => simp [breakAt, Item.operator?, hw]
  | cons item row ih =>
    have hrest := ih fun word hword => h word (Item.mem_operators_cons.2 (.inr hword))
    cases hi : item.operator? with
    | none => simp [breakAt, hi, hrest]
    | some found =>
      have hfound := h found (Item.mem_operators_cons.2 (.inl hi))
      simp [breakAt, hi, hrest, hfound]

/-- Two rows with the same connective between them are read as one chain. -/
theorem readJoined_append {c : Connective} {read : Row → Option (Predicate (List Piece))}
    {rows others : List Row} {p q : Predicate (List Piece)}
    (hp : readJoined c read row rows = some p) (hq : readJoined c read other others = some q) :
    readJoined c read row (rows ++ other :: others) = some (joined c p q) := by
  induction rows generalizing row p with
  | nil =>
    simp only [readJoined] at hp
    simp [readJoined, hp, hq]
  | cons next rows ih =>
    simp only [readJoined, Option.bind_eq_bind, Option.bind_eq_some_iff, Option.pure_def,
      Option.some.injEq] at hp
    obtain ⟨first, hfirst, rest, hrest, rfl⟩ := hp
    have hrec := ih hrest
    simp [readJoined, hfirst, hrec, joined_assoc]

end Rows

/-! ## Rows of a level -/

/-- Whether a row has nothing outside of its brackets that binds as weakly as a level or weaker: what
each level adds to the ones before it. -/
structure Fits (level : Level) (row : Row) : Prop where
  nonempty : row ≠ []
  closed : pendingAfter false row = false
  or_free : Level.or.rank < level.rank → "OR" ∉ Item.operators row
  unsplit : Level.and.rank < level.rank → conjuncts false row = (row, [])
  headed : Level.not.rank < level.rank → ∀ item ∈ row.head?, item.operator? ≠ some "NOT"
  plain : Level.comparison.rank < level.rank → ∀ word ∈ Item.operators row, word ∉ conditionWords
  bare : Level.unary.rank < level.rank → Item.operators row = []

namespace Fits

variable {level : Level} {row : Row}

theorem mono (h : Fits level row) {weaker : Level} (hle : weaker.rank ≤ level.rank) :
    Fits weaker row :=
  ⟨h.nonempty, h.closed, fun hr => h.or_free (by omega), fun hr => h.unsplit (by omega),
    fun hr => h.headed (by omega), fun hr => h.plain (by omega), fun hr => h.bare (by omega)⟩

theorem isBetween_of_free (h : ∀ word ∈ Item.operators row, word ∉ linkWords) :
    ∀ item ∈ row, isBetween item = false := by
  intro item hitem
  cases hi : item.operator? with
  | none => simp [isBetween, hi]
  | some word =>
    have hword := h word (List.mem_filterMap.2 ⟨item, hitem, hi⟩)
    have hb : word ≠ "BETWEEN" := by
      rintro rfl
      exact hword (by decide)
    have hn : word ≠ "NOT BETWEEN" := by
      rintro rfl
      exact hword (by decide)
    simp [isBetween, hi, hb, hn]

/-- A row of connectives only has to leave no AND open, and to have no OR if it is without. -/
theorem ofConnective (hn : row ≠ []) (hc : pendingAfter false row = false)
    (hl : level.rank ≤ Level.and.rank) (ho : Level.or.rank < level.rank → "OR" ∉ Item.operators row) :
    Fits level row := by
  have hand : Level.and.rank = 2 := rfl
  have hnot : Level.not.rank = 3 := rfl
  have hcomparison : Level.comparison.rank = 4 := rfl
  have hunary : Level.unary.rank = 8 := rfl
  exact ⟨hn, hc, ho, fun h => by omega, fun h => by omega, fun h => by omega, fun h => by omega⟩

theorem mem_conditionWords {word : String} (h : word ∈ linkWords) : word ∈ conditionWords := by
  revert word
  decide

/-- A row without operators of conditions fits everywhere where operators may stand. -/
theorem ofPlain (hn : row ≠ []) (h : ∀ word ∈ Item.operators row, word ∉ conditionWords)
    (hb : Level.unary.rank < level.rank → Item.operators row = []) : Fits level row := by
  have hand : "AND" ∉ Item.operators row := fun hw => h _ hw (by decide)
  have hfree := isBetween_of_free fun word hw hl => h word hw (mem_conditionWords hl)
  refine ⟨hn, pendingAfter_of_free hand hfree, fun _ hw => h _ hw (by decide),
    fun _ => conjuncts_of_and_free hand, fun _ item hitem hi => ?_, fun _ => h, hb⟩
  have hmem : item ∈ row := List.mem_of_mem_head? hitem
  exact h _ (List.mem_filterMap.2 ⟨item, hmem, hi⟩) (by decide)

/-- A row without operators fits everywhere. -/
theorem ofBare (hn : row ≠ []) (h : Item.operators row = []) : Fits level row :=
  ofPlain hn (by simp [h]) fun _ => h

/-- A comparison: an operand, an operator, and what leaves no AND open behind it. -/
theorem ofTest {left right : Row} (hl : Fits .concat left) (fixity : Fixity) {word : String}
    (hw : word ∈ comparisonWords) (ho : "OR" ∉ Item.operators right)
    (hc : conjuncts (isBetween (.leaf (.token (.operator fixity word)))) right = (right, []))
    (hp : pendingAfter (isBetween (.leaf (.token (.operator fixity word)))) right = false) :
    Fits .comparison (left ++ .leaf (.token (.operator fixity word)) :: right) := by
  have hplain := hl.plain (by decide)
  have hand : "AND" ∉ Item.operators left := fun h => hplain _ h (by decide)
  have hor : "OR" ∉ Item.operators left := fun h => hplain _ h (by decide)
  have hne : word ≠ "AND" ∧ word ≠ "OR" := by
    constructor
    · rintro rfl
      exact absurd hw (by decide)
    · rintro rfl
      exact absurd hw (by decide)
  have hword : (Item.leaf (.token (.operator fixity word)) :
      Item (Predicate (List Piece))).operator? ≠ some "AND" := by
    simpa [Item.operator?] using hne.1
  refine ⟨by simp, ?_, fun _ => ?_, fun _ => ?_, fun _ => ?_, fun h => absurd h (by decide),
    fun h => absurd h (by decide)⟩
  · rw [pendingAfter_append, hl.closed, pendingAfter, if_neg hword, Bool.false_or, hp]
  · simp [hor, ho, hne.2.symm]
  · rw [conjuncts_append hand, hl.closed, conjuncts, if_neg hword, Bool.false_or, hc]
  · cases left with
    | nil => exact absurd rfl hl.nonempty
    | cons item left =>
      intro first hfirst
      exact hl.headed (by decide) first hfirst

/-- A comparison that is no range. -/
theorem ofFreeTest {left right : Row} (hl : Fits .concat left) (fixity : Fixity) {word : String}
    (hw : word ∈ comparisonWords) (hn : word ∉ linkWords)
    (hr : ∀ other ∈ Item.operators right, other ∉ linkWords) :
    Fits .comparison (left ++ .leaf (.token (.operator fixity word)) :: right) := by
  have hor : "OR" ∉ Item.operators right := fun h => hr _ h (by decide)
  have hand : "AND" ∉ Item.operators right := fun h => hr _ h (by decide)
  have hopens : isBetween (.leaf (.token (.operator fixity word))) = false := by
    refine isBetween_of_free ?_ _ (List.mem_singleton_self _)
    simpa using hn
  refine ofTest hl fixity hw hor (conjuncts_of_and_free hand) ?_
  rw [hopens, pendingAfter_of_free hand (isBetween_of_free hr)]

theorem group (content : List Piece) (reading : Option (Predicate (List Piece))) :
    Fits level [.group content reading] := ofBare (by simp) rfl

/-! ### Reading rows of a level -/

theorem readRow_eq (h : Fits .and row) : readRow row = readConjunction row := by
  rw [readRow, disjuncts_of_or_free (h.or_free (by decide))]
  rfl

theorem readConjunction_eq (h : Fits .not row) : readConjunction row = readNegation row := by
  rw [readConjunction, h.unsplit (by decide)]
  rfl

theorem readNegation_eq (h : Fits .comparison row) : readNegation row = readComparison row := by
  cases row with
  | nil => exact absurd rfl h.nonempty
  | cons item row =>
    have hi := h.headed (by decide) item (by simp)
    rw [readNegation, if_neg hi]

theorem readComparison_eq (h : Fits .concat row) : readComparison row = readScalar row := by
  have hnone : breakAt comparisonWords row = none :=
    breakAt_eq_none fun word hword hc =>
      h.plain (by decide) word hword (List.mem_append_right _ hc)
  rw [readComparison, hnone]

/-- A comparison is read as a condition. -/
theorem readRow_of_comparison (h : Fits .comparison row) : readRow row = readComparison row := by
  rw [(h.mono (by decide)).readRow_eq, (h.mono (by decide)).readConjunction_eq, h.readNegation_eq]

/-- A scalar is read as a condition. -/
theorem readRow_of_scalar (h : Fits .concat row) : readRow row = readScalar row := by
  rw [(h.mono (by decide)).readRow_of_comparison, h.readComparison_eq]

/-- A row without operators of conditions is an operand. -/
theorem operand_eq (h : Fits .concat row) : operand row = some (Item.flatten row) := by
  have hplain := h.plain (by decide)
  rw [operand, if_neg]
  rintro (hn | ⟨word, hword, hc⟩)
  · exact h.nonempty hn
  · exact hplain word hword hc

/-- A row without operators of conditions parts nothing and opens no range. -/
theorem free (h : Fits .concat row) : ∀ word ∈ Item.operators row, word ∉ linkWords :=
  fun word hw hl => h.plain (by decide) word hw (mem_conditionWords hl)

theorem and_free (h : Fits .concat row) : "AND" ∉ Item.operators row :=
  fun hw => h.free _ hw (by decide)

theorem pendingAfter_eq (h : Fits .concat row) (b : Bool) : pendingAfter b row = b :=
  pendingAfter_of_free h.and_free (isBetween_of_free h.free)

/-- The AND between the bounds of a range leaves them in one part. -/
theorem conjuncts_range {low high : Row} (hl : Fits .concat low) (hh : Fits .concat high)
    (fixity : Fixity) : conjuncts true (low ++ .leaf (.token (.operator fixity "AND")) :: high)
      = (low ++ .leaf (.token (.operator fixity "AND")) :: high, []) := by
  rw [conjuncts_append hl.and_free, hl.pendingAfter_eq]
  simp [conjuncts, Item.operator?, conjuncts_of_and_free hh.and_free]

/-- A range: an operand, an operator, and two bounds with an AND between them. -/
theorem ofRange {left low high : Row} (h : Fits .concat left) (hl : Fits .concat low)
    (hh : Fits .concat high) (negated : Bool) :
    Fits .comparison (left ++
      .leaf (.token (.operator .between (if negated then "NOT BETWEEN" else "BETWEEN"))) ::
        (low ++ .leaf (.token (.operator .between "AND")) :: high)) := by
  have hopens : isBetween
      (.leaf (.token (.operator .between (if negated then "NOT BETWEEN" else "BETWEEN")))) = true := by
    cases negated <;> rfl
  refine ofTest h .between (by cases negated <;> decide) ?_ ?_ ?_
  · have hlor : "OR" ∉ Item.operators low := fun h => hl.free _ h (by decide)
    have hhor : "OR" ∉ Item.operators high := fun h => hh.free _ h (by decide)
    simp [hlor, hhor]
  · rw [hopens, hl.conjuncts_range hh]
  · rw [hopens, pendingAfter_append, hl.pendingAfter_eq]
    simp [pendingAfter, Item.operator?, hh.closed]

end Fits

end Predicate

end SqlCompose
