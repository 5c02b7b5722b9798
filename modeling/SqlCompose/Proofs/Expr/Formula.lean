import SqlCompose.Proofs.Draft.Bracket
import SqlCompose.Proofs.Expr.Arithmetic

/-!
# Formulas

The grammar by which rows of tokens are read as arithmetic: signs bind strongest, then products,
quotients and remainders, then sums and differences, and operators of one level are taken from left
to right. Whether a plus or a minus is a sign or an operator follows from what stands before it.
-/
namespace SqlCompose

namespace ArithmeticOp

/-- The symbol of an operator. -/
def symbol : ArithmeticOp → String
  | add => "+"
  | sub => "-"
  | mul => "*"
  | div => "/"
  | mod => "%"

/-- The operator of a symbol. -/
def ofSymbol? : String → Option ArithmeticOp
  | "+" => some add
  | "-" => some sub
  | "*" => some mul
  | "/" => some div
  | "%" => some mod
  | _ => none

@[simp] theorem ofSymbol?_symbol (op : ArithmeticOp) : ofSymbol? op.symbol = some op := by
  cases op <;> rfl

end ArithmeticOp

namespace Sign

/-- The symbol of a sign. -/
def symbol : Sign → String
  | plus => "+"
  | minus => "-"

/-- The sign of a symbol. -/
def ofSymbol? : String → Option Sign
  | "+" => some plus
  | "-" => some minus
  | _ => none

@[simp] theorem ofSymbol?_symbol (s : Sign) : ofSymbol? s.symbol = some s := by
  cases s <;> rfl

end Sign

namespace Arithmetic

/-- A row of items whose groups have been read as arithmetic. -/
abbrev Row := List (Item (Arithmetic (List Piece)))

/-- The infix operator of a level that an item is; there has to be an operand before it. -/
def infixAt (level : Level) (behind : Bool) (item : Item (Arithmetic (List Piece))) :
    Option ArithmeticOp :=
  if behind then (item.operator?.bind ArithmeticOp.ofSymbol?).filter (·.level = level) else none

/-- The parts of a row between the infix operators of a level, the first of them apart. The flag
says whether the row stands behind an operand. -/
def split (level : Level) (behind : Bool) : Row → Row × List (ArithmeticOp × Row)
  | [] => ([], [])
  | item :: row =>
    let (first, others) := split level item.operator?.isNone row
    match infixAt level behind item with
    | some op => ([], (op, first) :: others)
    | none => (item :: first, others)

/-- Whether what follows a row stands behind an operand. -/
def endsOperand (behind : Bool) : Row → Bool
  | [] => behind
  | item :: row => endsOperand item.operator?.isNone row

/-- A row without infix operators: brackets, an operand under a sign, or a leaf. -/
def readFactor : Row → Option (Arithmetic (List Piece))
  | [] => none
  | [.group _ reading] => reading
  | item :: row =>
    match item.operator? with
    | some symbol => do return .sign (← Sign.ofSymbol? symbol) (← readFactor row)
    | none => if Item.operators row = [] then some (.leaf (Item.flatten (item :: row))) else none

/-- A term that goes on with operators and operands, from left to right. -/
def extend (read : Row → Option (Arithmetic (List Piece))) :
    Option (Arithmetic (List Piece)) → List (ArithmeticOp × Row) →
      Option (Arithmetic (List Piece))
  | t, [] => t
  | t, (op, row) :: others => extend read (t.bind fun a => (read row).map (.binary op a)) others

/-- A row as operands with operators of a level between them. -/
def readChain (level : Level) (read : Row → Option (Arithmetic (List Piece))) (row : Row) :
    Option (Arithmetic (List Piece)) :=
  extend read (read (split level false row).1) (split level false row).2

/-- A row without sums and differences. -/
def readProduct : Row → Option (Arithmetic (List Piece)) := readChain .multiplicative readFactor

/-- A row of items as arithmetic. -/
def readSum : Row → Option (Arithmetic (List Piece)) := readChain .additive readProduct

/-- The arithmetic that pieces read as. -/
def parse (ps : List Piece) : Option (Arithmetic (List Piece)) := readPieces readSum ps

/-- How the operands between operators of a level are read. -/
def readBelow : Level → Row → Option (Arithmetic (List Piece))
  | .additive => readProduct
  | _ => readFactor

/-! ## Rows -/

section Rows

variable {level : Level} {behind : Bool} {row other : Row} {t u : Arithmetic (List Piece)}

theorem infixAt_operator (fixity : Fixity) (op : ArithmeticOp) :
    infixAt level true (.leaf (.token (.operator fixity op.symbol)))
      = if op.level = level then some op else none := by
  simp [infixAt, Item.operator?, Option.filter]

/-- A row in one part stays in one part with what follows. -/
theorem split_append (h : split level behind row = (row, [])) :
    split level behind (row ++ other) = (row ++ (split level (endsOperand behind row) other).1,
      (split level (endsOperand behind row) other).2) := by
  induction row generalizing behind with
  | nil => rfl
  | cons item row ih =>
    cases hi : infixAt level behind item with
    | some op => simp [split, hi] at h
    | none =>
      have hrow : split level item.operator?.isNone row = (row, []) := by
        simpa [split, hi, Prod.ext_iff] using h
      simp [split, hi, endsOperand, ih hrow]

/-- A row is parted at an operator of the level behind an operand. -/
theorem split_append_operator (hb : endsOperand behind row = true) {op : ArithmeticOp}
    (hop : op.level = level) :
    split level behind (row ++ .leaf (.token (.operator .between op.symbol)) :: other)
      = ((split level behind row).1, (split level behind row).2
          ++ (op, (split level false other).1) :: (split level false other).2) := by
  induction row generalizing behind with
  | nil =>
    obtain rfl : behind = true := hb
    simp only [List.nil_append, split, infixAt_operator, if_pos hop, Item.operator?]
    rfl
  | cons item row ih =>
    have hrow := ih hb
    cases hi : infixAt level behind item <;> simp [split, hi, hrow]

theorem endsOperand_append (row other : Row) :
    endsOperand behind (row ++ other) = endsOperand (endsOperand behind row) other := by
  induction row generalizing behind with
  | nil => rfl
  | cons item row ih => simp [endsOperand, ih]

theorem extend_append (read : Row → Option (Arithmetic (List Piece)))
    (t : Option (Arithmetic (List Piece))) (rows others : List (ArithmeticOp × Row)) :
    extend read t (rows ++ others) = extend read (extend read t rows) others := by
  induction rows generalizing t with
  | nil => rfl
  | cons part rows ih => simp [extend, ih]

/-- Whether a row is one operand between operators of a level. -/
structure Whole (level : Level) (row : Row) (t : Arithmetic (List Piece)) : Prop where
  split_eq : split level false row = (row, [])
  reads : readBelow level row = some t

/-- Whether a row reads as a term by the operators of a level, also where it is joined to what stands
before it. -/
structure Joins (level : Level) (row : Row) (t : Arithmetic (List Piece)) : Prop where
  reads : readChain level (readBelow level) row = some t
  joins : ∀ (op : ArithmeticOp) (x : Arithmetic (List Piece)), op.level = level →
    extend (readBelow level) ((readBelow level (split level false row).1).map (.binary op x))
      (split level false row).2 = some (graft op x t)

theorem Whole.readChain_eq (h : Whole level row t) :
    readChain level (readBelow level) row = some t := by
  rw [readChain, h.split_eq]
  exact h.reads

/-- One operand whose own operator has another level. -/
theorem Whole.joins (h : Whole level row t) (hl : t.level ≠ level) : Joins level row t := by
  refine ⟨h.readChain_eq, fun op x hop => ?_⟩
  rw [h.split_eq, h.reads, graft_of_level (by rwa [hop])]
  rfl

/-- Terms that are joined one after the other. -/
theorem graft_graft {α : Type} {op op' : ArithmeticOp} (h : op.level = op'.level)
    (x y t : Arithmetic α) : graft op x (graft op' y t) = graft op' (graft op x y) t := by
  have hwhole : ∀ t : Arithmetic α, t.level ≠ op'.level →
      graft op x (graft op' y t) = graft op' (graft op x y) t := by
    intro t ht
    rw [graft_of_level ht, graft_of_level ht, graft, if_pos h.symm]
  induction t with
  | binary op'' l r ihl ihr =>
    by_cases hl : op''.level = op'.level
    · have hl' : op''.level = op.level := hl.trans h.symm
      rw [graft, if_pos hl, graft, if_pos hl', ihl, graft, if_pos hl]
    · exact hwhole (binary op'' l r) hl
  | leaf a => exact hwhole (leaf a) fun h => op'.level_ne_atom h.symm
  | sign s t ih => exact hwhole (sign s t) fun h => op'.level_ne_unary h.symm

section Infix

variable {op : ArithmeticOp} (hl : Joins op.level row t) (hb : endsOperand false row = true)
include hl hb

/-- An operator before one operand. -/
theorem Joins.infix_whole (hr : Whole op.level other u) :
    Joins op.level (row ++ .leaf (.token (.operator .between op.symbol)) :: other)
      (.binary op t u) := by
  have hreads := hl.reads
  rw [readChain] at hreads
  refine ⟨?_, fun op' x hop => ?_⟩
  · rw [readChain, split_append_operator hb rfl, hr.split_eq, extend_append, hreads, extend, hr.reads]
    rfl
  · rw [split_append_operator hb rfl, hr.split_eq, extend_append, hl.joins op' x hop, extend, hr.reads,
      graft, if_pos hop.symm]
    rfl

/-- An operator before operands that are joined to what stands before it. -/
theorem Joins.infix_joins (hr : Joins op.level other u) :
    Joins op.level (row ++ .leaf (.token (.operator .between op.symbol)) :: other)
      (graft op t u) := by
  have hreads := hl.reads
  rw [readChain] at hreads
  refine ⟨?_, fun op' x hop => ?_⟩
  · rw [readChain, split_append_operator hb rfl, extend_append, hreads, extend, Option.bind_some,
      hr.joins op t rfl]
  · rw [split_append_operator hb rfl, extend_append, hl.joins op' x hop, extend, Option.bind_some,
      hr.joins op _ rfl, graft_graft hop]

end Infix

end Rows

end Arithmetic

end SqlCompose
