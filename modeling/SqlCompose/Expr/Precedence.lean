import SqlCompose.Expr.Basic

/-!
# Binding strength

How strongly each node holds its operands together, and when an operand needs parentheses. Engines
disagree on where concatenation stands among the arithmetic operators, so an operand of one inside
the other is always parenthesised.
-/
namespace SqlCompose

/-- The levels of binding strength, the weakest first. -/
inductive Level
  | or
  | and
  | not
  | comparison
  | concat
  | additive
  | multiplicative
  | unary
  | atom
deriving DecidableEq, Inhabited

namespace Level

/-- The place of a level in the order, counted from one. -/
def rank : Level → Nat
  | or => 1
  | and => 2
  | not => 3
  | comparison => 4
  | concat => 5
  | additive => 6
  | multiplicative => 7
  | unary => 8
  | atom => 9

theorem rank_injective {a b : Level} (h : a.rank = b.rank) : a = b := by
  cases a <;> cases b <;> simp_all [rank]

/-- The levels between comparisons and signs. -/
def isArithmetic : Level → Bool
  | concat | additive | multiplicative => true
  | _ => false

end Level

/-- The comparison operators. -/
def comparisonSymbols : List String :=
  ["=", "<>", "!=", "<", "<=", ">", ">=", "IS", "IS NOT", "IN", "NOT IN"]

/-- The level of an infix operator; one that is not known binds like a comparison. -/
def binaryLevel (symbol : String) : Level :=
  if symbol = "||" then .concat
  else if symbol ∈ ["+", "-"] then .additive
  else if symbol ∈ ["*", "/", "%"] then .multiplicative
  else .comparison

theorem binaryLevel_of_comparison {symbol : String} (h : symbol ∈ comparisonSymbols) :
    binaryLevel symbol = .comparison := by
  simp only [comparisonSymbols, List.mem_cons, List.not_mem_nil, or_false] at h
  rcases h with h | h | h | h | h | h | h | h | h | h | h <;> subst h <;> decide

/-- The level of an operator node. -/
def Operator.level : Operator → String → Level
  | unary trailing, _ => if trailing then .comparison else .unary
  | binary, symbol => binaryLevel symbol
  | boolean, symbol => if symbol = "AND" then .and else .or
  | not, _ => .not
  | between _, _ | like _, _ => .comparison
  | function, _ | aggregate _, _ | list, _ => .atom

/-- The level of a node. -/
def Expr.level : Expr → Level
  | apply _ op symbol _ => op.level symbol
  | _ => .atom

@[simp] theorem Expr.level_withAlias (a : Value) (e : Expr) :
    (e.withAlias a).level = e.level := by
  cases e <;> rfl

@[simp] theorem Expr.symbol_withAlias (a : Value) (e : Expr) :
    (e.withAlias a).symbol = e.symbol := by
  cases e <;> rfl

/-- The side of an operator on which an operand stands. -/
inductive Side
  | left
  | right
deriving DecidableEq

/-- The operators whose right operand may be the same operator again. -/
def associativeSymbols : List String := ["AND", "OR", "+", "*", "||"]

/-- Whether an operand with a given level and symbol is parenthesised under an operator with a given
level and symbol. -/
def needsParentheses (level : Level) (symbol : String) (parent : Level) (parentSymbol : String)
    (side : Side) : Bool :=
  if level.rank < parent.rank then true
  else if parent.rank < level.rank then
    level.isArithmetic && parent.isArithmetic && (level == .concat || parent == .concat)
  else if parent = .comparison then true
  else if side = .left then false
  else !(symbol == parentSymbol && associativeSymbols.contains parentSymbol)

theorem needsParentheses_of_weaker {level parent : Level} (symbol parentSymbol : String)
    (side : Side) (h : level.rank < parent.rank) :
    needsParentheses level symbol parent parentSymbol side = true := by
  simp [needsParentheses, h]

theorem needsParentheses_atom (symbol : String) (parent : Level) (parentSymbol : String)
    (side : Side) (h : parent ≠ .atom) :
    needsParentheses .atom symbol parent parentSymbol side = false := by
  cases parent <;> simp_all [needsParentheses, Level.rank, Level.isArithmetic]

end SqlCompose
