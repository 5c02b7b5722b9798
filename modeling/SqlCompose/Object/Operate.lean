import SqlCompose.Object.Plain

/-!
# Operators on objects

The infix and prefix operators between objects. An operator yields an expression if one of its sides
is one. When it is the right one, a comparison is read from right to left, and the other operators
keep their order. Objects that are no expressions are worked with as what they are.
-/
namespace SqlCompose.Operate

/-- The comparison that says the same with its sides exchanged. -/
def mirrored : String → String
  | "<" => ">"
  | "<=" => ">="
  | ">" => "<"
  | ">=" => "<="
  | s => s

/-- Whether a comparison with another object is read from right to left. A node without a meaning of
its own leaves it to any other node. -/
def yields : Value → Value → Bool
  | .expr (.bare _), .expr (.bare _) => false
  | .expr (.bare _), .expr _ => true
  | .expr _, _ => false
  | _, .expr _ => true
  | _, _ => false

/-- The comparison of two objects by an SQL operator. -/
def compared (symbol : String) (a b : Object) : Action Object := do
  let e ← Workspace.lift (Expr.compare symbol a.value b.value)
  match e with
  | .apply _ .binary _ _ => Workspace.applied e [a, b]
  | e => Workspace.applied e [a]

/-- A comparison that makes an expression. -/
def compareExprs (symbol : String) (a b : Object) : Action Object :=
  if yields a.value b.value then compared (mirrored symbol) b a else compared symbol a b

/-- Whether one of two objects is an expression. -/
def eitherExpr (a b : Object) : Bool := a.value.expr?.isSome || b.value.expr?.isSome

/-- Equality, or its negation, which the SQL operator `symbol` stands for. -/
def equate (symbol : String) (negated : Bool) (a b : Object) : Action Object :=
  if eitherExpr a b && !a.value.answersAlone then compareExprs symbol a b
  else do return .bool ((← Workspace.lift (a.equal b)) != negated)

/-- An order between two objects. That of two sequences may come down to an expression. -/
def order (symbol : String) (a b : Object) : Action Object := do
  if eitherExpr a b then return ← compareExprs symbol a b
  match ← Workspace.lift (Plain.order symbol a b) with
  | .settled answer => return .bool answer
  | .depends a b => compareExprs symbol a b

/-- Whether an operator makes an expression: on the left any expression will do, on the right only
where the operator can be read from there. -/
def makesExpr (a b : Object) (fromRight : Bool) : Bool :=
  a.value.expr?.isSome || (fromRight && b.value.expr?.isSome)

/-- An arithmetic operator. -/
def arithmetic (symbol : String) (a b : Object) : Action Object :=
  if makesExpr a b (symbol ≠ "%") then
    Workspace.applied (Expr.binary symbol a.value b.value) [a, b]
  else Plain.arithmetic symbol a b

/-- A power. -/
def power (a b : Object) : Action Object :=
  if makesExpr a b false then Workspace.applied (Expr.call "POWER" [a.value, b.value]) [a, b]
  else Plain.arithmetic "**" a b

/-- AND or OR. -/
def connect (symbol : String) (a b : Object) : Action Object :=
  if makesExpr a b true then Workspace.combine symbol [a, b]
  else Plain.connect (symbol == "AND") a b

/-- A sign. -/
def sign (symbol : String) (a : Object) : Action Object :=
  match a.value with
  | .expr e => Workspace.applied (.apply .none (.unary false) symbol [e]) [a]
  | _ => Plain.sign (symbol == "-") a

/-- A negation. -/
def negate (a : Object) : Action Object :=
  match a.value with
  | .expr e => Workspace.applied (Expr.negation e.value) [a]
  | _ => Plain.complement a

/-- An operator between two objects, by its symbol. -/
def between? (symbol : String) : Option (Object → Object → Action Object) :=
  match symbol with
  | "is" => some fun a b => return .bool (a.same b)
  | "==" => some (equate "=" false)
  | "!=" => some (equate "<>" true)
  | "<" | "<=" | ">" | ">=" => some (order symbol)
  | "+" | "-" | "*" | "/" | "%" => some (arithmetic symbol)
  | "**" => some power
  | "&" => some (connect "AND")
  | "|" => some (connect "OR")
  | _ => none

/-- An operator on one object, by its symbol. -/
def on? (symbol : String) : Option (Object → Action Object) :=
  match symbol with
  | "neg" => some (sign "-")
  | "pos" => some (sign "+")
  | "~" => some negate
  | _ => none

/-- Applies an operator to its operands. -/
def apply (symbol : String) (operands : List Object) : Action Object :=
  match operands with
  | [a] => (on? symbol).elim (throw .unsupportedOperands) (· a)
  | [a, b] => (between? symbol).elim (throw .unsupportedOperands) (· a b)
  | _ => throw .unsupportedOperands

end SqlCompose.Operate
