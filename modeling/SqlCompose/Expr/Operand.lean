import SqlCompose.Dialect.Literal
import SqlCompose.Draft
import SqlCompose.Expr.Precedence
import SqlCompose.Text.Casing

/-!
# Operators with their operands

How each operator is written for an engine once its operands are drafted. An operator looks at no
more of an operand than its binding strength, its symbol and, for a LIKE needle, its literal text.
-/
namespace SqlCompose

/-- An operand: its draft, and what the operator around it has to know. -/
structure Operand where
  level : Level
  symbol : String
  text : Option String
  draft : Draft

namespace Operand

/-- An operand as it stands under an operator, in parentheses if it needs them. -/
def under (o : Operand) (parent : Level) (parentSymbol : String) (side : Side) : Draft :=
  if needsParentheses o.level o.symbol parent parentSymbol side then o.draft.parenthesized
  else o.draft

/-- A literal of text as an operand. -/
def ofText (s : String) : Operand :=
  { level := .atom, symbol := "", text := some s, draft := .literal (.text s) }

end Operand

/-- A function call whose arguments are written before its name, with a lead before the first. -/
def callWith (symbol : String) (lead : Option String) (arguments : List Draft) : Draft :=
  .framed lead (Draft.asking "function_sql" (.spelling symbol) + .token .opening) arguments
    (.token .closing)

/-- A function call. SQLite has no function for the current time and reads a clock by name. -/
def callDraft (e : Engine) (symbol : String) (arguments : List Draft) : Draft :=
  match e, symbol, arguments with
  | .sqlite, "NOW", [] => Draft.asking "function_sql" (.text Dialect.clock)
  | _, _, _ => callWith symbol none arguments

/-- A function call as an operand. -/
def callOperand (e : Engine) (symbol : String) (arguments : List Operand) : Operand :=
  { level := .atom, symbol, text := none, draft := callDraft e symbol (arguments.map (·.draft)) }

/-- An infix operator between two operands. -/
def infixDraft (symbol : String) (left right : Operand) : Draft :=
  Draft.infixed (left.under (binaryLevel symbol) symbol .left) symbol
    (right.under (binaryLevel symbol) symbol .right)

/-- Two texts joined, as an engine spells it. -/
def concatDraft (e : Engine) (left right : Operand) : Draft :=
  Draft.asking "f" <|
    match e.concatenation with
    | .called => callDraft e "CONCAT" [left.draft, right.draft]
    | .infixed => infixDraft "||" left right

/-- Two texts joined, as an operand. -/
def concatOperand (e : Engine) (left right : Operand) : Operand :=
  match e.concatenation with
  | .called => callOperand e "CONCAT" [left, right]
  | .infixed =>
    { level := .concat, symbol := "||", text := none, draft := concatDraft e left right }

namespace LikeForm

/-- The pattern for a needle. -/
def pattern (form : LikeForm) (needle : String) : String :=
  let escaped := if form.escapeNeedle then escapeLike needle else needle
  let folded := if form.caseInsensitive then Text.lower escaped else escaped
  (if form.fuzzyStart then "%" else "") ++ folded ++ (if form.fuzzyEnd then "%" else "")

/-- The explicit escape character; an empty one is none. -/
def explicitEscape (form : LikeForm) : Option String := form.escape.filter (· ≠ "")

/-- The literal of the escape character: the explicit one, or the engine's own when the needle was
escaped. -/
def escapeLiteral? (form : LikeForm) (e : Engine) (escaped : Bool) : Option Draft :=
  match form.explicitEscape with
  | some mark => some (Draft.packed (.text mark)).shown
  | none => if escaped then e.likeEscape?.map Draft.text else none

/-- The clause that names an escape character. -/
def escapeClause (literal : Option Draft) : Draft :=
  match literal with
  | some mark => Draft.operator .between "ESCAPE" + mark
  | none => Draft.empty

/-- The operand in lower case, when letter case is ignored. -/
def fold (form : LikeForm) (e : Engine) (o : Operand) : Operand :=
  if form.caseInsensitive then callOperand e "LOWER" [o] else o

/-- The wildcard that stands for any text. -/
def wildcard : Operand := Operand.ofText "%"

/-- The pattern of a needle that is no literal text, put together by the database. -/
def computedPattern (form : LikeForm) (e : Engine) (needle : Operand) : Operand :=
  let folded := form.fold e needle
  let opened := if form.fuzzyStart then concatOperand e wildcard folded else folded
  if form.fuzzyEnd then concatOperand e opened wildcard else opened

/-- What a dialect is asked for before a LIKE test is written. -/
def asked (form : LikeForm) (needle : Operand) : List String :=
  if needle.text.isSome then
    if !form.escapeNeedle then []
    else "f" :: (if form.explicitEscape.isSome then [] else ["LIKE_ESCAPE_CLAUSE"])
  else if form.fuzzyStart || form.fuzzyEnd then ["f"] else []

/-- The test itself. -/
def test (form : LikeForm) (e : Engine) (symbol : String) (haystack needle : Operand) : Draft :=
  let pattern := match needle.text with
    | some s => Operand.ofText (form.pattern s)
    | none => form.computedPattern e needle
  let escape := form.escapeLiteral? e (needle.text.isSome && form.escapeNeedle)
  Draft.infixed ((form.fold e haystack).under .comparison symbol .left)
    (if form.negated then "NOT LIKE" else "LIKE") (pattern.under .comparison symbol .right)
    + escapeClause escape

/-- A LIKE test. The escape character is looked at before the operands. -/
def draft (form : LikeForm) (e : Engine) (symbol : String) (haystack needle : Operand) : Draft :=
  let asking := (form.asked needle).foldr Draft.asking (form.test e symbol haystack needle)
  Draft.asking "" <|
    match form.explicitEscape with
    | some mark => .before (.packed (.text mark)) asking
    | none => asking

end LikeForm

namespace Operator

/-- A function call; it needs a name. -/
def functionDraft (e : Engine) (symbol : String) (operands : List Operand) : Draft :=
  if symbol = "" then .fail (.missingSymbol "FunctionExpression")
  else callDraft e symbol (operands.map (·.draft))

/-- A call of an aggregate function; it needs a name, and without arguments it takes whole rows. -/
def aggregateDraft (distinct : Bool) (symbol : String) (operands : List Operand) : Draft :=
  if symbol = "" then .fail (.missingSymbol "AggregateExpression")
  else
    match operands with
    | [] => callWith symbol none [.text "*"]
    | operands =>
      callWith symbol (if distinct then some "DISTINCT " else none) (operands.map (·.draft))

/-- A sign or a test behind its operand. -/
def unaryDraft (trailing : Bool) (symbol : String) : List Operand → Draft
  | [o] =>
    if trailing then (o.under .comparison symbol .left).shown + .operator .behind symbol
    else Draft.operator .before symbol + (o.under .unary symbol .right).shown
  | _ => .fail (.wrongArity "UnaryOperatorExpression" "exactly one argument")

/-- An infix operator. Concatenation is spelled as the engine wants it. -/
def binaryDraft (e : Engine) (symbol : String) (operands : List Operand) : Draft :=
  if symbol = "" then .fail (.missingSymbol "BinaryOperatorExpression")
  else
    match operands with
    | [left, right] =>
      if symbol = "||" then concatDraft e left right else infixDraft symbol left right
    | _ => .fail (.wrongArity "BinaryOperatorExpression" "exactly two arguments")

/-- AND or OR over any number of operands. -/
def booleanDraft (symbol : String) (operands : List Operand) : Draft :=
  if symbol ≠ "AND" ∧ symbol ≠ "OR" then .fail (.unknownConnective (Text.display symbol))
  else
    match operands with
    | [] => .fail .emptyBoolean
    | first :: others =>
      let level := Operator.boolean.level symbol
      .row (.operator .between symbol)
        (first.under level symbol .left :: others.map (·.under level symbol .right))

/-- A negation. -/
def notDraft (symbol : String) : List Operand → Draft
  | [o] => Draft.operator .before "NOT" + o.under .not symbol .right
  | _ => .fail (.wrongArity "NotExpression" "exactly one argument")

/-- A range test. -/
def betweenDraft (negated : Bool) (symbol : String) : List Operand → Draft
  | [o, low, high] =>
    Draft.infixed (o.under .comparison symbol .left) (if negated then "NOT BETWEEN" else "BETWEEN")
      (low.under .comparison symbol .left)
      + .operator .between "AND" + (high.under .comparison symbol .left).shown
  | _ => .fail (.wrongArity "BetweenExpression" "three arguments")

/-- A LIKE test. -/
def likeDraft (e : Engine) (form : LikeForm) (symbol : String) : List Operand → Draft
  | [haystack, needle] => form.draft e symbol haystack needle
  | _ => .fail (.wrongArity "LikeExpression" "two arguments")

/-- A list of values; it may not be empty. -/
def listDraft (items : List Draft) : Draft :=
  if items.isEmpty then .fail .emptyValueList else (Draft.commaSeparated items).parenthesized

/-- An operator with its operands. -/
def draft (e : Engine) (op : Operator) (symbol : String) (operands : List Operand) : Draft :=
  match op with
  | function => functionDraft e symbol operands
  | aggregate distinct => aggregateDraft distinct symbol operands
  | unary trailing => unaryDraft trailing symbol operands
  | binary => binaryDraft e symbol operands
  | boolean => booleanDraft symbol operands
  | not => notDraft symbol operands
  | between negated => betweenDraft negated symbol operands
  | like form => likeDraft e form symbol operands
  | list => listDraft (operands.map (·.draft))

end Operator

end SqlCompose
