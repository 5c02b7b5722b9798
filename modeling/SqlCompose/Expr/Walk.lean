import SqlCompose.Expr.Display
import SqlCompose.Expr.Precedence

/-!
# Walking expressions

The nodes of an expression in reading order, the columns and tables that occur in it, and the kind
of data it yields. A subquery is a node like any other, but what is inside it belongs to another
scope and is not entered.
-/
namespace SqlCompose

mutual

/-- A node and all nodes below it, depth first. -/
def Expr.walk : Expr → List Expr
  | .apply asName op symbol arguments => .apply asName op symbol arguments :: walkAll arguments
  | .order asName inner descending => .order asName inner descending :: inner.walk
  | .group asName inner => .group asName inner :: inner.walk
  | e => [e]

/-- The nodes of several expressions, one after the other. -/
def walkAll : List Expr → List Expr
  | [] => []
  | e :: es => e.walk ++ walkAll es

end

theorem walkAll_eq_flatMap (es : List Expr) : walkAll es = es.flatMap Expr.walk := by
  induction es with
  | nil => rfl
  | cons e es ih => simp [walkAll, ih]

/-- The column that a node is. -/
def Expr.columnRef? : Expr → Option ColumnRef
  | .column asName id => some { id, asName }
  | _ => none

/-- The nodes of the expressions among the given values. -/
def Value.walk (vs : List Value) : List Expr := walkAll (vs.filterMap Value.expr?)

/-- The columns in the expressions among the given values, each once, in order of appearance. -/
def collectColumns (vs : List Value) : List ColumnRef :=
  ((Value.walk vs).filterMap Expr.columnRef?).eraseDupsBy fun r s => r.id == s.id

/-- The tables that own the columns in expressions, each once, in order of appearance. -/
def collectTables (cat : Catalog) (vs : List Value) : List TableId :=
  ((collectColumns vs).filterMap fun r => cat.owner r.id).eraseDups

/-- Whether a node is a call of an aggregate function. -/
def Expr.isAggregateCall : Expr → Bool
  | .apply _ (.aggregate _) _ _ => true
  | _ => false

/-- Whether an aggregate function is called in an expression; in no other value is one. -/
def Value.isAggregate (v : Value) : Bool := (Value.walk [v]).any Expr.isAggregateCall

/-- The kind of the first operand of an infix operator or, if it has none, that of the second. -/
def operandKind : List (Except Error (Option DataKind)) → Except Error (Option DataKind)
  | [] => .error (.indexOutOfRange .tuple)
  | left :: others => do
    match ← left with
    | some k => return some k
    | none => others.headD (.error (.indexOutOfRange .tuple))

/-- The kind that an operator yields, given the kinds of its arguments. -/
def Operator.resultKind (op : Operator) (symbol : String)
    (kinds : List (Except Error (Option DataKind))) : Except Error (Option DataKind) :=
  match op with
  | .binary =>
    if symbol ∈ comparisonSymbols then .ok (some .boolean)
    else if symbol = "||" then .ok (some .text)
    else operandKind kinds
  | .boolean | .not | .between _ | .like _ => .ok (some .boolean)
  | _ => .ok none

mutual

/-- The kind of data that an expression yields, as far as it is known. An infix operator that lacks
an operand may have none to look at. -/
def Expr.dataKind (cat : Catalog) : Expr → Except Error (Option DataKind)
  | .literal _ _ kind => .ok kind
  | .column _ id => .ok (cat.column id).kind
  | .apply _ op symbol arguments => op.resultKind symbol (dataKinds cat arguments)
  | .group _ inner => inner.dataKind cat
  | _ => .ok none

/-- The kinds of several expressions. -/
def dataKinds (cat : Catalog) : List Expr → List (Except Error (Option DataKind))
  | [] => []
  | e :: es => e.dataKind cat :: dataKinds cat es

end

/-- The kinds of both operands of an infix operator. -/
def operandKinds (cat : Catalog) :
    List Expr → Except Error (Option DataKind × Option DataKind)
  | left :: right :: _ => do return (← left.dataKind cat, ← right.dataKind cat)
  | [left] => do
    discard (left.dataKind cat)
    throw (.indexOutOfRange .tuple)
  | [] => .error (.indexOutOfRange .tuple)

end SqlCompose
