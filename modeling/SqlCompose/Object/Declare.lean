import SqlCompose.Object.Field
import SqlCompose.Object.Keeping
import SqlCompose.Object.Procedure

/-!
# Declaring objects

Columns, tables, keys, indexes, joins, statements and expression nodes from their fields. Nothing
comes into being unless all fields are accepted.
-/
namespace SqlCompose.Declare

/-- The kind of a column: none, a kind, the name of a kind in any letter case, or a type. -/
def columnKind (cat : Catalog) (v : Value) : Except Error (Option DataKind) :=
  match v with
  | .scalar .null => .ok none
  | .kind k => .ok (some k)
  | .scalar (.text s) => (DataKind.ofValue? (Text.lower s)).elim (.error .badField) (.ok ∘ some)
  | v => (DataKind.ofGivenType cat v).map some

/-- What is declared of a column. -/
def columnFields (cat : Catalog) (name : Option Value) (kind : Value) (fields : Fields) :
    Except Error Column := do
  let kind := columnKind cat kind
  let name := Field.text none name
  let length := Field.optionalInt (fields.lookup "length")
  let flag := fun field => Field.bool false (fields.lookup field)
  let checkText := Field.optionalText (fields.lookup "check")
  let collate := Field.optionalText (fields.lookup "collate")
  let default := (fields.lookup "default").getD .none
  Field.settle <| [Field.check kind, Field.check name, Field.check length, Field.check checkText,
    Field.check collate, Field.check (Field.optionalText (fields.lookup "alias"))]
    ++ ["auto_increment", "primary_key", "not_null", "unique"].map (Field.check ∘ flag)
  return {
    name := ← name
    kind := ← kind
    length := ← length
    autoIncrement := ← flag "auto_increment"
    primaryKey := ← flag "primary_key"
    notNull := ← flag "not_null"
    unique := ← flag "unique"
    default
    check := ← checkText
    collate := ← collate }

/-- A column on its own. -/
def column (a : Arguments) : Action Object := do
  let cat ← Workspace.catalog
  let fields := a.otherValues
  let declared := columnFields cat (some (a.value "name")) (a.value "data_type") fields
  let (id, cat) := cat.addColumn (← Workspace.lift declared)
  Workspace.setCatalog cat
  Keeping.keep (← Workspace.expr (.column ((fields.lookup "alias").getD .none) id)) a.all

/-- Refuses a field that is given by position. -/
def checkPositional (fields : Fields) : Except Error Unit :=
  if (fields.lookup "columns").isSome then
    .error (.repeatedArgument "pydantic.main.BaseModel.__init__" "columns")
  else .ok ()

/-- What is declared of a table beside its columns. -/
def tableOptions (cat : Catalog) (fields : Fields) : Except Error TableOptions := do
  checkPositional fields
  let asName := Field.optionalText (fields.lookup "alias")
  let primaryKey := (fields.lookup "primary_key").elim (.ok []) (Field.columnNames cat)
  let foreignKeys := (fields.lookup "foreign_keys").elim (.ok []) (Field.foreignKeys cat)
  Field.settle [Field.check asName, Field.check primaryKey, Field.check foreignKeys]
  return { asName := ← asName, primaryKey := ← primaryKey, foreignKeys := ← foreignKeys }

/-- A table with its columns. -/
def table (a : Arguments) : Action Object := do
  let cat ← Workspace.catalog
  let options := tableOptions cat a.otherValues
  let (id, cat) ← Workspace.lift (cat.addTable (a.value "name") a.moreValues options)
  Workspace.setCatalog cat
  let given := (a.moreValues.filterMap Value.expr?).filterMap Expr.columnRef?
  Keeping.copyColumns (cat.table id).columns given
  Keeping.keep (← Workspace.make (.table id)) a.all

/-- A foreign key. -/
def foreignKey (cat : Catalog) (fields : Fields) : Except Error ForeignKey := do
  let columns := (fields.lookup "columns").elim (.error .badField) (Field.columnNames cat)
  let references := (fields.lookup "references").elim (.error .badField) (Field.columns cat)
  let onDelete := Field.optionalText (fields.lookup "on_delete")
  let onUpdate := Field.optionalText (fields.lookup "on_update")
  Field.settle [Field.check columns, Field.check references, Field.check onDelete,
    Field.check onUpdate]
  return {
    columns := ← columns
    references := ← references
    onDelete := ← onDelete
    onUpdate := ← onUpdate }

/-- What is declared of an index over columns. -/
def indexFields (name : Value) (columns : List Value) (fields : Fields) : Except Error Index := do
  checkPositional fields
  return {
    name := ← Field.text none (some name)
    columns
    unique := ← Field.bool false (fields.lookup "unique")
    table := ← Field.optionalTable (fields.lookup "table") }

/-- An index over columns. -/
def index (a : Arguments) : Action Object := do
  let declared := indexFields (a.value "name") a.moreValues a.otherValues
  let columns := Object.sequence default .tuple a.more
  Keeping.make (.index (← Workspace.lift declared)) (("columns", columns) :: a.all)

/-- A JOIN clause on its own. -/
def join (fields : Fields) : Except Error Join := do
  let some source := fields.lookup "table" | throw .badField
  return {
    kind := ← Field.text (some "INNER") (fields.lookup "kind")
    source
    on := ← Field.optionalExpr (fields.lookup "on")
    shared := ← Field.each (Field.text none) (fields.lookup "using") }

/-- A context over a dialect. -/
def context (a : Arguments) : Action Object := do
  let fields := a.otherValues
  let some (.dialect dialect) := fields.lookup "dialect" | throw .badField
  discard (Workspace.lift (Field.items (fields.lookup "parameters")))
  let o ← Workspace.addContext dialect (((a.others.lookup "parameters").map Object.items).getD [])
  return o.holding (← Keeping.fields o.value (a.others.filter (·.1 == "dialect")))

/-! ## Statements -/

/-- A term of an ORDER BY clause. -/
def orderTerm : Option Value → Except Error Value
  | some (.expr (.order asName inner descending)) => .ok (.expr (.order asName inner descending))
  | _ => .error .badField

def joinTerm : Option Value → Except Error Value
  | some (.join j) => .ok (.join j)
  | _ => .error .badField

/-- A further SELECT behind its set operator. -/
def member : Option Value → Except Error Value
  | some (.sequence _ [.scalar (.text operator), other]) => .ok (.tuple [.text operator, other])
  | _ => .error .badField

/-- A SELECT from its clauses. -/
def select (fields : Fields) : Except Error Select := do
  let optional := fun field =>
    (Field.optionalExpr (fields.lookup field)).map (Value.ofOption .expr)
  let number := fun field => (Field.optionalInt (fields.lookup field)).map (Value.ofOption .int)
  return {
    filter := ← optional "where_clause"
    fields := .tuple (← Field.items (fields.lookup "select_fields"))
    sources := .tuple (← Field.items (fields.lookup "tables"))
    joins := .tuple (← Field.each joinTerm (fields.lookup "joins"))
    groupBy := .tuple (← Field.items (fields.lookup "group_by_fields"))
    having := ← optional "having_clause"
    orderBy := .tuple (← Field.each orderTerm (fields.lookup "order_by_fields"))
    unions := .tuple (← Field.each member (fields.lookup "unions"))
    limit := ← number "limit_value"
    offset := ← number "offset_value"
    distinct := .bool (← Field.bool false (fields.lookup "is_distinct")) }

/-! ## Nodes -/

/-- The alias of a node. -/
def asName (fields : Fields) : Except Error Value := do
  return .ofOption .text (← Field.optionalText (fields.lookup "alias"))

/-- An operator node. The arguments may be any values. -/
def operator (cat : Catalog) (fields : Fields) (op : Except Error Operator) (symbol : String) :
    Except Error Expr := do
  let symbol := Field.text (some symbol) (fields.lookup "symbol")
  let arguments := (fields.lookup "arguments").elim (.ok []) (Value.items cat)
  Field.settle [Field.check arguments, Field.check (asName fields), Field.check symbol,
    Field.check op]
  return .apply (← asName fields) (← op) (← symbol) (Value.toExprs (← arguments))

/-- How a LIKE node makes its pattern. -/
def likeForm (fields : Fields) : Except Error LikeForm := do
  return {
    caseInsensitive := ← Field.bool false (fields.lookup "case_insensitive")
    fuzzyStart := ← Field.bool true (fields.lookup "fuzzy_start")
    fuzzyEnd := ← Field.bool true (fields.lookup "fuzzy_end")
    escapeNeedle := ← Field.bool true (fields.lookup "escape_needle")
    escape := ← Field.optionalText (fields.lookup "escape")
    negated := ← Field.bool false (fields.lookup "negated") }

/-- A literal node; without a kind of its own it has that of its value. -/
def literal (fields : Fields) : Except Error Expr := do
  let v := (fields.lookup "value").getD .none
  let kind ← Field.optionalKind (fields.lookup "kind")
  return .literal (← asName fields) v (kind.or v.dataKind?)

/-- A term of an ORDER BY clause. -/
def order (fields : Fields) : Except Error Expr := do
  return .order (← asName fields) (← Field.expr (fields.lookup "expression"))
    (← Field.bool false (fields.lookup "descending"))

/-- An expression node of the given type. -/
def node? (cat : Catalog) (fields : Fields) (type : String) : Option (Except Error Expr) :=
  let flag := fun field => Field.bool false (fields.lookup field)
  let operator := operator cat fields
  match type with
  | "Expression" => some (return .bare (← asName fields))
  | "LiteralExpression" => some (literal fields)
  | "FunctionExpression" => some (operator (.ok .function) "")
  | "AggregateExpression" => some (operator ((flag "distinct").map .aggregate) "")
  | "UnaryOperatorExpression" => some (operator ((flag "postfix").map .unary) "")
  | "BinaryOperatorExpression" => some (operator (.ok .binary) "")
  | "BooleanExpression" => some (operator (.ok .boolean) "")
  | "NotExpression" => some (operator (.ok .not) "NOT")
  | "BetweenExpression" => some (operator ((flag "negated").map .between) "")
  | "LikeExpression" => some (operator ((likeForm fields).map .like) "")
  | "ListExpression" => some (operator (.ok .list) "")
  | "OrderExpression" => some (order fields)
  | "ParenthesizedExpression" => some do
    let some inner := fields.lookup "inner" | throw .badField
    return .group (← asName fields) inner.toExpr
  | "RawExpression" => some do
    return .raw (← asName fields) (← Field.text none (fields.lookup "text"))
  | "SubqueryExpression" => some do
    let some query := fields.lookup "query" | throw .badField
    return .subquery (← asName fields) query
  | _ => none

/-- A field of a node as the object that the node holds: arguments and what is inside parentheses
are made expressions. -/
def operand (name : String) (o : Object) : Action (Option Object) := do
  match name with
  | "inner" => return some (← Workspace.asExpr o)
  | "arguments" =>
    if o.items.isEmpty then return none
    return some (← Workspace.sequence .tuple (← Workspace.asExprs (Keeping.rowOf o)))
  | _ => return some o

/-- An expression node that holds what it was given. -/
def node (e : Expr) (a : Arguments) : Action Object := do
  let given ← a.others.filterMapM fun (name, o) => return (← operand name o).map (name, ·)
  Keeping.make (.expr e) given

/-! ## Everything that can be declared -/

/-- A declaration by fields. -/
def ofFields (make : Catalog → Fields → Except Error Value) : Procedure :=
  .declaration fun a => do
    let v ← Workspace.lift (make (← Workspace.catalog) a.otherValues)
    Keeping.make v a.others

/-- A declaration that takes its first field and further arguments by position. -/
def named (run : Arguments → Action Object) : Procedure where
  signature :=
    { names := ["name"], required := 1, takesMore := true, takesOthers := true,
      reserved := ["self"] }
  run

/-- The declaration of a dialect. A placeholder style is held as a style, not as its name. -/
def dialect (e : Engine) : Procedure :=
  .declaration fun a => do
    let d ← Workspace.lift (Field.dialect e a.otherValues)
    Keeping.make (.dialect d) (a.others.filter (·.1 ≠ "placeholder_style"))

/-- What declares an object of the given type. -/
def type? (cat : Catalog) (name : String) : Option Procedure :=
  match name with
  | "Column" => some {
      signature :=
        { names := ["name", "data_type"], required := 1, takesOthers := true,
          reserved := ["self"] }
      run := column }
  | "Table" => some (named table)
  | "Index" => some (named index)
  | "ForeignKey" => some (ofFields fun cat fields => (foreignKey cat fields).map .foreignKey)
  | "Join" => some (ofFields fun _ fields => (join fields).map .join)
  | "BuildContext" => some (.declaration context)
  | "QueryBuilder" => some (.optional [] ["dialect"] fun a =>
      match a.value "dialect" with
      | .scalar .null => Workspace.make (.builder (.dialect (Dialect.standard .generic)))
      | v => Workspace.makeWith (.builder v) [("dialect", a.get "dialect")])
  | "CompiledQuery" => some (.exact ["sql", "parameters"] fun a =>
      Workspace.sequence .compiled [a.get "sql", a.get "parameters"])
  | "Select" => some (ofFields fun _ fields => (select fields).map .select)
  | "Statement" => some (ofFields fun _ _ => .ok (.statement []))
  | "Dialect" => some (dialect .generic)
  | "SqliteDialect" => some (dialect .sqlite)
  | "MysqlDialect" => some (dialect .mysql)
  | "PostgresDialect" => some (dialect .postgresql)
  | "SqlserverDialect" => some (dialect .sqlserver)
  | name =>
    if (node? cat [] name).isNone then none
    else some (.declaration fun a => do
      match node? (← Workspace.catalog) a.otherValues name with
      | some e => node (← Workspace.lift e) a
      | none => throw .badCall)

end SqlCompose.Declare
