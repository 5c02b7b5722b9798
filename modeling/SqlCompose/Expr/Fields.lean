import SqlCompose.Catalog.Basic
import SqlCompose.Dialect.Basic

/-!
# Fields of values

What values are made of, under names, and the parts that a value falls into when it is gone through
one by one.
-/
namespace SqlCompose

/-- The settings of an operator beside its symbol. -/
def Operator.flags : Operator → List (String × Scalar)
  | aggregate distinct => [("distinct", .bool distinct)]
  | unary trailing => [("postfix", .bool trailing)]
  | between negated => [("negated", .bool negated)]
  | like f =>
    [("case_insensitive", .bool f.caseInsensitive), ("fuzzy_start", .bool f.fuzzyStart),
      ("fuzzy_end", .bool f.fuzzyEnd), ("escape_needle", .bool f.escapeNeedle),
      ("escape", (f.escape.map Scalar.text).getD .null), ("negated", .bool f.negated)]
  | function | binary | boolean | not | list => []

namespace Column

/-- The fields of a column before its default value. -/
def leadingFields (c : Column) : List (String × Value) :=
  [("name", .text c.name), ("data_type", .ofOption .kind c.kind),
    ("length", .ofOption .int c.length), ("auto_increment", .bool c.autoIncrement),
    ("primary_key", .bool c.primaryKey), ("not_null", .bool c.notNull), ("unique", .bool c.unique)]

/-- The fields of a column after its default value. -/
def trailingFields (c : Column) : List (String × Value) :=
  [("check", .ofOption .text c.check), ("collate", .ofOption .text c.collate)]

/-- The fields of a column that has an alias. -/
def namedFields (c : Column) (asName : Value) : List (String × Value) :=
  ("alias", asName) :: c.leadingFields ++ ("default", c.default) :: c.trailingFields

end Column

/-- Names as a value. -/
def Value.texts (names : List String) : Value := .tuple (names.map .text)

def Table.namedFields (t : Table) : List (String × Value) :=
  [("name", .text t.name), ("columns", .tuple (t.columns.map fun r => .expr r.expr)),
    ("alias", .ofOption .text t.asName), ("primary_key", .texts t.primaryKey),
    ("foreign_keys", .tuple (t.foreignKeys.map .foreignKey))]

def ForeignKey.namedFields (k : ForeignKey) : List (String × Value) :=
  [("columns", .texts k.columns),
    ("references", .tuple (k.references.map .expr)),
    ("on_delete", .ofOption .text k.onDelete), ("on_update", .ofOption .text k.onUpdate)]

def Expr.namedFields (cat : Catalog) : Expr → List (String × Value)
  | literal a v k => [("alias", a), ("value", v), ("kind", .ofOption .kind k)]
  | column a id => (cat.column id).namedFields a
  | apply a op symbol arguments =>
    [("alias", a), ("symbol", .text symbol), ("arguments", .tuple (arguments.map .expr))]
      ++ op.flags.map fun (name, s) => (name, .scalar s)
  | order a inner descending =>
    [("alias", a), ("expression", .expr inner), ("descending", .bool descending)]
  | group a inner => [("alias", a), ("inner", .expr inner)]
  | raw a text => [("alias", a), ("text", .text text)]
  | subquery a body => [("alias", a), ("query", body)]
  | bare a => [("alias", a)]

/-- The names of the clauses of a SELECT. -/
def Select.fieldNames : List String :=
  ["where_clause", "select_fields", "tables", "joins", "group_by_fields", "having_clause",
    "order_by_fields", "unions", "limit_value", "offset_value", "is_distinct"]

def Select.namedFields (q : Select) : List (String × Value) :=
  Select.fieldNames.zip [q.filter, q.fields, q.sources, q.joins, q.groupBy, q.having, q.orderBy,
    q.unions, q.limit, q.offset, q.distinct]

/-- The names of the clauses of an INSERT. -/
def Insert.fieldNames : List String :=
  ["table", "column_list", "rows_values", "select_query", "returning_fields"]

def Insert.namedFields (q : Insert) : List (String × Value) :=
  Insert.fieldNames.zip [q.table, q.columns, q.rows, q.query, q.returning]

/-- The names of the clauses of an UPDATE. -/
def Update.fieldNames : List String :=
  ["where_clause", "table", "assignments", "returning_fields"]

def Update.namedFields (q : Update) : List (String × Value) :=
  Update.fieldNames.zip [q.filter, q.table, q.assignments, q.returning]

/-- The names of the clauses of a DELETE. -/
def Delete.fieldNames : List String := ["where_clause", "table", "returning_fields"]

def Delete.namedFields (q : Delete) : List (String × Value) :=
  Delete.fieldNames.zip [q.filter, q.table, q.returning]

def Join.namedFields (j : Join) : List (String × Value) :=
  [("kind", .text j.kind), ("table", j.source), ("on", .ofOption .expr j.on),
    ("using", .texts j.shared)]

def Index.namedFields (i : Index) : List (String × Value) :=
  [("name", .text i.name), ("columns", .tuple i.columns), ("unique", .bool i.unique),
    ("table", .ofOption .table i.table)]

/-- The settings of a dialect, with those that were given as something else as they were given. -/
def Dialect.namedFields (d : Dialect) : List (String × Value) :=
  let settings : List (String × Value) :=
    [("identifier_quote", .texts [d.identifierQuote.1, d.identifierQuote.2]),
      ("placeholder_style", .text d.placeholderStyle.value),
      ("bind_literals", .bool d.bindLiterals),
      ("create_auto_increment", .ofOption .rule d.autoIncrement),
      ("type_names", .dict (d.typeNames.map fun (k, s) => (.kind k, .text s))),
      ("substitutions", .dict (d.substitutions.map fun (k, s) => (.text k, .text s)))]
  settings.map fun (name, v) => (name, (d.given.lookup name).getD v)

namespace Value

/-- What a copy of a statement holds beside its clauses. -/
def extras : Value → List (String × Value)
  | select q => q.extras
  | insert q => q.extras
  | update q => q.extras
  | delete q => q.extras
  | statement extras => extras
  | _ => []

/-- Whether a name is kept out of sight: it starts with an underscore. -/
def isHidden (name : String) : Bool := name.toList.head? == some '_'

/-- The fields that a value of a type has by declaration, in order. -/
def declaredFields (cat : Catalog) : Value → List (String × Value)
  | expr e => e.namedFields cat
  | table id => (cat.table id).namedFields
  | select q => q.namedFields
  | insert q => q.namedFields
  | update q => q.namedFields
  | delete q => q.namedFields
  | join j => j.namedFields
  | index i => i.namedFields
  | foreignKey k => k.namedFields
  | dialect d => d.namedFields
  | context d n items => [("dialect", .dialect d), ("parameters", parameters n items)]
  | _ => []

/-- The fields of a value that can be gone through, in order. -/
def namedFields (cat : Catalog) (v : Value) : List (String × Value) :=
  v.declaredFields cat ++ v.extras.filter fun (name, _) => !isHidden name

/-- The parts of a value that can be gone through one by one: those of a value with fields are
pairs of a name and what the field holds. -/
def items (cat : Catalog) (v : Value) : Except Error (List Value) :=
  match v.parts? with
  | some parts => .ok parts
  | Option.none =>
    if v.hasFields then .ok ((v.namedFields cat).map fun (name, w) => .tuple [.text name, w])
    else .error (.notIterable v.typeTag)

end Value

end SqlCompose
