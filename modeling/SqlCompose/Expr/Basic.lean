import SqlCompose.Catalog.Id
import SqlCompose.Dialect.Engine
import SqlCompose.Dialect.Setting
import SqlCompose.Number.Complex
import SqlCompose.Scalar
import SqlCompose.Span

/-!
# Expressions, statements and values

The trees that SQL is rendered from. An expression may hold a statement (a subquery), a statement
holds expressions, and the values that callers pass may hold either, so the types are declared
together.

Every expression node carries the alias that names it in a SELECT list; the null value is no alias.
A node that applies an operator takes any number of arguments; rendering checks how many it needs.
The clauses of a statement are values, because a copy of a statement may hold anything in them; what
fits and what does not shows when the statement is rendered. A copy may also hold values under other
names, its extras, which go before what a statement does under these names.
-/
namespace SqlCompose

/-- The kinds of sequence a caller can pass. The outcome of a compilation is a sequence of two: its
text and its parameters. What a context has bound so far is a list of its own, which grows wherever
it is held. -/
inductive SequenceForm
  | list
  | tuple
  | set
  | compiled
  | bound (context : Nat)
deriving DecidableEq, Inhabited

/-- Whether a sequence is a list. -/
def SequenceForm.isList : SequenceForm → Bool
  | list | bound _ => true
  | _ => false

/-- Whether a sequence is a tuple. -/
def SequenceForm.isTuple : SequenceForm → Bool
  | tuple | compiled => true
  | _ => false

/-- How a LIKE test makes its pattern from the needle: wildcards put around it, wildcards in it
escaped, and letter case ignored. -/
structure LikeForm where
  caseInsensitive : Bool := false
  fuzzyStart : Bool := true
  fuzzyEnd : Bool := true
  escapeNeedle : Bool := true
  escape : Option String := none
  negated : Bool := false
deriving DecidableEq, Inhabited

/-- What an operator node does with its arguments. The symbol is kept beside it. -/
inductive Operator
  | function
  | aggregate (distinct : Bool)
  | unary (trailing : Bool)
  | binary
  | boolean
  | not
  | between (negated : Bool)
  | like (form : LikeForm)
  | list
deriving DecidableEq, Inhabited

/-- How the rows of a further SELECT are added. -/
inductive SetOperator
  | union
  | unionAll
deriving DecidableEq, Inhabited

/-- The keywords of a set operator. -/
def SetOperator.keyword : SetOperator → String
  | union => "UNION"
  | unionAll => "UNION ALL"

mutual

/-- A value as a caller passes it. -/
inductive Value
  | scalar (s : Scalar)
  | sequence (form : SequenceForm) (items : List Value)
  | dict (entries : List (Value × Value))
  | kind (k : DataKind)
  | span (s : Span)
  | complex (z : Number.Complex)
  | type (t : TypeTag)
  /-- A choice between types. -/
  | union (members : List Value)
  /-- A type that is made special for the type of its parts. -/
  | generic (origin : TypeTag) (parts : List Value)
  | expr (e : Expr)
  | table (id : TableId)
  | select (q : Select)
  | insert (q : Insert)
  | update (q : Update)
  | delete (q : Delete)
  /-- A statement of no particular kind, which cannot be rendered. -/
  | statement (extras : List (String × Value))
  | join (j : Join)
  | index (i : Index)
  | foreignKey (k : ForeignKey)
  | dialect (d : Dialect)
  /-- The functions that an engine spells in its own way. -/
  | helpers (e : Engine)
  /-- A rule for the type of columns that count up. -/
  | rule (r : AutoIncrement)
  /-- What compiles for a dialect. -/
  | builder (dialect : Value)
  /-- A dialect with the parameters bound so far. The number tells contexts apart. -/
  | context (dialect : Dialect) (number : Nat) (parameters : List Value)
  /-- What runs a compiled statement. -/
  | executor
  /-- A method of a value that is not called yet. -/
  | method (owner : Value) (name : String)
  /-- Anything else; only its type is known. -/
  | object (t : TypeTag)

/-- An SQL expression. -/
inductive Expr
  | literal (asName : Value) (value : Value) (kind : Option DataKind)
  | column (asName : Value) (id : ColumnId)
  | apply (asName : Value) (op : Operator) (symbol : String) (arguments : List Expr)
  /-- A term of an ORDER BY clause. -/
  | order (asName : Value) (inner : Expr) (descending : Bool)
  /-- An explicit pair of parentheses. -/
  | group (asName : Value) (inner : Expr)
  /-- SQL text taken as it is. -/
  | raw (asName : Value) (text : String)
  /-- A parenthesised statement. -/
  | subquery (asName : Value) (body : Value)
  /-- A node without any meaning of its own; it cannot be rendered. -/
  | bare (asName : Value)

/-- One JOIN clause, with a condition or the names of the shared columns that it matches on. -/
structure Join where
  kind : String := "INNER"
  source : Value
  on : Option Expr := none
  shared : List String := []

/-- An index. Without a table of its own it belongs to the table of its first column. -/
structure Index where
  name : String
  columns : List Value := []
  unique : Bool := false
  table : Option TableId := none

/-- Columns of a table, by name, that refer to columns of another table. -/
structure ForeignKey where
  columns : List String
  references : List Expr
  onDelete : Option String := none
  onUpdate : Option String := none

/-- A SELECT statement. Without explicit sources the FROM clause lists the tables that own the
selected columns. -/
structure Select where
  filter : Value
  fields : Value
  sources : Value
  joins : Value
  groupBy : Value
  having : Value
  orderBy : Value
  /-- Pairs of a set operator and a further SELECT. -/
  unions : Value
  limit : Value
  offset : Value
  distinct : Value
  extras : List (String × Value) := []

/-- An INSERT statement: rows of values, a SELECT, or nothing at all. -/
structure Insert where
  table : Value
  columns : Value
  rows : Value
  query : Value
  returning : Value
  extras : List (String × Value) := []

/-- An UPDATE statement. -/
structure Update where
  filter : Value
  table : Value
  /-- Pairs of a column and the value that it is set to. -/
  assignments : Value
  returning : Value
  extras : List (String × Value) := []

/-- A DELETE statement. -/
structure Delete where
  filter : Value
  table : Value
  returning : Value
  extras : List (String × Value) := []

/-- A dialect: an engine with its settings. Every setting can be changed on its own. A setting that
was given as something other than what it holds has its effect here and is kept in `given`. -/
structure Dialect where
  engine : Engine
  /-- The opening and closing quote of a name; an empty opening quote leaves names as they are. -/
  identifierQuote : String × String
  placeholderStyle : PlaceholderStyle
  /-- Whether literals become parameters; otherwise they are written into the text. -/
  bindLiterals : Bool
  /-- How columns count up; without a rule the type is followed by AUTO_INCREMENT. -/
  autoIncrement : Option AutoIncrement
  typeNames : List (DataKind × String)
  /-- Spellings of constants and functions that differ from the portable ones. -/
  substitutions : List (String × String)
  given : List (String × Value) := []

end

instance : Inhabited Value := ⟨.scalar .null⟩

instance : Inhabited Expr := ⟨.bare (.scalar .null)⟩

instance : Inhabited Dialect := ⟨.generic, ("", ""), .qmark, true, none, [], [], []⟩

namespace Value

/-- The value that stands for nothing. -/
def none : Value := scalar .null

def bool (b : Bool) : Value := scalar (.bool b)

def int (n : Int) : Value := scalar (.int n)

def text (s : String) : Value := scalar (.text s)

def list (items : List Value) : Value := sequence .list items

def tuple (items : List Value) : Value := sequence .tuple items

/-- A value that may be absent. -/
def ofOption {α : Type} (f : α → Value) : Option α → Value
  | Option.none => none
  | some a => f a

/-- The expression that a value is, if it is one. -/
def expr? : Value → Option Expr
  | expr e => some e
  | _ => Option.none

/-- The table that a value is, if it is one. -/
def table? : Value → Option TableId
  | table id => some id
  | _ => Option.none

/-- The column that a value is, if it is one. -/
def column? : Value → Option ColumnId
  | expr (.column _ id) => some id
  | _ => Option.none

/-- The text that a value is, if it is one. -/
def text? : Value → Option String
  | scalar (.text s) => some s
  | _ => Option.none

/-- The kind that a value is, if it is one. -/
def kind? : Value → Option DataKind
  | kind k => some k
  | _ => Option.none

/-- Whether a value is a tuple, with or without names for its parts. -/
def tuple? : Value → Option (List Value)
  | sequence form items => if form.isTuple then some items else Option.none
  | _ => Option.none

/-- The items of a list. -/
def list? : Value → Option (List Value)
  | sequence form items => if form.isList then some items else Option.none
  | _ => Option.none

/-- The bytes of binary data. -/
def bytes? : Value → Option (List UInt8)
  | scalar (.binary _ bytes) => some bytes
  | _ => Option.none

/-- Whether a value stands for nothing. -/
def isNone : Value → Bool
  | scalar .null => true
  | _ => false

/-- The list of what a context has bound so far. -/
def parameters (context : Nat) (items : List Value) : Value := sequence (.bound context) items

/-- The items of a sequence, the keys of a mapping, the characters of a text or the bytes of binary
data. -/
def parts? : Value → Option (List Value)
  | sequence _ items => some items
  | dict entries => some (entries.map (·.1))
  | scalar (.text s) => some (s.toList.map fun c => text (String.ofList [c]))
  | scalar (.binary _ bytes) => some (bytes.map fun b => int b.toNat)
  | _ => Option.none

/-- Whether a value counts as true where a yes or no is asked for. -/
def truthy : Value → Bool
  | scalar s => s.truthy
  | sequence _ items => !items.isEmpty
  | dict entries => !entries.isEmpty
  | span s => !s.isZero
  | complex z => !z.isZero
  | _ => true

end Value

/-- A SELECT without any clause. -/
def Select.empty : Select where
  filter := .none
  fields := .tuple []
  sources := .tuple []
  joins := .tuple []
  groupBy := .tuple []
  having := .none
  orderBy := .tuple []
  unions := .tuple []
  limit := .none
  offset := .none
  distinct := .bool false

/-- An INSERT into a table. -/
def Insert.into (table : Value) : Insert where
  table := table
  columns := .tuple []
  rows := .tuple []
  query := .none
  returning := .tuple []

/-- An UPDATE of a table. -/
def Update.of (table : Value) : Update where
  filter := .none
  table := table
  assignments := .tuple []
  returning := .tuple []

/-- A DELETE from a table. -/
def Delete.from (table : Value) : Delete where
  filter := .none
  table := table
  returning := .tuple []

namespace Expr

/-- The alias of a node. -/
def asName : Expr → Value
  | literal a .. | column a _ | apply a .. | order a .. | group a _ | raw a _ | subquery a _
  | bare a => a

/-- The same node with another alias. -/
def withAlias (a : Value) : Expr → Expr
  | literal _ v k => literal a v k
  | column _ id => column a id
  | apply _ op symbol args => apply a op symbol args
  | order _ e d => order a e d
  | group _ e => group a e
  | raw _ s => raw a s
  | subquery _ body => subquery a body
  | bare _ => bare a

@[simp] theorem asName_withAlias (a : Value) (e : Expr) : (e.withAlias a).asName = a := by
  cases e <;> rfl

/-- Whether a node has an alias; an empty one is none. -/
def isNamed (e : Expr) : Bool := e.asName.truthy

/-- The symbol of an operator node, and nothing for the others. -/
def symbol : Expr → String
  | apply _ _ symbol _ => symbol
  | _ => ""

/-- The text of a literal node that holds text. -/
def text? : Expr → Option String
  | literal _ (.scalar (.text s)) _ => some s
  | _ => Option.none

end Expr

end SqlCompose
