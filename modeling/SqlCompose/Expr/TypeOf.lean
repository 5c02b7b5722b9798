import SqlCompose.Expr.Basic

/-!
# Types of values

The type of every value, and which values have named fields.
-/
namespace SqlCompose

/-- The type of an engine's dialect. -/
def Engine.typeTag : Engine → TypeTag
  | generic => .entity ["dialects", "base"] "Dialect"
  | sqlite => .entity ["dialects", "sqlite"] "SqliteDialect"
  | mysql => .entity ["dialects", "mysql"] "MysqlDialect"
  | postgresql => .entity ["dialects", "postgres"] "PostgresDialect"
  | sqlserver => .entity ["dialects", "sqlserver"] "SqlserverDialect"

/-- The name of a node's type. -/
def Operator.nodeName : Operator → String
  | function => "FunctionExpression"
  | aggregate _ => "AggregateExpression"
  | unary _ => "UnaryOperatorExpression"
  | binary => "BinaryOperatorExpression"
  | boolean => "BooleanExpression"
  | not => "NotExpression"
  | between _ => "BetweenExpression"
  | like _ => "LikeExpression"
  | list => "ListExpression"

/-- The part of the library that declares a node. -/
def Operator.home : Operator → String
  | function | aggregate _ => "function"
  | unary _ => "unary_operator"
  | binary => "binary_operator"
  | boolean | not => "boolean"
  | between _ => "between"
  | like _ => "like"
  | list => "list"

/-- The type of an operator's nodes. -/
def Operator.typeTag (op : Operator) : TypeTag := .entity ["expressions", op.home] op.nodeName

def Expr.typeTag : Expr → TypeTag
  | literal .. => .entity ["expressions", "literal"] "LiteralExpression"
  | column .. => .entity ["column"] "Column"
  | apply _ op .. => op.typeTag
  | order .. => .entity ["expressions", "order"] "OrderExpression"
  | group .. => .entity ["expressions", "parenthesized"] "ParenthesizedExpression"
  | raw .. => .entity ["expressions", "raw"] "RawExpression"
  | subquery .. => .entity ["expressions", "subquery"] "SubqueryExpression"
  | bare _ => .entity ["expressions", "_bases"] "Expression"

namespace Value

def typeTag : Value → TypeTag
  | scalar s => s.typeTag
  | sequence .list _ | sequence (.bound _) _ => .list
  | sequence .tuple _ => .tuple
  | sequence .set _ => .set
  | sequence .compiled _ => .entity ["query_builder"] "CompiledQuery"
  | dict _ => .dict
  | kind _ => .enumeration "DataKind"
  | span _ => .span
  | complex _ => .complex
  | type _ => .type
  | union _ => .union
  | generic .. => .generic
  | expr e => e.typeTag
  | table _ => .entity ["table"] "Table"
  | select _ => .entity ["query"] "Select"
  | insert _ => .entity ["query"] "Insert"
  | update _ => .entity ["query"] "Update"
  | delete _ => .entity ["query"] "Delete"
  | statement _ => .entity ["query"] "Statement"
  | join _ => .entity ["query"] "Join"
  | index _ => .entity ["table"] "Index"
  | foreignKey _ => .entity ["table"] "ForeignKey"
  | dialect d => d.engine.typeTag
  | helpers _ => .entity ["dialects", "base"] "_DialectF"
  | rule _ => .plain "function"
  | builder _ => .entity ["query_builder"] "QueryBuilder"
  | context .. => .entity ["context"] "BuildContext"
  | executor => .plain "Recorder"
  | method .. => .plain "method"
  | object t => t

/-- Whether a value is made of named fields. -/
def hasFields : Value → Bool
  | expr _ | table _ | select _ | insert _ | update _ | delete _ | statement _ | join _ | index _
  | foreignKey _ | dialect _ | context .. => true
  | _ => false

/-- Whether a value is a statement. -/
def isStatement : Value → Bool
  | select _ | insert _ | update _ | delete _ | statement _ => true
  | _ => false

/-- Whether a value can be compiled at all, even if it may be refused. -/
def isBuildable : Value → Bool
  | expr _ | table _ | join _ | index _ | foreignKey _ => true
  | v => v.isStatement

/-- How messages call a value that lacks something: a type goes by its own name. -/
def holder : Value → String
  | type t | generic t _ => "type object '" ++ t.qualifiedName ++ "'"
  | v => v.typeTag.holder

/-- The kind of data that a value is, when it is of a type that can be stored. -/
def dataKind? (v : Value) : Option DataKind := DataKind.ofType? v.typeTag

end Value

end SqlCompose
