import SqlCompose.Render.Change
import SqlCompose.Render.Select
import SqlCompose.Schema.Index

/-!
# Rendering expressions and statements

Expressions and statements become drafts for an engine. Parts are drafted in the order in which they
are read, so the values of a draft stand in the order of their placeholders. The functions that put
a clause together take parts that are drafted already; only the functions here go down the tree.
-/
namespace SqlCompose

/-- The settings of an operator as fields. -/
def Operator.flagFields (op : Operator) : List Drafted :=
  op.flags.map fun (name, s) => .ofField name (.ofScalar s)

mutual

/-- A value with its drafts. -/
def Value.drafted (cat : Catalog) (e : Engine) : Value → Drafted
  | .scalar s => .ofScalar s
  | .sequence form items =>
    let items' := draftAll cat e items
    .unbuilt (.sequence form items) fun _ => items'
  | .dict entries => .unbuilt (.dict entries) fun _ => draftKeys cat e entries
  | .expr x => x.drafted cat e
  | .table id => .of (.table id) (tableDraft cat id) fun _ => Drafted.heldFields cat (.table id)
  | .select q => q.drafted cat e
  | .insert q => q.drafted cat e
  | .update q => q.drafted cat e
  | .delete q => q.drafted cat e
  | .statement extras =>
    .ofStatement (.statement extras) (.fail .unbuildable) fun _ =>
      Drafted.statementFields [] [] (draftNamed cat e extras)
  | .join j => j.drafted cat e
  | .index i => i.drafted cat e
  | .foreignKey k =>
    .of (.foreignKey k) (.fail (.missingArgument "ForeignKey.build" "table")) fun _ =>
      Drafted.heldFields cat (.foreignKey k)
  | .dialect d => .unbuilt (.dialect d) fun _ => Drafted.heldFields cat (.dialect d)
  | .context d n parameters =>
    .unbuilt (.context d n parameters) fun _ =>
      Drafted.heldFields cat (.context d n parameters)
  | v => .unbuilt v fun _ => []

/-- Several values with their drafts. -/
def draftAll (cat : Catalog) (e : Engine) : List Value → List Drafted
  | [] => []
  | v :: vs => v.drafted cat e :: draftAll cat e vs

/-- The keys of a mapping with their drafts. -/
def draftKeys (cat : Catalog) (e : Engine) : List (Value × Value) → List Drafted
  | [] => []
  | (k, _) :: entries => k.drafted cat e :: draftKeys cat e entries

/-- Values under names with their drafts. -/
def draftNamed (cat : Catalog) (e : Engine) : List (String × Value) → List (String × Drafted)
  | [] => []
  | (name, v) :: entries => (name, v.drafted cat e) :: draftNamed cat e entries

/-- An expression with its drafts. As a whole it stands without its alias. -/
def Expr.drafted (cat : Catalog) (e : Engine) : Expr → Drafted
  | .literal a v k =>
    .of (.expr (.literal a v k)) (.literal v) fun _ =>
      Drafted.ofFields ["alias", "value", "kind"]
        [a.drafted cat e, v.drafted cat e, .ofHeld cat (.ofOption .kind k)]
  | .column a id =>
    .of (.expr (.column a id)) (columnDraft cat id) fun _ =>
      Drafted.heldFields cat (.expr (.column a id))
  | .apply a op symbol arguments =>
    let operands := draftExprs cat e arguments
    .of (.expr (.apply a op symbol arguments))
      (op.draft e symbol (operands.map Drafted.asOperand)) fun _ =>
        Drafted.ofFields ["alias", "symbol", "arguments"]
          [a.drafted cat e, .ofScalar (.text symbol),
            .unbuilt (.tuple (arguments.map .expr)) fun _ => operands]
        ++ op.flagFields
  | .order a inner descending =>
    let inner' := inner.drafted cat e
    .of (.expr (.order a inner descending)) (inner'.whole.directed descending) fun _ =>
      Drafted.ofFields ["alias", "expression", "descending"]
        [a.drafted cat e, inner', .ofScalar (.bool descending)]
  | .group a inner =>
    let inner' := inner.drafted cat e
    .of (.expr (.group a inner)) inner'.whole.parenthesized fun _ =>
      Drafted.ofFields ["alias", "inner"] [a.drafted cat e, inner']
  | .raw a text =>
    .of (.expr (.raw a text)) (.text text) fun _ =>
      Drafted.ofFields ["alias", "text"] [a.drafted cat e, .ofScalar (.text text)]
  | .subquery a body =>
    let body' := body.drafted cat e
    .of (.expr (.subquery a body)) body'.built.parenthesized fun _ =>
      Drafted.ofFields ["alias", "query"] [a.drafted cat e, body']
  | .bare a =>
    .of (.expr (.bare a)) (.fail .unbuildable) fun _ =>
      Drafted.ofFields ["alias"] [a.drafted cat e]

/-- Expressions with their drafts. -/
def draftExprs (cat : Catalog) (e : Engine) : List Expr → List Drafted
  | [] => []
  | x :: xs => x.drafted cat e :: draftExprs cat e xs

/-- An optional expression with its drafts. -/
def draftOptional (cat : Catalog) (e : Engine) : Option Expr → Option Drafted
  | none => none
  | some x => some (x.drafted cat e)

/-- A JOIN clause with its drafts. -/
def Join.drafted (cat : Catalog) (e : Engine) : Join → Drafted
  | ⟨kind, source, on, shared⟩ =>
    let source' := source.drafted cat e
    let on' := draftOptional cat e on
    .of (.join ⟨kind, source, on, shared⟩) (joinDraft kind source' on' shared) fun _ =>
      Drafted.ofFields ["kind", "table", "on", "using"]
        [.ofScalar (.text kind), source', on'.getD (.ofScalar .null),
          .ofHeldRow cat (.texts shared)]

/-- An index with its drafts. -/
def Index.drafted (cat : Catalog) (e : Engine) : Index → Drafted
  | ⟨name, columns, unique, table⟩ =>
    .of (.index ⟨name, columns, unique, table⟩)
      (Index.draft cat ⟨name, columns, unique, table⟩) fun _ =>
        Drafted.ofFields ["name", "columns", "unique", "table"]
          [.ofScalar (.text name), .unbuilt (.tuple columns) fun _ => draftAll cat e columns,
            .ofScalar (.bool unique), .ofHeld cat (.ofOption .table table)]

/-- A SELECT statement with its drafts. -/
def Select.drafted (cat : Catalog) (e : Engine) : Select → Drafted
  | ⟨filter, fields, sources, joins, groupBy, having, orderBy, unions, limit, offset, distinct,
      extras⟩ =>
    let parts : SelectParts :=
      { filter := filter.drafted cat e
        fields := fields.drafted cat e
        sources := sources.drafted cat e
        joins := joins.drafted cat e
        groupBy := groupBy.drafted cat e
        having := having.drafted cat e
        orderBy := orderBy.drafted cat e
        unions := unions.drafted cat e
        limit, offset, distinct, extras }
    .ofStatement
      (.select ⟨filter, fields, sources, joins, groupBy, having, orderBy, unions, limit, offset,
        distinct, extras⟩)
      (parts.draft cat e) fun _ =>
        Drafted.statementFields Select.fieldNames
          [parts.filter, parts.fields, parts.sources, parts.joins, parts.groupBy, parts.having,
            parts.orderBy, parts.unions, limit.drafted cat e, offset.drafted cat e,
            distinct.drafted cat e]
          (draftNamed cat e extras)

/-- An INSERT statement with its drafts. -/
def Insert.drafted (cat : Catalog) (e : Engine) : Insert → Drafted
  | ⟨table, columns, rows, query, returning, extras⟩ =>
    let parts : InsertParts :=
      { table, columns
        rows := rows.drafted cat e
        query := query.drafted cat e
        returning := returning.drafted cat e }
    .ofStatement (.insert ⟨table, columns, rows, query, returning, extras⟩)
      (parts.draft cat e) fun _ =>
        Drafted.statementFields Insert.fieldNames
          [table.drafted cat e, columns.drafted cat e, parts.rows, parts.query, parts.returning]
          (draftNamed cat e extras)

/-- An UPDATE statement with its drafts. -/
def Update.drafted (cat : Catalog) (e : Engine) : Update → Drafted
  | ⟨filter, table, assignments, returning, extras⟩ =>
    let parts : UpdateParts :=
      { filter := filter.drafted cat e
        table := table.drafted cat e
        assignments := assignments.drafted cat e
        returning := returning.drafted cat e
        extras }
    .ofStatement (.update ⟨filter, table, assignments, returning, extras⟩)
      (parts.draft cat e) fun _ =>
        Drafted.statementFields Update.fieldNames
          [parts.filter, parts.table, parts.assignments, parts.returning]
          (draftNamed cat e extras)

/-- A DELETE statement with its drafts. -/
def Delete.drafted (cat : Catalog) (e : Engine) : Delete → Drafted
  | ⟨filter, table, returning, extras⟩ =>
    let filter' := filter.drafted cat e
    let table' := table.drafted cat e
    let returning' := returning.drafted cat e
    .ofStatement (.delete ⟨filter, table, returning, extras⟩)
      (deleteDraft cat e filter' table' returning' extras) fun _ =>
        Drafted.statementFields Delete.fieldNames [filter', table', returning']
          (draftNamed cat e extras)

end

/-- A value on its own. -/
def Value.built (cat : Catalog) (e : Engine) (v : Value) : Draft := (v.drafted cat e).built

namespace Expr

/-- An expression as an operand or a value, without its alias. -/
def reference (cat : Catalog) (e : Engine) (x : Expr) : Draft := (x.drafted cat e).whole

/-- An expression on its own. -/
def built (cat : Catalog) (e : Engine) (x : Expr) : Draft := (x.drafted cat e).built

/-- An expression in a SELECT list. -/
def selected (cat : Catalog) (e : Engine) (x : Expr) : Draft := (x.drafted cat e).selected

/-- An expression in an index: a column without its table, with its direction if it has one. -/
def indexTerm (cat : Catalog) (e : Engine) : Expr → Draft
  | .column _ id => columnName cat id
  | .order _ inner descending => (inner.indexTerm cat e).directed descending
  | x => x.reference cat e

@[simp] theorem value_drafted (cat : Catalog) (e : Engine) (x : Expr) :
    (x.drafted cat e).value = .expr x := by
  cases x <;> simp [drafted]

end Expr

end SqlCompose
