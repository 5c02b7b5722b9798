import SqlCompose.Dialect.Paging
import SqlCompose.Render.Clause

/-!
# SELECT and JOIN

The clauses of a SELECT in the order in which SQL has them, from parts that are drafted already.
-/
namespace SqlCompose

/-- What a JOIN clause matches on: a condition or shared columns, but not both; a cross or natural
join has neither. -/
def joinCondition (kind : String) (on : Option Drafted) (shared : List String) : List Draft :=
  if on.isSome ∧ shared ≠ [] then [.fail .onAndUsing]
  else if kind ∈ ["CROSS", "NATURAL"] ∧ (on.isSome ∨ shared ≠ []) then
    [.fail (.conditionNotAllowed kind)]
  else
    match on with
    | some x => [Draft.keyword .between "ON" + x.built]
    | none => if shared = [] then [] else [Draft.keyword .between "USING" + nameList shared]

/-- A JOIN clause. -/
def joinDraft (kind : String) (source : Drafted) (on : Option Drafted) (shared : List String) :
    Draft :=
  (Draft.keyword .before (kind ++ " JOIN") + source.source.shown).continued
    (joinCondition kind on shared)

/-- A value as a bound of the rows of a SELECT, if it is there. -/
def Value.bound? (cat : Catalog) (v : Value) : Except Error (Option RowBound) :=
  if v.isNone then .ok Option.none
  else do return some { text := ← v.label cat, isTrue := v.truthy }

/-- The paging clause for bounds that may be anything. They are written in the order in which the
engine has them. -/
def pagingClause (cat : Catalog) (e : Engine) (limit offset : Value) (ordered : Bool) : Shown :=
  if e = .sqlserver then do
    let offset ← offset.bound? cat
    return e.limitClause (← limit.bound? cat) offset ordered
  else do
    let limit ← limit.bound? cat
    return e.limitClause limit (← offset.bound? cat) ordered

/-- Whether a SELECT has an order or bounds of its own, which a member of a union may not have. -/
def Value.isPaged (cat : Catalog) (v : Value) : Except Error Bool := do
  if (← v.get cat "order_by_fields").truthy then return true
  if !(← v.get cat "limit_value").isNone then return true
  return !(← v.get cat "offset_value").isNone

/-- A further SELECT behind its set operator. -/
def memberOf (cat : Catalog) (x : Drafted) : Draft :=
  .given x.pair fun (operator, member) =>
    .given (member.value.isPaged cat) fun isPaged =>
      .given (operator.value.label cat) fun word =>
        if isPaged then .fail (.pagedMember word) else Draft.keyword .between word + member.built

/-- Drafts of all parts of a value, each of which goes on with what stands before it. -/
def Drafted.each (f : Drafted → Draft) (x : Drafted) : List Draft :=
  match x.items with
  | .ok parts => parts.map f
  | .error e => [.fail e]

/-- A clause of several parts, if there are any. -/
def Drafted.listClause (keyword : String) (f : Drafted → Draft) (x : Drafted) : List Draft :=
  if x.value.truthy then [Draft.keyword .between keyword + x.listed f] else []

/-- A clause of one value, if it is there. -/
def Drafted.optionalClause (keyword : String) (x : Drafted) : List Draft :=
  if x.value.isNone then [] else [x.clause keyword]

/-- The statement with its paging clause, if it has one. -/
def paged (cat : Catalog) (e : Engine) (limit offset : Value) (ordered : Bool) (d : Draft) :
    Draft :=
  match pagingClause cat e limit offset ordered with
  | .ok "" => .checked d (.ask "limit_clause")
  | .ok clause => d ++ Draft.asking "limit_clause" (.text (" " ++ clause))
  | .error error => d ++ Draft.asking "limit_clause" (.fail error)

/-- The drafted clauses of a SELECT. -/
structure SelectParts where
  filter : Drafted
  fields : Drafted
  sources : Drafted
  joins : Drafted
  groupBy : Drafted
  having : Drafted
  orderBy : Drafted
  unions : Drafted
  limit : Value
  offset : Value
  distinct : Value
  extras : List (String × Value)

namespace SelectParts

/-- The list of fields; without fields a SELECT takes whole rows. -/
def fieldList (p : SelectParts) : Draft :=
  if p.fields.value.truthy then p.fields.listed Drafted.selected else .text "*"

/-- The clauses of a SELECT, each of which goes on with what stands before it. -/
def clauses (cat : Catalog) (sources : List Draft) (p : SelectParts) : List Draft :=
  (if p.distinct.truthy then [.text "DISTINCT "] else [])
    ++ [p.fieldList]
    ++ (if sources.isEmpty then []
      else [Draft.keyword .between "FROM" + .commaSeparated sources])
    ++ p.joins.each (fun j => Draft.text " " + j.built)
    ++ [whereDraft p.extras p.filter]
    ++ p.groupBy.listClause "GROUP BY" Drafted.reference
    ++ p.having.optionalClause "HAVING"
    ++ p.unions.each (memberOf cat)
    ++ p.orderBy.listClause "ORDER BY" Drafted.built

/-- A SELECT from its parts, each clause in its place. -/
def draft (cat : Catalog) (e : Engine) (p : SelectParts) : Draft :=
  .given (sourceDrafts cat p.extras p.sources p.fields p.joins) fun sources =>
    if !p.fields.value.truthy ∧ sources.isEmpty then .fail .emptySelect
    else
      paged cat e p.limit p.offset p.orderBy.value.truthy
        ((Draft.keyword .before "SELECT").continued (p.clauses cat sources))

end SelectParts

end SqlCompose
