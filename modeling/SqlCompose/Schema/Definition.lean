import SqlCompose.Render
import SqlCompose.Text.Ranges

/-!
# Table definitions

CREATE TABLE and DROP TABLE: the definition of each column, then the keys of the table.
-/
namespace SqlCompose

/-! ## CHECK texts -/

/-- Reads a text with `depth` parentheses open, inside a string literal or not. -/
def balancedFrom : Nat → Bool → List Char → Bool
  | depth, inString, [] => depth == 0 && !inString
  | depth, inString, c :: cs =>
    if c = '\'' then balancedFrom depth (!inString) cs
    else if inString then balancedFrom depth inString cs
    else if c = '(' then balancedFrom (depth + 1) inString cs
    else if c = ')' then
      match depth with
      | 0 => false
      | depth + 1 => balancedFrom depth inString cs
    else balancedFrom depth inString cs

/-- Whether the parentheses of a text match outside of its string literals. -/
def isBalanced (s : String) : Bool := balancedFrom 0 false s.toList

/-- Whether a text can stand in a CHECK clause. It is taken as it is, so it must not end the parentheses
around it. -/
def isCheck (s : String) : Bool := !Text.allBlank s && isBalanced s

theorem isCheck_empty : isCheck "" = false := by decide

/-! ## Columns -/

/-- The value of a literal node, and any other value itself. -/
def Value.unwrapped : Value → Value
  | .expr (.literal _ v _) => v
  | v => v

/-- The default value of a column. A plain value is written out, SQL text is taken as it is, and any
other expression stands in parentheses. -/
def defaultDraft (cat : Catalog) (e : Engine) (v : Value) : Draft :=
  match v.unwrapped.expr? with
  | some (.raw _ text) => .text text
  | some x => Draft.text "(" + x.reference cat e + Draft.text ")"
  | none => .inlined v.unwrapped

namespace Column

/-- The type of a column with its length. A type that has a size already takes none. -/
def sizedType (cat : Catalog) (d : Dialect) (c : Column) (kind : DataKind) :
    Except Error Value := do
  let keyword ← d.typeKeyword cat (.kind kind)
  match c.length with
  | none => return keyword
  | some n =>
    if ← keyword.contains cat '(' then throw (.lengthNotAllowed c.name (← keyword.label cat))
    keyword.extend cat (.text ("(" ++ (← Scalar.wholeText n) ++ ")"))

/-- The type of a column that counts up by itself. -/
def countingType (cat : Catalog) (d : Dialect) (c : Column) (keyword : Value) :
    Except Error Value :=
  if d.engine.autoIncrementRequiresPrimaryKey ∧ ¬c.primaryKey then
    .error (.invalidAutoIncrement c.name)
  else
    match d.autoIncrement with
    | none => keyword.plus (.text " AUTO_INCREMENT")
    | some rule => do
      let spelled ← rule.spell cat keyword
      if spelled.truthy then return spelled else throw (.invalidAutoIncrement c.name)

/-- The type of a column as it is declared. -/
def declaredType (cat : Catalog) (d : Dialect) (c : Column) (kind : DataKind) :
    Except Error Value := do
  let keyword ← c.sizedType cat d kind
  if c.autoIncrement then c.countingType cat d keyword else return keyword

/-- The words that follow the type. -/
def flags (c : Column) : List Draft :=
  (if c.primaryKey then [.text " PRIMARY KEY"] else [])
    ++ (if c.notNull then [.text " NOT NULL"] else [])
    ++ (if c.unique then [.text " UNIQUE"] else [])

/-- The DEFAULT clause, if there is a default. -/
def defaultClause (cat : Catalog) (e : Engine) (c : Column) : List Draft :=
  if c.default.isNone then [] else [Draft.text " DEFAULT " + defaultDraft cat e c.default]

/-- The CHECK clause, if there is a condition. -/
def checkClause (c : Column) : List Draft :=
  match c.check with
  | none => []
  | some s => if isCheck s then [.text (" CHECK (" ++ s ++ ")")] else [.fail (.invalidCheck c.name)]

/-- The COLLATE clause, if there is a collation. -/
def collateClause (c : Column) : List Draft :=
  match c.collate with
  | none => []
  | some s => [Draft.text " COLLATE " + nameDraft s]

/-- The definition of a column. -/
def definition (cat : Catalog) (e : Engine) (c : Column) : Draft :=
  match c.kind with
  | none => .fail (.untypedColumn c.name)
  | some kind =>
    Draft.asking "" <|
      (nameDraft c.name + .text " " ++ .ofDialect fun d => c.declaredType cat d kind).continued
        (c.flags ++ c.defaultClause cat e ++ c.checkClause ++ c.collateClause)

end Column

/-- The first name that is none of the given ones. -/
def unknownName? (known names : List String) : Option String :=
  names.find? fun name => !known.contains name

namespace ForeignKey

/-- Checks that the columns of a key are columns of a table. -/
def checkColumns (cat : Catalog) (table : Value) (key : ForeignKey) : Except Error Unit := do
  if key.columns.isEmpty ∨ key.columns.length ≠ key.references.length then
    throw .invalidForeignKey
  let known ← (← table.get cat "column_names").items cat
  if let some name := unknownName? (known.filterMap Value.text?) key.columns then
    throw (.unknownForeignKeyColumn name (← (← table.get cat "name").label cat))

/-- The columns that a key refers to. -/
def targets (key : ForeignKey) : List ColumnId :=
  key.references.filterMap fun e => e.value.column?

/-- The one table to which all columns belong that a key refers to. -/
def target (cat : Catalog) (key : ForeignKey) : Except Error TableId :=
  match key.targets.map cat.owner with
  | some target :: others =>
    if others.all (· == some target) then .ok target else .error .scatteredReferences
  | _ => .error .scatteredReferences

/-- What happens to a row when the row that it refers to goes or changes. -/
def reaction (words : String) (action : Option String) : List Draft :=
  match action with
  | none => []
  | some s => if s = "" then [] else [.text (words ++ s)]

/-- A FOREIGN KEY clause. Its columns belong to the table, and the columns they refer to all belong
to one other table. -/
def definition (cat : Catalog) (table : Value) (key : ForeignKey) : Draft :=
  Draft.guarded (key.checkColumns cat table) <|
    .given (key.target cat) fun target =>
      (Draft.text "FOREIGN KEY (" + .commaSeparated (key.columns.map nameDraft)
          + .text ") REFERENCES " + nameDraft (cat.table target).name + .text " ("
          + .commaSeparated (key.targets.map (columnName cat)) + .text ")").continued
        (reaction " ON DELETE " key.onDelete ++ reaction " ON UPDATE " key.onUpdate)

end ForeignKey

/-- Checks that the columns of a key over several columns are columns of its table, none of which is
a key of its own. -/
def checkPrimaryKey (cat : Catalog) (table : TableId) : Except Error Unit := do
  let t := cat.table table
  if t.columns.any fun r => (cat.column r.id).primaryKey then throw .conflictingPrimaryKeys
  if let some name := unknownName? (cat.columnNames table) t.primaryKey then
    throw (.unknownKeyColumn name t.name)

/-- The PRIMARY KEY clause of a table, if it has a key over several columns. -/
def primaryKeyDraft (cat : Catalog) (table : TableId) : List Draft :=
  let t := cat.table table
  if t.primaryKey.isEmpty then []
  else
    [Draft.guarded (checkPrimaryKey cat table) (Draft.text "PRIMARY KEY " + nameList t.primaryKey)]

/-- The statement that creates a table. The columns and keys are written before its name. -/
def createTableDraft (cat : Catalog) (e : Engine) (table : TableId) (ifNotExists : Bool) : Draft :=
  let t := cat.table table
  if t.name = "" then .fail .unnamedTable
  else if t.columns.isEmpty then .fail (.tableWithoutColumns t.name)
  else
    .framed none
      (Draft.text ("CREATE TABLE " ++ (if ifNotExists then "IF NOT EXISTS " else ""))
        + nameDraft t.name + .text " (")
      (t.columns.map (fun r => (cat.column r.id).definition cat e)
        ++ primaryKeyDraft cat table
        ++ t.foreignKeys.map (ForeignKey.definition cat (.table table)))
      (.text ")")

/-- The statement that drops a table. -/
def dropTableDraft (cat : Catalog) (table : TableId) (ifExists : Bool) : Draft :=
  let t := cat.table table
  if t.name = "" then .fail .unnamedTable
  else Draft.text ("DROP TABLE " ++ (if ifExists then "IF EXISTS " else "")) + nameDraft t.name

end SqlCompose
