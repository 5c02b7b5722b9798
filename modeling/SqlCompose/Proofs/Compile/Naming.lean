import SqlCompose.Proofs.Object.Ownership
import SqlCompose.Proofs.Schema.Naming

/-!
# Columns without qualifiers in compiled SQL

A column that stands without a qualifier is never dangling. Wherever columns and tables come from,
what compiles names columns of the table of the statement, of the created table, of the table that a
key refers to or of the indexed table.
-/
namespace SqlCompose

variable {cat : Catalog} {d : Dialect}

/-- Whether a value compiles to SQL, be its literals bound or written out. -/
def Value.CompilesTo (cat : Catalog) (d : Dialect) (v sql : Value) : Prop :=
  (∃ parameters, compile cat d v = .ok ⟨sql, parameters⟩) ∨
    compileInlined cat d (v.built cat d.engine) = .ok sql

theorem yields_of_compileInlined {x : Draft} {sql : Value} (h : compileInlined cat d x = .ok sql) :
    x.Yields cat (.context d.inlining 0) sql :=
  ⟨#[], _, Prod.ext h rfl⟩

theorem Value.CompilesTo.exists_yields {v sql : Value} (h : v.CompilesTo cat d sql) :
    ∃ host : Host, host.QuotesAs cat d ∧ (v.built cat d.engine).Yields cat host sql := by
  rcases h with ⟨parameters, h⟩ | h
  · exact ⟨.context d 0, fun _ => rfl, _, _, Draft.outcome_eq_iff.1 (compile_eq_ok_iff_outcome.1 h)⟩
  · exact ⟨_, Host.quotesAs_inlining cat d 0, yields_of_compileInlined h⟩

/-- Of the columns and tables that constructions lead to, INSERT and UPDATE statements name columns
of their tables where they list columns and where they set them, whatever their clauses were replaced
by; table definitions name columns of the table in its keys, and in a reference columns of the table
that is referred to; and index definitions name columns of the table that the index is on. -/
theorem unqualified_columns_belong {start w : Workspace} (h0 : start.session.catalog = {})
    (h : Constructed start w) (d : Dialect) :
    let cat := w.session.catalog
    (∀ (q : Insert) sql, q.extras.lookup "build" = none → (Value.insert q).CompilesTo cat d sql →
      q.NamesOwnColumns cat d sql) ∧
    (∀ (q : Update) sql, q.extras.lookup "build" = none → (Value.update q).CompilesTo cat d sql →
      q.NamesOwnColumns cat d sql) ∧
    (∀ t ifNotExists sql, compileCreateTable cat d t ifNotExists = .ok sql →
      cat.KeysNameColumns d t ifNotExists sql) ∧
    ∀ (i : Index) sql, (Value.index i).CompilesTo cat d sql → i.NamesOwnColumns cat d sql := by
  intro cat
  have hs : cat.Sound := (h.sound (h0 ▸ Catalog.sound_empty)).1
  refine ⟨fun q sql hx hc => ?_, fun q sql hx hc => ?_, fun t ifNotExists sql hc => ?_,
    fun i sql hc => ?_⟩
  · obtain ⟨host, hd, hsql⟩ := hc.exists_yields
    exact q.namesOwnColumns_of_built hs hd hx hsql
  · obtain ⟨host, hd, hsql⟩ := hc.exists_yields
    exact q.namesOwnColumns_of_built hs hd hx hsql
  · exact keysNameColumns_of_createTableDraft hs (Host.quotesAs_inlining cat d 0)
      (yields_of_compileInlined hc)
  · obtain ⟨host, hd, hsql⟩ := hc.exists_yields
    exact i.namesOwnColumns_of_built hs hd hsql

/-- A column of whole numbers. -/
def Construction.integerColumn (name : String) : Construction :=
  .column ⟨[("name", Object.ofValue default (.text name)),
    ("data_type", Object.ofValue default (.kind .integer))], [], []⟩

/-- A table with a column that is its key and refers to a column. -/
def Construction.tableReferring (name key : String) (ids : List ColumnId) (id : ColumnId) :
    Construction :=
  let target : ForeignKey := { columns := [key], references := [.column .none id] }
  .table ⟨[("name", Object.ofValue default (.text name))],
    ids.map fun id => Object.ofValue default (.expr (.column .none id)),
    [("primary_key", Object.ofValue default (.texts [key])),
      ("foreign_keys", Object.ofValue default (.tuple [.foreignKey target]))]⟩

/-- A workspace with a table and another one that takes the same column and refers to it. -/
def Workspace.referring : Workspace :=
  (Construction.tableReferring "u" "a" [⟨0⟩, ⟨1⟩] ⟨0⟩).run.after
    ((Construction.tableOf "t" ⟨0⟩).run.after ((Construction.integerColumn "b").run.after
      ((Construction.integerColumn "a").run.after default)))

theorem constructed_referring : Constructed default .referring := by
  have hfirst : Constructed default ((Construction.integerColumn "a").run.after default) :=
    .step .start _ trivial
  have hsecond := hfirst.step (.integerColumn "b") trivial
  have htable := hsecond.step (.tableOf "t" ⟨0⟩)
    (Construction.given_tableOf "t" (by decide +kernel))
  refine htable.step (.tableReferring "u" "a" [⟨0⟩, ⟨1⟩] ⟨0⟩) fun a id hid => ?_
  rcases List.mem_cons.1 hid with h | h
  · obtain ⟨-, rfl⟩ := Expr.column.inj (Value.expr.inj h)
    decide +kernel
  · obtain ⟨-, rfl⟩ := Expr.column.inj (Value.expr.inj (List.mem_singleton.1 h))
    decide +kernel

/-- The copy of the column that the second table has. -/
def Value.ofCopy : Value := .expr (.column .none ⟨2⟩)

/-- A row for one column of a table. -/
def Insert.ofOne (t : TableId) (column : Value) : Insert :=
  { table := .table t, columns := .tuple [column], rows := .tuple [.tuple [.int 1]], query := .none,
    returning := .tuple [] }

/-- One column of a table set to a number. -/
def Update.ofOne (t : TableId) (column : Value) : Update :=
  { filter := .none, table := .table t, assignments := .tuple [.tuple [column, .int 1]],
    returning := .tuple [] }

set_option maxRecDepth 20000 in
/-- The second table has a copy of the column that the first one owns, and names it. -/
theorem unqualified_columns_belong_referring :
    let cat := Workspace.referring.session.catalog
    let d := Dialect.standard .generic
    (Insert.ofOne ⟨1⟩ .ofCopy).NamesOwnColumns cat d (.text "INSERT INTO u (a) VALUES (?)") ∧
    (Update.ofOne ⟨1⟩ .ofCopy).NamesOwnColumns cat d (.text "UPDATE u SET a = ?") ∧
    cat.KeysNameColumns d ⟨1⟩ false (.text ("CREATE TABLE u (a INTEGER, b INTEGER, PRIMARY KEY (a), "
      ++ "FOREIGN KEY (a) REFERENCES t (a))")) ∧
    ({ name := "i", columns := [.ofCopy] } : Index).NamesOwnColumns cat d
      (.text "CREATE INDEX i ON u (a)") := by
  intro cat d
  obtain ⟨hinsert, hupdate, htable, hindex⟩ := unqualified_columns_belong rfl constructed_referring d
  exact ⟨hinsert _ _ rfl (.inl ⟨[.int 1], rfl⟩), hupdate _ _ rfl (.inl ⟨[.int 1], rfl⟩),
    htable ⟨1⟩ false _ rfl, hindex _ _ (.inl ⟨[], rfl⟩)⟩

end SqlCompose
