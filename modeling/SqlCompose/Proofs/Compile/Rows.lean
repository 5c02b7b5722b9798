import Mathlib.Data.List.Forall2
import SqlCompose.Proofs.Compile.Parameter
import SqlCompose.Proofs.Statement.Rows

/-!
# The rows of a compiled INSERT

An INSERT is written with its list of columns, if there is one, and with its rows in the order in
which they were added. A row goes to the columns of the list from left to right, or without a list to
the columns of the table. Every row is as wide as these columns.
-/
namespace SqlCompose

variable {cat : Catalog} {d : Dialect} {id : TableId}

/-- Names with commas between them. -/
def Piece.names (d : Dialect) (names : List String) : List Piece :=
  separated (.text ", ") (names.map fun s => [.word (quoteName d.identifierQuote s)])

namespace Insert

/-- The columns that an INSERT is written with. -/
def columnPieces (d : Dialect) (columns : List String) : List Piece :=
  if columns = [] then []
  else .token (.text " (") :: Piece.names d columns ++ [.token (.text ")")]

/-- A row that an INSERT is written with. -/
def rowPieces (row : List (List Piece)) : List Piece :=
  .token .opening :: Piece.separated (.text ", ") row ++ [.token .closing]

/-- What stands behind the name of the table: columns and rows, or the words for no row at all. -/
def contentPieces (d : Dialect) (columns : List String) : List (List (List Piece)) → List Piece
  | [] => [.token (.text (" " ++ d.engine.emptyInsert))]
  | rows => columnPieces d columns ++ .token (.keyword .between "VALUES")
      :: Piece.separated (.text ", ") (rows.map rowPieces)

/-- An INSERT with columns and rows. -/
def writtenPieces (d : Dialect) (table : String) (columns : List String)
    (rows : List (List (List Piece))) : List Piece :=
  .token (.keyword .before "INSERT INTO") :: .word (quoteName d.identifierQuote table)
    :: contentPieces d columns rows

/-- The pieces of rows: each value has those of an operand. -/
def WritesRows (cat : Catalog) (d : Dialect) :
    List MeantRow → List (List (List Piece)) → Prop :=
  List.Forall₂ fun row => List.Forall₂ (fun v ps =>
    (v.drafted cat d.engine).operand.pieces cat d = .ok ps) row.values

/-! ## Clauses -/

/-- The names that columns are written with. -/
theorem names_of_columns (hd : d.WritesText) {columns : List Value}
    (hc : ∀ v ∈ columns, ∃ a c, v = .expr (.column a c)) {rows : List (List Piece)}
    (h : List.Forall₂ (fun v qs => (bareColumn cat v).pieces cat d = .ok qs) columns rows) :
    rows = (columns.filterMap (·.columnName? cat)).map
      fun s => [.word (quoteName d.identifierQuote s)] := by
  induction h with
  | nil => rfl
  | @cons v qs columns rows hv _ ih =>
    obtain ⟨a, c, rfl⟩ := hc v (by simp)
    have hname : (Value.expr (.column a c)).columnName? cat = some (cat.column c).name := rfl
    have hown : (bareColumn cat (.expr (.column a c))).pieces cat d
        = .ok [.word (quoteName d.identifierQuote (cat.column c).name)] := Draft.pieces_name hd _
    obtain rfl := Except.ok.inj (hown.symm.trans hv)
    rw [List.filterMap_cons_some hname, List.map_cons,
      ih fun w hw => hc w (List.mem_cons_of_mem _ hw)]

/-- The columns are written with their names. -/
theorem pieces_columnsDraft (hd : d.WritesText) {columns : List Value}
    (hc : ∀ v ∈ columns, ∃ a c, v = .expr (.column a c)) {ps : List Piece}
    (hp : (columnsDraft cat (.tuple columns)).pieces cat d = .ok ps) :
    ps = columnPieces d (columns.filterMap (·.columnName? cat)) := by
  cases columns with
  | nil => exact (Except.ok.inj hp).symm
  | cons v vs =>
    obtain ⟨front, close, hfront, hclose, rfl⟩ := Draft.pieces_plus_eq_ok.1 hp
    obtain ⟨lead, list, hlead, hlist, rfl⟩ := Draft.pieces_plus_eq_ok.1 hfront
    obtain ⟨rows, hrows, rfl⟩ := Draft.pieces_commaSeparated_eq_ok.1 hlist
    obtain rfl := Draft.eq_of_pieces_token hlead (by decide)
    obtain rfl := Draft.eq_of_pieces_token hclose (by decide)
    obtain ⟨a, c, rfl⟩ := hc v (by simp)
    rw [names_of_columns hd hc hrows, columnPieces, if_neg (by simp [Value.columnName?, Value.column?])]
    rfl

/-- A row is written in brackets, and is as wide as it has to be. -/
theorem pieces_rowDraft {width : Nat} {values : List Value} {ps : List Piece}
    (hp : (rowDraft width ((Value.tuple values).drafted cat d.engine)).pieces cat d = .ok ps) :
    values.length = width ∧ ∃ row, List.Forall₂ (fun v qs =>
      (v.drafted cat d.engine).operand.pieces cat d = .ok qs) values row ∧ ps = rowPieces row := by
  have hdraft : rowDraft width ((Value.tuple values).drafted cat d.engine)
      = if values.length ≠ width then .fail (.rowWidth values.length width)
        else (Draft.commaSeparated ((draftAll cat d.engine values).map
          Drafted.operand)).parenthesized := rfl
  rw [hdraft] at hp
  split at hp
  · simp [Draft.pieces] at hp
  · rename_i hw
    obtain ⟨inner, hinner, rfl⟩ := Draft.pieces_parenthesized_eq_ok.1 hp
    rw [draftAll_eq_map, List.map_map] at hinner
    obtain ⟨row, hrow, rfl⟩ := Draft.pieces_commaSeparated_eq_ok.1 hinner
    exact ⟨by simpa using hw, row, hrow, rfl⟩

theorem writesRows_of_rowDrafts {width : Nat} {log : List MeantRow} {pss : List (List Piece)}
    (h : List.Forall₂ (fun row qs => (rowDraft width
      ((Value.tuple row.values).drafted cat d.engine)).pieces cat d = .ok qs) log pss) :
    (∀ row ∈ log, row.values.length = width) ∧
      ∃ rows, WritesRows cat d log rows ∧ pss = rows.map rowPieces := by
  induction h with
  | nil => exact ⟨by simp, [], .nil, rfl⟩
  | @cons row qs log pss hrow _ ih =>
    obtain ⟨hw, rows, hrows, rfl⟩ := ih
    obtain ⟨hwidth, values, hvalues, rfl⟩ := pieces_rowDraft hrow
    exact ⟨List.forall_mem_cons.2 ⟨hwidth, hw⟩, values :: rows, .cons hvalues hrows, rfl⟩

/-- A row has to have a value for each column that rows by position go to. -/
theorem rowWidth_holding {columns : List Value} (log : List MeantRow)
    (hc : ∀ v ∈ columns, ∃ a c, v = .expr (.column a c)) :
    rowWidth cat (.table id) (.tuple columns)
      = .ok ((holding id columns log).targets cat id).length := by
  rw [targets, listed_holding]
  have hnames : (columns.filterMap (·.columnName? cat)).length = columns.length := by
    refine List.filterMap_length_eq_length.2 fun v hv => ?_
    obtain ⟨a, c, rfl⟩ := hc v hv
    rfl
  cases columns with
  | nil =>
    have hall : (cat.columnNames id).length
        = ((cat.table id).columns.map fun r => Value.expr r.expr).length := by
      rw [Catalog.columnNames, List.length_map, List.length_map]
    rw [List.filterMap_nil, if_pos rfl, hall]
    rfl
  | cons v vs =>
    rw [if_neg (List.ne_nil_of_length_pos (by simp [hnames])), hnames]
    rfl

/-- Rows are written one after the other, each as wide as the columns. -/
theorem pieces_rowsDraft {columns : List Value} {log : List MeantRow}
    (hc : ∀ v ∈ columns, ∃ a c, v = .expr (.column a c)) {ps : List Piece}
    (hp : (rowsDraft cat (.table id) (.tuple columns) ((Value.tuple (log.map fun row =>
      .tuple row.values)).drafted cat d.engine)).pieces cat d = .ok ps) :
    (∀ row ∈ log, row.values.length = ((holding id columns log).targets cat id).length) ∧
      ∃ rows, WritesRows cat d log rows ∧
        ps = Piece.separated (.text ", ") (rows.map rowPieces) := by
  rw [rowsDraft, rowWidth_holding log hc, Draft.given] at hp
  have hitems : ((Value.tuple (log.map fun row => .tuple row.values)).drafted cat d.engine).items
      = .ok (draftAll cat d.engine (log.map fun row => Value.tuple row.values)) := rfl
  rw [Drafted.listed, hitems, Draft.given, draftAll_eq_map, List.map_map, List.map_map] at hp
  obtain ⟨pss, hpss, rfl⟩ := Draft.pieces_commaSeparated_eq_ok.1 hp
  obtain ⟨hw, rows, hrows, rfl⟩ := writesRows_of_rowDrafts hpss
  exact ⟨hw, rows, hrows, rfl⟩

/-- What an INSERT puts into its table is written with its columns and rows. -/
theorem pieces_content (hd : d.WritesText) {columns : List Value} {log : List MeantRow}
    (hc : ∀ v ∈ columns, ∃ a c, v = .expr (.column a c)) {returning : Drafted} {ps : List Piece}
    (hp : (InsertParts.content cat d.engine
      { table := .table id
        columns := .tuple columns
        rows := (Value.tuple (log.map fun row => .tuple row.values)).drafted cat d.engine
        query := Value.none.drafted cat d.engine
        returning }).pieces cat d = .ok ps) :
    (∀ row ∈ log, row.values.length = ((holding id columns log).targets cat id).length) ∧
      ∃ rows, WritesRows cat d log rows ∧
        ps = contentPieces d ((holding id columns log).listed cat) rows := by
  cases log with
  | nil =>
    have hempty : (Draft.text (" " ++ d.engine.emptyInsert)).pieces cat d = .ok ps :=
      (Draft.pieces_before_eq_ok.1 hp).2
    refine ⟨by simp, [], .nil, Draft.eq_of_pieces_token hempty ?_⟩
    cases d.engine <;> decide
  | cons row log =>
    obtain ⟨front, list, hfront, hlist, rfl⟩ := Draft.pieces_plus_eq_ok.1 hp
    obtain ⟨names, keyword, hnames, hkeyword, rfl⟩ := Draft.pieces_plus_eq_ok.1 hfront
    obtain rfl := Draft.eq_of_pieces_token hkeyword (by decide)
    obtain rfl := pieces_columnsDraft hd hc hnames
    obtain ⟨hw, rows, hrows, rfl⟩ := pieces_rowsDraft hc hlist
    refine ⟨hw, rows, hrows, ?_⟩
    cases rows with
    | nil => cases hrows
    | cons values rows => simp [contentPieces, listed_holding]

/-- An INSERT that holds rows is written with them. -/
theorem pieces_holding (hd : d.WritesText) {columns : List Value} {log : List MeantRow}
    (hc : ∀ v ∈ columns, ∃ a c, v = .expr (.column a c)) {ps : List Piece}
    (hp : ((Value.insert (holding id columns log)).built cat d.engine).pieces cat d = .ok ps) :
    (∀ row ∈ log, row.values.length = ((holding id columns log).targets cat id).length) ∧
      ∃ rows, WritesRows cat d log rows ∧
        ps = writtenPieces d (cat.table id).name ((holding id columns log).listed cat) rows := by
  have hdraft : (Value.insert (holding id columns log)).built cat d.engine
      = InsertParts.draft cat d.engine
        { table := .table id
          columns := .tuple columns
          rows := (Value.tuple (log.map fun row => .tuple row.values)).drafted cat d.engine
          query := Value.none.drafted cat d.engine
          returning := (Value.tuple []).drafted cat d.engine } := rfl
  have hname : (Value.table id).get cat "name" = .ok (.text (cat.table id).name) := rfl
  rw [hdraft, InsertParts.draft, hname, Draft.given] at hp
  split at hp
  · simp [Draft.pieces] at hp
  · cases hcheck : checkOwned cat (.table id) (.tuple columns) with
    | error e => simp [hcheck, Draft.guarded, Draft.pieces] at hp
    | ok u =>
      rw [hcheck, Draft.guarded] at hp
      obtain ⟨front, returned, hfront, hreturned, rfl⟩ := Draft.pieces_plus_eq_ok.1 hp
      obtain rfl := Except.ok.inj hreturned
      obtain ⟨start, content, hstart, hcontent, rfl⟩ := Draft.pieces_plus_eq_ok.1 hfront
      obtain ⟨keyword, name, hkeyword, hname, rfl⟩ := Draft.pieces_plus_eq_ok.1 hstart
      obtain rfl := Draft.eq_of_pieces_token hkeyword (by decide)
      obtain rfl := Except.ok.inj ((Draft.pieces_name hd _).symm.trans hname)
      obtain ⟨hw, rows, hrows, rfl⟩ := pieces_content hd hc hcontent
      exact ⟨hw, rows, hrows, by simp [writtenPieces, Piece.ofToken]⟩

/-- An INSERT of well-formed values is well-formed. -/
theorem wellFormed_holding {columns : List Value} {log : List MeantRow}
    (hv : ∀ row ∈ log, ∀ v ∈ row.values, v.WellFormed) :
    (Value.insert (holding id columns log)).WellFormed := by
  refine .insert Value.unhooked_nil (.plain rfl) (.sequence .tuple fun row hrow => ?_) rfl (.plain rfl)
    (.sequence .tuple (by simp)) rfl
  obtain ⟨meant, hmeant, rfl⟩ := List.mem_map.1 hrow
  exact .sequence .tuple (hv meant hmeant)

end Insert

/-- An INSERT that rows were added to compiles, if at all, to its list of columns and to the rows in
the order of the calls. The values of a row go to the columns that they were meant for when it was
added, unless it was added while no columns were listed and columns were listed later that are not
the first ones of the table; different values then go to other columns. -/
theorem rows_go_to_columns {q : Insert} {log : List MeantRow} (hd : d.WritesText)
    (hq : q.Gathered cat id log) (hv : ∀ row ∈ log, ∀ v ∈ row.values, v.WellFormed) {c : Compiled}
    (hc : compile cat d (.insert q) = .ok c) :
    (∃ (rows : List (List (List Piece))) (marks : List String), Insert.WritesRows cat d log rows ∧
      marks.length = (Piece.values (Insert.writtenPieces d (cat.table id).name (q.listed cat)
        rows)).length ∧
      c.sql = .text ((Template.ofPieces (Insert.writtenPieces d (cat.table id).name (q.listed cat)
        rows)).spelled marks)) ∧
    ∀ row ∈ log, row.values.length = (q.targets cat id).length ∧
      (row.columns = q.targets cat id ∨ row.columns = cat.columnNames id) ∧
      (row.columns = q.targets cat id ∨ q.targets cat id <+: cat.columnNames id →
        row.KeptUnder (q.targets cat id)) ∧
      (row.values.Nodup → row.KeptUnder (q.targets cat id) →
        row.columns = q.targets cat id ∨ q.targets cat id <+: cat.columnNames id) := by
  have hholds := Insert.Holds.of_gathered hq
  obtain ⟨columns, rfl, hcolumns⟩ := hholds.shape
  obtain ⟨ps, marks, hps, hlength, hsql⟩ :=
    exists_pieces_of_compile hd (Insert.wellFormed_holding hv) hc
  obtain ⟨hw, rows, hrows, rfl⟩ := Insert.pieces_holding hd hcolumns hps
  refine ⟨⟨rows, marks, hrows, hlength, hsql⟩, fun row hrow => ?_⟩
  have hwidth := hw row hrow
  exact ⟨hwidth, hholds.columns_eq hrow hwidth, hholds.keptUnder hrow hwidth,
    hholds.of_keptUnder hrow hwidth⟩

/-- A table of two columns. -/
def Catalog.ofPair (a b : String) : Catalog where
  columns := #[{ name := a, owner := some ⟨0⟩ }, { name := b, owner := some ⟨0⟩ }]
  tables := #[{ name := "t", columns := [{ id := ⟨0⟩ }, { id := ⟨1⟩ }] }]

/-- Numbers that are meant for two columns. -/
def MeantRow.ofPair (a b : String) (m n : Int) : MeantRow := ⟨[a, b], [.int m, .int n]⟩

/-- A row by position and one by column, in another order than that of the table. -/
def Insert.swappedRows (a b : String) : List MeantRow := [.ofPair a b 1 2, .ofPair b a 3 4]

/-- An INSERT that lists the columns of a pair in another order. -/
def Insert.swapped (a b : String) : Insert :=
  .holding ⟨0⟩ [.expr (.column .none ⟨1⟩), .expr (.column .none ⟨0⟩)] (swappedRows a b)

/-- Under a list of columns in another order the values of an earlier row by position change their
places. -/
theorem rows_go_to_columns_swapped :
    (Insert.swapped "a" "b").Gathered (.ofPair "a" "b") ⟨0⟩ (Insert.swappedRows "a" "b") ∧
    compile (.ofPair "a" "b") default (.insert (.swapped "a" "b")) = .ok ⟨.text
      "INSERT INTO t (b, a) VALUES (?, ?), (?, ?)", [.int 1, .int 2, .int 3, .int 4]⟩ ∧
    ¬(MeantRow.ofPair "a" "b" 1 2).KeptUnder ["b", "a"] ∧
    (MeantRow.ofPair "b" "a" 3 4).KeptUnder ["b", "a"] := by
  have hfirst : Insert.Gathered (.ofPair "a" "b") ⟨0⟩
      (.holding ⟨0⟩ [] [.ofPair "a" "b" 1 2]) [.ofPair "a" "b" 1 2] :=
    .call .start (.values [.int 1, .int 2] []) rfl
  have hq : (Insert.swapped "a" "b").Gathered (.ofPair "a" "b") ⟨0⟩ (Insert.swappedRows "a" "b") :=
    .call hfirst (.values [] [("b", .int 3), ("a", .int 4)]) rfl
  have hv : ∀ row ∈ Insert.swappedRows "a" "b", ∀ v ∈ row.values, v.WellFormed := by
    have hint : ∀ n : Int, (Value.int n).WellFormed := fun _ => .plain rfl
    simp [Insert.swappedRows, MeantRow.ofPair, hint]
  have hc : compile (.ofPair "a" "b") default (.insert (.swapped "a" "b")) = .ok ⟨.text
      "INSERT INTO t (b, a) VALUES (?, ?), (?, ?)", [.int 1, .int 2, .int 3, .int 4]⟩ := rfl
  obtain ⟨-, hrows⟩ := rows_go_to_columns ⟨rfl, rfl⟩ hq hv hc
  have htargets : (Insert.swapped "a" "b").targets (.ofPair "a" "b") ⟨0⟩ = ["b", "a"] := rfl
  rw [htargets] at hrows
  obtain ⟨-, -, -, hmoved⟩ := hrows (.ofPair "a" "b" 1 2) (by simp [Insert.swappedRows])
  obtain ⟨-, -, hkept, -⟩ := hrows (.ofPair "b" "a" 3 4) (by simp [Insert.swappedRows])
  refine ⟨hq, hc, fun h => ?_, hkept (.inl rfl)⟩
  rcases hmoved (by simp [MeantRow.ofPair, Value.int]) h with heq | heq
  · exact absurd heq (by decide)
  · exact absurd heq (by decide)

end SqlCompose
