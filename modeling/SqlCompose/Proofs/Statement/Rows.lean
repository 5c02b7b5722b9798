import Mathlib.Data.List.Nodup
import SqlCompose.Proofs.Render.Settled
import SqlCompose.Statement.Insert

/-!
# Rows that are added to an INSERT

A row is meant for the columns that it is added with: a row by column for the columns of its keys, a
row by position for the columns that are listed when it is added, or for all columns of the table
while none is. The INSERT keeps only its last list of columns. A row by column has to repeat the list
if there is one, so later calls change the columns of no row but one that was added while there was
no list.
-/
namespace SqlCompose

variable {cat : Catalog} {id : TableId}

/-- The name of the column that a value is. -/
def Value.columnName? (cat : Catalog) (v : Value) : Option String :=
  v.column?.map fun id => (cat.column id).name

/-- The name of the column that a key stands for: a text is a name itself. -/
def Value.keyName? (cat : Catalog) : Value → Option String
  | .scalar (.text s) => some s
  | v => v.columnName? cat

/-- A row with the names of the columns that its values are meant for. -/
structure MeantRow where
  columns : List String
  values : List Value

namespace MeantRow

/-- A row by column. -/
def keyed (cat : Catalog) (entries : List (Value × Value)) : MeantRow :=
  ⟨entries.filterMap (·.1.keyName? cat), entries.map (·.2)⟩

/-- Whether a column is meant to get a value. -/
def Assigns (row : MeantRow) (column : String) (v : Value) : Prop :=
  (column, v) ∈ row.columns.zip row.values

/-- Whether the values of a row go to the same columns if they are put under other ones. -/
def KeptUnder (row : MeantRow) (columns : List String) : Prop :=
  ∀ column v, (MeantRow.mk columns row.values).Assigns column v ↔ row.Assigns column v

end MeantRow

namespace Insert

/-- The names of the columns that an INSERT lists. -/
def listed (cat : Catalog) (q : Insert) : List String :=
  (q.columns.parts?.getD []).filterMap (·.columnName? cat)

/-- The names of the columns that rows by position go to. -/
def targets (cat : Catalog) (id : TableId) (q : Insert) : List String :=
  if q.listed cat = [] then cat.columnNames id else q.listed cat

end Insert

/-- A call that adds rows: one by position or by column, or several by position. -/
inductive RowCall
  | values (row : List Value) (named : List (String × Value))
  | rows (rows : List Value)

namespace RowCall

def apply (cat : Catalog) (q : Insert) : RowCall → Except Error Insert
  | values row named => q.addValues cat row named
  | rows given => q.addRows cat given

/-- The rows that a call adds, as they are meant when they are added. -/
def meant (cat : Catalog) (id : TableId) (q : Insert) : RowCall → List MeantRow
  | values [.dict entries] _ => [.keyed cat entries]
  | values row [] => [⟨q.targets cat id, row⟩]
  | values _ named => [.keyed cat (named.map fun entry => (.text entry.1, entry.2))]
  | rows given => given.map fun row => ⟨q.targets cat id, (row.items cat).toOption.getD []⟩

end RowCall

/-- The INSERTs that come of calls which add rows to one for a table, with or without a list of
columns to begin with, and the rows as they were meant. -/
inductive Insert.Gathered (cat : Catalog) (id : TableId) : Insert → List MeantRow → Prop
  | start : Gathered cat id (.into (.table id)) []
  | columns {q : Insert} (given : List Value)
    (h : (Insert.into (.table id)).setColumns cat given = .ok q) : Gathered cat id q []
  | call {q later : Insert} {log : List MeantRow} (h : Gathered cat id q log) (c : RowCall)
    (hc : c.apply cat q = .ok later) : Gathered cat id later (log ++ c.meant cat id q)

/-! ## Columns of keys -/

/-- A key stands for a column of the table. -/
theorem column_of_ownColumn {v w : Value} (h : ownColumn cat (.table id) v = .ok w) :
    ∃ a c, w = .expr (.column a c) ∧ v.keyName? cat = some (cat.column c).name := by
  unfold ownColumn at h
  split at h
  · rename_i s
    have hat : (Value.table id).at? cat (.scalar (.text s))
        = .ok ((cat.find? id s).map fun r => .expr r.expr) := rfl
    rw [hat] at h
    cases hfind : cat.find? id s with
    | none =>
      rw [hfind] at h
      exact absurd h (refused_ne_ok (.table id) (.text s) w)
    | some r =>
      rw [hfind] at h
      have hname : (cat.column r.id).name = s := by simpa using List.find?_some hfind
      exact ⟨r.asName, r.id, (Except.ok.inj h).symm, by rw [hname]; rfl⟩
  · rename_i a c
    by_cases howned : isOwnedBy cat c (.table id) = true
    · rw [if_pos howned] at h
      exact ⟨a, c, (Except.ok.inj h).symm, rfl⟩
    · rw [if_neg howned] at h
      exact absurd h (refused_ne_ok (.table id) (.expr (.column a c)) w)
  · exact absurd h (refused_ne_ok (.table id) v w)

/-- Keys stand for columns of the table, each for the one of its name. -/
theorem columns_of_ownColumns {keys columns : List Value}
    (h : keys.mapM (ownColumn cat (.table id)) = .ok columns) :
    (∀ w ∈ columns, ∃ a c, w = .expr (.column a c)) ∧
      columns.filterMap (·.columnName? cat) = keys.filterMap (·.keyName? cat) ∧
      columns.length = keys.length := by
  induction keys generalizing columns with
  | nil =>
    obtain rfl := Except.ok.inj h
    simp
  | cons v keys ih =>
    obtain ⟨w, ws, hw, hws, rfl⟩ := Except.mapM_cons_eq_ok_iff.1 h
    obtain ⟨a, c, rfl, hname⟩ := column_of_ownColumn hw
    obtain ⟨hall, hnames, hlength⟩ := ih hws
    refine ⟨?_, ?_, by simp [hlength]⟩
    · intro w hw
      rcases List.mem_cons.1 hw with rfl | hw
      · exact ⟨a, c, rfl⟩
      · exact hall w hw
    · have hown : (Value.expr (.column a c)).columnName? cat = some (cat.column c).name := rfl
      rw [List.filterMap_cons_some hown, List.filterMap_cons_some hname, hnames]

/-- Columns that are the same have the same names. -/
theorem filterMap_columnName_eq {vs ws : List Value}
    (h : vs.map Value.column? = ws.map Value.column?) :
    vs.filterMap (·.columnName? cat) = ws.filterMap (·.columnName? cat) := by
  have hmap : ∀ us : List Value, us.filterMap (·.columnName? cat)
      = (us.map Value.column?).filterMap (Option.map fun id => (cat.column id).name) := by
    intro us
    rw [List.filterMap_map]
    rfl
  rw [hmap, hmap, h]

/-- What a row by column makes of an INSERT. -/
theorem Insert.exists_of_addNamedRow {q later : Insert} {entries : List (Value × Value)}
    (h : q.addNamedRow cat entries = .ok later) : ∃ columns rows,
      (entries.map (·.1)).mapM (ownColumn cat q.table) = .ok columns ∧
      q.checkColumns cat columns = .ok () ∧
      q.rows.more [.tuple (entries.map (·.2))] = .ok rows ∧
      later = { q with columns := .tuple columns, rows := rows } := by
  obtain ⟨columns, hcolumns, hrest⟩ := Except.bind_eq_ok_iff.1 h
  obtain ⟨⟨⟩, hcheck, hadd⟩ := Except.bind_eq_ok_iff.1 hrest
  obtain ⟨rows, hrows, hlater⟩ := Except.bind_eq_ok_iff.1 hadd
  exact ⟨columns, rows, by rwa [List.mapM_map], hcheck, hrows, (Except.ok.inj hlater).symm⟩

theorem Insert.exists_of_addRow {q later : Insert} {row : List Value}
    (h : q.addRow row = .ok later) :
    ∃ rows, q.rows.more [.tuple row] = .ok rows ∧ later = { q with rows := rows } := by
  obtain ⟨rows, hrows, hlater⟩ := Except.bind_eq_ok_iff.1 h
  exact ⟨rows, hrows, (Except.ok.inj hlater).symm⟩

/-- The tuple that a row by position becomes. -/
theorem Insert.tuples_of_items {given added : List Value}
    (h : given.mapM (fun row => do return Value.tuple (← row.items cat)) = .ok added) :
    added = given.map fun row => .tuple ((row.items cat).toOption.getD []) := by
  induction given generalizing added with
  | nil => exact (Except.ok.inj h).symm
  | cons row given ih =>
    obtain ⟨v, vs, hv, hvs, rfl⟩ := Except.mapM_cons_eq_ok_iff.1 h
    obtain ⟨items, hitems, hv⟩ := Except.bind_eq_ok_iff.1 hv
    obtain rfl := Except.ok.inj hv
    rw [ih hvs, List.map_cons, hitems]
    rfl

/-- What several rows by position make of an INSERT. -/
theorem Insert.exists_of_addRows {q later : Insert} {given : List Value}
    (h : q.addRows cat given = .ok later) : ∃ rows,
      q.rows.more (given.map fun row => .tuple ((row.items cat).toOption.getD [])) = .ok rows ∧
      later = { q with rows := rows } := by
  obtain ⟨added, hadded, hrest⟩ := Except.bind_eq_ok_iff.1 h
  obtain ⟨rows, hrows, hlater⟩ := Except.bind_eq_ok_iff.1 hrest
  exact ⟨rows, tuples_of_items hadded ▸ hrows, (Except.ok.inj hlater).symm⟩

variable (id) in
/-- One row is added by column from a mapping or from keywords, and otherwise by position. -/
theorem Insert.cases_of_addValues {q later : Insert} {row : List Value}
    {named : List (String × Value)} (h : q.addValues cat row named = .ok later) :
    (∃ entries, RowCall.meant cat id q (.values row named) = [.keyed cat entries] ∧
      q.addNamedRow cat entries = .ok later) ∨
    RowCall.meant cat id q (.values row named) = [⟨q.targets cat id, row⟩] ∧
      q.addRow row = .ok later := by
  unfold addValues at h
  by_cases hmixed : (!row.isEmpty) = true ∧ (!named.isEmpty) = true
  · rw [if_pos hmixed] at h
    cases h
  · rw [if_neg hmixed] at h
    simp only at h
    split at h
    · exact .inl ⟨_, rfl, h⟩
    · rename_i hdict
      cases named with
      | nil =>
        rw [if_neg (by simp)] at h
        split at h
        · cases h
        · refine .inr ⟨?_, h⟩
          rw [RowCall.meant]
          exact hdict
      | cons entry named =>
        refine .inl ⟨_, ?_, h⟩
        rw [RowCall.meant]
        · exact hdict
        · simp

/-! ## What an INSERT holds after the calls -/

/-- An INSERT with a list of columns and with the values of some rows. -/
def Insert.holding (id : TableId) (columns : List Value) (log : List MeantRow) : Insert :=
  { Insert.into (.table id) with
    columns := .tuple columns, rows := .tuple (log.map fun row => .tuple row.values) }

/-- Whether an INSERT holds the values of some rows, in order, with a list of columns. A row that is
not meant for the listed columns is meant for all columns of the table. -/
structure Insert.Holds (cat : Catalog) (id : TableId) (q : Insert) (log : List MeantRow) :
    Prop where
  shape : ∃ columns, q = .holding id columns log ∧ ∀ v ∈ columns, ∃ a c, v = .expr (.column a c)
  meant : ∀ row ∈ log, (row.columns = q.listed cat ∧ q.listed cat ≠ []) ∨
    row.columns = cat.columnNames id ∨ row.columns = [] ∧ row.values = []

theorem Insert.listed_holding (columns : List Value) (log : List MeantRow) :
    (holding id columns log).listed cat = columns.filterMap (·.columnName? cat) := rfl

namespace Insert.Holds

variable {q later : Insert} {log : List MeantRow}

theorem start : Holds cat id (.into (.table id)) [] := ⟨⟨[], rfl, by simp⟩, by simp⟩

theorem setColumns {given : List Value}
    (h : (Insert.into (.table id)).setColumns cat given = .ok q) : Holds cat id q [] := by
  obtain ⟨columns, hcolumns, hq⟩ := Except.bind_eq_ok_iff.1 h
  obtain rfl := Except.ok.inj hq
  exact ⟨⟨columns, rfl, (columns_of_ownColumns hcolumns).1⟩, by simp⟩

section

variable (h : Holds cat id q log)
include h

/-- Rows by position are meant for the columns that positions go to. -/
theorem positional {rows : List (List Value)} {held : Value}
    (hr : q.rows.more (rows.map .tuple) = .ok held) :
    Holds cat id { q with rows := held } (log ++ rows.map (⟨q.targets cat id, ·⟩)) := by
  obtain ⟨columns, hq, hcolumns⟩ := h.shape
  refine ⟨⟨columns, ?_, hcolumns⟩, fun row hrow => ?_⟩
  · rw [hq, holding, Value.more_tuple] at hr
    rw [← Except.ok.inj hr, hq, holding, holding, List.map_append, List.map_map]
    rfl
  · rcases List.mem_append.1 hrow with hrow | hrow
    · exact h.meant row hrow
    · obtain ⟨values, -, rfl⟩ := List.mem_map.1 hrow
      by_cases hlisted : q.listed cat = []
      · exact .inr (.inl (if_pos hlisted))
      · exact .inl ⟨if_neg hlisted, hlisted⟩

/-- A row by column repeats the list of columns if there is one. -/
theorem listed_of_checkColumns {columns : List Value} (hc : q.checkColumns cat columns = .ok ()) :
    q.listed cat = [] ∨ q.listed cat = columns.filterMap (·.columnName? cat) := by
  obtain ⟨old, rfl, -⟩ := h.shape
  rw [listed_holding]
  cases old with
  | nil => exact .inl rfl
  | cons v vs =>
    right
    by_cases hsame : columns.map Value.column? = (v :: vs).map Value.column?
    · exact (filterMap_columnName_eq hsame).symm
    · have hitems : (Value.tuple (v :: vs)).items cat = .ok (v :: vs) := rfl
      have hlength : (Value.tuple (v :: vs)).length = .ok (v :: vs).length := rfl
      have htruthy : (Value.tuple (v :: vs)).truthy = true := rfl
      rw [checkColumns, holding, if_pos htruthy, hlength, hitems] at hc
      simp only [bind, Except.bind, if_pos hsame] at hc
      split at hc <;> cases hc

/-- A row by column is meant for the columns of its keys, which are listed from then on. -/
theorem keyed {entries : List (Value × Value)} (hl : q.addNamedRow cat entries = .ok later) :
    Holds cat id later (log ++ [.keyed cat entries]) := by
  obtain ⟨columns, rows, hcolumns, hcheck, hrows, rfl⟩ := exists_of_addNamedRow hl
  have hrepeated := h.listed_of_checkColumns hcheck
  have hmeant := h.meant
  obtain ⟨old, hq, -⟩ := h.shape
  rw [hq] at hcolumns
  obtain ⟨hall, hnames, hlength⟩ := columns_of_ownColumns hcolumns
  have hown : (MeantRow.keyed cat entries).columns = columns.filterMap (·.columnName? cat) := by
    rw [hnames, List.filterMap_map]
    rfl
  refine ⟨⟨columns, ?_, hall⟩, fun row hrow => ?_⟩
  · rw [hq, holding, Value.more_tuple] at hrows
    rw [← Except.ok.inj hrows, hq, holding, holding, List.map_append]
    rfl
  · change row.columns = columns.filterMap _ ∧ columns.filterMap _ ≠ [] ∨ _
    rcases List.mem_append.1 hrow with hrow | hrow
    · rcases hmeant row hrow with ⟨hlisted, hne⟩ | hrest
      · have heq := hrepeated.resolve_left hne
        exact .inl ⟨hlisted.trans heq, heq ▸ hne⟩
      · exact .inr hrest
    · obtain rfl := List.mem_singleton.1 hrow
      cases columns with
      | nil =>
        have hentries : entries = [] := by simpa [eq_comm] using hlength
        exact .inr (.inr ⟨hown, by rw [hentries]; rfl⟩)
      | cons v vs =>
        obtain ⟨a, c, rfl⟩ := hall v (by simp)
        exact .inl ⟨hown, by simp [Value.columnName?, Value.column?]⟩

/-- Each call adds its rows. -/
theorem call {c : RowCall} (hc : c.apply cat q = .ok later) :
    Holds cat id later (log ++ c.meant cat id q) := by
  cases c with
  | rows given =>
    obtain ⟨held, hheld, rfl⟩ := exists_of_addRows hc
    have hrows : given.map (fun row => Value.tuple ((row.items cat).toOption.getD []))
        = (given.map fun row => (row.items cat).toOption.getD []).map .tuple := by
      rw [List.map_map]
      rfl
    have hmore := h.positional (hrows ▸ hheld)
    rwa [List.map_map] at hmore
  | values row named =>
    rcases cases_of_addValues id hc with ⟨entries, hmeant, hkeyed⟩ | ⟨hmeant, hrow⟩
    · rw [hmeant]
      exact h.keyed hkeyed
    · obtain ⟨held, hheld, rfl⟩ := exists_of_addRow hrow
      rw [hmeant]
      have hone : q.rows.more ([row].map .tuple) = .ok held := hheld
      exact h.positional hone

end

/-- An INSERT holds the rows that were added to it. -/
theorem of_gathered (h : Gathered cat id q log) : q.Holds cat id log := by
  induction h with
  | start => exact start
  | columns given h => exact setColumns h
  | call _ c hc ih => exact ih.call hc

end Insert.Holds

/-! ## Where the values go -/

namespace MeantRow

variable {row : MeantRow} {columns : List String} (hw : row.values.length = columns.length)
include hw

/-- The values of a row that is meant for more columns go to the first ones of them. -/
theorem keptUnder_of_prefix (h : columns <+: row.columns) : row.KeptUnder columns := by
  obtain ⟨rest, hrest⟩ := h
  have hzip : row.columns.zip row.values = columns.zip row.values := by
    have happend : (columns ++ rest).zip (row.values ++ [])
        = columns.zip row.values ++ rest.zip [] := List.zip_append hw.symm
    rwa [List.append_nil, List.zip_nil_right, List.append_nil, hrest] at happend
  intro column v
  rw [Assigns, Assigns, hzip]

/-- Different values stay with their columns only under the columns that the row is meant for. -/
theorem prefix_of_keptUnder (hn : row.values.Nodup) (h : row.KeptUnder columns) :
    columns <+: row.columns := by
  rw [List.prefix_iff_getElem?]
  intro i hi
  have hmem : (columns[i], row.values[i]) ∈ columns.zip row.values :=
    List.mem_iff_getElem.2 ⟨i, by simp [hw, hi], List.getElem_zip ..⟩
  obtain ⟨j, hj, heq⟩ := List.mem_iff_getElem.1 ((h _ _).1 hmem)
  rw [List.getElem_zip, Prod.mk.injEq] at heq
  rw [List.length_zip, Nat.lt_min] at hj
  obtain rfl : j = i := hn.getElem_inj_iff.1 heq.2
  rw [List.getElem?_eq_getElem hj.1, heq.1]

end MeantRow

section

variable {q : Insert} {log : List MeantRow} (h : q.Holds cat id log) {row : MeantRow}
  (hrow : row ∈ log) (hw : row.values.length = (q.targets cat id).length)
include h hrow hw

/-- A row is meant for the columns that its values go to, or for all columns of the table. -/
theorem Insert.Holds.columns_eq :
    row.columns = q.targets cat id ∨ row.columns = cat.columnNames id := by
  rcases h.meant row hrow with ⟨hlisted, hne⟩ | hnames | ⟨hcolumns, hvalues⟩
  · exact .inl (hlisted.trans (if_neg hne).symm)
  · exact .inr hnames
  · left
    rw [hvalues, List.length_nil, eq_comm, List.length_eq_zero_iff] at hw
    rw [hcolumns, hw]

/-- The values of a row go where they were meant to if the row is meant for the columns that they go
to, or if these come first in the table. -/
theorem Insert.Holds.keptUnder
    (hk : row.columns = q.targets cat id ∨ q.targets cat id <+: cat.columnNames id) :
    row.KeptUnder (q.targets cat id) := by
  refine row.keptUnder_of_prefix hw ?_
  rcases h.columns_eq hrow hw with heq | heq
  · exact heq ▸ List.prefix_rfl
  · rcases hk with hk | hk
    · exact hk ▸ List.prefix_rfl
    · exact heq ▸ hk

/-- Different values go where they were meant to only in these cases. -/
theorem Insert.Holds.of_keptUnder (hn : row.values.Nodup)
    (hk : row.KeptUnder (q.targets cat id)) :
    row.columns = q.targets cat id ∨ q.targets cat id <+: cat.columnNames id := by
  have hprefix := row.prefix_of_keptUnder hw hn hk
  rcases h.columns_eq hrow hw with heq | heq
  · exact .inl heq
  · exact .inr (heq ▸ hprefix)

end

end SqlCompose
