import SqlCompose.Catalog.Binding
import SqlCompose.Expr.Subscript
import SqlCompose.Proofs.Dialect.Wording

/-!
# Columns and the tables that own them

In a sound catalog no table has two columns of one name, each listed column is owned by the table that
lists it, and what a table owns bears the name of one of its columns. Columns and tables are only
ever added; what is owned stays with its owner, because a table takes no column that has one.
-/
namespace SqlCompose.Catalog

variable {cat later last : Catalog} {id : ColumnId} {t : TableId} {c : Column}

/-- Whether a column exists. -/
def HasColumn (cat : Catalog) (id : ColumnId) : Prop := id.index < cat.columns.size

/-- Whether a table exists. -/
def HasTable (cat : Catalog) (t : TableId) : Prop := t.index < cat.tables.size

instance (cat : Catalog) (id : ColumnId) : Decidable (cat.HasColumn id) :=
  inferInstanceAs (Decidable (id.index < cat.columns.size))

theorem hasColumn_of_owner (h : cat.owner id = some t) : cat.HasColumn id :=
  Nat.lt_of_not_le fun hle => by simp [owner, column, Array.getElem?_eq_none hle] at h

theorem hasTable_of_mem {r : ColumnRef} (h : r ∈ (cat.table t).columns) : cat.HasTable t :=
  Nat.lt_of_not_le fun hle => by simp [table, Array.getElem?_eq_none hle] at h

/-- Whether a catalog keeps its columns with their tables. -/
structure Sound (cat : Catalog) : Prop where
  distinct : ∀ t, (cat.columnNames t).Nodup
  listed : ∀ t, ∀ r ∈ (cat.table t).columns, cat.owner r.id = some t
  named : ∀ id t, cat.owner id = some t → (cat.column id).name ∈ cat.columnNames t

/-- Whether one catalog came of another by adding to it. -/
structure Extends (cat later : Catalog) : Prop where
  columns : cat.columns.size ≤ later.columns.size
  tables : cat.tables.size ≤ later.tables.size
  table : ∀ t, cat.HasTable t → later.table t = cat.table t
  name : ∀ id, cat.HasColumn id → (later.column id).name = (cat.column id).name
  owner : ∀ id t, cat.owner id = some t → later.owner id = some t

namespace Extends

theorem refl (cat : Catalog) : cat.Extends cat :=
  ⟨Nat.le_refl _, Nat.le_refl _, fun _ _ => rfl, fun _ _ => rfl, fun _ _ h => h⟩

theorem hasColumn (h : cat.Extends later) (hid : cat.HasColumn id) : later.HasColumn id :=
  Nat.lt_of_lt_of_le hid h.columns

theorem hasTable (h : cat.Extends later) (ht : cat.HasTable t) : later.HasTable t :=
  Nat.lt_of_lt_of_le ht h.tables

theorem trans (h : cat.Extends later) (h' : later.Extends last) : cat.Extends last where
  columns := Nat.le_trans h.columns h'.columns
  tables := Nat.le_trans h.tables h'.tables
  table t ht := (h'.table t (h.hasTable ht)).trans (h.table t ht)
  name id hid := (h'.name id (h.hasColumn hid)).trans (h.name id hid)
  owner id t ho := h'.owner id t (h.owner id t ho)

end Extends

namespace Sound

variable (h : cat.Sound)
include h

theorem hasColumn_of_mem {r : ColumnRef} (hr : r ∈ (cat.table t).columns) : cat.HasColumn r.id :=
  hasColumn_of_owner (h.listed t r hr)

theorem hasTable_of_owner (ho : cat.owner id = some t) : cat.HasTable t := by
  obtain ⟨r, hr, -⟩ := List.mem_map.1 (h.named id t ho)
  exact hasTable_of_mem hr

end Sound

theorem sound_empty : Sound {} where
  distinct t := by simp [columnNames, table]
  listed t r hr := by simp [table] at hr
  named id t h := by simp [owner, column] at h

/-! ## Adding a column -/

theorem column_addColumn_of_ne (cat : Catalog) (c : Column) (h : id ≠ (cat.addColumn c).1) :
    (cat.addColumn c).2.column id = cat.column id := by
  have hne : id.index ≠ cat.columns.size := fun he => h (by cases id; simp_all [addColumn])
  simp [addColumn, column, Array.getElem?_push, hne]

theorem hasColumn_addColumn_self (cat : Catalog) (c : Column) :
    (cat.addColumn c).2.HasColumn (cat.addColumn c).1 := by simp [HasColumn, addColumn]

/-- Nothing owns a column before it is there. -/
theorem owner_addColumn_self (cat : Catalog) (c : Column) :
    cat.owner (cat.addColumn c).1 = none := by simp [owner, column, addColumn]

theorem extends_addColumn (cat : Catalog) (c : Column) : cat.Extends (cat.addColumn c).2 := by
  have hcolumn : ∀ id, cat.HasColumn id → (cat.addColumn c).2.column id = cat.column id :=
    fun id hid => column_addColumn_of_lt cat c hid
  refine ⟨?_, Nat.le_refl _, fun _ _ => rfl, fun id hid => by rw [hcolumn id hid], fun id t ho => ?_⟩
  · simp [addColumn]
  · rw [owner, hcolumn id (hasColumn_of_owner ho)]
    exact ho

/-- A catalog that extends a sound one by columns only has the same names for its tables. -/
theorem Sound.columnNames_eq (h : cat.Sound) (he : cat.Extends later)
    (ht : later.table t = cat.table t) : later.columnNames t = cat.columnNames t := by
  rw [columnNames, columnNames, ht]
  exact List.map_congr_left fun r hr => he.name r.id (h.hasColumn_of_mem hr)

/-- A column may be added that is not owned, or that bears the name of a column of its owner. -/
theorem Sound.addColumn (h : cat.Sound) (hc : ∀ t, c.owner = some t → c.name ∈ cat.columnNames t) :
    (cat.addColumn c).2.Sound := by
  have he := extends_addColumn cat c
  have hnames : ∀ t, (cat.addColumn c).2.columnNames t = cat.columnNames t :=
    fun t => h.columnNames_eq he rfl
  refine ⟨fun t => ?_, fun t r hr => he.owner _ _ (h.listed t r hr), fun id t ho => ?_⟩
  · rw [hnames]
    exact h.distinct t
  · rw [hnames]
    by_cases hid : id = (cat.addColumn c).1
    · subst hid
      rw [owner, column_addColumn_self] at ho
      rw [column_addColumn_self]
      exact hc t ho
    · rw [owner, column_addColumn_of_ne cat c hid] at ho
      rw [column_addColumn_of_ne cat c hid]
      exact h.named id t ho

theorem Sound.copyColumn (h : cat.Sound) (id : ColumnId) : (cat.copyColumn id).2.Sound :=
  h.addColumn fun t ho => h.named id t ho

/-- An expression under another alias leaves a sound catalog. -/
theorem Sound.named_expr (h : cat.Sound) (asName : Value) (e : Expr) :
    (cat.named asName e).2.Sound := by
  cases e with
  | column a id => exact h.copyColumn id
  | _ => exact h

theorem extends_named (cat : Catalog) (asName : Value) (e : Expr) :
    cat.Extends (cat.named asName e).2 := by
  cases e with
  | column a id => exact extends_addColumn cat _
  | _ => exact .refl cat

/-! ## Columns for a table -/

/-- What is left of given columns for a table to take: columns that nothing owned before, with the
names of the given ones. -/
structure Taken (cat : Catalog) (given : List ColumnRef) (refs : List ColumnRef) (later : Catalog) :
    Prop where
  extends' : cat.Extends later
  tables : later.tables = cat.tables
  sound : later.Sound
  hasColumn : ∀ r ∈ refs, later.HasColumn r.id
  unowned : ∀ r ∈ refs, cat.owner r.id = none
  names : refs.map (fun r => (later.column r.id).name) = given.map fun r => (cat.column r.id).name

theorem taken_unowned (h : cat.Sound) {given : List ColumnRef}
    (hg : ∀ r ∈ given, cat.HasColumn r.id) :
    cat.Taken given (cat.unowned given).1 (cat.unowned given).2 := by
  induction given generalizing cat with
  | nil => exact ⟨.refl cat, rfl, h, by simp [Catalog.unowned], by simp [Catalog.unowned], rfl⟩
  | cons r rest ih =>
    -- the column that is taken for `r`, and the catalog that has it
    obtain ⟨id, next, hnext, he, htables, hsound, hid, hfree, hname⟩ : ∃ id next,
        (if (cat.owner r.id).isSome then cat.copyColumn r.id else (r.id, cat)) = (id, next) ∧
          cat.Extends next ∧ next.tables = cat.tables ∧ next.Sound ∧ next.HasColumn id ∧
          cat.owner id = none ∧ (next.column id).name = (cat.column r.id).name := by
      by_cases ho : (cat.owner r.id).isSome
      · refine ⟨_, _, if_pos ho, extends_addColumn cat _, rfl, h.copyColumn r.id, ?_, ?_, ?_⟩
        · exact hasColumn_addColumn_self cat _
        · exact owner_addColumn_self cat (cat.column r.id)
        · exact congrArg Column.name (column_addColumn_self cat _)
      · exact ⟨_, _, if_neg ho, .refl cat, rfl, h, hg r List.mem_cons_self, by simpa using ho, rfl⟩
    have hrest := ih hsound fun s hs => he.hasColumn (hg s (List.mem_cons_of_mem _ hs))
    have hunowned : cat.unowned (r :: rest)
        = ({ r with id } :: (next.unowned rest).1, (next.unowned rest).2) := by
      rw [Catalog.unowned, hnext]
    rw [hunowned]
    refine ⟨he.trans hrest.extends', hrest.tables.trans htables, hrest.sound, ?_, ?_, ?_⟩
    · exact List.forall_mem_cons.2 ⟨hrest.extends'.hasColumn hid, hrest.hasColumn⟩
    · refine List.forall_mem_cons.2 ⟨hfree, fun s hs => ?_⟩
      cases ho : cat.owner s.id with
      | none => rfl
      | some t =>
        have hnone := hrest.unowned s hs
        rw [he.owner _ _ ho] at hnone
        cases hnone
    · have hnames : rest.map (fun s => (next.column s.id).name)
          = rest.map fun s => (cat.column s.id).name :=
        List.map_congr_left fun s hs => he.name s.id (hg s (List.mem_cons_of_mem _ hs))
      rw [List.map_cons, List.map_cons, hrest.names, hnames, hrest.extends'.name id hid, hname]

/-! ## Adding a table -/

theorem name_bind (t : TableId) (cat : Catalog) (id other : ColumnId) :
    ((cat.bind t id).column other).name = (cat.column other).name := by
  by_cases h : id.index = other.index <;>
    cases hc : cat.columns[other.index]? <;> simp [bind, column, Array.getElem?_modify, h, hc]

theorem hasColumn_bind (t : TableId) (cat : Catalog) (id other : ColumnId) :
    (cat.bind t id).HasColumn other ↔ cat.HasColumn other := by simp [HasColumn, bind]

/-- Makes a table the owner of listed columns. -/
theorem bound_spec (t : TableId) (cat : Catalog) (refs : List ColumnRef)
    (h : ∀ r ∈ refs, cat.HasColumn r.id) :
    let bound := refs.foldl (fun cat r => cat.bind t r.id) cat
    bound.tables = cat.tables ∧ bound.columns.size = cat.columns.size ∧
      (∀ id, (bound.column id).name = (cat.column id).name) ∧
      (∀ r ∈ refs, bound.owner r.id = some t) ∧
      ∀ id, (∀ r ∈ refs, r.id ≠ id) → bound.owner id = cat.owner id := by
  induction refs generalizing cat with
  | nil => simp
  | cons r rest ih =>
    obtain ⟨htables, hsize, hnames, howned, hother⟩ := ih (cat.bind t r.id) fun s hs =>
      (hasColumn_bind ..).2 (h s (List.mem_cons_of_mem _ hs))
    refine ⟨htables, hsize.trans (by simp [bind]), fun id => (hnames id).trans (name_bind ..), ?_, ?_⟩
    · intro s hs
      rcases List.mem_cons.1 hs with rfl | hs
      · by_cases hrest : ∃ u ∈ rest, u.id = s.id
        · obtain ⟨u, hu, he⟩ := hrest
          rw [← he]
          exact howned u hu
        · have hne : ∀ u ∈ rest, u.id ≠ s.id := by simpa using hrest
          exact (hother _ hne).trans (owner_bind_self _ _ (h s List.mem_cons_self))
      · exact howned s hs
    · intro id hne
      rw [List.forall_mem_cons] at hne
      exact (hother id hne.2).trans (owner_bind_of_ne _ _ hne.1.symm)

theorem nodup_of_duplicate? {seen names : List String} (h : duplicate? seen names = none) :
    names.Nodup ∧ ∀ name ∈ names, name ∉ seen := by
  induction names generalizing seen with
  | nil => simp
  | cons name names ih =>
    rw [duplicate?] at h
    split at h
    · cases h
    · rename_i hseen
      obtain ⟨hnodup, hfresh⟩ := ih h
      have hname : name ∉ names := fun hmem => hfresh name hmem List.mem_cons_self
      refine ⟨List.nodup_cons.2 ⟨hname, hnodup⟩, List.forall_mem_cons.2 ⟨hseen, fun other hmem => ?_⟩⟩
      exact fun hother => hfresh other hmem (List.mem_cons_of_mem _ hother)

/-- The columns among given values are those that were given. -/
theorem mem_of_columnRefs {vs : List Value} {given : List ColumnRef}
    (h : columnRefs vs = .ok given) {r : ColumnRef} (hr : r ∈ given) :
    Value.expr (.column r.asName r.id) ∈ vs := by
  induction vs generalizing given with
  | nil =>
    obtain rfl := Except.ok.inj h
    cases hr
  | cons v vs ih =>
    unfold columnRefs at h
    split at h
    · contradiction
    · rename_i a id vs' he
      obtain ⟨rfl, rfl⟩ := List.cons.inj he
      obtain ⟨rest, hrest, hgiven⟩ := Except.bind_eq_ok_iff.1 h
      obtain rfl := Except.ok.inj hgiven
      rcases List.mem_cons.1 hr with rfl | hr
      · exact List.mem_cons_self
      · exact List.mem_cons_of_mem _ (ih hrest hr)
    · cases h

/-- How a table comes into being: of columns with different names it takes those that are not owned
and copies of the others. -/
theorem addTable_eq_ok {name : Value} {columns : List Value} {options : Except Error TableOptions}
    (h : cat.addTable name columns options = .ok (t, later)) :
    ∃ given table, columnRefs columns = .ok given ∧
      (given.map fun r => (cat.column r.id).name).Nodup ∧
      t = ⟨(cat.unowned given).2.tables.size⟩ ∧
      table.columns = (cat.unowned given).1 ∧
      later = (cat.unowned given).1.foldl (fun cat r => cat.bind t r.id)
        ⟨(cat.unowned given).2.columns, (cat.unowned given).2.tables.push table⟩ := by
  obtain ⟨given, hgiven, h⟩ := Except.bind_eq_ok_iff.1 h
  cases hd : duplicate? [] (given.map fun r => (cat.column r.id).name) with
  | some twice =>
    simp only [hd] at h
    obtain ⟨shown, -, h⟩ := Except.bind_eq_ok_iff.1 h
    cases h
  | none =>
    simp only [hd] at h
    obtain ⟨o, ho, h⟩ := Except.bind_eq_ok_iff.1 h
    cases hn : name.text? with
    | none =>
      simp only [hn] at h
      cases h
    | some text =>
      simp only [hn] at h
      obtain ⟨rfl, rfl⟩ := Prod.mk.inj (Except.ok.inj h)
      exact ⟨given, _, hgiven, (nodup_of_duplicate? hd).1, rfl, rfl, rfl⟩

/-- What becomes of a catalog when a new table takes columns that are there. -/
structure Placed (cat : Catalog) (refs : List ColumnRef) (t : TableId) (later : Catalog) :
    Prop where
  columns : later.columns.size = cat.columns.size
  tables : cat.tables.size ≤ later.tables.size
  fresh : ¬cat.HasTable t
  mine : (later.table t).columns = refs
  other : ∀ u, u ≠ t → later.table u = cat.table u
  name : ∀ id, (later.column id).name = (cat.column id).name
  owned : ∀ r ∈ refs, later.owner r.id = some t
  kept : ∀ id, (∀ r ∈ refs, r.id ≠ id) → later.owner id = cat.owner id

theorem placed_of_bound {refs : List ColumnRef} {made : Table} (hmade : made.columns = refs)
    (hr : ∀ r ∈ refs, cat.HasColumn r.id) (ht : t = ⟨cat.tables.size⟩)
    (hlater : later = refs.foldl (fun cat r => cat.bind t r.id)
      ⟨cat.columns, cat.tables.push made⟩) : cat.Placed refs t later := by
  obtain ⟨htables, hsize, hnames, howned, hother⟩ :=
    bound_spec t ⟨cat.columns, cat.tables.push made⟩ refs hr
  rw [← hlater] at htables hsize hnames howned hother
  refine ⟨hsize, by simp [htables], by simp [HasTable, ht], ?_, fun u hu => ?_, hnames, howned,
    hother⟩
  · simpa [table, htables, ht] using hmade
  · have hne : u.index ≠ cat.tables.size := fun he => hu (by cases u; simp_all)
    simp [table, htables, Array.getElem?_push, hne]

section Placed

variable {given refs : List ColumnRef} {next : Catalog} (hp : next.Placed refs t later)
  (htaken : cat.Taken given refs next)
include hp htaken

/-- The table has the columns that were given for it, by name. -/
theorem Placed.columnNames_mine :
    later.columnNames t = given.map fun r => (cat.column r.id).name := by
  rw [columnNames, hp.mine, ← htaken.names]
  exact List.map_congr_left fun r _ => hp.name r.id

omit htaken in
theorem Placed.columnNames_other {u : TableId} (hu : u ≠ t) :
    later.columnNames u = next.columnNames u := by
  rw [columnNames, columnNames, hp.other u hu]
  exact List.map_congr_left fun r _ => hp.name r.id

/-- All that was owned has its owner still: it is not among the columns that are taken. -/
theorem Placed.extends' : cat.Extends later where
  columns := hp.columns ▸ htaken.extends'.columns
  tables := Nat.le_trans htaken.extends'.tables hp.tables
  table u hu := by
    have hne : u ≠ t := by
      rintro rfl
      exact hp.fresh (htaken.extends'.hasTable hu)
    exact (hp.other u hne).trans (htaken.extends'.table u hu)
  name id hid := (hp.name id).trans (htaken.extends'.name id hid)
  owner id u ho := by
    have hkept : ∀ r ∈ refs, r.id ≠ id := by
      rintro r hr rfl
      rw [htaken.unowned r hr] at ho
      cases ho
    exact (hp.kept id hkept).trans (htaken.extends'.owner id u ho)

theorem Placed.sound (h : cat.Sound)
    (hnodup : (given.map fun r => (cat.column r.id).name).Nodup) : later.Sound where
  distinct u := by
    by_cases hu : u = t
    · rw [hu, hp.columnNames_mine htaken]
      exact hnodup
    · rw [hp.columnNames_other hu]
      exact htaken.sound.distinct u
  listed u r hr := by
    by_cases hu : u = t
    · rw [hu, hp.mine] at hr
      rw [hu]
      exact hp.owned r hr
    · have hsame : next.table u = cat.table u := by rw [table, table, htaken.tables]
      rw [hp.other u hu, hsame] at hr
      exact (hp.extends' htaken).owner r.id u (h.listed u r hr)
  named id u ho := by
    by_cases hmem : ∃ r ∈ refs, r.id = id
    · obtain ⟨r, hr, rfl⟩ := hmem
      rw [hp.owned r hr] at ho
      obtain rfl := Option.some.inj ho
      rw [columnNames, hp.mine]
      exact List.mem_map.2 ⟨r, hr, rfl⟩
    · have hnext : next.owner id = some u := (hp.kept id (by simpa using hmem)).symm.trans ho
      have hu : u ≠ t := by
        rintro rfl
        exact hp.fresh (htaken.sound.hasTable_of_owner hnext)
      rw [hp.columnNames_other hu, hp.name]
      exact htaken.sound.named id u hnext

end Placed

/-- A table leaves a sound catalog, in which all that was owned has its owner still. -/
theorem Sound.addTable (h : cat.Sound) {name : Value} {columns : List Value}
    {options : Except Error TableOptions} (hok : cat.addTable name columns options = .ok (t, later))
    (hc : ∀ a id, Value.expr (.column a id) ∈ columns → cat.HasColumn id) :
    later.Sound ∧ cat.Extends later := by
  obtain ⟨given, made, hgiven, hnodup, ht, hmade, hlater⟩ := addTable_eq_ok hok
  have htaken := taken_unowned h fun r hr => hc _ _ (mem_of_columnRefs hgiven hr)
  have hp := placed_of_bound hmade htaken.hasColumn ht hlater
  exact ⟨hp.sound htaken h hnodup, hp.extends' htaken⟩

theorem Sound.aliasTable (h : cat.Sound) {asName : Except Error (Option String)} {source : TableId}
    (hok : cat.aliasTable source asName = .ok (t, later)) : later.Sound ∧ cat.Extends later := by
  refine h.addTable hok fun a id hid => ?_
  obtain ⟨r, hr, he⟩ := List.mem_map.1 hid
  obtain ⟨-, rfl⟩ := Expr.column.inj (Value.expr.inj he)
  exact h.hasColumn_of_mem hr

end SqlCompose.Catalog
