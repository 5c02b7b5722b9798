import SqlCompose.Proofs.Compile.Naming
import SqlCompose.Proofs.Draft.Spelled

/-!
# Definitions of tables and indexes in full

What a foreign key, a table and an index are written as, and when. A table that is created or dropped
has to have a name. The table that a foreign key refers to, and the one that an index is on, do not
have to: an empty name is written like any other one.
-/
namespace SqlCompose

variable {cat : Catalog} {d : Dialect} {host : Host} {t u : TableId}

/-- A name as a dialect writes it. -/
def Dialect.word (d : Dialect) (name : String) : String := quoteName d.identifierQuote name

/-- Names with commas between them. -/
def Dialect.wordList (d : Dialect) (names : List String) : String := ", ".intercalate (names.map d.word)

/-! ## Foreign keys -/

namespace ForeignKey

variable {key : ForeignKey}

/-- Whether a key has as many columns as it refers to, and all of them are columns of a table. -/
structure Fits (cat : Catalog) (t : TableId) (key : ForeignKey) : Prop where
  nonempty : key.columns ≠ []
  paired : key.columns.length = key.references.length
  listed : ∀ name ∈ key.columns, name ∈ cat.columnNames t

/-- Whether the columns that a key refers to, of which there is one, all belong to a table. -/
def RefersTo (cat : Catalog) (u : TableId) (key : ForeignKey) : Prop :=
  key.targets ≠ [] ∧ ∀ id ∈ key.targets, cat.owner id = some u

theorem checkColumns_eq_ok_iff : key.checkColumns cat (.table t) = .ok () ↔ key.Fits cat t := by
  refine ⟨fun h => ?_, fun ⟨hne, hlength, hlisted⟩ => ?_⟩
  · have hlisted := listed_of_checkColumns h
    unfold checkColumns at h
    split at h
    · cases h
    · rename_i hcolumns
      rw [not_or, not_not] at hcolumns
      exact ⟨by simpa using hcolumns.1, hcolumns.2, hlisted⟩
  · have hknown : ((cat.columnNames t).map Value.text).filterMap Value.text? = cat.columnNames t := by
      simp [List.filterMap_map, Function.comp_def, Value.text?, Value.text]
    have hnames : (Value.table t).get cat "column_names"
        = .ok (.tuple ((cat.columnNames t).map .text)) := rfl
    have hitems : (Value.tuple ((cat.columnNames t).map .text)).items cat
        = .ok ((cat.columnNames t).map .text) := rfl
    have hcolumns : ¬(key.columns.isEmpty = true ∨ key.columns.length ≠ key.references.length) := by
      simp [hne, hlength]
    unfold checkColumns
    rw [if_neg hcolumns]
    simp only [hnames, hitems, bind, Except.bind, hknown, unknownName?_eq_none_iff.2 hlisted]
    rfl

theorem target_eq_ok_iff : key.target cat = .ok u ↔ key.RefersTo cat u := by
  refine ⟨fun h => ⟨?_, owner_of_target h⟩, fun ⟨hne, howned⟩ => ?_⟩
  · intro hempty
    rw [target, hempty] at h
    cases h
  · cases htargets : key.targets with
    | nil => exact absurd htargets hne
    | cons id others =>
      rw [htargets, List.forall_mem_cons] at howned
      rw [target, htargets, List.map_cons, howned.1]
      have hall : (others.map cat.owner).all (· == some u) = true := by
        simpa using howned.2
      simp only [hall, if_true]

/-- The words for what happens to a row when the row that it refers to goes or changes. -/
def reactionWords (words : String) (action : Option String) : List String :=
  match action with
  | none => []
  | some s => if s = "" then [] else [words ++ s]

/-- A FOREIGN KEY clause for a key that refers to a table. -/
def spelled (cat : Catalog) (d : Dialect) (u : TableId) (key : ForeignKey) : String :=
  "FOREIGN KEY (" ++ d.wordList key.columns ++ ") REFERENCES " ++ d.word (cat.table u).name ++ " ("
    ++ d.wordList (key.targets.map fun id => (cat.column id).name) ++ ")"
    ++ String.join (reactionWords " ON DELETE " key.onDelete ++ reactionWords " ON UPDATE " key.onUpdate)

theorem spells_reaction (words : String) (action : Option String) :
    List.Forall₂ (Draft.Spells cat host) (reaction words action) (reactionWords words action) := by
  unfold reaction reactionWords
  cases action with
  | none => exact .nil
  | some s =>
    dsimp only
    split
    · exact .nil
    · exact .cons (Draft.spells_text _) .nil

variable (hd : d.WritesText) (hq : host.QuotesAs cat d)
include hd hq

/-- A key that fits its table and refers to another one is written as its clause, whatever the name of
the other one is. -/
theorem spells_definition (hf : key.Fits cat t) (hr : key.RefersTo cat u) :
    (key.definition cat (.table t)).Spells cat host (key.spelled cat d u) := by
  rw [definition, checkColumns_eq_ok_iff.2 hf, target_eq_ok_iff.2 hr]
  have hcolumns : (Draft.commaSeparated (key.columns.map nameDraft)).Spells cat host
      (d.wordList key.columns) := Draft.spells_names hd hq (fun s => s) key.columns
  have htargets : (Draft.commaSeparated (key.targets.map (columnName cat))).Spells cat host
      (d.wordList (key.targets.map fun id => (cat.column id).name)) := by
    rw [Dialect.wordList, List.map_map]
    exact Draft.spells_names hd hq (fun id => (cat.column id).name) key.targets
  have hname : (nameDraft (cat.table u).name).Spells cat host (d.word (cat.table u).name) :=
    Draft.spells_nameDraft hd hq _
  have hreactions : List.Forall₂ (Draft.Spells cat host)
      (reaction " ON DELETE " key.onDelete ++ reaction " ON UPDATE " key.onUpdate)
      (reactionWords " ON DELETE " key.onDelete ++ reactionWords " ON UPDATE " key.onUpdate) :=
    List.rel_append (spells_reaction _ _) (spells_reaction _ _)
  have hopening := ((Draft.spells_text "FOREIGN KEY (").plus hcolumns).plus
    (Draft.spells_text ") REFERENCES ")
  have hclosing := (((hopening.plus hname).plus (Draft.spells_text " (")).plus htargets).plus
    (Draft.spells_text ")")
  exact hclosing.continued hreactions

/-- Whether a key of a table is written as a clause: it fits the table and refers to a table. -/
def SpelledFor (cat : Catalog) (d : Dialect) (t : TableId) (key : ForeignKey) (s : String) : Prop :=
  key.Fits cat t ∧ ∃ u, key.RefersTo cat u ∧ s = key.spelled cat d u

theorem spelledFor_of_yields {s : String}
    (h : (key.definition cat (.table t)).Yields cat host (.text s)) : key.SpelledFor cat d t s := by
  obtain ⟨hcheck, hgiven⟩ := h.guarded
  obtain ⟨u, hu, -⟩ := hgiven.given
  have hf := checkColumns_eq_ok_iff.1 hcheck
  have hr := target_eq_ok_iff.1 hu
  exact ⟨hf, u, hr, Value.text_inj ((spells_definition hd hq hf hr).eq_of_yields h)⟩

end ForeignKey

/-! ## Tables -/

/-- Whether a key over several columns, if a table has one, is over columns of the table, none of
which is a key of its own. -/
def Catalog.PrimaryKeyFits (cat : Catalog) (t : TableId) : Prop :=
  (cat.table t).primaryKey ≠ [] → (∀ r ∈ (cat.table t).columns, (cat.column r.id).primaryKey = false) ∧
    ∀ name ∈ (cat.table t).primaryKey, name ∈ cat.columnNames t

/-- The PRIMARY KEY clause of a table, if it has a key over several columns. -/
def Catalog.primaryKeyWords (cat : Catalog) (d : Dialect) (t : TableId) : List String :=
  if (cat.table t).primaryKey = [] then []
  else ["PRIMARY KEY (" ++ d.wordList (cat.table t).primaryKey ++ ")"]

theorem checkPrimaryKey_eq_ok_iff : checkPrimaryKey cat t = .ok () ↔
    (∀ r ∈ (cat.table t).columns, (cat.column r.id).primaryKey = false) ∧
      ∀ name ∈ (cat.table t).primaryKey, name ∈ cat.columnNames t := by
  unfold checkPrimaryKey
  dsimp only
  split
  · rename_i hown
    simp only [List.any_eq_true] at hown
    obtain ⟨r, hr, hkey⟩ := hown
    refine iff_of_false (fun h => by cases h) fun h => ?_
    rw [h.1 r hr] at hkey
    cases hkey
  · rename_i hown
    have hnone : ∀ r ∈ (cat.table t).columns, (cat.column r.id).primaryKey = false := by
      simpa using hown
    rw [and_iff_right hnone, ← unknownName?_eq_none_iff]
    cases unknownName? (cat.columnNames t) (cat.table t).primaryKey with
    | none => exact iff_of_true rfl rfl
    | some name => exact iff_of_false (fun h => by cases h) (fun h => by cases h)

section Keys

variable (hd : d.WritesText) (hq : host.QuotesAs cat d)
include hd hq

theorem spells_primaryKeyDraft (h : cat.PrimaryKeyFits t) : List.Forall₂ (Draft.Spells cat host)
    (primaryKeyDraft cat t) (cat.primaryKeyWords d t) := by
  unfold primaryKeyDraft Catalog.primaryKeyWords
  dsimp only
  by_cases hempty : (cat.table t).primaryKey = []
  · rw [if_pos hempty, if_pos (by simp [hempty])]
    exact .nil
  · rw [if_neg hempty, if_neg (by simpa using hempty), checkPrimaryKey_eq_ok_iff.2 (h hempty)]
    have hnames : (Draft.commaSeparated ((cat.table t).primaryKey.map nameDraft)).Spells cat host
        (d.wordList (cat.table t).primaryKey) := Draft.spells_names hd hq (fun s => s) _
    have hlist := ((Draft.spells_text "(").plus hnames).plus (Draft.spells_text ")")
    have hclause := (Draft.spells_text "PRIMARY KEY ").plus hlist
    refine .cons ?_ .nil
    rw [← String.append_assoc, ← String.append_assoc] at hclause
    exact hclause

omit hd hq in
theorem primaryKeyFits_of_yields {texts : List String}
    (h : List.Forall₂ (fun x s => x.Yields cat host (.text s)) (primaryKeyDraft cat t) texts) :
    cat.PrimaryKeyFits t := by
  intro hne
  unfold primaryKeyDraft at h
  dsimp only at h
  rw [if_neg (by simpa using hne)] at h
  obtain ⟨s, rest, hclause, -, -⟩ := List.forall₂_cons_left_iff.1 h
  exact checkPrimaryKey_eq_ok_iff.1 hclause.guarded.1

end Keys

theorem Draft.Spells.compileInlined {x : Draft} {s : String}
    (h : x.Spells cat (.context d.inlining 0) s) : compileInlined cat d x = .ok (.text s) := by
  rw [SqlCompose.compileInlined, h.outcome]

section Definitions

variable (hd : d.WritesText)
include hd

/-- A table that is created has a name, columns, and keys that fit it; the names of the tables that
its keys refer to do not matter. -/
theorem compileCreateTable_eq_ok_iff {definitions : List String}
    (hdefinitions : List.Forall₂ (fun r s => ((cat.column r.id).definition cat d.engine).Spells cat
      (.context d.inlining 0) s) (cat.table t).columns definitions) {ifNotExists : Bool} {sql : Value} :
    compileCreateTable cat d t ifNotExists = .ok sql ↔
      (cat.table t).name ≠ "" ∧ (cat.table t).columns ≠ [] ∧ cat.PrimaryKeyFits t ∧
      ∃ foreign, List.Forall₂ (ForeignKey.SpelledFor cat d t) (cat.table t).foreignKeys foreign ∧
        sql = .text ("CREATE TABLE " ++ (if ifNotExists then "IF NOT EXISTS " else "")
          ++ d.word (cat.table t).name ++ " ("
          ++ ", ".intercalate (definitions ++ cat.primaryKeyWords d t ++ foreign) ++ ")") := by
  have hq := Host.quotesAs_inlining cat d 0
  have hwritten : (cat.table t).name ≠ "" → (cat.table t).columns ≠ [] → cat.PrimaryKeyFits t →
      ∀ foreign, List.Forall₂ (ForeignKey.SpelledFor cat d t) (cat.table t).foreignKeys foreign →
      compileCreateTable cat d t ifNotExists = .ok (.text ("CREATE TABLE "
        ++ (if ifNotExists then "IF NOT EXISTS " else "") ++ d.word (cat.table t).name ++ " ("
        ++ ", ".intercalate (definitions ++ cat.primaryKeyWords d t ++ foreign) ++ ")")) := by
    intro hname hcolumns hprimary foreign hforeign
    have hkeys : List.Forall₂ (Draft.Spells cat (.context d.inlining 0))
        ((cat.table t).foreignKeys.map (ForeignKey.definition cat (.table t))) foreign := by
      rw [List.forall₂_map_left_iff]
      refine hforeign.imp ?_
      rintro key s ⟨hf, u, hr, rfl⟩
      exact ForeignKey.spells_definition hd hq hf hr
    have hitems := List.rel_append (List.rel_append (List.forall₂_map_left_iff.2 hdefinitions)
      (spells_primaryKeyDraft hd hq hprimary)) hkeys
    have hfront := ((Draft.spells_text ("CREATE TABLE "
      ++ (if ifNotExists then "IF NOT EXISTS " else ""))).plus
        (Draft.spells_nameDraft hd hq (cat.table t).name)).plus (Draft.spells_text " (")
    refine Draft.Spells.compileInlined ?_
    unfold createTableDraft
    dsimp only
    rw [if_neg hname, if_neg (by simpa using hcolumns)]
    exact hfront.framed hitems (Draft.spells_text ")")
  constructor
  · intro h
    have hyields := yields_of_compileInlined h
    unfold createTableDraft at hyields
    dsimp only at hyields
    split at hyields
    · exact absurd hyields (Draft.not_yields_fail _)
    · rename_i hname
      split at hyields
      · exact absurd hyields (Draft.not_yields_fail _)
      · rename_i hcolumns
        obtain ⟨texts, -, -, htexts, -⟩ := hyields.framed
        obtain ⟨front, foreign, hfront, hforeign, -⟩ := exists_of_forall₂_append htexts
        obtain ⟨-, primary, -, hprimary, -⟩ := exists_of_forall₂_append hfront
        have hkeys : List.Forall₂ (ForeignKey.SpelledFor cat d t) (cat.table t).foreignKeys foreign :=
          (List.forall₂_map_left_iff.1 hforeign).imp
            fun key s hkey => ForeignKey.spelledFor_of_yields hd hq hkey
        have hfits := primaryKeyFits_of_yields hprimary
        have hne : (cat.table t).columns ≠ [] := by simpa using hcolumns
        have hsql := hwritten hname hne hfits foreign hkeys
        exact ⟨hname, hne, hfits, foreign, hkeys, Except.ok.inj (h.symm.trans hsql)⟩
  · rintro ⟨hname, hcolumns, hprimary, foreign, hforeign, rfl⟩
    exact hwritten hname hcolumns hprimary foreign hforeign

/-- A table that is dropped has a name. -/
theorem compileDropTable_eq_ok_iff {ifExists : Bool} {sql : Value} :
    compileDropTable cat d t ifExists = .ok sql ↔ (cat.table t).name ≠ "" ∧
      sql = .text ("DROP TABLE " ++ (if ifExists then "IF EXISTS " else "")
        ++ d.word (cat.table t).name) := by
  unfold compileDropTable dropTableDraft
  dsimp only
  by_cases hname : (cat.table t).name = ""
  · rw [if_pos hname]
    exact iff_of_false (fun h => Draft.not_yields_fail _ (yields_of_compileInlined h)) fun h => h.1 hname
  · have hspells := (Draft.spells_text ("DROP TABLE " ++ (if ifExists then "IF EXISTS " else ""))).plus
      (Draft.spells_nameDraft hd (Host.quotesAs_inlining cat d 0) (cat.table t).name)
    rw [if_neg hname, hspells.compileInlined, Except.ok.injEq, and_iff_right hname]
    exact eq_comm

end Definitions

/-! ## Indexes -/

namespace Index

variable {i : Index}

/-- Whether an index with a name is on a table: it has columns, all of them belong to the table, and
it was not given another table. -/
structure IsOn (cat : Catalog) (t : TableId) (i : Index) : Prop where
  named : i.name ≠ ""
  nonempty : i.columns ≠ []
  given : ∀ u, i.table = some u → u = t
  owned : ∀ v ∈ i.columns, ∃ id, columnOf v = .ok id ∧ cat.owner id = some t

theorem exists_mapM_columnOf {vs : List Value}
    (h : ∀ v ∈ vs, ∃ id, columnOf v = .ok id ∧ cat.owner id = some t) :
    ∃ ids, vs.mapM columnOf = .ok ids ∧ ids.length = vs.length ∧
      ∀ id ∈ ids, cat.owner id = some t := by
  induction vs with
  | nil => exact ⟨[], rfl, rfl, by simp⟩
  | cons v vs ih =>
    rw [List.forall_mem_cons] at h
    obtain ⟨⟨id, hid, ho⟩, hrest⟩ := h
    obtain ⟨ids, hids, hlength, howned⟩ := ih hrest
    exact ⟨id :: ids, Except.mapM_cons_eq_ok_iff.2 ⟨id, ids, hid, hids, rfl⟩, by simp [hlength],
      List.forall_mem_cons.2 ⟨ho, howned⟩⟩

theorem target_eq_ok_iff : i.target cat = .ok t ↔ i.IsOn cat t := by
  by_cases hname : i.name = ""
  · rw [target, if_pos hname]
    exact iff_of_false (fun h => by cases h) fun h => h.named hname
  by_cases hcolumns : i.columns = []
  · rw [target, if_neg hname, if_pos (by simp [hcolumns])]
    exact iff_of_false (fun h => by cases h) fun h => h.nonempty hcolumns
  refine ⟨fun h => ⟨hname, hcolumns, (exists_of_target h).1, (exists_of_target h).2⟩, fun h => ?_⟩
  obtain ⟨ids, hids, hlength, howned⟩ := exists_mapM_columnOf h.owned
  have htarget : target? cat i.table ids = some t := by
    unfold target?
    cases htable : i.table with
    | some u => simp [h.given u htable]
    | none =>
      cases ids with
      | nil => exact absurd (List.length_eq_zero_iff.1 hlength.symm) hcolumns
      | cons id ids => simpa using howned id List.mem_cons_self
  have hstranger : stranger? cat t ids = none := by
    rw [stranger?, List.find?_eq_none]
    intro id hid
    simp [howned id hid]
  simp only [target, if_neg hname, List.isEmpty_iff, if_neg hcolumns, hids, bind, Except.bind,
    htarget, hstranger]
  rfl

/-- A term of an index in full. -/
def termWords (cat : Catalog) (d : Dialect) : Value → String
  | .expr (.column _ id) => d.word (cat.column id).name
  | .expr (.order _ (.column _ id) descending) =>
    d.word (cat.column id).name ++ if descending then " DESC" else " ASC"
  | _ => ""

/-- The statement that creates an index on a table. -/
def spelled (cat : Catalog) (d : Dialect) (t : TableId) (i : Index) : String :=
  (if i.unique then "CREATE UNIQUE INDEX " else "CREATE INDEX ") ++ d.word i.name ++ " ON "
    ++ d.word (cat.table t).name ++ " (" ++ ", ".intercalate (i.columns.map (termWords cat d)) ++ ")"

section Spelled

variable (hd : d.WritesText) (hq : host.QuotesAs cat d)
include hd hq

theorem spells_term {v : Value} {id : ColumnId} (hv : columnOf v = .ok id) :
    (term cat v).Spells cat host (termWords cat d v) := by
  unfold columnOf at hv
  split at hv
  · exact Draft.spells_nameDraft hd hq _
  · rename_i column descending
    have hname : (columnName cat column).Spells cat host (d.word (cat.column column).name) :=
      Draft.spells_nameDraft hd hq _
    have hdirected := hname.shown.plus
      (Draft.spells_token (.operator .behind (if descending then "DESC" else "ASC")))
    cases descending <;> exact hdirected
  · cases hv

/-- An index on a table is written as its statement, whatever the name of the table is. -/
theorem spells_draft (h : i.IsOn cat t) : (i.draft cat).Spells cat host (i.spelled cat d t) := by
  have hterms : List.Forall₂ (Draft.Spells cat host) (i.columns.map (term cat))
      (i.columns.map (termWords cat d)) := by
    rw [List.forall₂_map_left_iff, List.forall₂_map_right_iff, List.forall₂_same]
    intro v hv
    obtain ⟨id, hid, -⟩ := h.owned v hv
    exact spells_term hd hq hid
  have hname : ∀ s, (nameDraft s).Spells cat host (d.word s) := Draft.spells_nameDraft hd hq
  have hopening := (((Draft.spells_text (if i.unique then "CREATE UNIQUE INDEX "
    else "CREATE INDEX ")).plus (hname i.name)).plus (Draft.spells_text " ON ")).plus
      (hname (cat.table t).name)
  rw [draft, target_eq_ok_iff.2 h]
  exact ((hopening.plus (Draft.spells_text " (")).plus (.commaSeparated hterms)).plus
    (Draft.spells_text ")")

end Spelled

/-- What an index compiles to, and when. The name of its table does not matter. -/
theorem compileInlined_eq_ok_iff (hd : d.WritesText) {sql : Value} :
    compileInlined cat d ((Value.index i).built cat d.engine) = .ok sql ↔
      ∃ t, i.IsOn cat t ∧ sql = .text (i.spelled cat d t) := by
  rw [built_eq_draft]
  have hwritten := fun t (h : i.IsOn cat t) =>
    (spells_draft hd (Host.quotesAs_inlining cat d 0) h).compileInlined
  constructor
  · intro h
    obtain ⟨t, ht, -⟩ := (yields_of_compileInlined h).given
    have hon := target_eq_ok_iff.1 ht
    exact ⟨t, hon, Except.ok.inj (h.symm.trans (hwritten t hon))⟩
  · rintro ⟨t, hon, rfl⟩
    exact hwritten t hon

end Index

end SqlCompose
