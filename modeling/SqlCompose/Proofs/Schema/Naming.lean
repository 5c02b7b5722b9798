import SqlCompose.Proofs.Render.Naming

/-!
# The columns that keys and indexes name

The keys of a table name its columns by text, and a foreign key refers to columns of one other table
or of the table itself. An index orders by columns of one table. Where they are written, all of them
have been checked against the table.
-/
namespace SqlCompose

variable {cat : Catalog} {d : Dialect} {host : Host} {t : TableId}

theorem unknownName?_eq_none_iff {known names : List String} :
    unknownName? known names = none ↔ ∀ name ∈ names, name ∈ known := by
  simp [unknownName?, List.find?_eq_none]

/-- Names of columns that a table lists. -/
theorem namesListed_of_quotes {names words : List String}
    (hn : ∀ name ∈ names, name ∈ cat.columnNames t)
    (hw : List.Forall₂ (d.Quotes cat) names words) :
    List.Forall₂ (d.NamesListed cat t) names words := (List.forall₂_and_left _ _).2 ⟨hn, hw⟩

theorem exists_of_forall₂_append {α β : Type} {R : α → β → Prop} {xs ys : List α} {zs : List β}
    (h : List.Forall₂ R (xs ++ ys) zs) :
    ∃ us ws, List.Forall₂ R xs us ∧ List.Forall₂ R ys ws ∧ us ++ ws = zs :=
  ⟨zs.take xs.length, zs.drop xs.length, (List.forall₂_take_append _ _ _ h.flip).flip,
    (List.forall₂_drop_append _ _ _ h.flip).flip, List.take_append_drop ..⟩

/-! ## Keys -/

namespace ForeignKey

variable {key : ForeignKey}

/-- Whether a FOREIGN KEY clause names columns of its table and columns of the table that it refers
to. -/
def WrittenFor (cat : Catalog) (d : Dialect) (t : TableId) (key : ForeignKey) (s : String) : Prop :=
  ∃ u columns word targets rest, List.Forall₂ (d.NamesListed cat t) key.columns columns ∧
    d.Quotes cat (cat.table u).name word ∧
    List.Forall₂ (d.NamesColumn cat u) key.targets targets ∧
    s = "FOREIGN KEY (" ++ ", ".intercalate columns ++ ") REFERENCES " ++ word ++ " ("
      ++ ", ".intercalate targets ++ ")" ++ rest

theorem listed_of_checkColumns (h : key.checkColumns cat (.table t) = .ok ()) :
    ∀ name ∈ key.columns, name ∈ cat.columnNames t := by
  unfold checkColumns at h
  split at h
  · cases h
  · obtain ⟨names, hnames, h⟩ := Except.bind_eq_ok_iff.1 h
    obtain ⟨known, hitems, h⟩ := Except.bind_eq_ok_iff.1 h
    obtain rfl := Except.ok.inj hnames
    obtain rfl := Except.ok.inj hitems
    have hknown : ((cat.columnNames t).map Value.text).filterMap Value.text? = cat.columnNames t := by
      simp [List.filterMap_map, Function.comp_def, Value.text?, Value.text]
    rw [hknown] at h
    cases hunknown : unknownName? (cat.columnNames t) key.columns with
    | none => exact unknownName?_eq_none_iff.1 hunknown
    | some name =>
      rw [hunknown] at h
      cases h

theorem owner_of_target {u : TableId} (h : key.target cat = .ok u) :
    ∀ id ∈ key.targets, cat.owner id = some u := by
  unfold target at h
  split at h
  · rename_i first others htargets
    split at h
    · rename_i hall
      obtain rfl := Except.ok.inj h
      have howners : ∀ owner ∈ key.targets.map cat.owner, owner = some first := by
        rw [htargets]
        simpa using hall
      exact fun id hid => howners _ (List.mem_map_of_mem hid)
    · cases h
  · cases h

end ForeignKey

/-- Whether the columns of a table are named in its PRIMARY KEY clause, if it has one. -/
def Catalog.PrimaryKeyAs (cat : Catalog) (d : Dialect) (t : TableId) (clauses : List String) : Prop :=
  if (cat.table t).primaryKey = [] then clauses = []
  else ∃ words, List.Forall₂ (d.NamesListed cat t) (cat.table t).primaryKey words ∧
    clauses = ["PRIMARY KEY (" ++ ", ".intercalate words ++ ")"]

/-- Whether the creation of a table comes out with its keys behind the definitions of its columns, and
they name columns of the tables that they are about. -/
def Catalog.KeysNameColumns (cat : Catalog) (d : Dialect) (t : TableId) (ifNotExists : Bool)
    (sql : Value) : Prop :=
  ∃ definitions primary foreign, definitions.length = (cat.table t).columns.length ∧
    cat.PrimaryKeyAs d t primary ∧
    List.Forall₂ (ForeignKey.WrittenFor cat d t) (cat.table t).foreignKeys foreign ∧
    ∀ s, sql = .text s → ∃ word, d.Quotes cat (cat.table t).name word ∧
      s = "CREATE TABLE " ++ (if ifNotExists then "IF NOT EXISTS " else "") ++ word ++ " ("
        ++ ", ".intercalate (definitions ++ primary ++ foreign) ++ ")"

theorem listed_of_checkPrimaryKey (h : checkPrimaryKey cat t = .ok ()) :
    ∀ name ∈ (cat.table t).primaryKey, name ∈ cat.columnNames t := by
  unfold checkPrimaryKey at h
  simp only at h
  split at h
  · cases h
  · cases hunknown : unknownName? (cat.columnNames t) (cat.table t).primaryKey with
    | none => exact unknownName?_eq_none_iff.1 hunknown
    | some name =>
      rw [hunknown] at h
      cases h

section Sound

variable (hs : cat.Sound) (hd : host.QuotesAs cat d)
include hs hd

/-- A FOREIGN KEY clause. -/
theorem ForeignKey.writtenFor_of_definition {key : ForeignKey} {s : String}
    (h : (key.definition cat (.table t)).Yields cat host (.text s)) : key.WrittenFor cat d t s := by
  obtain ⟨hcheck, h⟩ := h.guarded
  obtain ⟨u, hu, h⟩ := h.given
  obtain ⟨clause, hclause, hstart⟩ := h.continued
  obtain ⟨front, word, targets, hfront, hword, htargets, htext⟩ := Draft.Yields.nameWithList hd hclause
  obtain ⟨list, hlist, hlisted⟩ := hfront.between
  obtain ⟨columns, hcolumns, rfl⟩ := Draft.Yields.names hd (f := id) hlist
  refine ⟨u, columns, word, targets, ?_⟩
  obtain ⟨a, rest, rfl, rfl⟩ := hstart s rfl
  obtain ⟨b, rfl, rfl⟩ := htext a rfl
  obtain ⟨c, hc, rfl⟩ := hlisted b rfl
  obtain rfl := Value.text_inj hc
  refine ⟨rest, namesListed_of_quotes (listed_of_checkColumns hcheck) hcolumns, hword, ?_, rfl⟩
  refine ((List.forall₂_and_left _ _).2 ⟨owner_of_target hu, htargets⟩).imp ?_
  rintro id word ⟨ho, hname⟩
  obtain ⟨own, hown, hnamed⟩ := exists_of_columnName hs hd ho hname
  obtain rfl := Value.text_inj hown
  exact hnamed

omit hs in
/-- The PRIMARY KEY clause. -/
theorem primaryKeyAs_of_drafts {clauses : List String}
    (h : List.Forall₂ (fun x s => x.Yields cat host (.text s)) (primaryKeyDraft cat t) clauses) :
    cat.PrimaryKeyAs d t clauses := by
  unfold Catalog.PrimaryKeyAs
  simp only [primaryKeyDraft] at h
  split at h
  · rename_i hempty
    rw [if_pos (List.isEmpty_iff.1 hempty)]
    cases h
    rfl
  · rename_i hne
    rw [if_neg (by simpa using hne)]
    obtain ⟨s, rest, hclause, hrest, rfl⟩ := List.forall₂_cons_left_iff.1 h
    obtain rfl := List.forall₂_nil_left_iff.1 hrest
    obtain ⟨hcheck, hclause⟩ := hclause.guarded
    obtain ⟨lead, list, hlead, hlist, hjoin⟩ := Draft.Yields.plus hclause
    obtain ⟨inner, hinner, htext⟩ := hlist.between
    obtain ⟨words, hwords, rfl⟩ := Draft.Yields.names hd (f := id) hinner
    obtain rfl := hlead.token
    obtain ⟨a, ha, rfl⟩ := hjoin.behind rfl
    obtain ⟨b, hb, rfl⟩ := htext a ha
    obtain rfl := Value.text_inj hb
    have hopening : "PRIMARY KEY (" = "PRIMARY KEY " ++ "(" := rfl
    exact ⟨words, namesListed_of_quotes (listed_of_checkPrimaryKey hcheck) hwords, by
      rw [hopening, String.append_assoc, String.append_assoc, String.append_assoc]
      rfl⟩

/-- The columns that the keys of a created table name are columns of the table, and those that they
refer to are columns of one table each. -/
theorem keysNameColumns_of_createTableDraft {e : Engine} {ifNotExists : Bool} {v : Value}
    (h : (createTableDraft cat e t ifNotExists).Yields cat host v) :
    cat.KeysNameColumns d t ifNotExists v := by
  simp only [createTableDraft] at h
  split at h
  · exact absurd h (Draft.not_yields_fail _)
  · split at h
    · exact absurd h (Draft.not_yields_fail _)
    · obtain ⟨texts, front, close, htexts, hfront, hclose, hframe⟩ := h.framed
      obtain ⟨name, hname, hopened⟩ := hfront.between
      obtain ⟨word, rfl, hword⟩ := Draft.Yields.nameDraft hd hname
      obtain rfl := hclose.token
      obtain ⟨front, foreign, hfront, hforeign, rfl⟩ := exists_of_forall₂_append htexts
      obtain ⟨definitions, primary, hdefinitions, hprimary, rfl⟩ := exists_of_forall₂_append hfront
      refine ⟨definitions, primary, foreign, ?_, primaryKeyAs_of_drafts hd hprimary, ?_, ?_⟩
      · simpa using hdefinitions.length_eq.symm
      · exact (List.forall₂_map_left_iff.1 hforeign).imp
          fun key s hs' => ForeignKey.writtenFor_of_definition hs hd hs'
      · intro s hs
        obtain ⟨a, b, ha, hb, rfl⟩ := hframe s hs
        obtain rfl := Value.text_inj hb
        obtain ⟨own, hown, rfl⟩ := hopened a ha
        obtain rfl := Value.text_inj hown
        exact ⟨word, hword, by simp [Token.spelling, String.append_assoc]⟩

/-! ## Indexes -/

namespace Index

variable {i : Index}

/-- Whether a term of an index names a column that belongs to a table. -/
def Names (cat : Catalog) (d : Dialect) (t : TableId) (v : Value) (s : String) : Prop :=
  ∃ id word, columnOf v = .ok id ∧ d.NamesColumn cat t id word ∧
    (s = word ∨ s = word ++ " ASC" ∨ s = word ++ " DESC")

/-- Whether the creation of an index comes out with names of columns of the table that it is on. -/
def NamesOwnColumns (cat : Catalog) (d : Dialect) (i : Index) (sql : Value) : Prop :=
  ∃ t terms, (∀ u, i.table = some u → u = t) ∧ List.Forall₂ (Names cat d t) i.columns terms ∧
    ∀ s, sql = .text s → ∃ name table, d.Quotes cat i.name name ∧
      d.Quotes cat (cat.table t).name table ∧
      s = (if i.unique then "CREATE UNIQUE INDEX " else "CREATE INDEX ") ++ name ++ " ON " ++ table
        ++ " (" ++ ", ".intercalate terms ++ ")"

omit hs hd in
/-- The columns of an index belong to its table. -/
theorem exists_of_target (h : i.target cat = .ok t) :
    (∀ u, i.table = some u → u = t) ∧
      ∀ v ∈ i.columns, ∃ id, columnOf v = .ok id ∧ cat.owner id = some t := by
  have hname : i.name ≠ "" := by
    intro hname
    rw [target, if_pos hname] at h
    cases h
  have hcolumns : ¬i.columns.isEmpty := by
    intro hcolumns
    rw [target, if_neg hname, if_pos hcolumns] at h
    cases h
  simp only [target, if_neg hname, if_neg hcolumns] at h
  obtain ⟨ids, hids, h⟩ := Except.bind_eq_ok_iff.1 h
  cases htarget : target? cat i.table ids with
  | none =>
    rw [htarget] at h
    cases h
  | some u =>
    simp only [htarget] at h
    cases hstranger : stranger? cat u ids with
    | some id =>
      rw [hstranger] at h
      cases h
    | none =>
      rw [hstranger] at h
      obtain rfl := Except.ok.inj h
      refine ⟨fun w hw => ?_, fun v hv => ?_⟩
      · rw [target?, hw] at htarget
        exact Option.some.inj htarget
      · obtain ⟨id, hid, hcolumn⟩ := Except.exists_mem_of_mapM hids v hv
        have howned := List.find?_eq_none.1 hstranger id hid
        exact ⟨id, hcolumn, by simpa using howned⟩

omit hs hd in
theorem built_eq_draft (i : Index) (e : Engine) : (Value.index i).built cat e = i.draft cat := by
  cases i
  rfl

/-- A term of an index. -/
theorem names_of_term {v : Value} {id : ColumnId} {s : String} (hid : columnOf v = .ok id)
    (ho : cat.owner id = some t) (h : (term cat v).Yields cat host (.text s)) : Names cat d t v s := by
  unfold columnOf at hid
  split at hid
  · obtain rfl := Except.ok.inj hid
    obtain ⟨word, hword, hnamed⟩ := exists_of_columnName hs hd ho h
    exact ⟨_, word, rfl, hnamed, .inl (Value.text_inj hword)⟩
  · rename_i descending
    obtain rfl := Except.ok.inj hid
    obtain ⟨shown, direction, hshown, hdirection, hjoin⟩ := Draft.Yields.plus h
    obtain ⟨u, label, hu, hlabel, rfl⟩ := hshown.shown
    obtain ⟨word, rfl, hnamed⟩ := exists_of_columnName hs hd ho hu
    obtain rfl := hdirection.token
    obtain rfl := Except.ok.inj hlabel
    obtain ⟨a, ha, rfl⟩ := hjoin.before rfl
    obtain rfl := Value.text_inj ha
    refine ⟨_, word, rfl, hnamed, .inr ?_⟩
    cases descending
    · exact .inl rfl
    · exact .inr rfl
  · cases hid

/-- The columns of a created index are columns of its table. -/
theorem namesOwnColumns_of_built {e : Engine} {v : Value}
    (h : ((Value.index i).built cat e).Yields cat host v) : i.NamesOwnColumns cat d v := by
  rw [built_eq_draft] at h
  obtain ⟨t, ht, h⟩ := h.given
  obtain ⟨htable, howners⟩ := exists_of_target ht
  obtain ⟨front, table, terms, hfront, hquoted, hterms, htext⟩ := Draft.Yields.nameWithList hd h
  obtain ⟨own, hown, hlead⟩ := hfront.between
  obtain ⟨name, rfl, hname⟩ := Draft.Yields.nameDraft hd hown
  refine ⟨t, terms, htable, ?_, fun s hs => ?_⟩
  · refine ((List.forall₂_and_left _ _).2 ⟨howners, hterms⟩).imp ?_
    rintro v s ⟨⟨id, hid, ho⟩, hterm⟩
    exact names_of_term hs hd hid ho hterm
  · obtain ⟨a, ha, rfl⟩ := htext s hs
    obtain ⟨b, hb, rfl⟩ := hlead a ha
    obtain rfl := Value.text_inj hb
    exact ⟨name, table, hname, hquoted, rfl⟩

end Index

end Sound

end SqlCompose
