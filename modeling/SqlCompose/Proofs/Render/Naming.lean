import SqlCompose.Proofs.Catalog.Ownership
import SqlCompose.Proofs.Dialect.Quoting
import SqlCompose.Proofs.Render.Source

/-!
# The columns that INSERT and UPDATE name

Columns stand without a qualifier in the column list of an INSERT and in the assignments of an
UPDATE. What is drafted there may be anything, but it comes out only if it is a column of the table
of the statement.
-/
namespace SqlCompose

variable {cat : Catalog} {d : Dialect} {host : Host}

/-- Whether a word is the name of a column that a table lists. -/
def Dialect.NamesListed (cat : Catalog) (d : Dialect) (t : TableId) (name word : String) : Prop :=
  name ∈ cat.columnNames t ∧ d.Quotes cat name word

/-- Whether a word names a column that belongs to a table: the table owns it, and lists a column of
its name. -/
def Dialect.NamesColumn (cat : Catalog) (d : Dialect) (t : TableId) (id : ColumnId)
    (word : String) : Prop :=
  cat.owner id = some t ∧ d.NamesListed cat t (cat.column id).name word

/-- Whether a value is a column that a word names, and the table that it belongs to. -/
def Dialect.NamesOwn (cat : Catalog) (d : Dialect) (table v : Value) (word : String) : Prop :=
  ∃ t a id, table = .table t ∧ v = .expr (.column a id) ∧ d.NamesColumn cat t id word

/-- Whether the parts of a value, if it has any, are columns of a table that words name. -/
def Dialect.NamesAll (cat : Catalog) (d : Dialect) (table columns : Value) (words : List String) :
    Prop :=
  ∃ vs, columns.items cat = .ok vs ∧
    (columns.truthy = true → List.Forall₂ (d.NamesOwn cat table) vs words)

/-- The list of columns that an INSERT is written with, if it names some and has rows or a query. -/
def Insert.columnList (q : Insert) (words : List String) : String :=
  if q.columns.truthy && (q.rows.truthy || !q.query.isNone) then
    " (" ++ ", ".intercalate words ++ ")"
  else ""

/-- What an INSERT goes on with behind its columns: a query, its rows, or the words for no row. -/
def Insert.lead (e : Engine) (q : Insert) : String :=
  if !q.query.isNone then " "
  else if q.rows.truthy then " VALUES "
  else " " ++ e.emptyInsert

/-- Whether an INSERT comes out with names of columns of its table, and with no others in the list of
its columns. -/
def Insert.NamesOwnColumns (cat : Catalog) (d : Dialect) (q : Insert) (sql : Value) : Prop :=
  ∃ words, d.NamesAll cat q.table q.columns words ∧
    ∀ s, sql = .text s → ∃ table rest,
      (∀ t, q.table = .table t → d.Quotes cat (cat.table t).name table) ∧
      s = "INSERT INTO " ++ table ++ q.columnList words ++ q.lead d.engine ++ rest

/-- Whether a text stands for a table in a clause: it is the name, and the alias if there is one. -/
def Dialect.NamesTable (cat : Catalog) (d : Dialect) (table : Value) (s : String) : Prop :=
  ∀ t, table = .table t → ∃ word, d.Quotes cat (cat.table t).name word ∧
    (s = word ∨ ∃ asName, s = word ++ " AS " ++ asName)

/-- Whether an assignment of an UPDATE sets a column of its table, by its name. -/
def Update.Sets (cat : Catalog) (d : Dialect) (q : Update) (x : Drafted) (s : String) : Prop :=
  ∃ column w word value, x.pair = .ok (column, w) ∧ d.NamesOwn cat q.table column.value word ∧
    s = word ++ " = " ++ value

/-- Whether an UPDATE comes out with assignments to columns of its table. -/
def Update.NamesOwnColumns (cat : Catalog) (d : Dialect) (q : Update) (sql : Value) : Prop :=
  ∃ xs texts, (q.assignments.drafted cat d.engine).items = .ok xs ∧
    List.Forall₂ (q.Sets cat d) xs texts ∧
    ∀ s, sql = .text s → ∃ table rest, d.NamesTable cat q.table table ∧
      s = "UPDATE " ++ table ++ " SET " ++ ", ".intercalate texts ++ rest

/-! ## Drafted clauses -/

/-- The drafted clauses of an INSERT. -/
def Insert.parts (cat : Catalog) (e : Engine) (q : Insert) : InsertParts where
  table := q.table
  columns := q.columns
  rows := q.rows.drafted cat e
  query := q.query.drafted cat e
  returning := q.returning.drafted cat e

/-- The drafted clauses of an UPDATE. -/
def Update.parts (cat : Catalog) (e : Engine) (q : Update) : UpdateParts where
  filter := q.filter.drafted cat e
  table := q.table.drafted cat e
  assignments := q.assignments.drafted cat e
  returning := q.returning.drafted cat e
  extras := q.extras

theorem Insert.built_eq_draft {q : Insert} {e : Engine} (hx : q.extras.lookup "build" = none) :
    (Value.insert q).built cat e = (q.parts cat e).draft cat e := by
  obtain ⟨table, columns, rows, query, returning, extras⟩ := q
  have hnone : (Value.insert ⟨table, columns, rows, query, returning, extras⟩).extras.lookup "build"
    = none := hx
  rw [Value.built, Value.drafted, Insert.drafted, Drafted.ofStatement, hnone]
  rfl

theorem Update.built_eq_draft {q : Update} {e : Engine} (hx : q.extras.lookup "build" = none) :
    (Value.update q).built cat e = (q.parts cat e).draft cat e := by
  obtain ⟨filter, table, assignments, returning, extras⟩ := q
  have hnone : (Value.update ⟨filter, table, assignments, returning, extras⟩).extras.lookup "build"
    = none := hx
  rw [Value.built, Value.drafted, Update.drafted, Drafted.ofStatement, hnone]
  rfl

/-! ## Columns -/

theorem Value.isNone_eq_false_of_get {v w : Value} (h : v.get cat "name" = .ok w) :
    v.isNone = false := by
  unfold isNone
  split
  · cases h
  · rfl

/-- What a check of a column lets pass is a text or a column of the table. -/
theorem exists_of_ownColumn {table v w : Value} (hn : table.isNone = false)
    (h : ownColumn cat table v = .ok w) : (∃ s, v = .text s) ∨
      ∃ t a id, table = .table t ∧ v = .expr (.column a id) ∧ cat.owner id = some t := by
  unfold ownColumn at h
  split at h
  · exact .inl ⟨_, rfl⟩
  · rename_i a id
    rw [pure_bind] at h
    cases howned : isOwnedBy cat id table with
    | false =>
      rw [howned] at h
      exact absurd h (refused_ne_ok table _ w)
    | true =>
      refine .inr ?_
      unfold isOwnedBy at howned
      split at howned
      · rename_i t ho
        exact ⟨t, a, id, Value.table?_eq_some_iff.1 (by simpa using howned), rfl, ho⟩
      · rw [hn] at howned
        cases howned
  · exact absurd h (refused_ne_ok table _ w)

section Sound

variable (hs : cat.Sound) (hd : host.QuotesAs cat d)
include hs hd

/-- A column that a table owns comes out as its name. -/
theorem exists_of_columnName {t : TableId} {id : ColumnId} {u : Value} (ho : cat.owner id = some t)
    (h : (columnName cat id).Yields cat host u) :
    ∃ word, u = .text word ∧ d.NamesColumn cat t id word := by
  obtain ⟨word, hu, hword⟩ := Draft.Yields.nameDraft hd h
  exact ⟨word, hu, ho, hs.named id t ho, hword⟩

/-- A column that was checked comes out as its name. -/
theorem namesOwn_of_bareColumn {table v w u : Value} (hn : table.isNone = false)
    (hown : ownColumn cat table v = .ok w) (h : (bareColumn cat v).Yields cat host u) :
    ∃ word, u = .text word ∧ d.NamesOwn cat table v word := by
  rcases exists_of_ownColumn hn hown with ⟨s, rfl⟩ | ⟨t, a, id, rfl, rfl, ho⟩
  · have hmember : (Draft.member (.text s) "build_index").Yields cat host u := h
    obtain ⟨f, hf⟩ := hmember.member
    cases hf
  · obtain ⟨word, hu, hnamed⟩ := exists_of_columnName hs hd ho h
    exact ⟨word, hu, t, a, id, rfl, rfl, hnamed⟩

/-- The column list of an INSERT, if it names columns. -/
theorem exists_of_columnsDraft {table columns u : Value} (hn : table.isNone = false)
    (hcheck : checkOwned cat table columns = .ok ())
    (h : (columnsDraft cat columns).Yields cat host u) :
    ∃ words, d.NamesAll cat table columns words ∧
      ∀ s, u = .text s → s = if columns.truthy then " (" ++ ", ".intercalate words ++ ")" else "" := by
  obtain ⟨vs, hvs, -⟩ := Except.bind_eq_ok_iff.1 hcheck
  rw [columnsDraft, hvs] at h
  cases hc : columns.truthy with
  | false =>
    simp only [hc, Bool.not_false, if_true] at h
    obtain rfl := h.token
    exact ⟨[], ⟨vs, hvs, by simp [hc]⟩, fun s hs => (Value.text_inj hs).symm⟩
  | true =>
    simp only [hc, Bool.not_true, Bool.false_eq_true, if_false, Draft.given] at h
    obtain ⟨list, hlist, htext⟩ := h.between
    obtain ⟨words, hwords, rfl⟩ := hlist.commaSeparated
    refine ⟨words, ⟨vs, hvs, fun _ => ?_⟩, fun s hu => ?_⟩
    · refine ((List.forall₂_and_left _ _).2 ⟨ownColumn_of_checkOwned hcheck hvs, hwords⟩).imp ?_
      rintro v word ⟨⟨w, hw⟩, hword⟩
      obtain ⟨own, hown, hnamed⟩ := namesOwn_of_bareColumn hs hd hn hw hword
      obtain rfl := Value.text_inj hown
      exact hnamed
    · obtain ⟨t, ht, rfl⟩ := htext s hu
      obtain rfl := Value.text_inj ht
      rfl

/-! ## INSERT -/

/-- The column list of an INSERT with what goes on behind it. -/
theorem exists_of_columns_led {table columns u : Value} {lead : Token} {body : Draft}
    (hn : table.isNone = false) (hcheck : checkOwned cat table columns = .ok ())
    (h : (columnsDraft cat columns + .token lead + body).Yields cat host u) :
    ∃ words, d.NamesAll cat table columns words ∧
      ∀ s, u = .text s → ∃ rest, s = (if columns.truthy then " (" ++ ", ".intercalate words ++ ")"
        else "") ++ lead.spelling ++ rest := by
  obtain ⟨front, last, hfront, -, hjoin⟩ := Draft.Yields.plus h
  obtain ⟨list, word, hlist, hword, hjoined⟩ := Draft.Yields.plus hfront
  obtain rfl := hword.token
  obtain ⟨words, hwords, htext⟩ := exists_of_columnsDraft hs hd hn hcheck hlist
  refine ⟨words, hwords, fun s hs => ?_⟩
  obtain ⟨a, rest, hfront, -, rfl⟩ := hjoin s hs
  obtain ⟨b, hb, rfl⟩ := hjoined.before hfront
  exact ⟨rest, by rw [htext b hb]⟩

variable {e : Engine} {v : Value}

namespace Insert

variable {q : Insert}

/-- What stands behind the name of the table of an INSERT. -/
theorem exists_of_content (hn : q.table.isNone = false)
    (hcheck : checkOwned cat q.table q.columns = .ok ())
    (h : ((q.parts cat e).content cat e).Yields cat host v) :
    ∃ words, d.NamesAll cat q.table q.columns words ∧
      ∀ s, v = .text s → ∃ rest, s = q.columnList words ++ q.lead e ++ rest := by
  rw [InsertParts.content, parts] at h
  simp only [Value.value_drafted] at h
  unfold columnList lead
  cases hq : q.query.isNone with
  | false =>
    cases hr : q.rows.truthy with
    | false =>
      simp only [hq, hr, Bool.not_false, if_true, Bool.false_eq_true, if_false] at h
      simpa [Token.spelling, Fixity.spell] using exists_of_columns_led hs hd hn hcheck h
    | true =>
      simp only [hq, hr, Bool.not_false, if_true] at h
      exact absurd (Draft.Yields.before h).2 (Draft.not_yields_fail _)
  | true =>
    cases hr : q.rows.truthy with
    | false =>
      simp only [hq, hr, Bool.not_true, Bool.false_eq_true, if_false] at h
      obtain ⟨⟨list, hlist⟩, hempty⟩ := Draft.Yields.before h
      obtain rfl := (Draft.Yields.before hempty).2.token
      obtain ⟨words, hwords, -⟩ := exists_of_columnsDraft hs hd hn hcheck hlist
      exact ⟨words, hwords, fun s hs => ⟨"", by simp [← Value.text_inj hs, Token.spelling]⟩⟩
    | true =>
      simp only [hq, hr, Bool.not_true, Bool.false_eq_true, if_false, if_true] at h
      simpa [Token.spelling, Fixity.spell] using exists_of_columns_led hs hd hn hcheck h

/-- The columns that an INSERT names are columns of its table. -/
theorem namesOwnColumns_of_built (hx : q.extras.lookup "build" = none)
    (h : ((Value.insert q).built cat d.engine).Yields cat host v) : q.NamesOwnColumns cat d v := by
  rw [built_eq_draft hx, InsertParts.draft] at h
  obtain ⟨name, hname, h⟩ := h.given
  split at h
  · exact absurd h (Draft.not_yields_fail _)
  · obtain ⟨hcheck, h⟩ := h.guarded
    have hn : q.table.isNone = false := Value.isNone_eq_false_of_get hname
    obtain ⟨front, last, hfront, -, hjoin⟩ := Draft.Yields.plus h
    obtain ⟨start, content, hstart, hcontent, hjoined⟩ := Draft.Yields.extend hfront
    obtain ⟨keyword, word, hkeyword, hword, hnamed⟩ := Draft.Yields.plus hstart
    obtain rfl := hkeyword.token
    obtain ⟨words, hwords, htext⟩ := exists_of_content hs hd hn hcheck hcontent
    refine ⟨words, hwords, fun s hs => ?_⟩
    obtain ⟨a, rest, hfront, -, rfl⟩ := hjoin s hs
    obtain ⟨b, c, hstart, hcontent, rfl⟩ := hjoined a hfront
    obtain ⟨table, htable, rfl⟩ := hnamed.behind hstart
    obtain ⟨more, rfl⟩ := htext c hcontent
    refine ⟨table, more ++ rest, fun t ht => ?_, by
      simp [Token.spelling, Fixity.spell, String.append_assoc]⟩
    have hown : q.table.get cat "name" = .ok (.text (cat.table t).name) := by
      rw [ht]
      rfl
    obtain rfl := Except.ok.inj (hown.symm.trans hname)
    exact (hd _).symm.trans (htable ▸ hword.name)

end Insert

/-! ## UPDATE -/

omit hs in
/-- What stands for the table of a statement. -/
theorem namesTable_of_built {table : Value} (h : (table.drafted cat e).built.Yields cat host v) :
    table.isNone = false ∧ ∀ s, v = .text s → d.NamesTable cat table s := by
  constructor
  · unfold Value.isNone
    split
    · have hmember : (Draft.member .none "build").Yields cat host v := h
      obtain ⟨f, hf⟩ := hmember.member
      cases hf
    · rfl
  · rintro s rfl t rfl
    have htable : (tableDraft cat t).Yields cat host (.text s) := h
    simp only [tableDraft] at htable
    split at htable
    · exact absurd htable (Draft.not_yields_fail _)
    · obtain ⟨word, hword, hs⟩ := htable.named
      obtain ⟨own, hown, hquoted⟩ := Draft.Yields.nameDraft hd hword
      obtain rfl := Value.text_inj hown
      exact ⟨word, hquoted, hs⟩

namespace Update

variable {q : Update}

omit hs hd in
theorem checkAssignment_of_checkAssignments {table : Value} {x : Drafted}
    (h : checkAssignments cat table x = .ok ()) {xs : List Drafted} (hxs : x.items = .ok xs) :
    ∀ y ∈ xs, checkAssignment cat table y = .ok () := by
  obtain ⟨ys, hys, hrest⟩ := Except.bind_eq_ok_iff.1 h
  obtain rfl := Except.ok.inj (hxs.symm.trans hys)
  obtain ⟨u, hu, -⟩ := Except.bind_eq_ok_iff.1 hrest
  exact forall_of_forIn hu

/-- An assignment sets a column of the table, by its name. -/
theorem sets_of_assignmentDraft {x : Drafted} {s : String} (hn : q.table.isNone = false)
    (hcheck : checkAssignment cat q.table x = .ok ())
    (h : (assignmentDraft cat x).Yields cat host (.text s)) : q.Sets cat d x s := by
  obtain ⟨⟨column, w⟩, hpair, h⟩ := h.given
  obtain ⟨name, hname, h⟩ := h.given
  have hown : ∃ u, ownColumn cat q.table column.value = .ok u := by
    obtain ⟨pair, hp, hcheck⟩ := Except.bind_eq_ok_iff.1 hcheck
    obtain rfl := Except.ok.inj (hpair.symm.trans hp)
    exact Except.discard_eq_ok_iff.1 hcheck
  obtain ⟨u, hown⟩ := hown
  obtain ⟨front, last, hfront, -, hjoin⟩ := Draft.Yields.plus h
  obtain ⟨word, equals, hword, hequals, hjoined⟩ := Draft.Yields.plus hfront
  obtain rfl := hequals.token
  obtain ⟨a, value, hfront, -, rfl⟩ := hjoin s rfl
  obtain ⟨own, rfl, rfl⟩ := hjoined.before hfront
  rcases exists_of_ownColumn hn hown with ⟨s, htext⟩ | ⟨t, asName, id, ht, hcolumn, ho⟩
  · rw [htext] at hname
    cases hname
  · rw [hcolumn] at hname
    obtain rfl := Except.ok.inj hname
    exact ⟨column, w, own, value, hpair, ⟨t, asName, id, ht, hcolumn, ho, hs.named id t ho,
      (hd _).symm.trans hword.name⟩, rfl⟩

/-- The columns that an UPDATE sets are columns of its table. -/
theorem namesOwnColumns_of_built (hx : q.extras.lookup "build" = none)
    (h : ((Value.update q).built cat d.engine).Yields cat host v) : q.NamesOwnColumns cat d v := by
  rw [built_eq_draft hx, UpdateParts.draft] at h
  split at h
  · exact absurd h (Draft.not_yields_fail _)
  · obtain ⟨hcheck, h⟩ := h.guarded
    simp only [parts, Value.value_drafted] at hcheck h
    obtain ⟨clauses, _, hclauses, -, hjoin⟩ := Draft.Yields.plus h
    obtain ⟨front, _, hfront, -, hjoined⟩ := Draft.Yields.extend hclauses
    obtain ⟨start, list, hstart, hlist, hset⟩ := Draft.Yields.extend hfront
    obtain ⟨u, hu, htext⟩ := hstart.between
    obtain ⟨xs, hxs, hlist⟩ := hlist.given
    obtain ⟨texts, htexts, rfl⟩ := hlist.commaSeparated
    obtain ⟨hn, hnamed⟩ := namesTable_of_built hd hu
    have hsets : List.Forall₂ (q.Sets cat d) xs texts :=
      ((List.forall₂_and_left _ _).2 ⟨checkAssignment_of_checkAssignments hcheck hxs, htexts⟩).imp
        fun x s hx => sets_of_assignmentDraft hs hd hn hx.1 hx.2
    refine ⟨xs, texts, hxs, hsets, fun s hs => ?_⟩
    obtain ⟨a, returned, hclauses, -, rfl⟩ := hjoin s hs
    obtain ⟨b, filter, hfront, -, rfl⟩ := hjoined a hclauses
    obtain ⟨c, hstart, rfl⟩ := hset.before hfront
    obtain ⟨table, rfl, rfl⟩ := htext c hstart
    exact ⟨table, filter ++ returned, hnamed table rfl, by
      simp [Token.spelling, Fixity.spell, String.append_assoc]⟩

end Update

end Sound

end SqlCompose
