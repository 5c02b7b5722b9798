import SqlCompose.Proofs.Expr.Occurrence
import SqlCompose.Proofs.Render.Select

/-!
# Sources of a SELECT

A SELECT that names no sources reads the tables of the columns among its fields, without those that
it joins. It is written with its fields, then with its sources if it has any, and with its JOIN
clauses behind them.
-/
namespace SqlCompose

variable {cat : Catalog} {d : Dialect} {q : Select} {ps : List Piece}

/-! ## Implied sources -/

/-- Whether tables are the sources that fields imply beside JOIN clauses: the owners of the columns
in the fields, without those that are joined, each once and in the order in which they are met. -/
structure Select.Implies (cat : Catalog) (fields : List Value) (joins : List Join)
    (tables : List TableId) : Prop where
  nodup : tables.Nodup
  mem_iff : ∀ t, t ∈ tables ↔ (∃ v ∈ fields, ∃ id, v.Reads id ∧ cat.owner id = some t) ∧
    ∀ j ∈ joins, j.source ≠ .table t
  ordered : tables.Pairwise fun t u =>
    (owners cat fields).idxOf t < (owners cat fields).idxOf u

theorem joinedSources_eq (joins : List Join) :
    joinedSources cat [] (.tuple (joins.map .join)) = .ok (.list (joins.map (·.source))) := by
  have hall : (joins.map Value.join).mapM (fun v => v.get cat "table")
      = .ok (joins.map (·.source)) := by
    induction joins with
    | nil => rfl
    | cons j joins ih =>
      have hget : (Value.join j).get cat "table" = .ok j.source := rfl
      simp [List.mapM_cons, hget, ih, bind, Except.bind, pure, Except.pure]
  have hitems : (Value.tuple (joins.map .join)).items cat = .ok (joins.map .join) := rfl
  rw [joinedSources, List.lookup_nil]
  simp only [hitems, bind, Except.bind, hall, pure, Except.pure]

theorem Value.table?_eq_some_iff {v : Value} {t : TableId} : v.table? = some t ↔ v = .table t := by
  cases v <;> simp [table?]

/-- The tables that fields imply. -/
theorem exists_inferredTables (cat : Catalog) (fields : List Value) (joins : List Join) : ∃ tables,
    inferredTables cat [] (.tuple fields) (.tuple (joins.map .join)) = .ok tables ∧
      Select.Implies cat fields joins tables := by
  have hitems : (Value.list (joins.map (·.source))).items cat = .ok (joins.map (·.source)) := rfl
  have himplied : impliedBy cat (.tuple fields) = .ok fields := rfl
  refine ⟨(owners cat fields).eraseDups.filter
    fun t => !((joins.map (·.source)).filterMap Value.table?).contains t, ?_, ?_⟩
  · simp only [inferredTables, joinedSources_eq, himplied, hitems, bind, Except.bind,
      collectTables_eq_eraseDups, pure, Except.pure]
    split
    · rename_i hempty
      rw [List.isEmpty_iff.1 hempty]
      rfl
    · rfl
  · refine ⟨(nodup_eraseDups _).filter _, fun t => ?_, (pairwise_eraseDups _).filter _⟩
    simp [List.mem_filter, List.mem_eraseDups, mem_owners_iff, Value.table?_eq_some_iff]

/-- The drafts of implied sources. -/
theorem sourceDrafts_of_inferred {fields joins : Drafted} {e : Engine} {tables : List TableId}
    (h : inferredTables cat [] fields.value joins.value = .ok tables) :
    sourceDrafts cat [] ((Value.tuple []).drafted cat e) fields joins
      = .ok (tables.map (tableDraft cat)) := by
  rw [sourceDrafts, List.lookup_nil, Value.value_drafted, h]
  rfl

/-! ## Clauses -/

/-- The pieces of a SELECT up to its JOIN clauses, clause by clause, and what stands behind them. -/
structure SelectPieces where
  distinct : Bool
  fields : List (List Piece)
  sources : List (List Piece)
  joins : List (List Piece)
  rest : List Piece

namespace SelectPieces

/-- The FROM clause, if there is a source. -/
def from? (p : SelectPieces) : List Piece :=
  if p.sources = [] then []
  else .token (.keyword .between "FROM") :: Piece.separated (.text ", ") p.sources

/-- All pieces, clause after clause. -/
def all (p : SelectPieces) : List Piece :=
  .token (.keyword .before "SELECT")
    :: ((if p.distinct then [.token (.text "DISTINCT ")] else [])
      ++ Piece.separated (.text ", ") p.fields ++ p.from? ++ p.joins.flatten ++ p.rest)

end SelectPieces

/-- Whether a JOIN clause is written with given pieces: its keyword, its source, and what it matches
on. -/
def Join.WrittenAs (cat : Catalog) (d : Dialect) (j : Join) (ps : List Piece) : Prop :=
  ∃ source condition, (j.source.drafted cat d.engine).source.pieces cat d = .ok source ∧
    ps = .token (.text " ") :: .token (.keyword .before (j.kind ++ " JOIN")) :: source ++ condition

/-- Whether the fields of a SELECT are written with given rows; without fields a SELECT takes whole
rows. -/
def Select.WritesFields (cat : Catalog) (d : Dialect) (fields : List Value)
    (rows : List (List Piece)) : Prop :=
  if fields = [] then rows = [[.token (.text "*")]]
  else List.Forall₂ (fun v row => (v.drafted cat d.engine).selected.pieces cat d = .ok row) fields rows

/-- A JOIN clause is written with its keyword and its source first. -/
theorem Join.writtenAs_of_pieces {j : Join}
    (hp : (Draft.text " " + ((Value.join j).drafted cat d.engine).built).pieces cat d = .ok ps) :
    j.WrittenAs cat d ps := by
  obtain ⟨kind, source, on, shared⟩ := j
  obtain ⟨blank, own, hblank, hown, rfl⟩ := Draft.pieces_plus_eq_ok.1 hp
  obtain rfl := Draft.eq_of_pieces_token hblank (by decide)
  have hbuilt : ((Value.join ⟨kind, source, on, shared⟩).drafted cat d.engine).built
      = joinDraft kind (source.drafted cat d.engine) (draftOptional cat d.engine on) shared := rfl
  rw [hbuilt, joinDraft, Draft.pieces_continued_eq_ok] at hown
  obtain ⟨front, rows, hfront, -, rfl⟩ := hown
  obtain ⟨keyword, ps, hkeyword, hps, rfl⟩ := Draft.pieces_plus_eq_ok.1 hfront
  obtain rfl := Draft.eq_of_pieces_token hkeyword (by simp)
  rw [Draft.pieces] at hps
  exact ⟨ps, rows.flatten, hps, by simp⟩

theorem Select.writesFields_of_pieces {fields : List Value} (hf : q.fields = .tuple fields)
    (hp : (q.parts cat d.engine).fieldList.pieces cat d = .ok ps) :
    ∃ rows, Select.WritesFields cat d fields rows ∧ ps = Piece.separated (.text ", ") rows := by
  have hvalue : (q.parts cat d.engine).fields = (Value.tuple fields).drafted cat d.engine :=
    congrArg (Value.drafted cat d.engine) hf
  rw [SelectParts.fieldList, hvalue, Drafted.listed, Drafted.items_tuple, Value.value_drafted] at hp
  unfold Select.WritesFields
  cases fields with
  | nil =>
    obtain rfl := Draft.eq_of_pieces_token hp (by decide)
    exact ⟨_, rfl, rfl⟩
  | cons v vs =>
    rw [if_pos (by rfl), Draft.given, List.map_map] at hp
    obtain ⟨rows, hrows, rfl⟩ := Draft.pieces_commaSeparated_eq_ok.1 hp
    exact ⟨rows, by rwa [if_neg (by simp)], rfl⟩

theorem flatten_of_distinctWord {distinct : Bool} {rows : List (List Piece)}
    (hp : Draft.piecesAll cat d (if distinct then [.text "DISTINCT "] else []) = .ok rows) :
    rows.flatten = if distinct then [.token (.text "DISTINCT ")] else [] := by
  cases distinct <;> (rw [Except.ok.inj hp.symm]; rfl)

/-- The FROM clause has a row for each source. -/
theorem exists_of_fromClause {items : List Draft} {rows : List (List Piece)}
    (hp : Draft.piecesAll cat d (if items.isEmpty then []
      else [Draft.keyword .between "FROM" + .commaSeparated items]) = .ok rows) :
    ∃ sources, Draft.piecesAll cat d items = .ok sources ∧
      rows.flatten = if sources = [] then []
        else .token (.keyword .between "FROM") :: Piece.separated (.text ", ") sources := by
  cases items with
  | nil =>
    obtain rfl : rows = [] := (Except.ok.inj hp).symm
    exact ⟨[], rfl, rfl⟩
  | cons x items =>
    rw [if_neg (by simp)] at hp
    obtain ⟨ps, hps, rfl⟩ := Draft.piecesAll_singleton_eq_ok.1 hp
    obtain ⟨keyword, list, hkeyword, hlist, rfl⟩ := Draft.pieces_plus_eq_ok.1 hps
    obtain rfl := Draft.eq_of_pieces_token hkeyword (by decide)
    obtain ⟨sources, hsources, rfl⟩ := Draft.pieces_row_eq_ok.1 hlist
    have hne : sources ≠ [] := by
      obtain ⟨_, _, -, -, rfl⟩ := Draft.piecesAll_cons_eq_ok.1 hsources
      simp
    exact ⟨sources, hsources, by simp [hne]⟩

/-- A SELECT is written clause by clause, and has a field or a source. -/
theorem Select.exists_clauses (hx : q.extras = []) {fields : List Value} {joins : List Join}
    (hf : q.fields = .tuple fields) (hj : q.joins = .tuple (joins.map .join))
    (hp : ((Value.select q).built cat d.engine).pieces cat d = .ok ps) :
    ∃ (items : List Draft) (p : SelectPieces), ps = p.all ∧ p.distinct = q.distinct.truthy ∧
      sourceDrafts cat [] (q.sources.drafted cat d.engine) (q.fields.drafted cat d.engine)
        (q.joins.drafted cat d.engine) = .ok items ∧
      Draft.piecesAll cat d items = .ok p.sources ∧ (fields ≠ [] ∨ items ≠ []) ∧
      Select.WritesFields cat d fields p.fields ∧
      List.Forall₂ (Join.WrittenAs cat d) joins p.joins := by
  obtain ⟨own, rows, tail, hown, -, -, rfl⟩ := (pieces_built_eq_ok hx).1 hp
  have hextras : (q.parts cat d.engine).extras = [] := hx
  have hjoins : (q.parts cat d.engine).joins = (Value.tuple (joins.map .join)).drafted cat d.engine :=
    congrArg (Value.drafted cat d.engine) hj
  rw [SelectParts.core, hextras] at hown
  cases hs : sourceDrafts cat [] (q.parts cat d.engine).sources (q.parts cat d.engine).fields
      (q.parts cat d.engine).joins with
  | error e => simp [hs, Draft.given, Draft.pieces] at hown
  | ok items =>
    rw [hs, Draft.given] at hown
    split at hown
    · simp [Draft.pieces] at hown
    · rename_i hany
      obtain ⟨keyword, clauses, hkeyword, hclauses, rfl⟩ := Draft.pieces_continued_eq_ok.1 hown
      obtain rfl := Draft.eq_of_pieces_token hkeyword (by decide)
      rw [SelectParts.coreClauses] at hclauses
      simp only [List.append_assoc, Draft.piecesAll_append_eq_ok] at hclauses
      obtain ⟨head, -, hhead, ⟨row, -, hrow, ⟨source, -, hsource, ⟨joined, others, hjoined, -, rfl⟩,
        rfl⟩, rfl⟩, rfl⟩ := hclauses
      obtain ⟨list, hlist, rfl⟩ := Draft.piecesAll_singleton_eq_ok.1 hrow
      obtain ⟨fieldRows, hfields, rfl⟩ := writesFields_of_pieces hf hlist
      obtain ⟨sourceRows, hsources, hfrom⟩ := exists_of_fromClause hsource
      rw [hjoins, Drafted.each_tuple, List.map_map, Draft.piecesAll_map_eq_ok] at hjoined
      have hdistinct : head.flatten = if q.distinct.truthy then [.token (.text "DISTINCT ")] else [] :=
        flatten_of_distinctWord hhead
      refine ⟨items, ⟨q.distinct.truthy, fieldRows, sourceRows, joined,
        others.flatten ++ rows.flatten ++ tail⟩, ?_, rfl, hs, hsources, ?_, hfields,
        hjoined.imp fun _ _ => Join.writtenAs_of_pieces⟩
      · simp [SelectPieces.all, SelectPieces.from?, hdistinct, hfrom]
      · have hvalue : (q.parts cat d.engine).fields.value = .tuple fields := by
          rw [parts, hf, Value.value_drafted]
        rw [hvalue, List.isEmpty_iff] at hany
        by_contra hnone
        obtain ⟨rfl, rfl⟩ := not_or.1 hnone |>.imp not_not.1 not_not.1
        exact hany ⟨rfl, rfl⟩

end SqlCompose
