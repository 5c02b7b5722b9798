import SqlCompose.Proofs.Compile.Union
import SqlCompose.Proofs.Render.Confined
import SqlCompose.Proofs.Render.Source
import SqlCompose.Proofs.Statement.Calls

/-!
# The sources of a compiled SELECT

The FROM clause of a SELECT that names no sources is enough for its fields: each column that is
written there belongs to a table of the FROM clause or of a JOIN clause. There is no FROM clause if
all these tables are joined, and then the first JOIN clause has nothing on its left.
-/
namespace SqlCompose

variable {cat : Catalog} {d : Dialect} {q : Select} {fields : List Value} {joins : List Join}

/-- Whether a field is an expression that is written with given pieces, in which every qualified
column outside of subqueries belongs to a table that is available. -/
def Value.WrittenFrom (cat : Catalog) (d : Dialect) (available : TableId → Prop) (v : Value)
    (row : List Piece) : Prop :=
  ∃ x, v = .expr x ∧ (x.selected cat d.engine).pieces cat d = .ok row ∧
    (x.selected cat d.engine).Confined cat (fun id => ∃ t, cat.owner id = some t ∧ available t)
      fun y => ∃ a body, (Expr.subquery a body).Within x ∧ y = body.built cat d.engine

/-- A field is written with the columns that occur in it. -/
theorem Value.writtenFrom_of_pieces {available : TableId → Prop} {v : Value} {row : List Piece}
    (hp : (v.drafted cat d.engine).selected.pieces cat d = .ok row)
    (h : ∀ id t, v.Reads id → cat.owner id = some t → available t) :
    v.WrittenFrom cat d available row := by
  obtain ⟨x, rfl, hselected⟩ := exists_expr_of_selected hp
  exact ⟨x, rfl, hselected, x.confined_selected fun a id t hid ht =>
    ⟨t, ht, h id t ⟨x, a, rfl, hid⟩ ht⟩⟩

/-- The sources of a SELECT that names none are the tables of the columns in its fields, without
those that it joins, each once and in the order in which they are met. If it compiles, its fields
are written with columns of these tables and of the joined ones. -/
theorem inferred_sources_cover_fields (hx : q.extras = []) (hs : q.sources = .tuple [])
    (hf : q.fields = .tuple fields) (hj : q.joins = .tuple (joins.map .join)) :
    ∃ tables, q.effectiveSources cat = .ok (.list (tables.map .table)) ∧
      Select.Implies cat fields joins tables ∧
      ∀ {d : Dialect} {c : Compiled}, d.WritesText → (Value.select q).WellFormed →
        compile cat d (.select q) = .ok c →
        ∃ (p : SelectPieces) (marks : List String),
          marks.length = (Piece.values p.all).length ∧
          c.sql = .text ((Template.ofPieces p.all).spelled marks) ∧
          List.Forall₂ (fun t row => (tableDraft cat t).pieces cat d = .ok row) tables p.sources ∧
          List.Forall₂ (Join.WrittenAs cat d) joins p.joins ∧
          List.Forall₂ (Value.WrittenFrom cat d fun t =>
            t ∈ tables ∨ ∃ j ∈ joins, j.source = .table t) fields p.fields := by
  obtain ⟨tables, htables, himplies⟩ := exists_inferredTables cat fields joins
  refine ⟨tables, ?_, himplies, fun {d c} hd hv hc => ?_⟩
  · rw [Select.effectiveSources, hx, List.lookup_nil, hs, hf, hj, htables]
    rfl
  · obtain ⟨ps, marks, hps, hlength, hsql⟩ := exists_pieces_of_compile hd hv hc
    obtain ⟨items, p, rfl, -, hitems, hsources, hany, hfields, hjoins⟩ :=
      Select.exists_clauses hx hf hj hps
    have hinferred : inferredTables cat [] (q.fields.drafted cat d.engine).value
        (q.joins.drafted cat d.engine).value = .ok tables := by
      simpa [hf, hj] using htables
    rw [hs, sourceDrafts_of_inferred hinferred, Except.ok.injEq] at hitems
    subst hitems
    have hne : fields ≠ [] := by
      rintro rfl
      obtain ⟨t, ht⟩ := List.exists_mem_of_ne_nil tables (by simpa using hany)
      obtain ⟨⟨v, hv, -⟩, -⟩ := (himplies.mem_iff t).1 ht
      simp at hv
    rw [Select.WritesFields, if_neg hne] at hfields
    have havailable : ∀ v ∈ fields, ∀ id t, v.Reads id → cat.owner id = some t →
        t ∈ tables ∨ ∃ j ∈ joins, j.source = .table t := by
      intro v hv id t hid ht
      by_cases hjoined : ∃ j ∈ joins, j.source = .table t
      · exact .inr hjoined
      · exact .inl ((himplies.mem_iff t).2 ⟨⟨v, hv, id, hid, ht⟩, by simpa using hjoined⟩)
    exact ⟨p, marks, hlength, hsql, Draft.piecesAll_map_eq_ok.1 hsources, hjoins,
      ((List.forall₂_and_left _ _).2 ⟨havailable, hfields⟩).imp
        fun v row hrow => Value.writtenFrom_of_pieces hrow.2 hrow.1⟩

/-- Fields of three tables. The first one occurs twice. -/
def Expr.ofThree : List Expr :=
  let column := fun i => Expr.column .none ⟨i⟩
  [column 1, .apply .none .binary "+" [column 0, column 2], column 1]

/-- A SELECT of three tables, the last of which it joins. -/
def Select.ofThree : Select :=
  { Select.empty with
    fields := .tuple (Expr.ofThree.map .expr)
    joins := .tuple ([({ kind := "CROSS", source := .table ⟨2⟩ } : Join)].map .join) }

/-- The table that is met first goes before the other one, and the joined one is not listed. -/
theorem inferred_sources_cover_fields_three :
    compile .threeTables default (.select .ofThree) = .ok ⟨.text
      "SELECT b.x, a.x + c.x, b.x FROM b, a CROSS JOIN c", []⟩ ∧
    Select.Implies .threeTables (Expr.ofThree.map .expr) [{ kind := "CROSS", source := .table ⟨2⟩ }]
      [⟨1⟩, ⟨0⟩] ∧
    ∃ p : SelectPieces, p.sources.length = 2 ∧ p.joins.length = 1 ∧
      List.Forall₂ (Value.WrittenFrom .threeTables default fun t => t ∈ [⟨1⟩, ⟨0⟩] ∨
        ∃ j ∈ [({ kind := "CROSS", source := .table ⟨2⟩ } : Join)], j.source = .table t)
        (Expr.ofThree.map .expr) p.fields := by
  have hcolumn : ∀ i, (Value.expr (.column .none ⟨i⟩)).WellFormed :=
    fun i => .column _ Value.isAlias_none
  have hfields : (Value.tuple (Expr.ofThree.map .expr)).WellFormed := by
    have hsum : (Value.expr (.apply .none .binary "+"
        [.column .none ⟨0⟩, .column .none ⟨2⟩])).WellFormed :=
      .apply _ _ Value.isAlias_none (by simp [hcolumn])
    simp [Value.wellFormed_tuple, Expr.ofThree, hcolumn, hsum]
  have hempty : (Value.tuple []).WellFormed := .sequence _ (by simp)
  have hv : (Value.select .ofThree).WellFormed :=
    .select Value.unhooked_nil (.plain rfl) hfields rfl hempty rfl
      (.sequence _ (by simpa using .join (.plain rfl) (by simp))) rfl hempty rfl (.plain rfl) hempty
      rfl hempty rfl
  have hc : compile .threeTables default (.select .ofThree) = .ok ⟨.text
      "SELECT b.x, a.x + c.x, b.x FROM b, a CROSS JOIN c", []⟩ := rfl
  obtain ⟨tables, heffective, himplies, hcompiled⟩ :=
    @inferred_sources_cover_fields .threeTables .ofThree _ _ rfl rfl rfl rfl
  have hlist : Except.ok (.list ([⟨1⟩, ⟨0⟩].map Value.table))
      = (.ok (.list (tables.map .table)) : Except Error Value) := heffective
  obtain rfl : [⟨1⟩, ⟨0⟩] = tables := List.map_injective_iff.2 (fun _ _ => Value.table.inj)
    (Value.sequence.inj (Except.ok.inj hlist)).2
  obtain ⟨p, marks, -, -, hsources, hjoins, hwritten⟩ := hcompiled ⟨rfl, rfl⟩ hv hc
  exact ⟨hc, himplies, p, hsources.length_eq.symm, hjoins.length_eq.symm, hwritten⟩

/-- The written sources of a SELECT are as many as those that it names, if it names any. -/
theorem sources_ne_nil_iff {sources : List Value} {rows : List (List Piece)} {items : List Draft}
    (hi : sourceDrafts cat [] ((Value.tuple sources).drafted cat d.engine)
      ((Value.tuple fields).drafted cat d.engine)
      ((Value.tuple (joins.map .join)).drafted cat d.engine) = .ok items)
    (hp : Draft.piecesAll cat d items = .ok rows) :
    rows ≠ [] ↔ sources ≠ [] ∨ ∃ v ∈ fields, ∃ id t, v.Reads id ∧ cat.owner id = some t ∧
      ∀ j ∈ joins, j.source ≠ .table t := by
  have hnone : ∀ {α : Type} {f : α → Draft} {xs : List α}, items = xs.map f →
      (rows ≠ [] ↔ xs ≠ []) := by
    rintro α f xs rfl
    have hlength := (Draft.piecesAll_map_eq_ok.1 hp).length_eq
    rw [← List.length_pos_iff, ← List.length_pos_iff, hlength]
  cases sources with
  | nil =>
    obtain ⟨tables, htables, himplies⟩ := exists_inferredTables cat fields joins
    rw [sourceDrafts_of_inferred (by simpa using htables), Except.ok.injEq] at hi
    rw [hnone hi.symm]
    constructor
    · intro hne
      obtain ⟨t, hmem⟩ := List.exists_mem_of_ne_nil tables hne
      obtain ⟨⟨v, hv, id, hid, ht⟩, hjoined⟩ := (himplies.mem_iff t).1 hmem
      exact .inr ⟨v, hv, id, t, hid, ht, hjoined⟩
    · rintro (h | ⟨v, hv, id, t, hid, ht, hjoined⟩)
      · exact absurd rfl h
      · exact List.ne_nil_of_mem ((himplies.mem_iff t).2 ⟨⟨v, hv, id, hid, ht⟩, hjoined⟩)
  | cons v vs =>
    have hitems : items = (v :: vs).map fun v => (v.drafted cat d.engine).source := by
      rw [sourceDrafts, List.lookup_nil, Drafted.items_tuple, Value.value_drafted] at hi
      exact (Except.ok.inj hi).symm.trans List.map_map
    simp [hnone hitems]

/-- A SELECT that joins compiles to a text with a FROM clause before its JOIN clauses if it names a
source or a column of a table that is not joined occurs in its fields, and only then. -/
theorem join_has_source_iff {calls : List (Catalog × SelectCall)}
    (hq : Select.built? calls = .ok q) (hd : d.WritesText) (hv : (Value.select q).WellFormed)
    {c : Compiled} (hc : compile cat d (.select q) = .ok c) :
    ∃ (sources fields : List Value) (joins : List Join) (p : SelectPieces) (marks : List String),
      q.sources = .tuple sources ∧ q.fields = .tuple fields ∧ q.joins = .tuple (joins.map .join) ∧
      marks.length = (Piece.values p.all).length ∧
      c.sql = .text ((Template.ofPieces p.all).spelled marks) ∧
      List.Forall₂ (Join.WrittenAs cat d) joins p.joins ∧
      (p.sources ≠ [] ↔ sources ≠ [] ∨ ∃ v ∈ fields, ∃ id t, v.Reads id ∧
        cat.owner id = some t ∧ ∀ j ∈ joins, j.source ≠ .table t) := by
  have hform := Select.formed_of_built? hq
  obtain ⟨sources, hsources, -⟩ := hform.sources
  obtain ⟨xs, hfields⟩ := hform.fields
  obtain ⟨joins, hjoins⟩ := hform.exists_joins
  have hx : q.extras = [] := hform.extras
  change q.sources = _ at hsources
  change q.fields = _ at hfields
  change q.joins = _ at hjoins
  obtain ⟨ps, marks, hps, hlength, hsql⟩ := exists_pieces_of_compile hd hv hc
  obtain ⟨items, p, rfl, -, hitems, hrows, -, -, hwritten⟩ :=
    Select.exists_clauses hx hfields hjoins hps
  rw [hsources, hfields, hjoins] at hitems
  exact ⟨sources, _, joins, p, marks, hsources, hfields, hjoins, hlength, hsql, hwritten,
    sources_ne_nil_iff hitems hrows⟩

/-- Calls for a number and for a table that is joined. -/
def SelectCall.ofNumber : List (Catalog × SelectCall) :=
  [(.threeTables, .select [.int 1]), (.threeTables, .join "INNER" (.table ⟨0⟩) .none (.tuple []))]

/-- A SELECT of a number that joins a table. -/
def Select.ofNumber : Select :=
  { Select.empty with
    fields := .tuple [.expr (.literal .none (.int 1) (some .integer))]
    joins := .tuple [.join { source := .table ⟨0⟩ }] }

/-- Without a table among the fields nothing stands on the left of the join. -/
theorem join_has_source_iff_number :
    Select.built? SelectCall.ofNumber = .ok .ofNumber ∧
    compile .threeTables default (.select .ofNumber) = .ok ⟨.text "SELECT ? INNER JOIN a", [.int 1]⟩ ∧
    ∃ p : SelectPieces, p.joins.length = 1 ∧ p.from? = [] ∧
      ∃ marks, Value.text "SELECT ? INNER JOIN a" = .text ((Template.ofPieces p.all).spelled marks) := by
  have hempty : (Value.tuple []).WellFormed := .sequence _ (by simp)
  have hnumber : (Value.expr (.literal .none (.int 1) (some .integer))).WellFormed :=
    .literal _ _ Value.isAlias_none
  have hv : (Value.select .ofNumber).WellFormed :=
    .select Value.unhooked_nil (.plain rfl) (.sequence _ (by simp [hnumber])) rfl hempty rfl
      (.sequence _ (by simpa using .join (.plain rfl) (by simp))) rfl hempty rfl (.plain rfl) hempty
      rfl hempty rfl
  have hc : compile .threeTables default (.select .ofNumber)
      = .ok ⟨.text "SELECT ? INNER JOIN a", [.int 1]⟩ := rfl
  have hq : Select.built? SelectCall.ofNumber = .ok .ofNumber := rfl
  obtain ⟨sources, fields, joins, p, marks, hs, hf, hj, -, hsql, hjoins, hiff⟩ :=
    join_has_source_iff hq ⟨rfl, rfl⟩ hv hc
  obtain rfl : [] = sources := (Value.sequence.inj hs).2
  obtain rfl : [Value.expr (.literal .none (.int 1) (some .integer))] = fields :=
    (Value.sequence.inj hf).2
  have hlength : 1 = joins.length := by
    simpa using congrArg List.length (Value.sequence.inj hj).2
  have hnone : p.sources = [] := by
    by_contra hne
    rcases hiff.1 hne with h | ⟨v, hmem, id, t, ⟨x, a, rfl, hwithin⟩, -⟩
    · exact h rfl
    · obtain rfl := Value.expr.inj (List.mem_singleton.1 hmem)
      cases hwithin
  exact ⟨hq, hc, p, hjoins.length_eq.symm.trans hlength.symm, by simp [SelectPieces.from?, hnone],
    marks, hsql⟩

end SqlCompose
