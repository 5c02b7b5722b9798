import SqlCompose.Proofs.Compile.Retargeting
import SqlCompose.Proofs.Render.Acceptance
import SqlCompose.Proofs.Schema.Definition

/-!
# Tables without a name

What compiles is written with tables that have names: as sources, named or implied by a column, and
as the tables that are changed, at any depth, and as the tables that are created or dropped. The table
that a foreign key refers to and the table of an index are written whether they have names or not.
-/
namespace SqlCompose

variable {cat : Catalog} {d : Dialect} {t : TableId}

/-- Whether a value is written with a table. A table is written with itself; a statement with its
sources and with the table that it changes; and whatever has parts, with the tables of its parts. -/
inductive Value.Writes (cat : Catalog) (t : TableId) : Value → Prop
  | table : Writes cat t (.table t)
  | item (form : SequenceForm) {items : List Value} {v : Value} (hv : v ∈ items)
    (h : Writes cat t v) : Writes cat t (.sequence form items)
  | subquery {x : Expr} {a body : Value} (hx : (Expr.subquery a body).Within x)
    (h : Writes cat t body) : Writes cat t (.expr x)
  | joined {j : Join} (h : Writes cat t j.source) : Writes cat t (.join j)
  | on {j : Join} {x : Expr} (hx : j.on = some x) (h : Writes cat t (.expr x)) :
    Writes cat t (.join j)
  | condition {q : Select} {v : Value} (hv : v ∈ [q.filter, q.having]) (h : Writes cat t v) :
    Writes cat t (.select q)
  | part {q : Select} {vs : List Value} {v : Value} (hl : .tuple vs ∈ q.lists) (hv : v ∈ vs)
    (h : Writes cat t v) : Writes cat t (.select q)
  | member {q : Select} {members : List Value} {word v : Value} (hu : q.unions = .tuple members)
    (hv : .tuple [word, v] ∈ members) (h : Writes cat t v) : Writes cat t (.select q)
  | implied {q : Select} {tables : List TableId} (hs : q.sources.truthy = false)
    (hi : inferredTables cat q.extras q.fields q.joins = .ok tables) (ht : t ∈ tables) :
    Writes cat t (.select q)
  | changed {s : TableChange} (ht : s.table = .table t) : Writes cat t s.statement
  | filter {s : TableChange} (h : Writes cat t s.filter) : Writes cat t s.statement
  | returned {s : TableChange} {fields : List Value} {v : Value} (hr : s.returning = .tuple fields)
    (hv : v ∈ fields) (h : Writes cat t v) : Writes cat t s.statement
  | query {q : Insert} (h : Writes cat t q.query) : Writes cat t (.insert q)
  | row {q : Insert} {rows row : List Value} {v : Value} (hr : q.rows = .tuple rows)
    (hrow : .tuple row ∈ rows) (hv : v ∈ row) (h : Writes cat t v) : Writes cat t (.insert q)
  | assigned {q : Update} {pairs : List Value} {column v : Value} (ha : q.assignments = .tuple pairs)
    (hp : .tuple [column, v] ∈ pairs) (h : Writes cat t v) : Writes cat t (.update q)

namespace Value

theorem Writes.isNone_eq_false {v : Value} (h : v.Writes cat t) : v.isNone = false := by
  cases h with
  | @changed s => cases s <;> rfl
  | @filter s => cases s <;> rfl
  | @returned s => cases s <;> rfl
  | _ => rfl

/-- A column that stands by itself has no part. -/
theorem not_writes_column {a : Value} {id : ColumnId} :
    ¬(Value.expr (.column a id)).Writes cat t := by
  intro h
  generalize hv : Value.expr (.column a id) = v at h
  cases h with
  | subquery hx =>
    obtain rfl := Value.expr.inj hv
    cases hx
  | @changed s => cases s <;> cases hv
  | @filter s => cases s <;> cases hv
  | @returned s => cases s <;> cases hv
  | _ => cases hv

/-! ## Parts of well-formed values -/

theorem WellFormed.within {x y : Expr} (hy : y.Within x) (h : (expr x).WellFormed) :
    (expr y).WellFormed := by
  induction hy with
  | self => exact h
  | apply hx _ ih =>
    cases h with
    | plain h => cases h
    | apply _ _ _ h => exact ih (h _ hx)
  | order _ ih =>
    cases h with
    | plain h => cases h
    | order _ _ h => exact ih h
  | group _ ih =>
    cases h with
    | plain h => cases h
    | group _ h => exact ih h

theorem WellFormed.of_mem {form : SequenceForm} {items : List Value} {v : Value}
    (h : (Value.sequence form items).WellFormed) (hv : v ∈ items) : v.WellFormed := by
  cases h with
  | plain h => cases h
  | sequence _ h => exact h v hv

/-- The clauses of a well-formed SELECT. -/
theorem WellFormed.select_clauses {q : Select} (h : (Value.select q).WellFormed) : Unhooked q.extras ∧
    (∀ v ∈ [q.filter, q.having], v.WellFormed) ∧ (∀ v ∈ q.lists, v.WellFormed) ∧
    q.unions.WellFormed := by
  cases h with
  | plain h => cases h
  | select hx filter fields _ sources _ joins _ groupBy _ having orderBy _ unions _ =>
    simp only [Select.lists, List.forall_mem_cons, List.not_mem_nil, false_imp_iff, implies_true,
      and_true]
    exact ⟨hx, ⟨filter, having⟩, ⟨fields, sources, joins, groupBy, orderBy⟩, unions⟩

theorem WellFormed.insert_content {q : Insert} (h : (Value.insert q).WellFormed) :
    q.rows.WellFormed ∧ q.query.WellFormed := by
  cases h with
  | plain h => cases h
  | insert _ _ rows _ query => exact ⟨rows, query⟩

theorem WellFormed.update_assignments {q : Update} (h : (Value.update q).WellFormed) :
    q.assignments.WellFormed := by
  cases h with
  | plain h => cases h
  | update _ _ _ assignments => exact assignments

/-! ## Names of written tables -/

/-- Whatever is accepted of a well-formed value, a table that it is written with has a name. -/
theorem Writes.named (hd : d.WritesText) {v : Value} (h : v.Writes cat t) (hw : v.WellFormed)
    {y : Draft} (hy : y ∈ (v.drafted cat d.engine).drafts) (ha : y.Accepted cat d) :
    (cat.table t).name ≠ "" := by
  induction h generalizing y with
  | table =>
    exact table_name_ne_empty_of_accepted (accepted_built_of_drafts rfl (by simp) (by simp) hy ha)
  | item form hv h ih =>
    exact ih (hw.of_mem hv) (by simp [Drafted.drafts]) (accepted_operand_of_item hy ha _ hv)
  | @subquery x a body hx h ih =>
    have hreference := Expr.accepted_of_within hd hx (Expr.accepted_reference_of_drafts hy ha)
    have hbody : body.WellFormed := by
      cases hw.within hx with
      | plain h => cases h
      | subquery _ h => exact h
    exact ih hbody (by simp [Drafted.drafts]) (Draft.accepted_parenthesized.1 hreference)
  | joined h ih =>
    obtain ⟨hsource, -⟩ := Join.accepted_parts
      (accepted_built_of_drafts rfl (by simp) (by simp) hy ha)
    exact ih (wellFormed_join.1 hw).1 (by simp [Drafted.drafts]) hsource
  | on hx h ih =>
    obtain ⟨-, hon⟩ := Join.accepted_parts (accepted_built_of_drafts rfl (by simp) (by simp) hy ha)
    exact ih ((wellFormed_join.1 hw).2 _ hx) (by simp [Drafted.drafts, built]) (hon _ hx)
  | condition hv h ih =>
    obtain ⟨hx, hconditions, -, -⟩ := hw.select_clauses
    have hbuilt := accepted_built_of_drafts rfl (by simp) (by simp) hy ha
    exact ih (hconditions _ hv) (by simp [Drafted.drafts, built])
      (Select.accepted_of_condition hx hbuilt hv h.isNone_eq_false)
  | part hl hv h ih =>
    obtain ⟨hx, -, hlists, -⟩ := hw.select_clauses
    have hbuilt := accepted_built_of_drafts rfl (by simp) (by simp) hy ha
    obtain ⟨z, hz, hza⟩ := Select.exists_accepted_of_list hx hbuilt hl hv
    exact ih (wellFormed_tuple.1 (hlists _ hl) _ hv) hz hza
  | member hu hv h ih =>
    obtain ⟨hx, -, -, hunions⟩ := hw.select_clauses
    have hbuilt := accepted_built_of_drafts rfl (by simp) (by simp) hy ha
    exact ih (((hu ▸ hunions).of_mem hv).of_mem (by simp)) (by simp [Drafted.drafts, built])
      (Select.accepted_of_member hx hbuilt hu hv)
  | implied hs hi ht =>
    obtain ⟨hx, -⟩ := hw.select_clauses
    have hbuilt := accepted_built_of_drafts rfl (by simp) (by simp) hy ha
    exact table_name_ne_empty_of_accepted (Select.accepted_of_inferred hx hbuilt hs hi ht)
  | changed ht =>
    have hdraft := TableChange.accepted_draftWith hw hy ha
    exact (TableChange.accepted_clauses (TableChange.wellFormed_clauses hw).1 hdraft).2.2 _ ht
  | filter h ih =>
    obtain ⟨hx, hfilter, -⟩ := TableChange.wellFormed_clauses hw
    have hdraft := TableChange.accepted_draftWith hw hy ha
    exact ih hfilter (by simp [Drafted.drafts, built])
      ((TableChange.accepted_clauses hx hdraft).2.1 h.isNone_eq_false)
  | returned hr hv h ih =>
    obtain ⟨hx, -, hreturning⟩ := TableChange.wellFormed_clauses hw
    have hdraft := TableChange.accepted_draftWith hw hy ha
    rw [hr] at hdraft hreturning
    have hfield := TableChange.accepted_of_returned (TableChange.accepted_clauses hx hdraft).1 hv
    rw [returnedDraft, value_drafted] at hfield
    split at hfield
    · exact absurd h not_writes_column
    · exact ih (hreturning.of_mem hv) (by simp [Drafted.drafts]) hfield
  | @query q h ih =>
    have hdraft := @TableChange.accepted_draftWith _ _ _ (.insert q) hw _ hy ha
    exact ih hw.insert_content.2 (by simp [Drafted.drafts, built])
      ((Insert.accepted_parts (Insert.accepted_content hdraft)).1 h.isNone_eq_false)
  | @row q rows row v hr hrow hv h ih =>
    have hdraft := @TableChange.accepted_draftWith _ _ _ (.insert q) hw _ hy ha
    exact ih (((hr ▸ hw.insert_content.1).of_mem hrow).of_mem hv) (by simp [Drafted.drafts])
      ((Insert.accepted_parts (Insert.accepted_content hdraft)).2 _ _ _ hr hrow hv)
  | @assigned q pairs column v hp hmem h ih =>
    have hdraft := @TableChange.accepted_draftWith _ _ _ (.update q) hw _ hy ha
    exact ih (((hp ▸ hw.update_assignments).of_mem hmem).of_mem (by simp)) (by simp [Drafted.drafts])
      (Update.accepted_of_assignment (Update.accepted_assignments hdraft) hp hmem)

end Value

theorem name_ne_empty_of_compileCreateTable {ifNotExists : Bool} {sql : Value}
    (h : compileCreateTable cat d t ifNotExists = .ok sql) : (cat.table t).name ≠ "" := by
  intro hname
  rw [compileCreateTable, createTableDraft, if_pos hname] at h
  exact Draft.not_yields_fail _ (yields_of_compileInlined h)

/-- All tables that an expression or a statement is written with have names if it compiles, and so
has a table that is created or dropped. The names of the tables that the keys of a created table
refer to do not matter for whether it compiles, and neither does the name of the table of an index:
they are written as they are. -/
theorem unnamed_tables_refused (hd : d.WritesText) :
    (∀ (v : Value) (t : TableId) (c : Compiled), v.WellFormed → v.Writes cat t →
      compile cat d v = .ok c → (cat.table t).name ≠ "") ∧
    (∀ (t : TableId) (ifNotExists : Bool) (sql : Value),
      compileCreateTable cat d t ifNotExists = .ok sql → (cat.table t).name ≠ "") ∧
    (∀ (t : TableId) (ifExists : Bool) (sql : Value),
      compileDropTable cat d t ifExists = .ok sql → (cat.table t).name ≠ "") ∧
    (∀ (t : TableId) (definitions : List String) (ifNotExists : Bool) (sql : Value),
      List.Forall₂ (fun r s => ((cat.column r.id).definition cat d.engine).Spells cat
        (.context d.inlining 0) s) (cat.table t).columns definitions →
      (compileCreateTable cat d t ifNotExists = .ok sql ↔
        (cat.table t).name ≠ "" ∧ (cat.table t).columns ≠ [] ∧ cat.PrimaryKeyFits t ∧
        ∃ foreign, List.Forall₂ (ForeignKey.SpelledFor cat d t) (cat.table t).foreignKeys foreign ∧
          sql = .text ("CREATE TABLE " ++ (if ifNotExists then "IF NOT EXISTS " else "")
            ++ d.word (cat.table t).name ++ " ("
            ++ ", ".intercalate (definitions ++ cat.primaryKeyWords d t ++ foreign) ++ ")"))) ∧
    ∀ (i : Index) (sql : Value),
      compileInlined cat d ((Value.index i).built cat d.engine) = .ok sql ↔
        ∃ t, i.IsOn cat t ∧ sql = .text (i.spelled cat d t) := by
  refine ⟨fun v t c hw h hc => ?_, fun t _ _ h => name_ne_empty_of_compileCreateTable h,
    fun t _ _ h => ((compileDropTable_eq_ok_iff hd).1 h).1,
    fun t definitions _ _ h => compileCreateTable_eq_ok_iff hd h,
    fun i sql => Index.compileInlined_eq_ok_iff hd⟩
  exact h.named hd hw (by simp [Drafted.drafts, Value.built])
    ((compiles_iff_accepted hd hw).1 ⟨c, hc⟩)

/-- A table without a name and one that refers to it. -/
def Catalog.ofNameless : Catalog where
  columns := #[{ name := "a", kind := some .integer, owner := some ⟨0⟩ },
    { name := "b", kind := some .integer, owner := some ⟨1⟩ }]
  tables := #[{ name := "", columns := [{ id := ⟨0⟩ }] },
    { name := "u", columns := [{ id := ⟨1⟩ }],
      foreignKeys := [{ columns := ["b"], references := [.column .none ⟨0⟩] }] }]

/-- An index on the table without a name. -/
def Index.ofNameless : Index := { name := "i", columns := [.expr (.column .none ⟨0⟩)] }

/-- A SELECT of a column of the table without a name. -/
def Select.ofNameless : Select :=
  { Select.empty with fields := .tuple [.expr (.column .none ⟨0⟩)] }

set_option maxRecDepth 20000 in
/-- A column of the table without a name cannot be selected, but an index on it and a key that refers
to it are written. -/
theorem unnamed_tables_refused_nameless :
    let d := Dialect.standard .generic
    d.WritesText ∧
    (¬∃ c, compile .ofNameless d (.select .ofNameless) = .ok c) ∧
    compileInlined .ofNameless d ((Value.index .ofNameless).built .ofNameless d.engine)
      = .ok (.text "CREATE INDEX i ON  (a)") ∧
    compileCreateTable .ofNameless d ⟨1⟩ false
      = .ok (.text "CREATE TABLE u (b INTEGER, FOREIGN KEY (b) REFERENCES  (a))") := by
  intro d
  have hd : d.WritesText := ⟨rfl, rfl⟩
  obtain ⟨hnamed, -, -, hcreate, hindex⟩ := @unnamed_tables_refused .ofNameless d hd
  have hselect : (Value.select .ofNameless).WellFormed := by
    have hempty : (Value.tuple []).WellFormed := .sequence _ (by simp)
    have hfields : (Value.tuple [.expr (.column .none ⟨0⟩)]).WellFormed := .sequence _ (by simp)
    exact .select Value.unhooked_nil (.plain rfl) hfields rfl hempty rfl hempty rfl hempty rfl
      (.plain rfl) hempty rfl hempty rfl
  have hwritten : (Value.select .ofNameless).Writes .ofNameless ⟨0⟩ :=
    .implied rfl (show inferredTables .ofNameless [] (.tuple [.expr (.column .none ⟨0⟩)]) (.tuple [])
      = .ok [⟨0⟩] from rfl) (List.mem_singleton_self _)
  have hon : (Index.ofNameless).IsOn .ofNameless ⟨0⟩ := by
    refine ⟨by decide, by simp [Index.ofNameless], by simp [Index.ofNameless], fun v hv => ?_⟩
    obtain rfl := List.mem_singleton.1 hv
    exact ⟨⟨0⟩, rfl, rfl⟩
  have hkey : ForeignKey.SpelledFor .ofNameless d ⟨1⟩
      { columns := ["b"], references := [.column .none ⟨0⟩] } "FOREIGN KEY (b) REFERENCES  (a)" :=
    ⟨⟨by simp, rfl, by decide⟩, ⟨0⟩, ⟨by decide, by decide⟩, by decide +kernel⟩
  have hcolumn : ((Catalog.ofNameless.column ⟨1⟩).definition .ofNameless d.engine).Spells .ofNameless
      (.context d.inlining 0) "b INTEGER" := by
    rw [Draft.Spells]
    rfl
  have hrefused : ¬∃ c, compile .ofNameless d (.select .ofNameless) = .ok c := by
    rintro ⟨c, hc⟩
    exact hnamed _ ⟨0⟩ c hselect hwritten hc rfl
  refine ⟨hd, hrefused, (hindex .ofNameless _).2 ⟨⟨0⟩, hon, rfl⟩,
    (hcreate ⟨1⟩ ["b INTEGER"] false _ ?_).2 ?_⟩
  · exact .cons hcolumn .nil
  · exact ⟨by decide, by simp [Catalog.ofNameless, Catalog.table], fun h => absurd rfl h, [_],
      .cons hkey .nil, rfl⟩

end SqlCompose
