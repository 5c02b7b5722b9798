import SqlCompose.Proofs.Expr.Settled
import SqlCompose.Render

/-!
# Settled renderings

What is rendered from a well-formed value is a settled draft: the parts of a clause are drafted once
each and in the order in which they are read, and nothing is called on the way.
-/
namespace SqlCompose

/-- Whether a drafted value is a field with its name. -/
def Drafted.IsField (x : Drafted) : Prop := ∃ name v, x.value = .tuple [.text name, v]

/-- A value whose drafts are settled, and those of its parts unless they are fields. -/
inductive Drafted.Settled (cat : Catalog) : Drafted → Prop
  | mk {v : Value} {whole operand : Draft} {parts : PUnit.{1} → List Drafted} (hv : v.Steady cat)
    (hw : whole.Settled cat true) (ho : operand.Settled cat true)
    (hf : ¬v.IsRow → ∀ x ∈ parts (), x.IsField)
    (hp : v.IsRow → ∀ x ∈ parts (), Settled cat x) : Settled cat (.mk v whole operand parts)

namespace Drafted

variable {cat : Catalog} {e : Engine}

namespace Settled

variable {x : Drafted}

theorem steady (h : x.Settled cat) : x.value.Steady cat := by
  cases h with
  | mk hv hw ho hf hp => exact hv

theorem whole (h : x.Settled cat) : x.whole.Settled cat true := by
  cases h with
  | mk hv hw ho hf hp => exact hw

theorem operand (h : x.Settled cat) : x.operand.Settled cat true := by
  cases h with
  | mk hv hw ho hf hp => exact ho

theorem parts (h : x.Settled cat) (hr : x.value.IsRow) : ∀ y ∈ x.parts, y.Settled cat := by
  cases h with
  | mk hv hw ho hf hp => exact hp hr

theorem fields (h : x.Settled cat) (hr : ¬x.value.IsRow) : ∀ y ∈ x.parts, y.IsField := by
  cases h with
  | mk hv hw ho hf hp => exact hf hr

theorem member (h : x.Settled cat) {word : String} (hw : word ∈ Value.renderings) :
    (Draft.member x.value word).Settled cat true := .member (h.steady.lacks word hw)

theorem of {v : Value} {w : Draft} {ps : PUnit.{1} → List Drafted} (hv : v.Steady cat)
    (hw : w.Settled cat true) (hf : ¬v.IsRow → ∀ x ∈ ps (), x.IsField)
    (hp : v.IsRow → ∀ x ∈ ps (), x.Settled cat) : (Drafted.of v w ps).Settled cat := by
  refine .mk hv hw ?_ hf hp
  unfold operandDraft
  split
  · exact hw
  · exact .parenthesized hw
  · refine Operator.settled_listDraft fun y hy => ?_
    obtain ⟨x, hx, rfl⟩ := List.mem_map.1 hy
    exact (hp rfl x hx).operand
  · exact .literal _

/-- A value that is made of fields. -/
theorem ofModel {v : Value} {w : Draft} {ps : PUnit.{1} → List Drafted} (hv : v.Steady cat)
    (hw : w.Settled cat true) (hm : v.hasFields = true) (hf : ∀ x ∈ ps (), x.IsField) :
    (Drafted.of v w ps).Settled cat :=
  .of hv hw (fun _ => hf) fun hr => by simp [Value.IsRow, hm] at hr

theorem unbuilt {v : Value} {ps : PUnit.{1} → List Drafted} (hv : v.Steady cat)
    (hf : ¬v.IsRow → ∀ x ∈ ps (), x.IsField) (hp : v.IsRow → ∀ x ∈ ps (), x.Settled cat) :
    (Drafted.unbuilt v ps).Settled cat :=
  .of hv (.member (hv.lacks _ (by simp [Value.renderings]))) hf hp

/-- A value that is nothing as a whole but falls into parts. -/
theorem ofParts {v : Value} {ps : PUnit.{1} → List Drafted} (hv : v.Steady cat) (hr : v.IsRow)
    (hp : ∀ x ∈ ps (), x.Settled cat) : (Drafted.unbuilt v ps).Settled cat :=
  .unbuilt hv (fun hm => absurd hr hm) fun _ => hp

/-- The parts of a scalar are scalars. -/
theorem exists_scalar_of_mem_parts {s : Scalar} {v : Value}
    (h : v ∈ (Value.scalar s).parts?.getD []) : ∃ t, v = .scalar t := by
  cases s with
  | text s =>
    obtain ⟨c, -, rfl⟩ := List.mem_map.1 h
    exact ⟨_, rfl⟩
  | binary buffer bytes =>
    obtain ⟨b, -, rfl⟩ := List.mem_map.1 h
    exact ⟨_, rfl⟩
  | _ => simp [Value.parts?] at h

theorem ofPart (s : Scalar) : (Drafted.ofPart (.scalar s)).Settled cat := by
  refine .ofParts (Value.steady_of_extras rfl rfl) rfl fun x hx => ?_
  obtain ⟨v, hv, rfl⟩ := List.mem_map.1 hx
  obtain ⟨t, rfl⟩ := exists_scalar_of_mem_parts hv
  exact .ofParts (Value.steady_of_extras rfl rfl) rfl fun y hy => by simp at hy

theorem ofScalar (s : Scalar) : (Drafted.ofScalar s).Settled cat := by
  refine .ofParts (Value.steady_of_extras rfl rfl) rfl fun x hx => ?_
  obtain ⟨v, hv, rfl⟩ := List.mem_map.1 hx
  obtain ⟨t, rfl⟩ := exists_scalar_of_mem_parts hv
  exact ofPart t

theorem reference (h : x.Settled cat) : x.reference.Settled cat true := by
  unfold Drafted.reference
  split
  · exact h.whole
  · exact h.member (by simp [Value.renderings])

theorem selected (h : x.Settled cat) : x.selected.Settled cat true := by
  unfold Drafted.selected
  split
  · rename_i y hy
    exact h.whole.named (h.steady.asName y hy)
  · exact h.member (by simp [Value.renderings])

theorem built (h : x.Settled cat) : x.built.Settled cat true := by
  unfold Drafted.built
  split
  · rename_i a id hy
    exact h.whole.named (h.steady.asName _ hy)
  · exact h.whole

theorem source (h : x.Settled cat) : x.source.Settled cat true := by
  unfold Drafted.source
  split
  · rename_i y hy
    split
    · exact h.whole.named (h.steady.asName y hy)
    · exact .fail _
  · exact h.built

theorem asOperand (h : x.Settled cat) : (Drafted.asOperand x).Settled cat := by
  unfold Drafted.asOperand
  split
  · exact h.whole
  · exact h.whole

theorem items (h : x.Settled cat) (hr : x.value.IsRow) {parts : List Drafted}
    (hp : x.items = .ok parts) : ∀ y ∈ parts, y.Settled cat := by
  unfold Drafted.items at hp
  split at hp
  · obtain rfl := Except.ok.inj hp
    exact h.parts hr
  · simp at hp

theorem isField_of_items (h : x.Settled cat) (hr : ¬x.value.IsRow) {parts : List Drafted}
    (hp : x.items = .ok parts) : ∀ y ∈ parts, y.IsField := by
  unfold Drafted.items at hp
  split at hp
  · obtain rfl := Except.ok.inj hp
    exact h.fields hr
  · simp at hp

theorem listed (h : x.Settled cat) (hr : x.value.IsRow) {f : Drafted → Draft}
    (hf : ∀ y, y.Settled cat → (f y).Settled cat true) : (x.listed f).Settled cat true :=
  .given fun parts hp => .commaSeparated fun d hd => by
    obtain ⟨y, hy, rfl⟩ := List.mem_map.1 hd
    exact hf y (h.items hr hp y hy)

theorem clause (h : x.Settled cat) (keyword : String) : (x.clause keyword).Settled cat true := by
  unfold Drafted.clause
  split
  · exact .text ""
  · exact .plus (.keyword ..) h.built

theorem pair_eq_ok {y z : Drafted} (hp : x.pair = .ok (y, z)) : x.items = .ok [y, z] := by
  unfold Drafted.pair at hp
  split at hp
  · rename_i a b hi
    simp only [Except.ok.injEq, Prod.mk.injEq] at hp
    obtain ⟨rfl, rfl⟩ := hp
    exact hi
  all_goals simp at hp

/-- The parts of a pair are settled or fields. -/
theorem pair (h : x.Settled cat) {y z : Drafted} (hp : x.pair = .ok (y, z)) :
    (y.Settled cat ∧ z.Settled cat) ∨ (y.IsField ∧ z.IsField) := by
  have hi := pair_eq_ok hp
  by_cases hr : x.value.IsRow
  · have hall := h.items hr hi
    exact .inl ⟨hall y (by simp), hall z (by simp)⟩
  · have hall := h.isField_of_items hr hi
    exact .inr ⟨hall y (by simp), hall z (by simp)⟩

end Settled

end Drafted

variable {cat : Catalog} {x : Drafted}

/-! ## Clauses -/

theorem settled_whereDraft {extras : List (String × Value)} (hx : Value.Unhooked extras)
    (h : x.Settled cat) : (whereDraft extras x).Settled cat true := by
  rw [whereDraft, hx "_build_where" (by simp [Value.hooks])]
  exact h.clause "WHERE"

theorem settled_returnedDraft (h : x.Settled cat) : (returnedDraft cat x).Settled cat true := by
  unfold returnedDraft
  split
  · rename_i a id hy
    exact (Draft.Settled.columnName id).named (h.steady.asName _ hy)
  · exact h.selected

theorem settled_returningDraft (e : Engine) (h : x.Settled cat) (hr : x.value.IsRow) :
    (returningDraft cat e x).Settled cat true := by
  unfold returningDraft
  split
  · exact .text ""
  · refine .asking _ ?_
    split
    · exact .plus (.keyword ..) (h.listed hr fun y hy => settled_returnedDraft hy)
    · exact .fail _

/-- The sources of a SELECT are settled, whether it names them or its fields imply them. -/
theorem settled_sourceDrafts {extras : List (String × Value)} (hx : Value.Unhooked extras)
    {sources : Drafted} (h : sources.Settled cat) (hr : sources.value.IsRow)
    {fields joins : Drafted} {items : List Draft}
    (hs : sourceDrafts cat extras sources fields joins = .ok items) :
    ∀ y ∈ items, y.Settled cat true := by
  rw [sourceDrafts, hx "_from_sources" (by simp [Value.hooks])] at hs
  simp only at hs
  split at hs
  · obtain ⟨parts, hp, hitems⟩ := Except.bind_eq_ok_iff.1 hs
    obtain rfl := Except.ok.inj hitems
    intro y hy
    obtain ⟨z, hz, rfl⟩ := List.mem_map.1 hy
    exact (h.items hr hp z hz).source
  · obtain ⟨tables, -, hitems⟩ := Except.bind_eq_ok_iff.1 hs
    obtain rfl := Except.ok.inj hitems
    intro y hy
    obtain ⟨id, -, rfl⟩ := List.mem_map.1 hy
    exact .tableDraft id

/-! ## SELECT and JOIN -/

theorem settled_joinDraft (kind : String) (h : x.Settled cat) {on : Option Drafted}
    (ho : ∀ y, on = some y → y.Settled cat) (shared : List String) :
    (joinDraft kind x on shared).Settled cat true := by
  refine .continued (.plus (.keyword ..) (.shown h.source)) fun y hy => ?_
  unfold joinCondition at hy
  split at hy
  · obtain rfl := List.mem_singleton.1 hy
    exact .fail _
  · split at hy
    · obtain rfl := List.mem_singleton.1 hy
      exact .fail _
    · split at hy
      · obtain rfl := List.mem_singleton.1 hy
        exact .plus (.keyword ..) (ho _ rfl).built
      · split at hy
        · simp at hy
        · obtain rfl := List.mem_singleton.1 hy
          exact .plus (.keyword ..) (.nameList shared)

variable (cat) in
/-- A field holds nothing under a name. -/
theorem Drafted.IsField.get (h : x.IsField) (name : String) :
    ∃ error, x.value.get cat name = .error error := by
  obtain ⟨s, v, hv⟩ := h
  exact ⟨_, by rw [hv]; rfl⟩

theorem settled_memberOf (h : x.Settled cat) : (memberOf cat x).Settled cat true := by
  refine .given fun (operator, member) hp => ?_
  rcases h.pair hp with ⟨ho, hm⟩ | ⟨ho, hm⟩
  · refine .given fun isPaged _ => .given fun word _ => ?_
    split
    · exact .fail _
    · exact .plus (.keyword ..) hm.built
  · obtain ⟨error, he⟩ := hm.get cat "order_by_fields"
    have hpaged : member.value.isPaged cat = .error error := by rw [Value.isPaged, he]; rfl
    simp only [hpaged]
    exact .fail _

theorem settled_each {f : Drafted → Draft} (h : x.Settled cat) (hr : x.value.IsRow)
    (hf : ∀ y, y.Settled cat → (f y).Settled cat true) : ∀ y ∈ x.each f, y.Settled cat true := by
  unfold Drafted.each
  split
  · rename_i parts hp
    intro y hy
    obtain ⟨z, hz, rfl⟩ := List.mem_map.1 hy
    exact hf z (h.items hr hp z hz)
  · intro y hy
    obtain rfl := List.mem_singleton.1 hy
    exact .fail _

theorem settled_listClause (keyword : String) {f : Drafted → Draft} (h : x.Settled cat)
    (hr : x.value.IsRow) (hf : ∀ y, y.Settled cat → (f y).Settled cat true) :
    ∀ y ∈ x.listClause keyword f, y.Settled cat true := by
  unfold Drafted.listClause
  split
  · intro y hy
    obtain rfl := List.mem_singleton.1 hy
    exact .plus (.keyword ..) (h.listed hr hf)
  · simp

theorem settled_optionalClause (keyword : String) (h : x.Settled cat) :
    ∀ y ∈ x.optionalClause keyword, y.Settled cat true := by
  unfold Drafted.optionalClause
  split
  · simp
  · simpa using h.clause keyword

theorem settled_paged (e : Engine) (limit offset : Value) (ordered : Bool) {d : Draft}
    (h : d.Settled cat true) : (paged cat e limit offset ordered d).Settled cat true := by
  unfold paged
  split
  · exact .checked h (.ask _)
  · exact .extend h (.asking _ (.text _))
  · exact .extend h (.asking _ (.fail _))

/-- Whether the clauses of a SELECT are settled. -/
structure SelectParts.Settled (cat : Catalog) (p : SelectParts) : Prop where
  unhooked : Value.Unhooked p.extras
  filter : p.filter.Settled cat
  fields : p.fields.Settled cat
  fieldRow : p.fields.value.IsRow
  sources : p.sources.Settled cat
  sourceRow : p.sources.value.IsRow
  joins : p.joins.Settled cat
  joinRow : p.joins.value.IsRow
  groupBy : p.groupBy.Settled cat
  groupRow : p.groupBy.value.IsRow
  having : p.having.Settled cat
  orderBy : p.orderBy.Settled cat
  orderRow : p.orderBy.value.IsRow
  unions : p.unions.Settled cat
  unionRow : p.unions.value.IsRow

namespace SelectParts.Settled

variable {p : SelectParts} (h : p.Settled cat)
include h

theorem fieldList : p.fieldList.Settled cat true := by
  unfold SelectParts.fieldList
  split
  · exact h.fields.listed h.fieldRow fun y hy => hy.selected
  · exact .text "*"

theorem clauses {sources : List Draft} (hs : ∀ y ∈ sources, y.Settled cat true) :
    ∀ y ∈ p.clauses cat sources, y.Settled cat true := by
  have hjoin : ∀ y : Drafted, y.Settled cat → (Draft.text " " + y.built).Settled cat true :=
    fun y hy => .plus (.text _) hy.built
  intro y hy
  simp only [SelectParts.clauses, List.mem_append] at hy
  rcases hy with (((((((hy | hy) | hy) | hy) | hy) | hy) | hy) | hy) | hy
  · split at hy
    · obtain rfl := List.mem_singleton.1 hy
      exact .text _
    · simp at hy
  · obtain rfl := List.mem_singleton.1 hy
    exact h.fieldList
  · split at hy
    · simp at hy
    · obtain rfl := List.mem_singleton.1 hy
      exact .plus (.keyword ..) (.commaSeparated hs)
  · exact settled_each h.joins h.joinRow hjoin y hy
  · obtain rfl := List.mem_singleton.1 hy
    exact settled_whereDraft h.unhooked h.filter
  · exact settled_listClause _ h.groupBy h.groupRow (fun z hz => hz.reference) y hy
  · exact settled_optionalClause _ h.having y hy
  · exact settled_each h.unions h.unionRow (fun z hz => settled_memberOf hz) y hy
  · exact settled_listClause _ h.orderBy h.orderRow (fun z hz => hz.built) y hy

/-- A SELECT with settled clauses is settled. -/
theorem draft (e : Engine) : (p.draft cat e).Settled cat true := by
  refine .given fun sources hs => ?_
  have hsources := settled_sourceDrafts h.unhooked h.sources h.sourceRow hs
  split
  · exact .fail _
  · exact settled_paged e _ _ _ (.continued (.keyword ..) (h.clauses hsources))

end SelectParts.Settled

/-! ## INSERT, UPDATE and DELETE -/

theorem settled_rowDraft (width : Nat) (h : x.Settled cat) :
    (rowDraft width x).Settled cat true := by
  refine .given fun given hg => ?_
  have hr : x.value.IsRow := by
    cases hv : x.value <;> simp_all [Value.length, Value.parts?, Value.IsRow, Value.hasFields]
  split
  · exact .fail _
  · exact .parenthesized (h.listed hr fun y hy => hy.operand)

theorem settled_rowsDraft (table columns : Value) (h : x.Settled cat) (hr : x.value.IsRow) :
    (rowsDraft cat table columns x).Settled cat true :=
  .given fun width _ => h.listed hr fun _ hy => settled_rowDraft width hy

/-- What belongs to no table is refused. -/
theorem refused_ne_ok (table v w : Value) :
    (do throw (← notOwned cat table (← v.nameOrLabel cat)) : Except Error Value) ≠ .ok w := by
  intro h
  obtain ⟨name, -, h⟩ := Except.bind_eq_ok_iff.1 h
  obtain ⟨error, -, h⟩ := Except.bind_eq_ok_iff.1 h
  simp [throw, throwThe, MonadExceptOf.throw] at h

/-- What names a column of a table is no statement. -/
theorem extras_of_ownColumn {table v w : Value} (h : ownColumn cat table v = .ok w) :
    v.extras = [] := by
  cases v with
  | select q | insert q | update q | delete q | statement extras =>
    exact absurd h (refused_ne_ok table _ w)
  | _ => rfl

theorem settled_bareColumn {b : Bool} {v : Value} (h : v.extras = []) :
    (bareColumn cat v).Settled cat b := by
  unfold bareColumn
  split
  · exact .columnName _
  · exact .member (Value.lacks_of_lookup (by simp [Value.renderings]) (by simp [h]))

/-- A loop that checks several things has checked each of them. -/
theorem forall_of_forIn {α : Type} {check : α → Except Error Unit} {xs : List α}
    (h : (forIn xs PUnit.unit fun x _ => do
      check x
      pure (ForInStep.yield PUnit.unit)) = Except.ok PUnit.unit) : ∀ x ∈ xs, check x = .ok () := by
  induction xs with
  | nil => simp
  | cons x xs ih =>
    rw [List.forIn_cons] at h
    obtain ⟨s, hs, hrest⟩ := Except.bind_eq_ok_iff.1 h
    obtain ⟨u, hu, hs⟩ := Except.bind_eq_ok_iff.1 hs
    obtain rfl := Except.ok.inj hs
    exact List.forall_mem_cons.2 ⟨hu, ih hrest⟩

/-- A check of several values has checked each of them. -/
theorem ownColumn_of_checkOwned {table columns : Value} (h : checkOwned cat table columns = .ok ())
    {vs : List Value} (hvs : columns.items cat = .ok vs) :
    ∀ v ∈ vs, ∃ w, ownColumn cat table v = .ok w := by
  obtain ⟨xs, hxs, hrest⟩ := Except.bind_eq_ok_iff.1 h
  obtain rfl := Except.ok.inj (hvs.symm.trans hxs)
  obtain ⟨u, hu, -⟩ := Except.bind_eq_ok_iff.1 hrest
  exact fun v hv => Except.discard_eq_ok_iff.1 (forall_of_forIn hu v hv)

theorem settled_columnsDraft {b : Bool} {table columns : Value}
    (h : checkOwned cat table columns = .ok ()) : (columnsDraft cat columns).Settled cat b := by
  unfold columnsDraft
  split
  · exact .text ""
  · refine .given fun vs hvs => .plus (.plus (.text _) (.commaSeparated fun y hy => ?_)) (.text _)
    obtain ⟨v, hv, rfl⟩ := List.mem_map.1 hy
    obtain ⟨w, hw⟩ := ownColumn_of_checkOwned h hvs v hv
    exact settled_bareColumn (extras_of_ownColumn hw)

/-- Whether the clauses of an INSERT are settled. -/
structure InsertParts.Settled (cat : Catalog) (p : InsertParts) : Prop where
  table : p.table.Steady cat
  rows : p.rows.Settled cat
  rowsRow : p.rows.value.IsRow
  query : p.query.Settled cat
  returning : p.returning.Settled cat
  returningRow : p.returning.value.IsRow

namespace InsertParts.Settled

variable {p : InsertParts} (h : p.Settled cat)
include h

theorem content (e : Engine) (hc : checkOwned cat p.table p.columns = .ok ()) :
    (p.content cat e).Settled cat true := by
  unfold InsertParts.content
  split
  · split
    · exact .before (settled_columnsDraft hc) (.fail _)
    · exact .plus (.plus (settled_columnsDraft hc) (.text _)) h.query.built
  · split
    · exact .plus (.plus (settled_columnsDraft hc) (.keyword ..))
        (settled_rowsDraft _ _ h.rows h.rowsRow)
    · exact .before (settled_columnsDraft hc) (.asking _ (.text _))

/-- An INSERT with settled clauses is settled. -/
theorem draft (e : Engine) : (p.draft cat e).Settled cat true := by
  refine .given fun name hn => ?_
  split
  · exact .fail _
  · refine .guarded fun hc => ?_
    exact .plus (.extend (.plus (.keyword ..) (.name_of_isText (h.table.named name hn)))
      (h.content e hc)) (settled_returningDraft e h.returning h.returningRow)

end InsertParts.Settled

theorem settled_assignmentDraft (h : x.Settled cat) :
    (assignmentDraft cat x).Settled cat true := by
  refine .given fun (column, v) hp => ?_
  rcases h.pair hp with ⟨hc, hv⟩ | ⟨hc, hv⟩
  · refine .given fun name hn => ?_
    exact .plus (.plus (.name_of_isText (hc.steady.named name hn)) (.operator ..)) hv.operand
  · obtain ⟨error, he⟩ := hc.get cat "name"
    simp only [he]
    exact .fail _

/-- Whether the clauses of an UPDATE are settled. -/
structure UpdateParts.Settled (cat : Catalog) (p : UpdateParts) : Prop where
  unhooked : Value.Unhooked p.extras
  filter : p.filter.Settled cat
  table : p.table.Settled cat
  assignments : p.assignments.Settled cat
  assignmentRow : p.assignments.value.IsRow
  returning : p.returning.Settled cat
  returningRow : p.returning.value.IsRow

/-- An UPDATE with settled clauses is settled. -/
theorem UpdateParts.Settled.draft {p : UpdateParts} (h : p.Settled cat) (e : Engine) :
    (p.draft cat e).Settled cat true := by
  unfold UpdateParts.draft
  split
  · exact .fail _
  · refine .guarded fun _ => .plus (.extend (.extend ?_ ?_) ?_) ?_
    · exact .plus (.plus (.keyword ..) h.table.built) (.keyword ..)
    · exact h.assignments.listed h.assignmentRow fun y hy => settled_assignmentDraft hy
    · exact settled_whereDraft h.unhooked h.filter
    · exact settled_returningDraft e h.returning h.returningRow

/-- A DELETE with settled clauses is settled. -/
theorem settled_deleteDraft (e : Engine) {filter table returning : Drafted}
    {extras : List (String × Value)} (hx : Value.Unhooked extras) (hf : filter.Settled cat)
    (ht : table.Settled cat) (h : returning.Settled cat) (hr : returning.value.IsRow) :
    (deleteDraft cat e filter table returning extras).Settled cat true :=
  .plus (.extend (.plus (.keyword ..) ht.built) (settled_whereDraft hx hf))
    (settled_returningDraft e h hr)

/-! ## Indexes -/

theorem settled_indexTerm {b : Bool} (v : Value) : (Index.term cat v).Settled cat b := by
  unfold Index.term
  split
  · exact .columnName _
  · exact (Draft.Settled.columnName _).directed _
  · exact .fail _

theorem settled_indexDraft {b : Bool} (i : Index) : (i.draft cat).Settled cat b := by
  refine .given fun table _ => ?_
  have hterms : ∀ y ∈ i.columns.map (Index.term cat), y.Settled cat b := by
    intro y hy
    obtain ⟨v, -, rfl⟩ := List.mem_map.1 hy
    exact settled_indexTerm v
  exact .plus (.plus (.plus (.plus (.plus (.plus (.text _) (.nameDraft i.name)) (.text _))
    (.nameDraft (cat.table table).name)) (.text _)) (.commaSeparated hterms)) (.text _)

/-! ## Values -/

namespace Drafted

theorem isField_ofField (name : String) (x : Drafted) : (ofField name x).IsField :=
  ⟨name, x.value, rfl⟩

theorem isField_ofFields {names : List String} {fields : List Drafted} :
    ∀ y ∈ ofFields names fields, y.IsField := by
  intro y hy
  rw [ofFields, ← List.map_uncurry_zip_eq_zipWith] at hy
  obtain ⟨⟨name, field⟩, -, rfl⟩ := List.mem_map.1 hy
  exact isField_ofField name field

theorem isField_heldFields {v : Value} : ∀ y ∈ heldFields cat v, y.IsField := by
  intro y hy
  obtain ⟨field, -, rfl⟩ := List.mem_map.1 hy
  exact isField_ofField ..

theorem isField_statementFields {names : List String} {clauses : List Drafted}
    {extras : List (String × Drafted)} :
    ∀ y ∈ statementFields names clauses extras, y.IsField := by
  intro y hy
  rcases List.mem_append.1 hy with hy | hy
  · exact isField_ofFields y hy
  · obtain ⟨field, -, rfl⟩ := List.mem_map.1 hy
    exact isField_ofField ..

/-- A statement without hooks is what its clauses make of it. -/
theorem Settled.ofStatement {v : Value} {w : Draft} {ps : PUnit.{1} → List Drafted}
    (hx : Value.Unhooked v.extras) (hm : v.isStatement = true) (hw : w.Settled cat true)
    (hf : ∀ y ∈ ps (), y.IsField) : (Drafted.ofStatement v w ps).Settled cat := by
  rw [Drafted.ofStatement, hx "build" (by simp [Value.hooks, Value.renderings])]
  refine .ofModel (Value.steady_of_unhooked hx ?_) hw ?_ hf
  · rintro x rfl
    simp [Value.isStatement] at hm
  · cases v <;> simp_all [Value.isStatement, Value.hasFields]

end Drafted

theorem Value.eq_scalar_of_toScalar {v : Value} {s : Scalar} (h : v.toScalar cat = .ok s) :
    ∃ t, v = .scalar t := by
  unfold toScalar at h
  split at h
  · exact ⟨_, rfl⟩
  · exact ⟨_, rfl⟩
  · obtain ⟨text, -, h⟩ := Except.bind_eq_ok_iff.1 h
    simp [throw, throwThe, MonadExceptOf.throw] at h

variable (cat) (e : Engine)

@[simp] theorem Value.value_drafted (v : Value) : (v.drafted cat e).value = v := by
  cases v with
  | expr x => rw [drafted, Expr.value_drafted]
  | select q => cases q; rw [drafted, Select.drafted]; rfl
  | insert q => cases q; rw [drafted, Insert.drafted]; rfl
  | update q => cases q; rw [drafted, Update.drafted]; rfl
  | delete q => cases q; rw [drafted, Delete.drafted]; rfl
  | join j => cases j; rw [drafted, Join.drafted]; rfl
  | index i => cases i; rw [drafted, Index.drafted]; rfl
  | _ => simp only [drafted]; rfl

theorem draftAll_eq_map (vs : List Value) : draftAll cat e vs = vs.map (·.drafted cat e) := by
  induction vs with
  | nil => rfl
  | cons v vs ih => rw [draftAll, ih]; rfl

theorem draftKeys_eq_map (entries : List (Value × Value)) :
    draftKeys cat e entries = entries.map (·.1.drafted cat e) := by
  induction entries with
  | nil => rfl
  | cons entry entries ih => rw [draftKeys, ih]; rfl

theorem draftExprs_eq_map (xs : List Expr) : draftExprs cat e xs = xs.map (·.drafted cat e) := by
  induction xs with
  | nil => rfl
  | cons x xs ih => rw [draftExprs, ih]; rfl

theorem settled_plain {v : Value} (h : v.isPlain = true) : (v.drafted cat e).Settled cat := by
  cases v with
  | scalar s => exact .ofScalar s
  | table id =>
    exact .ofModel (Value.steady_of_extras rfl rfl) (.tableDraft id) rfl Drafted.isField_heldFields
  | index i =>
    cases i
    rw [Value.drafted, Index.drafted]
    exact .ofModel (Value.steady_of_extras rfl rfl) (settled_indexDraft _) rfl
      Drafted.isField_ofFields
  | foreignKey k =>
    exact .ofModel (Value.steady_of_extras rfl rfl) (.fail _) rfl Drafted.isField_heldFields
  | dialect d =>
    have hs : (Value.dialect d).Steady cat := Value.steady_of_extras rfl rfl
    exact .ofModel hs (.member (hs.lacks _ (by simp [Value.renderings]))) rfl
      Drafted.isField_heldFields
  | context d n parameters =>
    have hs : (Value.context d n parameters).Steady cat := Value.steady_of_extras rfl rfl
    exact .ofModel hs (.member (hs.lacks _ (by simp [Value.renderings]))) rfl
      Drafted.isField_heldFields
  | sequence | dict | expr | select | insert | update | delete | statement | join =>
    simp [Value.isPlain] at h
  | _ => exact .ofParts (Value.steady_of_extras rfl rfl) rfl fun _ hx => by simp at hx

theorem Value.drafted_expr (x : Expr) : (Value.expr x).drafted cat e = x.drafted cat e := by
  rw [drafted]

/-- The drafts of a well-formed value are settled. -/
theorem Value.WellFormed.settled {v : Value} (h : v.WellFormed) :
    (v.drafted cat e).Settled cat := by
  induction h with
  | plain h => exact settled_plain cat e h
  | sequence form h ih =>
    refine .ofParts (Value.steady_of_extras rfl rfl) rfl fun x hx => ?_
    rw [draftAll_eq_map] at hx
    obtain ⟨v, hv, rfl⟩ := List.mem_map.1 hx
    exact ih v hv
  | dict h ih =>
    refine .ofParts (Value.steady_of_extras rfl rfl) rfl fun x hx => ?_
    rw [draftKeys_eq_map] at hx
    obtain ⟨entry, hentry, rfl⟩ := List.mem_map.1 hx
    exact ih entry hentry
  | literal v k ha =>
    rw [Value.drafted, Expr.drafted]
    exact .ofModel (Value.steady_expr ha) (.literal v) rfl Drafted.isField_ofFields
  | column id ha =>
    rw [Value.drafted, Expr.drafted]
    exact .ofModel (Value.steady_expr ha) (.columnDraft id) rfl Drafted.isField_heldFields
  | apply op symbol ha h ih =>
    rw [Value.drafted, Expr.drafted]
    refine .ofModel (Value.steady_expr ha) ?_ rfl ?_
    · refine Operator.settled_draft (fun o ho => ?_) e op symbol
      rw [draftExprs_eq_map, List.map_map] at ho
      obtain ⟨x, hx, rfl⟩ := List.mem_map.1 ho
      have hdrafted := Value.drafted_expr cat e x ▸ ih x hx
      exact hdrafted.asOperand
    · intro y hy
      rcases List.mem_append.1 hy with hy | hy
      · exact Drafted.isField_ofFields y hy
      · obtain ⟨flag, -, rfl⟩ := List.mem_map.1 hy
        exact Drafted.isField_ofField ..
  | order descending ha h ih =>
    rw [Value.drafted] at ih
    rw [Value.drafted, Expr.drafted]
    exact .ofModel (Value.steady_expr ha) (ih.whole.directed descending) rfl
      Drafted.isField_ofFields
  | group ha h ih =>
    rw [Value.drafted] at ih
    rw [Value.drafted, Expr.drafted]
    exact .ofModel (Value.steady_expr ha) (.parenthesized ih.whole) rfl Drafted.isField_ofFields
  | raw s ha =>
    rw [Value.drafted, Expr.drafted]
    exact .ofModel (Value.steady_expr ha) (.text s) rfl Drafted.isField_ofFields
  | subquery ha h ih =>
    rw [Value.drafted, Expr.drafted]
    exact .ofModel (Value.steady_expr ha) (.parenthesized ih.built) rfl Drafted.isField_ofFields
  | bare ha =>
    rw [Value.drafted, Expr.drafted]
    exact .ofModel (Value.steady_expr ha) (.fail _) rfl Drafted.isField_ofFields
  | @select q hx filter fields fieldRow sources sourceRow joins joinRow groupBy groupRow having
      orderBy orderRow unions unionRow ihFilter ihFields ihSources ihJoins ihGroup ihHaving ihOrder
      ihUnions =>
    cases q
    rw [Value.drafted, Select.drafted]
    refine .ofStatement hx rfl ?_ Drafted.isField_statementFields
    refine SelectParts.Settled.draft ⟨hx, ihFilter, ihFields, ?_, ihSources, ?_, ihJoins, ?_,
      ihGroup, ?_, ihHaving, ihOrder, ?_, ihUnions, ?_⟩ e
    all_goals rwa [Value.value_drafted]
  | @insert q hx table rows rowsRow query returning returningRow ihTable ihRows ihQuery
      ihReturning =>
    cases q
    rw [Value.drafted, Insert.drafted]
    refine .ofStatement hx rfl ?_ Drafted.isField_statementFields
    have hsteady := ihTable.steady
    rw [Value.value_drafted] at hsteady
    refine InsertParts.Settled.draft ⟨hsteady, ihRows, ?_, ihQuery, ihReturning, ?_⟩ e
    all_goals rwa [Value.value_drafted]
  | @update q hx filter table assignments assignmentRow returning returningRow ihFilter ihTable
      ihAssignments ihReturning =>
    cases q
    rw [Value.drafted, Update.drafted]
    refine .ofStatement hx rfl ?_ Drafted.isField_statementFields
    refine UpdateParts.Settled.draft ⟨hx, ihFilter, ihTable, ihAssignments, ?_, ihReturning, ?_⟩ e
    all_goals rwa [Value.value_drafted]
  | @delete q hx filter table returning returningRow ihFilter ihTable ihReturning =>
    cases q
    rw [Value.drafted, Delete.drafted]
    refine .ofStatement hx rfl ?_ Drafted.isField_statementFields
    refine settled_deleteDraft e hx ihFilter ihTable ihReturning ?_
    rwa [Value.value_drafted]
  | statement hx =>
    rw [Value.drafted]
    exact .ofStatement hx rfl (.fail _) Drafted.isField_statementFields
  | @join j hsource hon ihSource ihOn =>
    obtain ⟨kind, source, on, shared⟩ := j
    rw [Value.drafted, Join.drafted]
    refine .ofModel (Value.steady_of_extras rfl rfl) ?_ rfl Drafted.isField_ofFields
    refine settled_joinDraft _ ihSource (fun y hy => ?_) _
    cases on with
    | none => simp [draftOptional] at hy
    | some x =>
      obtain rfl : x.drafted cat e = y := by simpa [draftOptional] using hy
      exact Value.drafted_expr cat e x ▸ ihOn x rfl

end SqlCompose
