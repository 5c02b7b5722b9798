import SqlCompose.Proofs.Draft.Settled
import SqlCompose.Expr.TypeOf

/-!
# Well-formed values

Values as they are made without putting something foreign into a copy of them: an alias is a text, a
clause of several parts is not made of named fields, and a statement holds nothing under the names
of the steps that render it. Such values leave nothing to be called while they are rendered.
-/
namespace SqlCompose

namespace Value

variable {cat : Catalog}

/-- Whether a value is a text. -/
def IsText (v : Value) : Prop := ∃ s, v = text s

theorem isText_text (s : String) : (text s).IsText := ⟨s, rfl⟩

/-- Whether a value can stand as an alias: a text, or what counts as no alias. -/
def IsAlias (a : Value) : Prop := a.truthy = true → a.IsText

theorem isAlias_none : none.IsAlias := fun h => by simp [truthy, none, Scalar.truthy] at h

/-- The names under which a value is asked for its SQL. -/
def renderings : List String := ["build", "build_reference", "build_selected", "build_index"]

/-- The names under which a statement can hold something that goes before its own steps. -/
def hooks : List String := renderings ++ ["name", "_build_where", "_from_sources"]

/-- Whether nothing was put in the place of the steps of a statement. -/
def Unhooked (extras : List (String × Value)) : Prop :=
  ∀ name ∈ hooks, extras.lookup name = Option.none

/-- Whether a value has no parts that are expressions, clauses or statements. -/
def isPlain : Value → Bool
  | sequence .. | dict _ | expr _ | select _ | insert _ | update _ | delete _ | statement _
  | join _ => false
  | _ => true

/-- Whether a value falls into parts, if at all, that are not under names. -/
def IsRow (v : Value) : Prop := v.hasFields = false

/-- Values in which nothing foreign was put. -/
inductive WellFormed : Value → Prop
  | plain {v : Value} (h : v.isPlain = true) : WellFormed v
  | sequence (form : SequenceForm) {items : List Value} (h : ∀ v ∈ items, WellFormed v) :
    WellFormed (.sequence form items)
  | dict {entries : List (Value × Value)} (h : ∀ entry ∈ entries, WellFormed entry.1) :
    WellFormed (.dict entries)
  | literal {a : Value} (v : Value) (k : Option DataKind) (ha : a.IsAlias) :
    WellFormed (.expr (.literal a v k))
  | column {a : Value} (id : ColumnId) (ha : a.IsAlias) : WellFormed (.expr (.column a id))
  | apply {a : Value} (op : Operator) (symbol : String) {arguments : List Expr} (ha : a.IsAlias)
    (h : ∀ x ∈ arguments, WellFormed (.expr x)) : WellFormed (.expr (.apply a op symbol arguments))
  | order {a : Value} {x : Expr} (descending : Bool) (ha : a.IsAlias) (h : WellFormed (.expr x)) :
    WellFormed (.expr (.order a x descending))
  | group {a : Value} {x : Expr} (ha : a.IsAlias) (h : WellFormed (.expr x)) :
    WellFormed (.expr (.group a x))
  | raw {a : Value} (s : String) (ha : a.IsAlias) : WellFormed (.expr (.raw a s))
  | subquery {a body : Value} (ha : a.IsAlias) (h : WellFormed body) :
    WellFormed (.expr (.subquery a body))
  | bare {a : Value} (ha : a.IsAlias) : WellFormed (.expr (.bare a))
  | select {q : Select} (hx : Unhooked q.extras)
    (filter : WellFormed q.filter) (fields : WellFormed q.fields) (fieldRow : q.fields.IsRow)
    (sources : WellFormed q.sources) (sourceRow : q.sources.IsRow)
    (joins : WellFormed q.joins) (joinRow : q.joins.IsRow)
    (groupBy : WellFormed q.groupBy) (groupRow : q.groupBy.IsRow) (having : WellFormed q.having)
    (orderBy : WellFormed q.orderBy) (orderRow : q.orderBy.IsRow)
    (unions : WellFormed q.unions) (unionRow : q.unions.IsRow) : WellFormed (.select q)
  | insert {q : Insert} (hx : Unhooked q.extras) (table : WellFormed q.table)
    (rows : WellFormed q.rows) (rowsRow : q.rows.IsRow) (query : WellFormed q.query)
    (returning : WellFormed q.returning) (returningRow : q.returning.IsRow) :
    WellFormed (.insert q)
  | update {q : Update} (hx : Unhooked q.extras) (filter : WellFormed q.filter)
    (table : WellFormed q.table) (assignments : WellFormed q.assignments)
    (assignmentRow : q.assignments.IsRow) (returning : WellFormed q.returning)
    (returningRow : q.returning.IsRow) : WellFormed (.update q)
  | delete {q : Delete} (hx : Unhooked q.extras) (filter : WellFormed q.filter)
    (table : WellFormed q.table) (returning : WellFormed q.returning)
    (returningRow : q.returning.IsRow) : WellFormed (.delete q)
  | statement {extras : List (String × Value)} (hx : Unhooked extras) :
    WellFormed (.statement extras)
  | join {j : Join} (source : WellFormed j.source)
    (on : ∀ x, j.on = some x → WellFormed (.expr x)) : WellFormed (.join j)

theorem wellFormed_tuple {items : List Value} :
    (tuple items).WellFormed ↔ ∀ v ∈ items, v.WellFormed := by
  refine ⟨fun h => ?_, .sequence .tuple⟩
  cases h with
  | plain h => cases h
  | sequence _ h => exact h

theorem wellFormed_join {j : Join} : (join j).WellFormed ↔
    j.source.WellFormed ∧ ∀ x, j.on = some x → (expr x).WellFormed := by
  refine ⟨fun h => ?_, fun ⟨source, on⟩ => .join source on⟩
  cases h with
  | plain h => cases h
  | join source on => exact ⟨source, on⟩

/-- Values that a rendering leaves as they are: under the names of renderings they hold nothing that
could be called, their name is a text, and so is their alias. -/
structure Steady (cat : Catalog) (v : Value) : Prop where
  lacks : ∀ word ∈ renderings, v.Lacks cat word
  named : ∀ w, v.get cat "name" = .ok w → w.IsText
  asName : ∀ x, v = .expr x → x.asName.IsAlias

/-- Whether a field has no name of a rendering, and is a text if it is called a name. -/
def IsOrdinary (field : String × Value) : Prop :=
  field.1 ∉ renderings ∧ (field.1 = "name" → field.2.IsText)

theorem isOrdinary_flag (op : Operator) :
    ∀ flag ∈ op.flags, IsOrdinary (flag.1, .scalar flag.2) := by
  cases op <;> simp [Operator.flags, IsOrdinary, renderings]

theorem isOrdinary_declared (v : Value) : ∀ field ∈ v.declaredFields cat, IsOrdinary field := by
  cases v with
  | expr x =>
    cases x with
    | apply a op symbol arguments =>
      intro field hf
      simp only [declaredFields, Expr.namedFields, List.mem_append, List.mem_map] at hf
      rcases hf with hf | ⟨flag, hflag, rfl⟩
      · simp only [List.mem_cons, List.not_mem_nil, or_false] at hf
        rcases hf with rfl | rfl | rfl <;> simp [IsOrdinary, renderings]
      · exact isOrdinary_flag op flag hflag
    | column a id =>
      simp [declaredFields, Expr.namedFields, Column.namedFields, Column.leadingFields,
        Column.trailingFields, IsOrdinary, renderings, isText_text]
    | _ => simp [declaredFields, Expr.namedFields, IsOrdinary, renderings]
  | table id => simp [declaredFields, Table.namedFields, IsOrdinary, renderings, isText_text]
  | select q => simp [declaredFields, Select.namedFields, Select.fieldNames, IsOrdinary, renderings]
  | insert q => simp [declaredFields, Insert.namedFields, Insert.fieldNames, IsOrdinary, renderings]
  | update q => simp [declaredFields, Update.namedFields, Update.fieldNames, IsOrdinary, renderings]
  | delete q => simp [declaredFields, Delete.namedFields, Delete.fieldNames, IsOrdinary, renderings]
  | join j => simp [declaredFields, Join.namedFields, IsOrdinary, renderings]
  | index i => simp [declaredFields, Index.namedFields, IsOrdinary, renderings, isText_text]
  | foreignKey k => simp [declaredFields, ForeignKey.namedFields, IsOrdinary, renderings]
  | dialect d => simp [declaredFields, Dialect.namedFields, IsOrdinary, renderings]
  | context d n items => simp [declaredFields, IsOrdinary, renderings]
  | _ => simp [declaredFields]

/-- What follows from a value under the name of a rendering is a column, if anything. -/
theorem derived?_of_rendering {v : Value} {word : String} (hw : word ∈ renderings) {w : Value}
    (h : v.derived? cat word = some w) : ∃ x, w = .expr x := by
  simp only [renderings, List.mem_cons, List.not_mem_nil, or_false] at hw
  cases v with
  | table id =>
    have hc : columnUnder? cat id word = some w := by
      rcases hw with rfl | rfl | rfl | rfl <;> simpa [derived?] using h
    simp only [columnUnder?] at hc
    split at hc
    · simp at hc
    · obtain ⟨r, -, rfl⟩ := Option.map_eq_some_iff.1 hc
      exact ⟨_, rfl⟩
  | _ => rcases hw with rfl | rfl | rfl | rfl <;> simp [derived?] at h

/-- The name that follows from a value is a text, unless the value is a table. -/
theorem derived?_name {v w : Value} (hv : v.table? = Option.none)
    (h : v.derived? cat "name" = some w) : w.IsText := by
  cases v with
  | kind k => exact ⟨k.name, by simpa [derived?, eq_comm] using h⟩
  | dialect d => exact ⟨d.name, by simpa [derived?, eq_comm] using h⟩
  | table id => simp [table?] at hv
  | _ => simp [derived?] at h

theorem mem_of_lookup {entries : List (String × Value)} {name : String} {v : Value}
    (h : entries.lookup name = some v) : (name, v) ∈ entries := by
  obtain ⟨before, after, rfl, -⟩ := List.lookup_eq_some_iff.1 h
  simp

theorem held?_of_get {v w : Value} {name : String} (h : v.get cat name = .ok w) :
    v.held? cat name = some w := by
  cases hw : v.held? cat name with
  | none => simp [get, hw] at h
  | some u => simpa [get, hw] using h

/-- A value without hooks leaves nothing to call under the name of a rendering. -/
theorem lacks_of_lookup {v : Value} {word : String} (hw : word ∈ renderings)
    (hl : v.extras.lookup word = Option.none) : v.Lacks cat word := by
  intro f hf arguments
  have hheld := held?_of_get hf
  cases hd : (v.declaredFields cat).lookup word with
  | some u => exact absurd hw (isOrdinary_declared v _ (mem_of_lookup hd)).1
  | none =>
    rw [held?, hd, hl, Option.none_or, Option.none_or] at hheld
    obtain ⟨x, rfl⟩ := derived?_of_rendering hw hheld
    exact ⟨_, rfl⟩

/-- The name of a value without hooks is a text. -/
theorem isText_name {v w : Value} (hl : v.extras.lookup "name" = Option.none)
    (hw : v.get cat "name" = .ok w) : w.IsText := by
  have hheld := held?_of_get hw
  cases hd : (v.declaredFields cat).lookup "name" with
  | some u =>
    obtain rfl : u = w := by simpa [held?, hd] using hheld
    exact (isOrdinary_declared v _ (mem_of_lookup hd)).2 rfl
  | none =>
    rw [held?, hd, hl, Option.none_or, Option.none_or] at hheld
    refine derived?_name ?_ hheld
    cases v with
    | table id => simp [declaredFields, Table.namedFields] at hd
    | _ => rfl

/-- A value without hooks is steady. -/
theorem steady_of_unhooked {v : Value} (hx : Unhooked v.extras)
    (ha : ∀ x, v = .expr x → x.asName.IsAlias) : v.Steady cat :=
  ⟨fun _ hw => lacks_of_lookup hw (hx _ (List.mem_append_left _ hw)),
    fun _ hw => isText_name (hx "name" (by simp [hooks])) hw, ha⟩

theorem unhooked_nil : Unhooked [] := fun _ _ => rfl

/-- A value that is no expression and holds nothing besides its fields is steady. -/
theorem steady_of_extras {v : Value} (hx : v.extras = []) (ha : v.expr? = Option.none) :
    v.Steady cat :=
  steady_of_unhooked (hx ▸ unhooked_nil) fun x hv => by simp [hv, expr?] at ha

theorem steady_expr {x : Expr} (ha : x.asName.IsAlias) : (expr x).Steady cat :=
  steady_of_unhooked unhooked_nil fun _ hv => by
    obtain rfl := Value.expr.inj hv
    exact ha

end Value

end SqlCompose
