import SqlCompose.Compile
import SqlCompose.Dialect.Standard
import SqlCompose.Proofs.Expr.Values
import SqlCompose.Proofs.Render.Settled

/-!
# Values in definitions

What defines a table or a column has no places for values: names, types, keys, raw text and plain
defaults are written out in any dialect. The exception is a default that is an expression, which is
written as it is in a statement. If it has a value in it, a dialect that binds values binds this one
too.
-/
namespace SqlCompose

variable {cat : Catalog} {e : Engine} {d : Dialect}

/-! ## Defaults -/

namespace Column

variable {c : Column}

/-- The expression that is the default of a column, if it is neither a plain value nor a literal. -/
def defaultExpr? (c : Column) : Option Expr := c.default.unwrapped.expr?

/-- The values in the default of a column. -/
def defaultValues (cat : Catalog) (e : Engine) (c : Column) : List Value :=
  match c.defaultExpr? with
  | some x => (x.reference cat e).values
  | none => []

/-- Whether a node with a value stands in the default of a column. -/
def DefaultHasValue (cat : Catalog) (e : Engine) (c : Column) : Prop :=
  ∃ x, c.defaultExpr? = some x ∧ ∃ y ∈ x.walk, y.HasValue cat e

/-- A default is a plain value, raw text or another expression in parentheses. -/
theorem defaultDraft_cases (cat : Catalog) (e : Engine) (c : Column) :
    (c.defaultExpr? = none ∧ defaultDraft cat e c.default = .inlined c.default.unwrapped) ∨
    (∃ a s, c.defaultExpr? = some (.raw a s) ∧ defaultDraft cat e c.default = .text s) ∨
    ∃ x, c.defaultExpr? = some x ∧
      defaultDraft cat e c.default = Draft.text "(" + x.reference cat e + Draft.text ")" := by
  unfold defaultDraft defaultExpr?
  split
  · rename_i a s hx
    exact .inr (.inl ⟨a, s, hx, rfl⟩)
  · rename_i x _ hx
    exact .inr (.inr ⟨x, hx, rfl⟩)
  · rename_i hnone
    exact .inl ⟨hnone, rfl⟩

theorem values_defaultDraft (cat : Catalog) (e : Engine) (c : Column) :
    (defaultDraft cat e c.default).values = c.defaultValues cat e := by
  unfold defaultValues
  obtain ⟨hx, hdraft⟩ | ⟨a, s, hx, hdraft⟩ | ⟨x, hx, hdraft⟩ := defaultDraft_cases cat e c
  · rw [hx, hdraft]
    rfl
  · rw [hx, hdraft]
    rfl
  · rw [hx, hdraft]
    simp

theorem defaultExpr?_of_isNone (h : c.default.isNone = true) : c.defaultExpr? = none := by
  unfold defaultExpr?
  cases hc : c.default with
  | scalar s => rfl
  | _ => simp [hc, Value.isNone] at h

theorem values_defaultClause (cat : Catalog) (e : Engine) (c : Column) :
    (c.defaultClause cat e).flatMap Draft.values = c.defaultValues cat e := by
  unfold defaultClause
  split
  · rename_i h
    rw [defaultValues, defaultExpr?_of_isNone h]
    rfl
  · simp [values_defaultDraft]

/-! ## Columns -/

theorem settled_flags (cat : Catalog) (c : Column) : ∀ x ∈ c.flags, x.Settled cat false := by
  have hword : ∀ (p : Bool) (s : String), ∀ x ∈ if p then [Draft.text s] else [],
      x.Settled cat false := by
    intro p s x hx
    cases p with
    | false => cases hx
    | true =>
      obtain rfl := List.mem_singleton.1 hx
      exact .text s
  unfold flags
  simp only [List.forall_mem_append]
  exact ⟨⟨hword _ _, hword _ _⟩, hword _ _⟩

theorem settled_checkClause (cat : Catalog) (c : Column) :
    ∀ x ∈ c.checkClause, x.Settled cat false := by
  unfold checkClause
  split
  · simp
  · split
    · simpa using Draft.Settled.text _
    · simpa using Draft.Settled.fail _

theorem settled_collateClause (cat : Catalog) (c : Column) :
    ∀ x ∈ c.collateClause, x.Settled cat false := by
  unfold collateClause
  split
  · simp
  · rw [List.forall_mem_singleton]
    exact .plus (.text _) (.nameDraft _)

/-- The values in the definition of a column are those in its default. -/
theorem values_definition (cat : Catalog) (e : Engine) (c : Column) :
    (c.definition cat e).values = if c.kind.isNone then [] else c.defaultValues cat e := by
  unfold definition
  cases c.kind with
  | none => rfl
  | some kind =>
    simp only [Draft.values_asking, Draft.values_continued, List.flatMap_append,
      values_defaultClause, Draft.flatMap_values_of_settled (settled_flags cat c),
      Draft.flatMap_values_of_settled (settled_checkClause cat c),
      Draft.flatMap_values_of_settled (settled_collateClause cat c)]
    simp [nameDraft, Draft.values]

section Complete

variable (h : (c.definition cat e).Complete)
include h

theorem complete_clauses : c.kind.isNone = false ∧ ∀ x ∈ c.defaultClause cat e, x.Complete := by
  unfold definition at h
  cases hk : c.kind with
  | none =>
    rw [hk] at h
    exact absurd h (Draft.not_complete_fail _)
  | some kind =>
    rw [hk] at h
    simp only [Draft.complete_asking, Draft.complete_continued, List.forall_mem_append] at h
    exact ⟨rfl, h.2.1.1.2⟩

theorem values_of_complete : (c.definition cat e).values = c.defaultValues cat e := by
  rw [values_definition, (complete_clauses h).1]
  exact if_neg Bool.false_ne_true

/-- A default that is an expression is written in a complete definition. -/
theorem complete_of_definition {x : Expr} (hx : c.defaultExpr? = some x) :
    (x.reference cat e).Complete := by
  have hclause := (complete_clauses h).2
  unfold defaultClause at hclause
  split at hclause
  · rename_i hdefault
    rw [defaultExpr?_of_isNone hdefault] at hx
    cases hx
  · rw [List.forall_mem_singleton, Draft.complete_plus] at hclause
    obtain ⟨hnone, -⟩ | ⟨a, s, hraw, -⟩ | ⟨y, hy, hdraft⟩ := defaultDraft_cases cat e c
    · rw [hnone] at hx
      cases hx
    · obtain rfl := Option.some.inj (hx.symm.trans hraw)
      exact Draft.complete_text s
    · obtain rfl := Option.some.inj (hx.symm.trans hy)
      rw [hdraft] at hclause
      simpa using hclause

end Complete

section Marking

variable (style : PlaceholderStyle) (binding : Bool) (number number' : Nat)

/-- The type of a column does not depend on how values are marked. -/
theorem declaredType_marking (cat : Catalog) (d : Dialect) (c : Column) (kind : DataKind) :
    c.declaredType cat (d.marking style binding) kind = c.declaredType cat d kind := rfl

variable (hw : ∀ x, c.defaultExpr? = some x → (Value.expr x).WellFormed)
  (hv : ∀ v ∈ c.defaultValues cat d.engine, d.bindLiterals = false ∧ binding = false)
include hw hv

/-- A default is written alike however values are marked, if those in it are written out. -/
theorem carried_defaultDraft : Draft.Carried cat (.context d number)
    (.context (d.marking style binding) number') (defaultDraft cat d.engine c.default) := by
  obtain ⟨-, hdraft⟩ | ⟨a, s, -, hdraft⟩ | ⟨x, hx, hdraft⟩ := defaultDraft_cases cat d.engine c
  · rw [hdraft]
    exact Draft.carried_inlined style binding number number' _
  · rw [hdraft]
    exact .token _
  · have hsettled := (hw x hx).settled cat d.engine
    rw [Value.drafted_expr] at hsettled
    have hvalues : c.defaultValues cat d.engine = (x.reference cat d.engine).values := by
      rw [defaultValues, hx]
    rw [hvalues] at hv
    rw [hdraft]
    exact ((Draft.Carried.token _).plus
      (hsettled.whole.carried style binding number number' hv)).plus (.token _)

theorem carried_definition : Draft.Carried cat (.context d number)
    (.context (d.marking style binding) number') (c.definition cat d.engine) := by
  unfold definition
  cases c.kind with
  | none => exact .fail _
  | some kind =>
    have hname : (nameDraft c.name).Settled cat false := .nameDraft _
    have hasked : (Draft.ask "").Settled cat false := .ask _
    have htype : Draft.Carried cat (.context d number)
        (.context (d.marking style binding) number')
        (.ofDialect fun d => c.declaredType cat d kind) :=
      Draft.carried_ofDialect style binding number number'
        (declaredType_marking style binding cat d c kind)
    have hdefault : ∀ x ∈ c.defaultClause cat d.engine, Draft.Carried cat (.context d number)
        (.context (d.marking style binding) number') x := by
      unfold defaultClause
      split
      · simp
      · rw [List.forall_mem_singleton]
        exact (Draft.Carried.token _).plus (carried_defaultDraft style binding number number' hw hv)
    refine .before hasked.carried_of_quiet
      (((hname.carried_of_quiet.plus (.token _)).extend htype).continued ?_)
    simp only [List.forall_mem_append]
    exact ⟨⟨⟨fun x hx => (settled_flags cat c x hx).carried_of_quiet, hdefault⟩,
      fun x hx => (settled_checkClause cat c x hx).carried_of_quiet⟩,
      fun x hx => (settled_collateClause cat c x hx).carried_of_quiet⟩

end Marking

end Column

/-! ## Keys -/

theorem ForeignKey.settled_reaction (words : String) (action : Option String) :
    ∀ x ∈ reaction words action, x.Settled cat false := by
  unfold reaction
  split
  · simp
  · split
    · simp
    · rw [List.forall_mem_singleton]
      exact .text _

/-- A FOREIGN KEY clause has no values in it. -/
theorem ForeignKey.settled_definition (key : ForeignKey) (table : Value) :
    (key.definition cat table).Settled cat false := by
  refine .guarded fun _ => .given fun target _ => ?_
  have hnames : (Draft.commaSeparated (key.columns.map nameDraft)).Settled cat false :=
    .commaSeparated fun x hx => by
      obtain ⟨s, -, rfl⟩ := List.mem_map.1 hx
      exact .nameDraft s
  have htargets : (Draft.commaSeparated (key.targets.map (columnName cat))).Settled cat false :=
    .commaSeparated fun x hx => by
      obtain ⟨id, -, rfl⟩ := List.mem_map.1 hx
      exact .columnName id
  refine .continued (.plus (.plus (.plus (.plus (.plus (.plus (.text _) hnames) (.text _))
    (.nameDraft _)) (.text _)) htargets) (.text _)) ?_
  exact List.forall_mem_append.2 ⟨settled_reaction _ _, settled_reaction _ _⟩

theorem settled_primaryKeyDraft (t : TableId) :
    ∀ x ∈ primaryKeyDraft cat t, x.Settled cat false := by
  intro x hx
  unfold primaryKeyDraft at hx
  dsimp only at hx
  split at hx
  · cases hx
  · obtain rfl := List.mem_singleton.1 hx
    exact .guarded fun _ => .plus (.text _) (.nameList _)

/-! ## Definitions -/

/-- What is defined: a table with all its columns, or a column on its own. -/
inductive Definition
  | table (id : TableId) (ifNotExists : Bool)
  | column (id : ColumnId)

namespace Definition

/-- What is written for a definition. -/
def draft (cat : Catalog) (e : Engine) : Definition → Draft
  | table id ifNotExists => createTableDraft cat e id ifNotExists
  | column id => (cat.column id).definition cat e

/-- The columns in a definition, in order. -/
def columns (cat : Catalog) : Definition → List Column
  | table id _ => (cat.table id).columns.map fun r => cat.column r.id
  | column id => [cat.column id]

/-- The values in the defaults of the columns, in order. -/
def values (cat : Catalog) (e : Engine) (x : Definition) : List Value :=
  (x.columns cat).flatMap (·.defaultValues cat e)

/-- Whether no node with a value stands in a default. -/
def IsFixed (cat : Catalog) (e : Engine) (x : Definition) : Prop :=
  ∀ c ∈ x.columns cat, ¬c.DefaultHasValue cat e

variable {x : Definition}

theorem values_eq_nil (h : x.IsFixed cat e) : x.values cat e = [] := by
  refine List.flatMap_eq_nil_iff.2 fun c hc => ?_
  unfold Column.defaultValues
  split
  · rename_i y hy
    exact (Expr.values_reference y).1 fun node hnode hvalue => h c hc ⟨y, hy, node, hnode, hvalue⟩
  · rfl

/-- A definition is refused, or its columns are written one by one, with nothing around them that
has values. -/
theorem draft_cases (cat : Catalog) (e : Engine) (x : Definition) :
    (∃ error, x.draft cat e = .fail error) ∨
    (∃ c, x.columns cat = [c] ∧ x.draft cat e = c.definition cat e) ∨
    ∃ (opening closing : Draft) (keys : List Draft), opening.Settled cat false ∧
      closing.Settled cat false ∧ (∀ key ∈ keys, key.Settled cat false) ∧
      x.draft cat e
        = .framed none opening ((x.columns cat).map (·.definition cat e) ++ keys) closing := by
  cases x with
  | column id => exact .inr (.inl ⟨_, rfl, rfl⟩)
  | table id ifNotExists =>
    unfold draft createTableDraft columns
    dsimp only
    split
    · exact .inl ⟨_, rfl⟩
    · split
      · exact .inl ⟨_, rfl⟩
      · have hopening : (Draft.text ("CREATE TABLE "
            ++ (if ifNotExists then "IF NOT EXISTS " else "")) + nameDraft (cat.table id).name
            + .text " (").Settled cat false :=
          .plus (.plus (.text _) (.nameDraft _)) (.text _)
        have hkeys : ∀ key ∈ primaryKeyDraft cat id
            ++ (cat.table id).foreignKeys.map (ForeignKey.definition cat (.table id)),
            key.Settled cat false := by
          rw [List.forall_mem_append, List.forall_mem_map]
          exact ⟨settled_primaryKeyDraft id, fun key _ => key.settled_definition _⟩
        refine .inr (.inr ⟨_, .text ")", _, hopening, .text ")", hkeys, ?_⟩)
        rw [List.map_map, ← List.append_assoc]
        rfl

/-- The values in a definition are those in the definitions of its columns, unless it is refused. -/
theorem values_draft (cat : Catalog) (e : Engine) (x : Definition) :
    (∃ error, x.draft cat e = .fail error) ∨
      (x.draft cat e).values = (x.columns cat).flatMap fun c => (c.definition cat e).values := by
  obtain ⟨error, hfail⟩ | ⟨c, hc, hdraft⟩ | ⟨opening, closing, keys, ho, hcl, hk, hdraft⟩ :=
    draft_cases cat e x
  · exact .inl ⟨error, hfail⟩
  · rw [hdraft, hc, List.flatMap_singleton]
    exact .inr rfl
  · rw [hdraft, Draft.values_framed, List.flatMap_append, List.flatMap_map, ho.values_eq_nil,
      hcl.values_eq_nil, Draft.flatMap_values_of_settled hk]
    exact .inr (by simp)

/-- If no default has a value, the definition has none, whether it is refused or not. -/
theorem values_draft_eq_nil (h : x.IsFixed cat e) : (x.draft cat e).values = [] := by
  obtain ⟨error, hfail⟩ | hvalues := values_draft cat e x
  · rw [hfail]
    rfl
  · have hnone := List.flatMap_eq_nil_iff.1 (values_eq_nil h)
    rw [hvalues, List.flatMap_eq_nil_iff]
    intro c hc
    rw [Column.values_definition, hnone c hc, ite_self]

section Complete

variable (h : (x.draft cat e).Complete)
include h

theorem complete_columns : ∀ c ∈ x.columns cat, (c.definition cat e).Complete := by
  obtain ⟨error, hfail⟩ | ⟨c, hc, hdraft⟩ | ⟨opening, closing, keys, -, -, -, hdraft⟩ :=
    draft_cases cat e x
  · rw [hfail] at h
    exact absurd h (Draft.not_complete_fail error)
  · rw [hdraft] at h
    rw [hc, List.forall_mem_singleton]
    exact h
  · rw [hdraft, Draft.complete_framed, List.forall_mem_append, List.forall_mem_map] at h
    exact h.1.1

/-- A complete definition has all the values in the defaults. -/
theorem values_draft_of_complete : (x.draft cat e).values = x.values cat e := by
  obtain ⟨error, hfail⟩ | hvalues := values_draft cat e x
  · rw [hfail] at h
    exact absurd h (Draft.not_complete_fail error)
  · rw [hvalues, values]
    refine List.flatMap_congr fun c hc => ?_
    exact Column.values_of_complete (complete_columns h c hc)

/-- A complete definition has no values if and only if no default has one. -/
theorem values_eq_nil_iff : x.values cat e = [] ↔ x.IsFixed cat e := by
  refine ⟨fun hnil c hc hvalue => ?_, values_eq_nil⟩
  obtain ⟨y, hy, node, hnode, hnodeValue⟩ := hvalue
  have hdefault := List.flatMap_eq_nil_iff.1 hnil c hc
  have hcomplete := Column.complete_of_definition (complete_columns h c hc) hy
  rw [Column.defaultValues, hy] at hdefault
  exact (Expr.values_reference y).2 hcomplete hdefault node hnode hnodeValue

end Complete

/-- A definition is written alike however values are marked, if those in its defaults are written
out. -/
theorem carried_draft (style : PlaceholderStyle) (binding : Bool) (number number' : Nat)
    (hw : ∀ c ∈ x.columns cat, ∀ y, c.defaultExpr? = some y → (Value.expr y).WellFormed)
    (hv : ∀ v ∈ x.values cat d.engine, d.bindLiterals = false ∧ binding = false) :
    Draft.Carried cat (.context d number) (.context (d.marking style binding) number')
      (x.draft cat d.engine) := by
  have hcolumns : ∀ c ∈ x.columns cat, Draft.Carried cat (.context d number)
      (.context (d.marking style binding) number') (c.definition cat d.engine) := fun c hc =>
    Column.carried_definition style binding number number' (hw c hc) fun v hmem =>
      hv v (List.mem_flatMap.2 ⟨c, hc, hmem⟩)
  obtain ⟨error, hfail⟩ | ⟨c, hc, hdraft⟩ | ⟨opening, closing, keys, ho, hcl, hk, hdraft⟩ :=
    draft_cases cat d.engine x
  · rw [hfail]
    exact .fail error
  · rw [hdraft]
    exact hcolumns c (by simp [hc])
  · rw [hdraft]
    refine .framed ho.carried_of_quiet ?_ hcl.carried_of_quiet
    rw [List.forall_mem_append, List.forall_mem_map]
    exact ⟨hcolumns, fun key hkey => (hk key hkey).carried_of_quiet⟩

end Definition

/-- Creating a table, or a column on its own, binds nothing and writes no placeholder as long as no
default is an expression with a value in it: what has been bound stays as it is, whatever comes of
the definition, and the text is the same in all placeholder styles, whether values are bound or
written out. A dialect that binds values binds those in the defaults, in the order of the columns,
and no others. -/
theorem definition_binds_values_of_defaults {x : Definition}
    (hw : ∀ c ∈ x.columns cat, ∀ y, c.defaultExpr? = some y → (Value.expr y).WellFormed)
    {number : Nat} {bound after : List Value} {r : Except Error Value}
    (h : (x.draft cat d.engine).outcome cat (.context d number) bound = (r, after)) :
    ((d.bindLiterals = true → x.IsFixed cat d.engine) → after = bound ∧
      ∀ sql, r = .ok sql → ∀ style binding number' bound',
        (binding = true → x.IsFixed cat d.engine) →
        (x.draft cat d.engine).outcome cat (.context (d.marking style binding) number') bound'
          = (.ok sql, bound')) ∧
    (d.bindLiterals = true → ∀ sql, r = .ok sql →
      after = bound ++ x.values cat d.engine ∧ (after = bound ↔ x.IsFixed cat d.engine)) := by
  obtain ⟨added, hadded, hstart, hall⟩ :=
    Draft.exists_added_of_outcome cat (.context d number) (x.draft cat d.engine) bound
  rw [h] at hadded hall
  refine ⟨fun hfixed => ⟨?_, ?_⟩, ?_⟩
  · have hnone : (Host.context d number).bound (x.draft cat d.engine).values = [] := by
      cases hb : d.bindLiterals with
      | false => simp [Host.bound, hb]
      | true => simp [Host.bound, Definition.values_draft_eq_nil (hfixed hb)]
    rw [hnone, List.prefix_nil] at hstart
    simpa [hstart] using hadded
  · rintro sql rfl style binding number' bound' hbinding
    have hv : ∀ v ∈ x.values cat d.engine, d.bindLiterals = false ∧ binding = false := by
      intro v hv
      have hne : ¬x.IsFixed cat d.engine := fun hf => by
        rw [Definition.values_eq_nil hf] at hv
        cases hv
      exact ⟨Bool.eq_false_iff.2 fun hb => hne (hfixed hb),
        Bool.eq_false_iff.2 fun hb => hne (hbinding hb)⟩
    have hcarried := Definition.carried_draft style binding number number' hw hv
    exact Draft.outcome_eq_iff.2 (hcarried _ _ _ (Draft.outcome_eq_iff.1 h) _)
  · rintro hb sql rfl
    have hcomplete := Draft.complete_of_outcome hb h
    have hvalues : added = x.values cat d.engine := by
      rw [hall ⟨sql, rfl⟩, ← Definition.values_draft_of_complete hcomplete]
      simp [Host.bound, hb]
    obtain rfl := hvalues
    refine ⟨hadded, ?_⟩
    rw [← Definition.values_eq_nil_iff hcomplete]
    exact ⟨fun hsame => by simpa [hsame] using hadded, fun hnil => by simpa [hnil] using hadded⟩

/-- A table with a call as a default, and one with a plain default and the clock. -/
def Catalog.ofDefaults : Catalog where
  columns := #[
    { name := "a", kind := some .text, default := .expr (Expr.call "LOWER" [.text "X"]) },
    { name := "b", kind := some .text, default := .text "y" },
    { name := "c", kind := some .text, default := .expr (Expr.call "NOW" []) }]
  tables := #[
    { name := "t", columns := [{ id := ⟨0⟩ }] },
    { name := "u", columns := [{ id := ⟨1⟩ }, { id := ⟨2⟩ }] }]

/-- The argument of a call is bound; a plain default is written out, and so is the clock. -/
theorem definition_binds_values_of_defaults_call :
    let d := Dialect.standard .generic
    let t := Definition.table ⟨0⟩ false
    let u := Definition.table ⟨1⟩ false
    ((t.draft .ofDefaults d.engine).outcome .ofDefaults (.context d 0) [.int 1]
        = (.ok (.text "CREATE TABLE t (a TEXT DEFAULT (LOWER(?)))"), [.int 1, .text "X"]) ∧
      t.values .ofDefaults d.engine = [.text "X"] ∧ ¬t.IsFixed .ofDefaults d.engine) ∧
    u.IsFixed .ofDefaults d.engine ∧
    ∀ style binding, (u.draft .ofDefaults d.engine).outcome .ofDefaults
        (.context (d.marking style binding) 1) [.int 2]
      = (.ok (.text "CREATE TABLE u (b TEXT DEFAULT 'y', c TEXT DEFAULT (NOW()))"), [.int 2]) := by
  intro d t u
  have ht : ∀ c ∈ t.columns .ofDefaults, ∀ y, c.defaultExpr? = some y →
      (Value.expr y).WellFormed := by
    intro c hc y hy
    obtain rfl := List.mem_singleton.1 hc
    obtain rfl := Option.some.inj hy
    exact Expr.wellFormed_apply.2 fun z hz => by
      obtain rfl := List.mem_singleton.1 hz
      exact Expr.wellFormed_literal _ _
  have hu : ∀ c ∈ u.columns .ofDefaults, ∀ y, c.defaultExpr? = some y →
      (Value.expr y).WellFormed := by
    intro c hc y hy
    rcases List.mem_cons.1 hc with rfl | hc
    · cases hy
    · obtain rfl := List.mem_singleton.1 hc
      obtain rfl := Option.some.inj hy
      exact Expr.wellFormed_apply.2 fun z hz => nomatch hz
  have hbound : (t.draft .ofDefaults d.engine).outcome .ofDefaults (.context d 0) [.int 1]
      = (.ok (.text "CREATE TABLE t (a TEXT DEFAULT (LOWER(?)))"), [.int 1, .text "X"]) := rfl
  have hkept : (u.draft .ofDefaults d.engine).outcome .ofDefaults (.context d 0) [.int 1]
      = (.ok (.text "CREATE TABLE u (b TEXT DEFAULT 'y', c TEXT DEFAULT (NOW()))"), [.int 1]) := rfl
  obtain ⟨hvalues, hiff⟩ := (definition_binds_values_of_defaults ht hbound).2 rfl _ rfl
  have hfixed := ((definition_binds_values_of_defaults hu hkept).2 rfl _ rfl).2.1 rfl
  refine ⟨⟨hbound, (List.cons.inj hvalues).2.symm, fun h => ?_⟩, hfixed, fun style binding => ?_⟩
  · exact absurd (hiff.2 h) (by simp)
  · exact ((definition_binds_values_of_defaults hu hkept).1 fun _ => hfixed).2 _ rfl style binding 1
      [.int 2] fun _ => hfixed

end SqlCompose
