import SqlCompose.Object.Declare
import SqlCompose.Object.Method.Table
import SqlCompose.Proofs.Catalog.Ownership
import SqlCompose.Proofs.Object.Quiet

/-!
# Columns and tables coming into being

Columns and tables are made in four ways: each is declared from its fields, and each is copied under
an alias. All of them keep the catalog sound and leave what is owned with its owner; what fails
leaves the catalog as it is.
-/
namespace SqlCompose

open SqlCompose.Action

namespace Workspace

variable {α : Type} {w : Workspace}

/-- A workspace with another catalog. -/
def withCatalog (w : Workspace) (cat : Catalog) : Workspace :=
  { w with session := { w.session with catalog := cat } }

theorem run_catalog_bind (f : Catalog → Action α) :
    (catalog >>= f).run w = (f w.session.catalog).run w := rfl

theorem run_setCatalog_bind (cat : Catalog) (f : Unit → Action α) :
    (setCatalog cat >>= f).run w = (f ()).run (w.withCatalog cat) := rfl

theorem run_lift_bind_ok {β : Type} (x : β) (f : β → Action α) :
    (lift (.ok x) >>= f).run w = (f x).run w := rfl

end Workspace

/-- What makes a column or a table, with what it is given. -/
inductive Construction
  | column (a : Arguments)
  | columnAs (asName o : Object) (a : Value) (id : ColumnId)
  | table (a : Arguments)
  | tableAs (id : TableId) (asName : Object)

namespace Construction

def run : Construction → Action Object
  | column a => Declare.column a
  | columnAs asName o a id => Workspace.named asName o (.column a id)
  | table a => Declare.table a
  | tableAs id asName => Method.aliased id asName

/-- Whether the columns that a table is given exist. -/
def Given (cat : Catalog) : Construction → Prop
  | table a => ∀ asName id, Value.expr (.column asName id) ∈ a.moreValues → cat.HasColumn id
  | _ => True

/-- What a construction makes of a workspace: if it fails the catalog is as it was, and otherwise it
is another one. -/
inductive Turns (w : Workspace) (P : Catalog → Prop) (r : Except Error Object × Workspace) : Prop
  | fails (e : Error) (h : r.1 = .error e) (hs : r.2.session.catalog = w.session.catalog)
  | succeeds (o : Object) (cat : Catalog) (h : r.1 = .ok o) (hs : r.2.session.catalog = cat)
    (hc : P cat)

theorem turns_of_quiet {w between : Workspace} {P : Catalog → Prop} {cat : Catalog} (hc : P cat)
    {a : Action Object} (h : a.Quiet) : Turns w P (a.run (between.withCatalog cat)) := by
  obtain ⟨o, ho⟩ := h.succeeds (between.withCatalog cat)
  exact .succeeds o cat ho (congrArg Session.catalog (h.session _)) hc

theorem owner_columnFields {cat : Catalog} {name : Option Value} {kind : Value} {fields : Fields}
    {c : Column} (h : Declare.columnFields cat name kind fields = .ok c) : c.owner = none := by
  simp only [Declare.columnFields, Except.bind_eq_ok_iff] at h
  obtain ⟨_, -, _, -, _, -, _, -, _, -, _, -, _, -, _, -, _, -, _, -, hc⟩ := h
  obtain rfl := Except.ok.inj hc
  rfl

theorem turns_column (a : Arguments) (w : Workspace) :
    Turns w (fun cat => ∃ c : Column, c.owner = none ∧ cat = (w.session.catalog.addColumn c).2)
      ((Declare.column a).run w) := by
  unfold Declare.column
  rw [Workspace.run_catalog_bind]
  cases hc : Declare.columnFields w.session.catalog (some (a.value "name")) (a.value "data_type")
    a.otherValues with
  | error e =>
    simp only [hc]
    exact .fails e rfl rfl
  | ok c =>
    simp only [hc]
    rw [Workspace.run_lift_bind_ok, Workspace.run_setCatalog_bind]
    exact turns_of_quiet ⟨c, owner_columnFields hc, rfl⟩
      ((Workspace.quiet_make _).bind fun _ => Keeping.quiet_keep ..)

theorem turns_table (a : Arguments) (w : Workspace) :
    Turns w (fun cat => ∃ options id,
        w.session.catalog.addTable (a.value "name") a.moreValues options = .ok (id, cat))
      ((Declare.table a).run w) := by
  unfold Declare.table
  rw [Workspace.run_catalog_bind]
  cases hc : w.session.catalog.addTable (a.value "name") a.moreValues
    (Declare.tableOptions w.session.catalog a.otherValues) with
  | error e =>
    simp only [hc]
    exact .fails e rfl rfl
  | ok made =>
    obtain ⟨id, cat⟩ := made
    simp only [hc]
    rw [Workspace.run_lift_bind_ok, Workspace.run_setCatalog_bind]
    exact turns_of_quiet ⟨_, id, hc⟩ ((Keeping.quiet_copyColumns ..).bind fun _ =>
      (Workspace.quiet_make _).bind fun _ => Keeping.quiet_keep ..)

theorem turns_named (asName o : Object) (e : Expr) (w : Workspace) :
    Turns w (· = (w.session.catalog.named asName.value e).2)
      ((Workspace.named asName o e).run w) := by
  unfold Workspace.named
  rw [Workspace.run_catalog_bind, Workspace.run_setCatalog_bind]
  refine turns_of_quiet ?_ (Workspace.quiet_fresh.bind fun i => ?_)
  · rfl
  simp only
  split
  · exact (Workspace.quiet_note ..).bind fun _ => quiet_pure _
  · exact quiet_pure _

theorem turns_aliased (id : TableId) (asName : Object) (w : Workspace) :
    Turns w (fun cat => ∃ option made, w.session.catalog.aliasTable id option = .ok (made, cat))
      ((Method.aliased id asName).run w) := by
  unfold Method.aliased
  obtain ⟨held, hheld⟩ := (Keeping.quiet_all (Object.ofValue default (.table id))).succeeds w
  rw [run_bind_of_ok hheld]
  have hsession := (Keeping.quiet_all (Object.ofValue default (.table id))).session w
  generalize Action.after (Keeping.all (Object.ofValue default (.table id))) w = w' at hsession
  simp only [Workspace.aliasTable, bind_assoc]
  rw [Workspace.run_catalog_bind, hsession]
  cases hc : w.session.catalog.aliasTable id (Field.optionalText (some asName.value)) with
  | error e => exact .fails e rfl (congrArg Session.catalog hsession)
  | ok made =>
    obtain ⟨copy, cat⟩ := made
    rw [Workspace.run_lift_bind_ok, Workspace.run_setCatalog_bind]
    exact turns_of_quiet ⟨_, copy, hc⟩ ((Workspace.quiet_make _).bind fun _ =>
      Workspace.quiet_catalog.bind fun _ => (Keeping.quiet_copyColumns ..).bind fun _ =>
        Keeping.quiet_keep ..)

/-- How a construction changes a sound catalog, if at all. -/
theorem turns (c : Construction) {w : Workspace} (h : w.session.catalog.Sound)
    (hg : c.Given w.session.catalog) :
    Turns w (fun cat => cat.Sound ∧ w.session.catalog.Extends cat) (c.run.run w) := by
  have hmono : ∀ {P Q : Catalog → Prop} {r}, (∀ cat, P cat → Q cat) → Turns w P r → Turns w Q r := by
    rintro P Q r hPQ (⟨e, hr, hs⟩ | ⟨o, cat, hr, hs, hc⟩)
    · exact .fails e hr hs
    · exact .succeeds o cat hr hs (hPQ cat hc)
  cases c with
  | column a =>
    refine hmono ?_ (turns_column a w)
    rintro cat ⟨c, hc, rfl⟩
    exact ⟨h.addColumn fun t ho => by simp [hc] at ho, Catalog.extends_addColumn _ c⟩
  | columnAs asName o a id =>
    refine hmono ?_ (turns_named asName o (.column a id) w)
    rintro cat rfl
    exact ⟨h.named_expr _ _, Catalog.extends_named _ _ _⟩
  | table a =>
    refine hmono ?_ (turns_table a w)
    rintro cat ⟨options, id, hok⟩
    exact h.addTable hok hg
  | tableAs id asName =>
    refine hmono ?_ (turns_aliased id asName w)
    rintro cat ⟨option, made, hok⟩
    exact h.aliasTable hok

/-- What a construction leaves: a sound catalog that extends the one before, and the same one if it
fails. -/
theorem sound_after (c : Construction) {w : Workspace} (h : w.session.catalog.Sound)
    (hg : c.Given w.session.catalog) :
    (c.run.after w).session.catalog.Sound ∧
      w.session.catalog.Extends (c.run.after w).session.catalog ∧
      ∀ e, c.run.outcome w = .error e → (c.run.after w).session.catalog = w.session.catalog := by
  rw [Action.after, Action.outcome]
  rcases c.turns h hg with ⟨e, hr, hs⟩ | ⟨o, cat, hr, hs, hsound, he⟩
  · rw [hs]
    exact ⟨h, .refl _, fun _ _ => rfl⟩
  · rw [hs]
    exact ⟨hsound, he, fun e hr' => by rw [hr] at hr'; cases hr'⟩

end Construction

/-- The workspaces that constructions lead to, whether they fail or not. -/
inductive Constructed (start : Workspace) : Workspace → Prop
  | start : Constructed start start
  | step {w : Workspace} (hw : Constructed start w) (c : Construction)
    (hg : c.Given w.session.catalog) : Constructed start (c.run.after w)

/-- From a sound catalog all constructions lead to one that extends it and is sound. -/
theorem Constructed.sound {start w : Workspace} (h : Constructed start w)
    (hs : start.session.catalog.Sound) :
    w.session.catalog.Sound ∧ start.session.catalog.Extends w.session.catalog := by
  induction h with
  | start => exact ⟨hs, .refl _⟩
  | step hw c hg ih =>
    obtain ⟨hsound, he, -⟩ := c.sound_after ih.1 hg
    exact ⟨hsound, ih.2.trans he⟩

/-- A column that is only named. -/
def Construction.columnNamed (name : String) : Construction :=
  .column ⟨[("name", Object.ofValue default (.text name))], [], []⟩

/-- A table of one column. -/
def Construction.tableOf (name : String) (id : ColumnId) : Construction :=
  .table ⟨[("name", Object.ofValue default (.text name))],
    [Object.ofValue default (.expr (.column .none id))], []⟩

theorem Construction.given_tableOf (name : String) {cat : Catalog} {id : ColumnId}
    (h : cat.HasColumn id) : (tableOf name id).Given cat := by
  intro a other ho
  obtain ⟨-, rfl⟩ := Expr.column.inj (Value.expr.inj (List.mem_singleton.1 ho))
  exact h

/-- A workspace in which two tables were given the same column. -/
def Workspace.shared : Workspace :=
  (Construction.tableOf "u" ⟨0⟩).run.after ((Construction.tableOf "t" ⟨0⟩).run.after
    ((Construction.columnNamed "a").run.after default))

end SqlCompose
