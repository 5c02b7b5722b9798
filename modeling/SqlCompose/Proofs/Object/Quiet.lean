import SqlCompose.Object.Keeping

/-!
# Quiet actions

Actions that never fail and leave the session as it is: they make objects and note what these hold.
-/
namespace SqlCompose

variable {α β : Type}

namespace Action

/-- What comes of an action. -/
def outcome (a : Action α) (w : Workspace) : Except Error α := (a.run w).1

/-- The workspace after an action, whether it fails or not. -/
def after (a : Action α) (w : Workspace) : Workspace := (a.run w).2

theorem run_bind_of_ok {a : Action α} {w : Workspace} {x : α} (h : a.outcome w = .ok x)
    (f : α → Action β) : (a >>= f).run w = (f x).run (a.after w) := by
  rw [ExceptT.run_bind]
  change StateT.bind a.run _ w = _
  have hrun : a.run w = (.ok x, a.after w) := by rw [← h]; rfl
  simp only [StateT.bind, hrun]
  rfl

/-- Whether an action never fails and leaves the session as it is. -/
structure Quiet (a : Action α) : Prop where
  succeeds : ∀ w, ∃ x, a.outcome w = .ok x
  session : ∀ w, (a.after w).session = w.session

theorem quiet_pure (x : α) : Quiet (pure x) := ⟨fun _ => ⟨x, rfl⟩, fun _ => rfl⟩

theorem quiet_get : Quiet get := ⟨fun w => ⟨w, rfl⟩, fun _ => rfl⟩

theorem quiet_modify {f : Workspace → Workspace} (h : ∀ w, (f w).session = w.session) :
    Quiet (modify f) := ⟨fun _ => ⟨_, rfl⟩, h⟩

theorem Quiet.bind {a : Action α} (h : a.Quiet) {f : α → Action β} (hf : ∀ x, (f x).Quiet) :
    (a >>= f).Quiet := by
  refine ⟨fun w => ?_, fun w => ?_⟩
  all_goals
    obtain ⟨x, hx⟩ := h.succeeds w
    have hrun := run_bind_of_ok hx f
  · rw [outcome, hrun]
    exact (hf x).succeeds _
  · rw [after, hrun]
    exact ((hf x).session _).trans (h.session w)

theorem Quiet.mapM {f : α → Action β} (h : ∀ x, (f x).Quiet) (xs : List α) :
    (xs.mapM f).Quiet := by
  induction xs with
  | nil => exact quiet_pure []
  | cons x xs ih =>
    rw [List.mapM_cons]
    exact (h x).bind fun _ => ih.bind fun _ => quiet_pure _

theorem Quiet.forM {f : α → Action PUnit} (h : ∀ x, (f x).Quiet) (xs : List α) :
    (xs.forM f).Quiet := by
  induction xs with
  | nil => exact quiet_pure _
  | cons x xs ih => exact (h x).bind fun _ => ih

theorem Quiet.filterMapM {f : α → Action (Option β)} (h : ∀ x, (f x).Quiet) (xs : List α) :
    (xs.filterMapM f).Quiet := by
  induction xs with
  | nil => exact quiet_pure []
  | cons x xs ih =>
    rw [List.filterMapM_cons]
    refine (h x).bind fun y => ?_
    cases y with
    | none => exact ih
    | some y => exact ih.bind fun _ => quiet_pure _

end Action

open SqlCompose.Action

namespace Workspace

theorem quiet_catalog : Quiet catalog := quiet_get.bind fun _ => quiet_pure _

theorem quiet_fresh : Quiet fresh := ⟨fun _ => ⟨_, rfl⟩, fun _ => rfl⟩

theorem quiet_make (v : Value) : Quiet (make v) := quiet_fresh.bind fun _ => quiet_pure _

theorem quiet_sequence (form : SequenceForm) (items : List Object) :
    Quiet (sequence form items) := quiet_fresh.bind fun _ => quiet_pure _

theorem quiet_makeWith (v : Value) (fields : List (String × Object)) : (makeWith v fields).Quiet :=
  quiet_fresh.bind fun _ => quiet_pure _

mutual

theorem quiet_asExpr : ∀ o : Object, (asExpr o).Quiet
  | .mk v i items fields => by
    unfold asExpr
    split
    · exact quiet_pure _
    · exact (quiet_asExprs items).bind fun _ => (quiet_sequence ..).bind fun _ => quiet_makeWith ..
    · exact quiet_makeWith ..
    · exact quiet_makeWith ..

theorem quiet_asExprs : ∀ os : List Object, (asExprs os).Quiet
  | [] => quiet_pure _
  | o :: os => (quiet_asExpr o).bind fun _ => (quiet_asExprs os).bind fun _ => quiet_pure _

end

theorem quiet_field (o : Object) (name : String) : Quiet (field o name) :=
  quiet_catalog.bind fun _ => quiet_pure _

theorem quiet_note (o : Object) (held : List (String × Object)) : Quiet (note o held) :=
  quiet_modify fun _ => rfl

theorem quiet_current (o : Object) : Quiet (current o) := by
  refine quiet_get.bind fun w => ?_
  simp only
  split <;> exact quiet_pure _

end Workspace

namespace Keeping

theorem quiet_item (v : Value) (o : Object) : Quiet (item v o) := by
  unfold item
  split
  · exact (Workspace.quiet_current o).bind fun _ => Workspace.quiet_field ..
  · split
    · exact quiet_pure _
    · exact Workspace.quiet_make _

theorem quiet_field? (name : String) (v : Value) (o : Object) : Quiet (field? name v o) := by
  unfold field?
  split
  · split
    · exact quiet_pure _
    · simp only
      split
      · exact quiet_pure _
      · refine (Quiet.mapM ?_ _).bind fun _ =>
          (Workspace.quiet_sequence ..).bind fun _ => quiet_pure _
        rintro ⟨v, o⟩
        exact quiet_item v o
  · exact quiet_pure _
  · exact quiet_pure _

theorem quiet_fields (v : Value) (given : List (String × Object)) : Quiet (fields v given) := by
  refine Workspace.quiet_catalog.bind fun cat => .filterMapM ?_ given
  rintro ⟨name, o⟩
  simp only
  split
  · exact (quiet_field? ..).bind fun _ => quiet_pure _
  · exact quiet_pure _

theorem quiet_keep (o : Object) (given : List (String × Object)) : Quiet (keep o given) :=
  (quiet_fields ..).bind fun _ => (Workspace.quiet_note ..).bind fun _ => quiet_pure _

theorem quiet_all (o : Object) : Quiet (all o) :=
  (Workspace.quiet_current o).bind fun _ => Workspace.quiet_catalog.bind fun _ => quiet_pure _

theorem quiet_copyColumns (copies originals : List ColumnRef) :
    Quiet (copyColumns copies originals) := by
  refine .forM ?_ _
  rintro ⟨copy, original⟩
  simp only
  split
  · exact (quiet_all _).bind fun _ => Workspace.quiet_note ..
  · exact quiet_pure _

end Keeping

end SqlCompose
