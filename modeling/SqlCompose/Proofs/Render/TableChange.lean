import SqlCompose.Proofs.Render.Naming

/-!
# Statements that change a table

An INSERT, UPDATE or DELETE names its table first and lists last what it returns. What it returns
does not matter for what stands before.
-/
namespace SqlCompose

variable {cat : Catalog}

/-- A statement that changes a table. -/
inductive TableChange
  | insert (q : Insert)
  | update (q : Update)
  | delete (q : Delete)

namespace TableChange

def statement : TableChange → Value
  | insert q => .insert q
  | update q => .update q
  | delete q => .delete q

/-- The table that is changed. -/
def table : TableChange → Value
  | insert q => q.table
  | update q => q.table
  | delete q => q.table

/-- What the rows have to meet that are changed. -/
def filter : TableChange → Value
  | insert _ => .none
  | update q => q.filter
  | delete q => q.filter

/-- What is returned of the changed rows. -/
def returning : TableChange → Value
  | insert q => q.returning
  | update q => q.returning
  | delete q => q.returning

variable {s : TableChange}

/-- A change that returns something else. -/
def withReturning (v : Value) : TableChange → TableChange
  | insert q => insert { q with returning := v }
  | update q => update { q with returning := v }
  | delete q => delete { q with returning := v }

theorem withReturning_returning : s.withReturning s.returning = s := by
  cases s with
  | insert q => cases q; rfl
  | update q => cases q; rfl
  | delete q => cases q; rfl

/-- The draft of a change with a given one in the place of its RETURNING clause. -/
def draftWith (cat : Catalog) (e : Engine) (returned : Draft) : TableChange → Draft
  | insert q =>
    .given (q.table.get cat "name") fun name =>
      if !name.truthy then .fail .unnamedTable
      else
        Draft.guarded (checkOwned cat q.table q.columns) <|
          Draft.keyword .before "INSERT INTO" + .name name ++ (q.parts cat e).content cat e
            + returned
  | update q =>
    if !q.assignments.truthy then .fail .emptyUpdate
    else
      Draft.guarded (checkAssignments cat q.table (q.assignments.drafted cat e)) <|
        (Draft.keyword .before "UPDATE" + (q.table.drafted cat e).built + .keyword .between "SET")
          ++ (q.assignments.drafted cat e).listed (assignmentDraft cat)
          ++ whereDraft q.extras (q.filter.drafted cat e) + returned
  | delete q =>
    (Draft.keyword .before "DELETE FROM" + (q.table.drafted cat e).built)
      ++ whereDraft q.extras (q.filter.drafted cat e) + returned

theorem draftWith_withReturning (e : Engine) (returned : Draft) (v : Value) :
    (s.withReturning v).draftWith cat e returned = s.draftWith cat e returned := by
  cases s <;> rfl

/-- The draft of a change that was not given something else to be built with. -/
theorem built_eq_draftWith {e : Engine} (hx : s.statement.extras.lookup "build" = none) :
    s.statement.built cat e = s.draftWith cat e (returningDraft cat e (s.returning.drafted cat e)) := by
  cases s with
  | insert q => exact Insert.built_eq_draft hx
  | update q =>
    refine (Update.built_eq_draft hx).trans ?_
    simp only [UpdateParts.draft, Update.parts, draftWith, returning, Value.value_drafted]
  | delete q =>
    obtain ⟨filter, table, returning, extras⟩ := q
    rw [statement, Value.built, Value.drafted, Delete.drafted, Drafted.ofStatement]
    rw [show (Value.delete ⟨filter, table, returning, extras⟩).extras.lookup "build" = none from hx]
    rfl

/-- The clauses of a well-formed change. -/
theorem wellFormed_clauses (h : s.statement.WellFormed) : Value.Unhooked s.statement.extras ∧
    s.filter.WellFormed ∧ s.returning.WellFormed := by
  cases s with
  | insert q =>
    cases h with
    | plain h => cases h
    | insert hx _ _ _ _ returning => exact ⟨hx, .plain rfl, returning⟩
  | update q =>
    cases h with
    | plain h => cases h
    | update hx filter _ _ _ returning => exact ⟨hx, filter, returning⟩
  | delete q =>
    cases h with
    | plain h => cases h
    | delete hx filter _ returning => exact ⟨hx, filter, returning⟩

theorem lookup_build_of_wellFormed (h : s.statement.WellFormed) :
    s.statement.extras.lookup "build" = none := (wellFormed_clauses h).1 "build" (by decide)

end TableChange

end SqlCompose
