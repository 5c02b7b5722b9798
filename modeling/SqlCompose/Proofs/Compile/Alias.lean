import SqlCompose.Compile
import SqlCompose.Proofs.Render.Unaliased

/-!
# Aliases in what is compiled

An alias names a field of a SELECT or RETURNING list, or a source. Anywhere else it leaves no trace in
what is compiled, with one exception: a column that stands on its own, as the whole condition of a
WHERE, HAVING or ON clause or as a term of ORDER BY that was given no direction, is written as a
field would be, with its alias behind it.
-/
namespace SqlCompose

variable {cat : Catalog}

/-- Drafts that are written alike have the same outcome if they have one. -/
theorem Draft.SameRuns.outcome {x y : Draft} (h : Draft.SameRuns cat x y) (d : Dialect)
    {number : Nat} {bound parameters : List Value} {sql : Value} :
    x.outcome cat (.context d number) bound = (.ok sql, parameters) ↔
      y.outcome cat (.context d number) bound = (.ok sql, parameters) := by
  rw [outcome_eq_iff, outcome_eq_iff]
  exact h d number _ _ _

/-- Without the aliases that are out of place a value compiles to the same text with the same
parameters, or does not compile either. -/
theorem compile_unaliased_iff (cat : Catalog) (d : Dialect) (v : Value) (c : Compiled) :
    compile cat d (v.unaliased .clause) = .ok c ↔ compile cat d v = .ok c := by
  have hrelated : (v.drafted cat d.engine).Unaliased cat .clause
      ((v.unaliased .clause).drafted cat d.engine) := v.relates .clause
  rw [compile_eq_ok_iff_outcome, compile_eq_ok_iff_outcome]
  exact (hrelated.built.outcome d).symm

/-- The column in an operand loses its alias; the one that is a condition of its own, and the field,
keep theirs. -/
example (a x y : Value) (id other : ColumnId) :
    Select.unaliased { Select.empty with
      filter := .expr (.column x id), fields := .tuple [.expr (.group a (.column y other))] } =
    { Select.empty with
      filter := .expr (.column x id), fields := .tuple [.expr (.group a (.column .none other))] } :=
  rfl

end SqlCompose
