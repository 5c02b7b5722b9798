import SqlCompose.Assembly
import SqlCompose.Dialect.Change
import SqlCompose.Schema.Definition

/-!
# Compiling

The outcome of a compilation is SQL text with the values for its placeholders, in the order of the
placeholders. Compilation is all or nothing, but a context in which several things are compiled one
after the other keeps the values that were bound before a failure. The definition of a schema cannot
have parameters, so its values are written out.
-/
namespace SqlCompose

/-- SQL text and the values for its placeholders. What a dialect spells may be no text, and neither
is then what is put together from it. -/
structure Compiled where
  sql : Value
  parameters : List Value

namespace Compiled

/-- The outcome as a value: a sequence of two. -/
def value (c : Compiled) : Value := .sequence .compiled [c.sql, .list c.parameters]

/-- Parameters under the names that the named placeholders have. -/
def named (parameters : List Value) : List (String × Value) :=
  parameters.zipIdx.map fun (v, i) => ("p" ++ toString (i + 1), v)

end Compiled

/-- Compiles a value on its own. -/
def compile (cat : Catalog) (d : Dialect) (v : Value) : Except Error Compiled :=
  let (sql, parameters) := (v.built cat d.engine).outcome cat (.context d 0) []
  sql.map fun sql => { sql, parameters }

/-- What a value compiles to is the outcome of its draft after nothing. -/
theorem compile_eq_ok_iff_outcome {cat : Catalog} {d : Dialect} {v : Value} {c : Compiled} :
    compile cat d v = .ok c ↔
      (v.built cat d.engine).outcome cat (.context d 0) [] = (.ok c.sql, c.parameters) := by
  cases h : (v.built cat d.engine).outcome cat (.context d 0) [] with
  | mk r parameters =>
    obtain ⟨sql, bound⟩ := c
    cases r <;> simp [compile, h, Except.map]

/-- A dialect that writes literals out, as the definition of a schema needs it. -/
def Dialect.inlining (d : Dialect) : Dialect := d.set "bind_literals" (.bool false)

@[simp] theorem Dialect.engine_inlining (d : Dialect) : d.inlining.engine = d.engine := rfl

@[simp] theorem Dialect.bindLiterals_inlining (d : Dialect) : d.inlining.bindLiterals = false := rfl

/-- The outcome of a draft in which nothing is bound. -/
def compileInlined (cat : Catalog) (d : Dialect) (draft : Draft) : Except Error Value :=
  (draft.outcome cat (.context d.inlining 0) []).1

def compileCreateTable (cat : Catalog) (d : Dialect) (table : TableId) (ifNotExists : Bool) :
    Except Error Value :=
  compileInlined cat d (createTableDraft cat d.engine table ifNotExists)

def compileDropTable (cat : Catalog) (d : Dialect) (table : TableId) (ifExists : Bool) :
    Except Error Value :=
  compileInlined cat d (dropTableDraft cat table ifExists)

end SqlCompose
