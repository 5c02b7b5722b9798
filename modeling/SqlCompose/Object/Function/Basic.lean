import SqlCompose.Object.Function.Predicate
import SqlCompose.Object.Function.Statement
import SqlCompose.Object.Function.Value

/-!
# Functions

Everything that can be called by its name alone.
-/
namespace SqlCompose.Function

/-- The function that has a name. -/
def ofName? (name : String) : Option Procedure :=
  (language? name).or ((predicate? name).or ((value? name).or (statement? name)))

end SqlCompose.Function
