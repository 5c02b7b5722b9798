import SqlCompose.TypeTag

/-!
# Settings of dialects

How placeholders are spelled, and how the type of a column that counts up is spelled.
-/
namespace SqlCompose

/-- How placeholders are spelled. -/
inductive PlaceholderStyle
  | qmark
  | numeric
  | named
deriving DecidableEq, Inhabited

namespace PlaceholderStyle

/-- The name by which a style is given. -/
def value : PlaceholderStyle → String
  | qmark => "qmark"
  | numeric => "numeric"
  | named => "named"

def ofValue? : String → Option PlaceholderStyle
  | "qmark" => some qmark
  | "numeric" => some numeric
  | "named" => some named
  | _ => none

theorem ofValue?_value (s : PlaceholderStyle) : ofValue? s.value = some s := by cases s <;> rfl

/-- The placeholder of the parameter with the given number. -/
def spell : PlaceholderStyle → String → String
  | qmark, _ => "?"
  | numeric, number => "$" ++ number
  | named, number => ":p" ++ number

end PlaceholderStyle

/-- How the type of a column that counts up is spelled. -/
inductive AutoIncrement
  /-- Only the type INTEGER counts up, without a word for it. -/
  | rowid
  /-- A serial type stands for each integer type. -/
  | serial
  /-- An integer type is followed by IDENTITY. -/
  | identity
  /-- A text in which the type replaces the word TYPE. -/
  | template (text : String)
  /-- A type, which makes one of its values of the keyword. -/
  | conversion (target : TypeTag)
  /-- Something of the given type, which is no rule. -/
  | unusable (given : TypeTag)
deriving DecidableEq, Inhabited

end SqlCompose
