import SqlCompose.Dialect.Basic
import SqlCompose.Expr.Calling

/-!
# Spellings

How a dialect spells keywords, functions and types. What has no spelling of its own is spelled as it
is; a type has to have one. A spelling may be anything that was put there, and shows what it is when
it is used.
-/
namespace SqlCompose.Dialect

/-- The spelling of a keyword or function. -/
def spelling (cat : Catalog) (d : Dialect) (keyword : Value) : Except Error Value :=
  match d.given.lookup "substitutions" with
  | some given => given.invoke cat "get" [keyword, keyword]
  | none => do
    keyword.checkHashable
    return ((keyword.text?.bind (d.substitutions.lookup ·)).map Value.text).getD keyword

theorem spelling_text (cat : Catalog) (d : Dialect) (h : d.given.lookup "substitutions" = none)
    (keyword : String) : d.spelling cat (.text keyword)
      = .ok (.text ((d.substitutions.lookup keyword).getD keyword)) := by
  simp only [spelling, h, Value.text, Value.text?, Value.checkHashable, Scalar.checkHashable,
    Option.bind_some]
  cases d.substitutions.lookup keyword <;> rfl

/-- The reason why a dialect has no keyword for a kind. -/
def unknownKind (cat : Catalog) (d : Dialect) (kind : Value) : Except Error Error := do
  return .unsupportedKind (← (← kind.get cat "name").label cat) d.name

/-- The type keyword of a kind. -/
def typeKeyword (cat : Catalog) (d : Dialect) (kind : Value) : Except Error Value := do
  let found ← match d.given.lookup "type_names" with
    | some given => given.at? cat kind
    | none => do
      kind.checkHashable
      pure ((kind.kind?.bind (d.typeNames.lookup ·)).map Value.text)
  match found with
  | some keyword => return keyword
  | none => throw (← d.unknownKind cat kind)

theorem typeKeyword_kind (cat : Catalog) (d : Dialect) (h : d.given.lookup "type_names" = none)
    (k : DataKind) : d.typeKeyword cat (.kind k) =
      match d.typeNames.lookup k with
      | some s => .ok (.text s)
      | none => .error (.unsupportedKind k.name d.name) := by
  simp only [typeKeyword, h, Value.checkHashable, Value.kind?, Option.bind_some]
  cases d.typeNames.lookup k <;> rfl

/-- Values as the arguments of a function, with commas between them. -/
def argumentList (cat : Catalog) (arguments : Value) : Except Error Value :=
  match arguments.items cat with
  | .ok items => Value.joined ", " items
  | .error _ => .error .notJoinable

/-- Whether a call asks SQLite for the current time, for which it has no function. -/
def readsClock (e : Engine) (symbol arguments : Value) : Bool :=
  e == .sqlite && (symbol.expr?.isSome || symbol.text? == some "NOW") && !arguments.truthy

/-- The clock of SQLite. -/
def clock : String := "DATETIME('now')"

/-- A function call with its arguments as they are written. -/
def call (cat : Catalog) (d : Dialect) (symbol arguments : Value) : Except Error Value := do
  if readsClock d.engine symbol arguments then return .text clock
  let opened ← (← d.spelling cat symbol).plus (.text "(")
  (← opened.plus (← argumentList cat arguments)).plus (.text ")")

end SqlCompose.Dialect
