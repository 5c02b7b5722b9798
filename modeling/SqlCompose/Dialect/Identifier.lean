import SqlCompose.Expr.Calling

/-!
# Quoted names

A name is put between the quotes of the dialect, with every closing quote inside it written twice. A
name that starts with the opening quote is taken as quoted already.
-/
namespace SqlCompose

/-- A name between quotes. -/
def quoteName (quotes : String × String) (name : String) : String :=
  if quotes.1 = "" ∨ quotes.1.toList <+: name.toList then name
  else quotes.1 ++ String.ofList (Text.doubled quotes.2.toList name.toList) ++ quotes.2

theorem quoteName_of_prefix {quotes : String × String} {name : String}
    (h : quotes.1.toList <+: name.toList) : quoteName quotes name = name := by
  simp [quoteName, h]

/-- A name between quotes, where all of them may be anything. Each is asked for what the quoting of
a text takes, and answers as it can. -/
def quoteAny (cat : Catalog) (quotes : Value × Value) (name : Value) : Except Error Value := do
  let (opening, closing) := quotes
  if !opening.truthy then return name
  if (← name.invoke cat "startswith" [opening]).truthy then return name
  let inner ← name.invoke cat "replace" [closing, ← closing.twice]
  (← opening.plus inner).plus closing

namespace Dialect

/-- A name as it stands in the SQL of a dialect. -/
def quote (cat : Catalog) (d : Dialect) (name : Value) : Except Error Value :=
  match d.given.lookup "identifier_quote", name.text? with
  | none, some s => .ok (.text (quoteName d.identifierQuote s))
  | none, none => quoteAny cat (.text d.identifierQuote.1, .text d.identifierQuote.2) name
  | some quotes, _ => do quoteAny cat (← quotes.pair cat) name

theorem quote_text (cat : Catalog) (d : Dialect) (h : d.given.lookup "identifier_quote" = none)
    (name : String) :
    d.quote cat (.text name) = .ok (.text (quoteName d.identifierQuote name)) := by
  simp [quote, h, Value.text, Value.text?]

end Dialect

/-- A name as it stands in the SQL of what is given for a dialect. -/
def quoteFor (cat : Catalog) (dialect name : Value) : Except Error Value :=
  match dialect with
  | .dialect d => d.quote cat name
  | other => do quoteAny cat (← (← other.get cat "identifier_quote").pair cat) name

end SqlCompose
