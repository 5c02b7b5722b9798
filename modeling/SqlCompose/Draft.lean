import SqlCompose.Error
import SqlCompose.Expr.Basic

/-!
# Drafts

A draft is SQL text that is still to be written: its fixed text, and in their places the values,
names and spellings that only a dialect can write. Parts are put together in the order in which they
are written, so the values of a draft stand in the order of their placeholders, and the first part
that goes wrong settles the outcome. A draft does not depend on how placeholders are spelled or on
whether they are used.
-/
namespace SqlCompose

/-- Where a word stands: before what it belongs to, between two parts, or behind. -/
inductive Fixity
  | before
  | between
  | behind
deriving DecidableEq, Inhabited

/-- Fixed text. Operators, the keywords of clauses and the parentheses around expressions are kept
apart from all other text, so that a name which happens to read like one of them cannot be taken for
it. -/
inductive Token
  | text (s : String)
  | operator (fixity : Fixity) (symbol : String)
  | keyword (fixity : Fixity) (word : String)
  | opening
  | closing
deriving DecidableEq, Inhabited

/-- A word with the blanks that part it from what stands beside it. -/
def Fixity.spell : Fixity → String → String
  | before, word => word ++ " "
  | between, word => " " ++ word ++ " "
  | behind, word => " " ++ word

/-- How a token is written. -/
def Token.spelling : Token → String
  | text s => s
  | operator fixity symbol => fixity.spell symbol
  | keyword fixity word => fixity.spell word
  | opening => "("
  | closing => ")"

/-- SQL text that is still to be written. -/
inductive Draft
  | token (t : Token)
  /-- A value in its place: bound, or written out where values are not bound. -/
  | literal (v : Value)
  /-- A value that is always written out. -/
  | inlined (v : Value)
  /-- A value as the dialect writes it, as part of something larger. -/
  | packed (v : Value)
  | name (v : Value)
  /-- A keyword or function as the dialect spells it. -/
  | spelling (keyword : String)
  /-- What a dialect answers. -/
  | ofDialect (answer : Dialect → Except Error Value)
  /-- What a value makes of all that the draft is written with. -/
  | applied (f : Value)
  /-- What a value makes of all that the draft is written with when it is asked under a name. -/
  | member (v : Value) (name : String)
  /-- Nothing is written, but a dialect has to be there and to have a part of the given name. -/
  | ask (part : String)
  | fail (e : Error)
  /-- The first draft is written for its failures alone, the second one stays. -/
  | before (first rest : Draft)
  /-- The first draft stays, the second one is written after it for its failures alone. -/
  | checked (d last : Draft)
  | plus (a b : Draft)
  /-- One draft going on with another. -/
  | extend (a b : Draft)
  /-- A draft as part of a sentence, where anything passes as its bare text. -/
  | shown (d : Draft)
  | row (separator : Token) (items : List Draft)
  /-- Items with commas between them, which are all written before what stands around them. The lead
  goes before the first item. -/
  | framed (lead : Option String) (opening : Draft) (items : List Draft) (closing : Draft)

namespace Draft

instance : Add Draft := ⟨plus⟩

instance : Append Draft := ⟨extend⟩

instance : Inhabited Draft := ⟨token (.text "")⟩

/-- Text that is no operator, keyword or parenthesis. -/
def text (s : String) : Draft := token (.text s)

/-- The draft of no text. -/
def empty : Draft := text ""

/-- An operator. -/
def operator (fixity : Fixity) (symbol : String) : Draft := token (.operator fixity symbol)

/-- The keyword of a clause. -/
def keyword (fixity : Fixity) (word : String) : Draft := token (.keyword fixity word)

/-- Drafts in a row with commas between them. -/
def commaSeparated (ds : List Draft) : Draft := row (.text ", ") ds

/-- A draft in parentheses. -/
def parenthesized (d : Draft) : Draft := token .opening + d + token .closing

/-- An infix operator between two drafts. -/
def infixed (left : Draft) (symbol : String) (right : Draft) : Draft :=
  left.shown + operator .between symbol + right.shown

/-- A draft for which a dialect has to be there and to have a part of the given name. -/
def asking (part : String) (d : Draft) : Draft := before (ask part) d

/-- A draft that goes on with others, one after the other. -/
def continued (d : Draft) (ds : List Draft) : Draft := ds.foldl extend d

/-- A draft that is reached only if nothing went wrong before. -/
def guarded (check : Except Error Unit) (d : Draft) : Draft :=
  match check with
  | .ok _ => d
  | .error e => fail e

/-- A draft of something that may not exist. -/
def given {α : Type} (r : Except Error α) (f : α → Draft) : Draft :=
  match r with
  | .ok a => f a
  | .error e => fail e

end Draft

end SqlCompose
