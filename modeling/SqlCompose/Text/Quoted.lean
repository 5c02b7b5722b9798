import SqlCompose.Text.Printable
import SqlCompose.Text.Hex

/-!
# Displayed text

How messages show a text or binary data so that every character can be told apart: in single quotes,
or in double quotes when the text holds a single quote and no double one. The quote in use and the
backslash are escaped, and characters that are not printable are written as numbers.
-/
namespace SqlCompose.Text

/-- The quote around a displayed text. -/
def displayQuote (cs : List Char) : Char :=
  if '\'' ∈ cs ∧ '"' ∉ cs then '"' else '\''

/-- A character that is not printable, as its code point. -/
def numberEscape (n : Nat) : List Char :=
  if n < 0x100 then '\\' :: 'x' :: hexDigits 2 n
  else if n < 0x10000 then '\\' :: 'u' :: hexDigits 4 n
  else '\\' :: 'U' :: hexDigits 8 n

/-- A character inside displayed text whose quote is `quote`. -/
def displayChar (quote c : Char) : List Char :=
  if c = quote ∨ c = '\\' then ['\\', c]
  else if c = '\n' then ['\\', 'n']
  else if c = '\r' then ['\\', 'r']
  else if c = '\t' then ['\\', 't']
  else if isPrintable c then [c]
  else numberEscape c.toNat

/-- A text in quotes, with escapes. -/
def display (s : String) : String :=
  let quote := displayQuote s.toList
  String.ofList (quote :: s.toList.flatMap (displayChar quote) ++ [quote])

/-- A byte inside displayed binary data: all but printable ASCII is escaped. -/
def displayByte (quote : Char) (b : UInt8) : List Char :=
  if b.toNat < 0x80 then displayChar quote (Char.ofNat b.toNat) else numberEscape b.toNat

/-- A byte inside a displayed buffer, where a single quote is always escaped. -/
def displayBufferByte (quote : Char) (b : UInt8) : List Char :=
  if b.toNat = 0x27 then ['\\', '\''] else displayByte quote b

/-- Bytes in quotes, after the letter b; a buffer escapes more of them. -/
def displayBytes (buffer : Bool) (bytes : List UInt8) : String :=
  let quote := displayQuote (bytes.map fun b => Char.ofNat b.toNat)
  let shown := bytes.flatMap (if buffer then displayBufferByte quote else displayByte quote)
  String.ofList ('b' :: quote :: shown ++ [quote])

theorem display_empty : display "" = "''" := by decide

end SqlCompose.Text
