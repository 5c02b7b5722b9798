import SqlCompose.Dialect.Spelling

/-!
# Inline literals

How a scalar is written into the text of a statement. Text stands in single quotes with quotes
inside written twice, and on MySQL backslashes too; dates and times are written as text. Numbers
without a finite value have no literal, and the words for truth and for nothing are spelled as the
dialect says.
-/
namespace SqlCompose

namespace Dialect

/-- The characters of a text literal between its quotes. -/
def escapeText (e : Engine) (cs : List Char) : List Char :=
  Text.doubled ['\''] (if e = .mysql then Text.doubled ['\\'] cs else cs)

/-- A text literal. -/
def packText (d : Dialect) (s : String) : String :=
  "'" ++ String.ofList (escapeText d.engine s.toList) ++ "'"

/-- What stands around the digits of a binary literal, and whether the digits are capitals. -/
def bytesForm (e : Engine) : String × String × Bool :=
  match e with
  | .postgresql => ("'\\x", "'::bytea", false)
  | .sqlserver => ("0x", "", true)
  | _ => ("X'", "'", true)

/-- A binary literal with the given digits. -/
def packDigits (d : Dialect) (digits : String) : String :=
  let (opening, closing, capital) := bytesForm d.engine
  opening ++ (if capital then digits.toUpper else digits) ++ closing

/-- A binary literal. -/
def packBytes (d : Dialect) (bytes : List UInt8) : String :=
  d.packDigits (String.ofList (Text.hexBytes bytes))

/-- The literal of a scalar. -/
def packScalar (cat : Catalog) (d : Dialect) : Scalar → Except Error Value
  | .null => d.spelling cat (.text "NULL")
  | .bool b => d.spelling cat (.text (if b then "TRUE" else "FALSE"))
  | .int n => do return .text (← Scalar.wholeText n)
  | .float x => if x.isFinite then .ok (.text x.text) else .error (.nonFiniteFloat x.text)
  | .decimal x => if x.isFinite then .ok (.text x.text) else .error (.nonFiniteDecimal x.text)
  | .text s => .ok (.text (d.packText s))
  | .date t => .ok (.text (d.packText t.text))
  | .time t => .ok (.text (d.packText t.text))
  | .timestamp t => .ok (.text (d.packText (t.text " ")))
  | .binary _ bytes => .ok (.text (d.packBytes bytes))

/-- The literal of a value. -/
def pack (cat : Catalog) (d : Dialect) (v : Value) : Except Error Value := do
  d.packScalar cat (← v.toScalar cat)

/-- The text literal of a value that has to be a text. -/
def packAsText (cat : Catalog) (d : Dialect) (v : Value) : Except Error Value := do
  match v.text? with
  | some s => return .text (d.packText s)
  | none =>
    let prepared ←
      if d.engine = .mysql then v.invoke cat "replace" [.text "\\", .text "\\\\"] else pure v
    let doubled ← prepared.invoke cat "replace" [.text "'", .text "''"]
    (← (Value.text "'").plus doubled).plus (.text "'")

/-- The binary literal of a value that has to have digits. -/
def packAsBytes (cat : Catalog) (d : Dialect) (v : Value) : Except Error Value := do
  let digits ← v.invoke cat "hex" []
  match digits.text? with
  | some s => return .text (d.packDigits s)
  | none =>
    let (opening, closing, capital) := bytesForm d.engine
    let written ← if capital then digits.invoke cat "upper" [] else pure digits
    (← (Value.text opening).plus written).plus (.text closing)

end Dialect

/-- What the literal of a scalar asks of a dialect, if it asks anything. -/
def Scalar.asked? : Scalar → Option (String × Scalar)
  | null => some ("substitute", text "NULL")
  | bool b => some ("substitute", text (if b then "TRUE" else "FALSE"))
  | text s => some ("pack_string", text s)
  | date t => some ("pack_string", text t.text)
  | time t => some ("pack_string", text t.text)
  | timestamp t => some ("pack_string", text (t.text " "))
  | binary _ bytes => some ("pack_bytes", binary false bytes)
  | int _ | float _ | decimal _ => none

/-- The literal of a value for what is given for a dialect. -/
def packFor (cat : Catalog) (dialect v : Value) : Except Error Value :=
  match dialect with
  | .dialect d => d.pack cat v
  | other => do
    let s ← v.toScalar cat
    match s.asked? with
    | some (name, argument) => other.invoke cat name [.scalar argument]
    | none => (default : Dialect).packScalar cat s

/-! ## LIKE patterns -/

/-- A character of a LIKE pattern that stands for itself. -/
def escapeLikeChar (c : Char) : List Char :=
  if c = '\\' ∨ c = '%' ∨ c = '_' then ['\\', c] else [c]

/-- A text as a LIKE pattern that matches that text alone: wildcards and the escape character are
preceded by a backslash. -/
def escapeLike (s : String) : String := String.ofList (s.toList.flatMap escapeLikeChar)

/-- A value that has to be a text with one mark in it escaped. -/
def escapeMark (cat : Catalog) (v : Value) (mark : String) : Except Error Value :=
  v.invoke cat "replace" [.text mark, .text ("\\" ++ mark)]

/-- A value that has to be a text as a LIKE pattern that matches that text alone. -/
def escapeLikeAny (cat : Catalog) (v : Value) : Except Error Value :=
  match v.text? with
  | some s => .ok (.text (escapeLike s))
  | none => ["\\", "%", "_"].foldlM (escapeMark cat) v

end SqlCompose
