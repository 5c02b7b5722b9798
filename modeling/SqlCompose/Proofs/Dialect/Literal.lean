import Mathlib.Data.List.TakeDrop
import SqlCompose.Dialect.Literal
import SqlCompose.Dialect.Standard

/-!
# Literals read back

How a database reads the literals of a statement: up to which character a literal goes, and which
text or binary data it stands for. A literal that a dialect writes is read as the value it was
written for, and nothing that follows it becomes part of it or cuts it short.
-/
namespace SqlCompose

/-! ## Text between quotes -/

namespace Text

/-- The rest of a text literal after its opening quote: the characters it stands for, and what
follows the closing quote. A quote written twice stands for one; where backslashes escape, one
stands for the character after it. -/
def readQuoted (escaping : Bool) : List Char → Option (List Char × List Char)
  | [] => none
  | [c] => if c = '\'' then some ([], []) else none
  | c :: next :: cs =>
    if c = '\'' then
      if next = '\'' then (readQuoted escaping cs).map (Prod.map ('\'' :: ·) id)
      else some ([], next :: cs)
    else if escaping ∧ c = '\\' then (readQuoted escaping cs).map (Prod.map (next :: ·) id)
    else (readQuoted escaping (next :: cs)).map (Prod.map (c :: ·) id)

section Reading

variable {escaping : Bool} {c : Char} {cs rest : List Char}

attribute [local simp] readQuoted

theorem readQuoted_closing (h : rest.head? ≠ some '\'') :
    readQuoted escaping ('\'' :: rest) = some ([], rest) := by
  cases rest with
  | nil => rfl
  | cons next cs =>
    have hnext : next ≠ '\'' := by simpa using h
    simp [hnext]

theorem readQuoted_quote :
    readQuoted escaping ('\'' :: '\'' :: cs) =
      (readQuoted escaping cs).map (Prod.map ('\'' :: ·) id) := by
  simp

theorem readQuoted_backslash :
    readQuoted true ('\\' :: c :: cs) = (readQuoted true cs).map (Prod.map (c :: ·) id) := by
  simp

theorem readQuoted_plain (hquote : c ≠ '\'') (hescape : escaping = true → c ≠ '\\') :
    readQuoted escaping (c :: cs) = (readQuoted escaping cs).map (Prod.map (c :: ·) id) := by
  cases cs with
  | nil => simp [hquote]
  | cons next cs =>
    have hplain : ¬(escaping = true ∧ c = '\\') := fun ⟨he, hc⟩ => hescape he hc
    simp [hquote, hplain]

end Reading

end Text

namespace Engine

/-- Whether a backslash in a text literal makes the next character stand for itself. -/
def backslashEscapes : Engine → Bool
  | mysql => true
  | _ => false

/-- The text literal that some text starts with: what it stands for, and what follows it. -/
def readText (e : Engine) : List Char → Option (List Char × List Char)
  | '\'' :: cs => Text.readQuoted e.backslashEscapes cs
  | _ => none

/-- How a character of a text is written between the quotes of a literal. -/
def writtenChar (e : Engine) (c : Char) : List Char :=
  if c = '\'' then ['\'', '\''] else if e.backslashEscapes ∧ c = '\\' then ['\\', '\\'] else [c]

end Engine

namespace Dialect

open Text (readQuoted)

/-- Quotes and backslashes are escaped each on its own, so the order of the two does not matter. -/
theorem escapeText_eq_flatMap (e : Engine) (cs : List Char) :
    escapeText e cs = cs.flatMap e.writtenChar := by
  have hboth (c : Char) :
      ((if c = '\\' then ['\\', '\\'] else [c]).flatMap fun c => if c = '\'' then ['\'', '\''] else [c])
        = Engine.mysql.writtenChar c := by
    by_cases hb : c = '\\'
    · simp [hb, Engine.writtenChar, Engine.backslashEscapes]
    · simp [hb, Engine.writtenChar]
  unfold escapeText
  split
  case isTrue h =>
    subst h
    rw [Text.doubled_singleton, Text.doubled_singleton, List.flatMap_assoc]
    exact congrArg (cs.flatMap ·) (funext hboth)
  case isFalse h =>
    have hplain : e.backslashEscapes = false := by cases e <;> first | rfl | exact absurd rfl h
    rw [Text.doubled_singleton]
    refine congrArg (cs.flatMap ·) (funext fun c => ?_)
    simp [Engine.writtenChar, hplain]

/-- A character as it is written is read as that character. -/
theorem readQuoted_writtenChar (e : Engine) (c : Char) (cs : List Char) :
    readQuoted e.backslashEscapes (e.writtenChar c ++ cs) =
      (readQuoted e.backslashEscapes cs).map (Prod.map (c :: ·) id) := by
  unfold Engine.writtenChar
  split
  case isTrue hquote =>
    subst hquote
    exact Text.readQuoted_quote
  case isFalse hquote =>
    split
    case isTrue hback =>
      obtain ⟨he, rfl⟩ := hback
      rw [he]
      exact Text.readQuoted_backslash
    case isFalse hplain =>
      exact Text.readQuoted_plain hquote fun he hc => hplain ⟨he, hc⟩

theorem readQuoted_escapeText (e : Engine) (cs : List Char) {rest : List Char}
    (h : rest.head? ≠ some '\'') :
    readQuoted e.backslashEscapes (escapeText e cs ++ '\'' :: rest) = some (cs, rest) := by
  rw [escapeText_eq_flatMap]
  induction cs with
  | nil => exact Text.readQuoted_closing h
  | cons c cs ih =>
    rw [List.flatMap_cons, List.append_assoc, readQuoted_writtenChar, ih]
    rfl

theorem toList_packText (d : Dialect) (s : String) :
    (d.packText s).toList = '\'' :: (escapeText d.engine s.toList ++ ['\'']) := by
  simp [packText]

/-- A text literal is read as the text it was written for, whatever follows it. -/
theorem readText_packText (d : Dialect) (s : String) {rest : List Char}
    (h : rest.head? ≠ some '\'') :
    d.engine.readText ((d.packText s).toList ++ rest) = some (s.toList, rest) := by
  have hread := readQuoted_escapeText d.engine s.toList h
  simpa [toList_packText, Engine.readText] using hread

end Dialect

/-! ## Binary data -/

namespace Text

/-- The value of a hexadecimal digit. -/
def hexValue? (c : Char) : Option Nat :=
  if '0' ≤ c ∧ c ≤ '9' then some (c.toNat - 0x30)
  else if 'A' ≤ c ∧ c ≤ 'F' then some (c.toNat - 0x37)
  else if 'a' ≤ c ∧ c ≤ 'f' then some (c.toNat - 0x57)
  else none

/-- The bytes that pairs of hexadecimal digits stand for. -/
def readHex : List Char → Option (List UInt8)
  | [] => some []
  | [_] => none
  | c :: c' :: cs => do
    let high ← hexValue? c
    let low ← hexValue? c'
    return .ofNat (16 * high + low) :: (← readHex cs)

theorem hexValue?_hexDigit : ∀ n < 16, hexValue? (hexDigit n) = some n := by decide

theorem hexValue?_toUpper_hexDigit : ∀ n < 16, hexValue? (hexDigit n).toUpper = some n := by
  decide

theorem isAlphanum_hexDigit : ∀ n < 16, (hexDigit n).isAlphanum = true := by decide

theorem isAlphanum_toUpper_hexDigit : ∀ n < 16, (hexDigit n).toUpper.isAlphanum = true := by decide

/-- The digits of binary data, as capitals or not, stand for that data. -/
theorem readHex_map_hexBytes {f : Char → Char}
    (hf : ∀ n < 16, hexValue? (f (hexDigit n)) = some n) (bytes : List UInt8) :
    readHex ((hexBytes bytes).map f) = some bytes := by
  induction bytes with
  | nil => rfl
  | cons b bytes ih =>
    have hlt : b.toNat < 256 := b.toNat_lt
    have hhigh := hf (b.toNat / 16 % 16) (Nat.mod_lt _ (by decide))
    have hlow := hf (b.toNat % 16) (Nat.mod_lt _ (by decide))
    have hvalue : 16 * (b.toNat / 16 % 16) + b.toNat % 16 = b.toNat := by omega
    have hbytes : hexBytes (b :: bytes) =
        hexDigit (b.toNat / 16 % 16) :: hexDigit (b.toNat % 16) :: hexBytes bytes := rfl
    rw [hbytes, List.map_cons, List.map_cons, readHex, hhigh, hlow, ih]
    simp only [Option.bind_eq_bind, Option.bind_some, hvalue, UInt8.ofNat_toNat]
    rfl

/-- What is true of all digits is true of the digits of binary data. -/
theorem forall_mem_hexBytes {P : Char → Prop} {f : Char → Char} (hf : ∀ n < 16, P (f (hexDigit n)))
    (bytes : List UInt8) : ∀ c ∈ (hexBytes bytes).map f, P c := by
  intro c h
  obtain ⟨digit, hdigit, rfl⟩ := List.mem_map.1 h
  obtain ⟨b, -, hb⟩ := List.mem_flatMap.1 hdigit
  have hcases : digit = hexDigit (b.toNat / 16 % 16) ∨ digit = hexDigit (b.toNat % 16) := by
    simpa [hexDigits] using hb
  rcases hcases with rfl | rfl
  · exact hf _ (Nat.mod_lt _ (by decide))
  · exact hf _ (Nat.mod_lt _ (by decide))

end Text

namespace Engine

/-- The digits of a binary literal in quotes after the mark `X`, and what follows it. -/
def readMarked (e : Engine) : List Char → Option (List Char × List Char)
  | 'X' :: cs => e.readText cs
  | _ => none

/-- The digits of a binary literal that is a word after the mark `0x`, and what follows it. -/
def readNumber (isWord : Char → Bool) : List Char → Option (List Char × List Char)
  | '0' :: 'x' :: cs => some (cs.span isWord)
  | _ => none

/-- The digits of a text literal with the mark `\x` that is cast to binary data, and what follows
it. -/
def readCast (e : Engine) (isWord : Char → Bool) (cs : List Char) :
    Option (List Char × List Char) := do
  match ← e.readText cs with
  | ('\\' :: 'x' :: digits, ':' :: ':' :: after) =>
    let (word, rest) := after.span isWord
    if word = "bytea".toList then some (digits, rest) else none
  | _ => none

/-- The digits of the binary literal that some text starts with, and what follows it. -/
def readDigits (e : Engine) (isWord : Char → Bool) (cs : List Char) :
    Option (List Char × List Char) :=
  match e with
  | postgresql => e.readCast isWord cs
  | sqlserver => readNumber isWord cs
  | _ => e.readMarked cs

/-- The binary literal that some text starts with: the data it stands for, and what follows it. -/
def readBinary (e : Engine) (isWord : Char → Bool) (cs : List Char) :
    Option (List UInt8 × List Char) := do
  let (digits, rest) ← e.readDigits isWord cs
  return (← Text.readHex digits, rest)

end Engine

namespace Text

section Runs

variable {escaping : Bool} {isWord : Char → Bool} {cs rest : List Char}

/-- Characters that need no escape are read up to the closing quote. -/
theorem readQuoted_append (hplain : ∀ c ∈ cs, c ≠ '\'' ∧ (escaping = true → c ≠ '\\'))
    (h : rest.head? ≠ some '\'') :
    readQuoted escaping (cs ++ '\'' :: rest) = some (cs, rest) := by
  induction cs with
  | nil => exact readQuoted_closing h
  | cons c cs ih =>
    obtain ⟨hquote, hescape⟩ := hplain c List.mem_cons_self
    have hrest := ih fun c' hc' => hplain c' (List.mem_cons_of_mem c hc')
    rw [List.cons_append, readQuoted_plain hquote hescape, hrest]
    rfl

/-- A run of word characters ends before a character that is none. -/
theorem span_append (hword : ∀ c ∈ cs, isWord c = true)
    (hrest : ∀ c ∈ rest.head?, isWord c = false) : (cs ++ rest).span isWord = (cs, rest) := by
  have htake : rest.takeWhile isWord = [] := by
    cases rest <;> simp_all
  have hdrop : rest.dropWhile isWord = rest := by
    cases rest <;> simp_all
  rw [List.span_eq_takeWhile_dropWhile, List.takeWhile_append_of_pos hword,
    List.dropWhile_append_of_pos hword, htake, hdrop, List.append_nil]

end Runs

end Text

namespace Dialect

/-- The digits of binary data in the capitals or small letters of an engine. -/
def writtenDigits (e : Engine) (bytes : List UInt8) : List Char :=
  (Text.hexBytes bytes).map (if (bytesForm e).2.2 then Char.toUpper else id)

theorem readHex_writtenDigits (e : Engine) (bytes : List UInt8) :
    Text.readHex (writtenDigits e bytes) = some bytes := by
  unfold writtenDigits
  split
  · exact Text.readHex_map_hexBytes Text.hexValue?_toUpper_hexDigit bytes
  · exact Text.readHex_map_hexBytes Text.hexValue?_hexDigit bytes

theorem isAlphanum_of_mem_writtenDigits {e : Engine} {bytes : List UInt8} {c : Char}
    (h : c ∈ writtenDigits e bytes) : c.isAlphanum = true := by
  unfold writtenDigits at h
  split at h
  · exact Text.forall_mem_hexBytes (P := (·.isAlphanum = true))
      Text.isAlphanum_toUpper_hexDigit bytes c h
  · exact Text.forall_mem_hexBytes (P := (·.isAlphanum = true)) Text.isAlphanum_hexDigit bytes c h

section Binary

variable {d : Dialect} {isWord : Char → Bool} {bytes : List UInt8} {rest : List Char}

theorem toList_packBytes (bytes : List UInt8) :
    (d.packBytes bytes).toList =
      (bytesForm d.engine).1.toList ++ (writtenDigits d.engine bytes
        ++ (bytesForm d.engine).2.1.toList) := by
  simp only [packBytes, packDigits, writtenDigits, String.toUpper]
  split <;> simp [String.toList_map]

/-- Digits are neither quotes nor backslashes. -/
theorem plain_of_isAlphanum {c : Char} (h : c.isAlphanum = true) : c ≠ '\'' ∧ c ≠ '\\' := by
  constructor
  · rintro rfl
    exact absurd h (by decide)
  · rintro rfl
    exact absurd h (by decide)

theorem readMarked_append (e : Engine) {digits : List Char}
    (hdigits : ∀ c ∈ digits, c.isAlphanum = true) (h : rest.head? ≠ some '\'') :
    e.readMarked ("X'".toList ++ (digits ++ "'".toList) ++ rest) = some (digits, rest) := by
  have hplain : ∀ c ∈ digits, c ≠ '\'' ∧ (e.backslashEscapes = true → c ≠ '\\') := fun c hc =>
    (plain_of_isAlphanum (hdigits c hc)).imp_right fun hne _ => hne
  have hread := Text.readQuoted_append hplain h
  simpa [Engine.readMarked, Engine.readText] using hread

theorem readNumber_append {digits : List Char} (hdigits : ∀ c ∈ digits, isWord c = true)
    (h : ∀ c ∈ rest.head?, isWord c = false) :
    Engine.readNumber isWord ("0x".toList ++ (digits ++ "".toList) ++ rest) =
      some (digits, rest) := by
  have hspan := Text.span_append hdigits h
  simpa [Engine.readNumber] using hspan

theorem readCast_append {digits : List Char} (hdigits : ∀ c ∈ digits, c.isAlphanum = true)
    (hword : ∀ c ∈ "bytea".toList, isWord c = true) (h : ∀ c ∈ rest.head?, isWord c = false) :
    Engine.postgresql.readCast isWord ("'\\x".toList ++ (digits ++ "'::bytea".toList) ++ rest) =
      some (digits, rest) := by
  have hplain : ∀ c ∈ '\\' :: 'x' :: digits,
      c ≠ '\'' ∧ (Engine.postgresql.backslashEscapes = true → c ≠ '\\') := by
    intro c hc
    refine ⟨?_, fun he => absurd he (by decide)⟩
    rcases List.mem_cons.1 hc with rfl | hc
    · decide
    rcases List.mem_cons.1 hc with rfl | hc
    · decide
    · exact (plain_of_isAlphanum (hdigits c hc)).1
  have hread : Text.readQuoted _ ('\\' :: 'x' :: digits ++ '\'' :: ("::bytea".toList ++ rest)) =
      some ('\\' :: 'x' :: digits, "::bytea".toList ++ rest) :=
    Text.readQuoted_append hplain (by simp)
  have hspan := Text.span_append hword h
  have htext : Engine.postgresql.readText
      ("'\\x".toList ++ (digits ++ "'::bytea".toList) ++ rest) =
        some ('\\' :: 'x' :: digits, "::bytea".toList ++ rest) := by
    simpa [Engine.readText] using hread
  rw [Engine.readCast, htext]
  simpa using hspan

/-- The digits of a binary literal are read up to its end. -/
theorem readDigits_append (e : Engine) {digits : List Char}
    (hdigits : ∀ c ∈ digits, c.isAlphanum = true)
    (hword : ∀ c : Char, c.isAlphanum = true → isWord c = true)
    (hquote : rest.head? ≠ some '\'') (hend : ∀ c ∈ rest.head?, isWord c = false) :
    e.readDigits isWord
        ((bytesForm e).1.toList ++ (digits ++ (bytesForm e).2.1.toList) ++ rest) =
      some (digits, rest) := by
  cases e with
  | postgresql =>
    have hbytea : ∀ c ∈ "bytea".toList, c.isAlphanum = true := List.all_eq_true.1 (by decide)
    exact readCast_append hdigits (fun c hc => hword c (hbytea c hc)) hend
  | sqlserver => exact readNumber_append (fun c hc => hword c (hdigits c hc)) hend
  | generic | sqlite | mysql => exact readMarked_append _ hdigits hquote

/-- A binary literal is read as the data it was written for, if what follows it neither starts
with a quote nor goes on with the word that ends it. -/
theorem readBinary_packBytes (hword : ∀ c : Char, c.isAlphanum = true → isWord c = true)
    (hquote : rest.head? ≠ some '\'') (hend : ∀ c ∈ rest.head?, isWord c = false) :
    d.engine.readBinary isWord ((d.packBytes bytes).toList ++ rest) = some (bytes, rest) := by
  have hdigits : ∀ c ∈ writtenDigits d.engine bytes, c.isAlphanum = true := fun c hc =>
    isAlphanum_of_mem_writtenDigits hc
  have hread := readDigits_append d.engine hdigits hword hquote hend
  rw [toList_packBytes, Engine.readBinary, hread]
  simp [readHex_writtenDigits]

end Binary

/-- Inline literals stand for the values they were written for and cannot be broken out of: a text
literal before anything but a quote is read as its text, and a binary literal before anything but a
quote or a word character is read as its data, each up to its last character. Word characters are
the letters and digits and whatever else a database takes for a part of a word. -/
theorem pack_read_back (cat : Catalog) (d : Dialect) {isWord : Char → Bool}
    (hword : ∀ c : Char, c.isAlphanum = true → isWord c = true) :
    (∀ (s : String) (rest : List Char), rest.head? ≠ some '\'' →
      ∃ literal, d.pack cat (.text s) = .ok (.text literal) ∧
        d.engine.readText (literal.toList ++ rest) = some (s.toList, rest)) ∧
    ∀ (mutable : Bool) (bytes : List UInt8) (rest : List Char),
      (∀ c ∈ rest.head?, c ≠ '\'' ∧ isWord c = false) →
      ∃ literal, d.pack cat (.scalar (.binary mutable bytes)) = .ok (.text literal) ∧
        d.engine.readBinary isWord (literal.toList ++ rest) = some (bytes, rest) := by
  constructor
  · intro s rest hrest
    exact ⟨d.packText s, rfl, readText_packText d s hrest⟩
  · intro mutable bytes rest hrest
    have hquote : rest.head? ≠ some '\'' := fun h => (hrest '\'' h).1 rfl
    refine ⟨d.packBytes bytes, rfl, ?_⟩
    exact readBinary_packBytes hword hquote fun c hc => (hrest c hc).2

/-- A backslash before a quote stays inside its literal, and a byte that spells a quote does not
end one. -/
theorem pack_read_back_escapes :
    (∃ literal, (standard .mysql).pack default (.text "\\'") = .ok (.text literal) ∧
      Engine.mysql.readText (literal.toList ++ " OR".toList) =
        some ("\\'".toList, " OR".toList)) ∧
    ∃ literal, (standard .postgresql).pack default (.scalar (.binary true [0x27, 0xff])) =
        .ok (.text literal) ∧
      Engine.postgresql.readBinary (fun c => c.isAlphanum || c == '_')
        (literal.toList ++ " OR".toList) = some ([0x27, 0xff], " OR".toList) := by
  have hword : ∀ c : Char, c.isAlphanum = true → (c.isAlphanum || c == '_') = true := by
    intro c hc
    simp [hc]
  have hblank : ∀ c ∈ " OR".toList.head?, c ≠ '\'' ∧ (c.isAlphanum || c == '_') = false := by
    intro c hc
    obtain rfl : ' ' = c := Option.some.inj hc
    decide
  exact ⟨(pack_read_back default (standard .mysql) hword).1 _ _ (by decide),
    (pack_read_back default (standard .postgresql) hword).2 true _ _ hblank⟩

end Dialect

end SqlCompose
