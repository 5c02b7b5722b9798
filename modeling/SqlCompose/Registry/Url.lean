import SqlCompose.Error
import SqlCompose.Text.Ranges

/-!
# Schemes and hosts of database URLs

The scheme of a database URL: a letter and then letters, digits, plus signs, hyphens and points up
to the first colon. Controls and spaces before a URL, and tabs and line ends anywhere in it, do not
count. A URL with a malformed host is malformed. Where there are brackets, the host has to be an
address of the sixth internet protocol, or of a future one whose version is named. Brackets come in
pairs, and a character that stands for one of the delimiters of a URL under compatibility
composition may not occur in a host.
-/
namespace SqlCompose.Registry

/-! ## Hosts -/

/-- The parts of a text between the occurrences of a character. -/
def parts (separator : Char) : List Char → List (List Char)
  | [] => [[]]
  | c :: cs =>
    if c = separator then [] :: parts separator cs
    else
      match parts separator cs with
      | first :: rest => (c :: first) :: rest
      | [] => [[c]]

theorem parts_ne_nil (separator : Char) (cs : List Char) : parts separator cs ≠ [] := by
  cases cs with
  | nil => simp [parts]
  | cons c cs =>
    simp only [parts]
    split
    · simp
    · split <;> simp

/-- What stands before and after the first double colon. -/
def splitDoubleColon : List Char → Option (List Char × List Char)
  | ':' :: ':' :: after => some ([], after)
  | [] => none
  | c :: cs => (splitDoubleColon cs).map fun (before, after) => (c :: before, after)

/-- What stands before and after the first occurrence of a character. -/
def cut (c : Char) (cs : List Char) : List Char × List Char :=
  (cs.takeWhile (· ≠ c), (cs.dropWhile (· ≠ c)).tail)

def isHexDigit (c : Char) : Bool :=
  c.isDigit || decide ('a' ≤ c ∧ c ≤ 'f') || decide ('A' ≤ c ∧ c ≤ 'F')

/-- One to four hexadecimal digits. -/
def isHextet (cs : List Char) : Bool :=
  !cs.isEmpty && decide (cs.length ≤ 4) && cs.all isHexDigit

/-- A decimal number below 256 without leading zeros. -/
def isOctet (cs : List Char) : Bool :=
  !cs.isEmpty && decide (cs.length ≤ 3) && cs.all Char.isDigit
    && (cs == ['0'] || cs.head? != some '0')
    && decide (cs.foldl (fun n c => 10 * n + (c.toNat - '0'.toNat)) 0 < 256)

/-- Four octets with points between them. -/
def isDottedQuad (cs : List Char) : Bool :=
  let octets := parts '.' cs
  octets.length == 4 && octets.all isOctet

/-- How many groups of sixteen bits the parts of an address stand for. Only the last part may be
dotted, where `dotted` allows it, and it stands for two groups. -/
def groupCount? (dotted : Bool) : List (List Char) → Option Nat
  | [] => some 0
  | [last] =>
    if isHextet last then some 1 else if dotted && isDottedQuad last then some 2 else none
  | part :: rest => if isHextet part then (groupCount? dotted rest).map (· + 1) else none

/-- The groups of one side of a double colon, which may be empty. -/
def sideCount? (dotted : Bool) (cs : List Char) : Option Nat :=
  if cs.isEmpty then some 0 else groupCount? dotted (parts ':' cs)

/-- Eight groups, or fewer around a double colon that stands for the missing ones. -/
def isGroups (cs : List Char) : Bool :=
  match splitDoubleColon cs with
  | none => groupCount? true (parts ':' cs) == some 8
  | some (before, after) =>
    match sideCount? false before, sideCount? true after with
    | some m, some n => decide (m + n ≤ 7)
    | _, _ => false

/-- An address, followed by the name of its zone if there is a percent sign. -/
def isZonedAddress (cs : List Char) : Bool :=
  if cs.contains '%' then
    let (address, zone) := cut '%' cs
    isGroups address && !zone.isEmpty && !zone.contains '%'
  else isGroups cs

/-- What may stand in brackets. -/
def isBracketable (cs : List Char) : Bool :=
  match cs with
  | 'v' :: rest =>
    let (version, address) := cut '.' rest
    !version.isEmpty && version.all isHexDigit && !address.isEmpty
  | cs => isZonedAddress cs

/-- The characters that stand for a solidus, a question mark, a number sign, a colon or an at sign
under compatibility composition. -/
def delimiterLike : List (Nat × Nat) :=
  [(0x2047, 0x2049), (0x2100, 0x2101), (0x2105, 0x2106), (0x2a74, 0x2a74), (0xfe13, 0xfe13),
    (0xfe16, 0xfe16), (0xfe55, 0xfe56), (0xfe5f, 0xfe5f), (0xfe6b, 0xfe6b), (0xff03, 0xff03),
    (0xff0f, 0xff0f), (0xff1a, 0xff1a), (0xff1f, 0xff20)]

/-- What follows the last occurrence of a character; the whole text if there is none. -/
def afterLast (c : Char) (cs : List Char) : List Char :=
  (cs.reverse.takeWhile (· ≠ c)).reverse

/-- The address of a host without its port. One in brackets has nothing before the brackets, and at
most a port after them. -/
def address? (cs : List Char) : Option (List Char) :=
  if cs.contains '[' then
    let (before, rest) := cut '[' cs
    let (address, port) := cut ']' rest
    if before.isEmpty && (port.isEmpty || port.head? == some ':') then some address else none
  else some (cut ':' cs).1

/-- Whether a URL may have a host; what precedes the host proper is part of it here. Where brackets
occur at all, the host proper has to be an address. -/
def isHost (cs : List Char) : Bool :=
  cs.contains '[' == cs.contains ']'
    && (!cs.contains '[' || (address? (afterLast '@' cs)).any isBracketable)
    && !cs.any (Text.inRanges delimiterLike)

theorem isHost_nil : isHost [] = true := by decide

/-! ## Schemes -/

/-- Whether a character may stand in a scheme. -/
def isSchemeChar (c : Char) : Bool :=
  c.isAlphanum || c == '+' || c == '-' || c == '.'

/-- A URL without what does not count. -/
def cleaned (url : List Char) : List Char :=
  (url.dropWhile fun c => decide (c.toNat ≤ 0x20)).filter fun c =>
    c != '\t' && c != '\r' && c != '\n'

/-- The scheme of a URL, in lower case, and what follows its colon. -/
def splitScheme (url : List Char) : Option (List Char × List Char) :=
  let scheme := url.takeWhile (· ≠ ':')
  let rest := url.dropWhile (· ≠ ':')
  if (scheme.head?.map Char.isAlpha).getD false && scheme.all isSchemeChar && !rest.isEmpty then
    some (scheme.map Char.toLower, rest.tail)
  else none

/-- The host part of what follows a scheme: what stands between two slashes and the path. -/
def hostPart : List Char → List Char
  | '/' :: '/' :: rest => rest.takeWhile fun c => c != '/' && c != '?' && c != '#'
  | _ => []

/-- The scheme by which a text asks for a dialect: that of a URL, or the whole text. -/
def schemeOf (url : String) : Except Error String :=
  let chars := cleaned url.toList
  let (scheme, rest) := match splitScheme chars with
    | some (scheme, rest) => (String.ofList scheme, rest)
    | none => (url, chars)
  if isHost (hostPart rest) then .ok scheme else .error .malformedUrl

end SqlCompose.Registry
