import SqlCompose.Expr.Concat
import SqlCompose.Expr.Convert
import SqlCompose.Number.FloatText
import SqlCompose.Text.Replace

/-!
# Calling values

What a value does when it is called, and what it answers when it is asked under a name. Types
convert, rules spell column types, and a few methods belong to texts, binary data, numbers, mappings
and expressions. Whatever else a value holds under a name is called in its place.
-/
namespace SqlCompose

/-- The serial type for an integer type. -/
def serialType : String → String
  | "SMALLINT" => "SMALLSERIAL"
  | "INTEGER" => "SERIAL"
  | "BIGINT" => "BIGSERIAL"
  | _ => ""

/-- The column type for a type keyword; empty where the type cannot count up. A keyword that is an
expression equals every type. -/
def AutoIncrement.spell (cat : Catalog) (rule : AutoIncrement) (keyword : Value) :
    Except Error Value :=
  let isAmong := fun (types : List String) =>
    keyword.expr?.isSome || (keyword.text?.map types.contains).getD false
  match rule with
  | rowid => .ok (if isAmong ["INTEGER"] then keyword else .text "")
  | serial => do
    keyword.checkHashable
    return .text ((keyword.text?.map serialType).getD "")
  | identity => do
    if isAmong ["SMALLINT", "INT", "INTEGER", "BIGINT"] then
      return .text ((← keyword.label cat) ++ " IDENTITY(1,1)")
    else return .text ""
  | template text =>
    match keyword.text? with
    | some s => .ok (.text (String.ofList (Text.replaceAll "TYPE".toList s.toList text.toList)))
    | none => .error .badCall
  | conversion target => keyword.convert cat target
  | unusable given => .error (.notCallable given)

theorem AutoIncrement.spell_serial (cat : Catalog) (s : String) :
    serial.spell cat (.text s) = .ok (.text (serialType s)) := rfl

namespace Value

/-- What a type makes of arguments. -/
def instanceOf (cat : Catalog) (t : TypeTag) : List Value → Except Error Value
  | [] => initial t
  | [v] => v.convert cat t
  | v :: w :: _ => .error (crowded v w t)

/-- What a value makes of arguments when it is called with them. -/
def apply (cat : Catalog) (f : Value) (arguments : List Value) : Except Error Value :=
  match f, arguments with
  | type t, arguments | generic t _, arguments => instanceOf cat t arguments
  | rule r, [v] => r.spell cat v
  | rule _, _ => .error .badCall
  | f, _ => .error (.notCallable f.typeTag)

/-- What a method does with its arguments. -/
abbrev Method := List Value → Except Error Value

/-! ## Texts and binary data -/

/-- Where a text is looked for in another one. -/
inductive End
  | start
  | finish

/-- The name of the test at an end. -/
def End.method : End → String
  | start => "startswith"
  | finish => "endswith"

/-- Whether a row of things has another one at one of its ends. -/
def End.matches {α : Type} [BEq α] : End → List α → List α → Bool
  | start, part, whole => part.isPrefixOf whole
  | finish, part, whole => part.isSuffixOf whole

/-- Whether a text has one of several others at an end. The first that it has settles it. -/
def hasOneOf (e : End) (s : String) : List Value → Except Error Value
  | [] => .ok (bool false)
  | v :: vs =>
    match v.text? with
    | some t => if e.matches t.toList s.toList then .ok (bool true) else hasOneOf e s vs
    | Option.none => .error (.badAlternative e.method v.typeTag)

/-- Whether a text has another one, or one of several, at an end. -/
def textHas (e : End) (s : String) (v : Value) : Except Error Value :=
  match v.text?, v.tuple? with
  | some t, _ => .ok (bool (e.matches t.toList s.toList))
  | _, some options => hasOneOf e s options
  | _, _ => .error (.badOperand (e.method ++ " first arg") "str or a tuple of str" v.typeTag)

/-- Whether binary data has one of several others at an end. -/
def hasBytesOf (e : End) (bytes : List UInt8) : List Value → Except Error Value
  | [] => .ok (bool false)
  | v :: vs =>
    match v.bytes? with
    | some part => if e.matches part bytes then .ok (bool true) else hasBytesOf e bytes vs
    | Option.none => .error (.notBytes v.typeTag)

/-- Whether binary data has other data, or one of several, at an end. -/
def bytesHave (e : End) (bytes : List UInt8) (v : Value) : Except Error Value :=
  match v.bytes?, v.tuple? with
  | some part, _ => .ok (bool (e.matches part bytes))
  | _, some options => hasBytesOf e bytes options
  | _, _ => .error (.badOperand (e.method ++ " first arg") "bytes or a tuple of bytes" v.typeTag)

/-- A text in which one text takes the place of another. -/
def textReplaced (s : String) (old new : Value) : Except Error Value :=
  match old.text?, new.text? with
  | some a, some b => .ok (text (String.ofList (Text.replaceAll a.toList b.toList s.toList)))
  | Option.none, _ => .error (.badOperand "replace() argument 1" "str" old.typeTag)
  | _, Option.none => .error (.badOperand "replace() argument 2" "str" new.typeTag)

/-- Binary data in which some data takes the place of other data. -/
def bytesReplaced (buffer : Bool) (bytes : List UInt8) (old new : Value) : Except Error Value :=
  let characters := fun (bs : List UInt8) => bs.map fun b => Char.ofNat b.toNat
  match old.bytes?, new.bytes? with
  | some a, some b =>
    let replaced := Text.replaceAll (characters a) (characters b) (characters bytes)
    .ok (scalar (.binary buffer (replaced.map fun c => UInt8.ofNat c.toNat)))
  | Option.none, _ => .error (.notBytes old.typeTag)
  | _, Option.none => .error (.notBytes new.typeTag)

/-- The text before a mark of one character, the mark and what follows it; without the mark the text
stays whole. -/
def parted (s mark : String) : Value :=
  let before := s.toList.takeWhile fun c => !mark.toList.contains c
  let after := s.toList.drop (before.length + 1)
  let found := before.length < s.toList.length
  tuple [text (String.ofList before), text (if found then mark else ""), text (String.ofList after)]

/-- The methods of a text, by name. -/
def textMethod? (s name : String) : Option Method :=
  match name with
  | "startswith" => some fun arguments => textHas .start s (arguments.headD none)
  | "endswith" => some fun arguments => textHas .finish s (arguments.headD none)
  | "replace" => some fun
    | [old, new] => textReplaced s old new
    | _ => .error .badCall
  | "partition" => some fun
    | [scalar (.text mark)] => .ok (parted s mark)
    | _ => .error .badCall
  | _ => Option.none

/-- The methods of binary data, by name. -/
def bytesMethod? (buffer : Bool) (bytes : List UInt8) (name : String) : Option Method :=
  match name with
  | "startswith" => some fun arguments => bytesHave .start bytes (arguments.headD none)
  | "endswith" => some fun arguments => bytesHave .finish bytes (arguments.headD none)
  | "replace" => some fun
    | [old, new] => bytesReplaced buffer bytes old new
    | _ => .error .badCall
  | "partition" => some fun arguments => .error (.notBytes (arguments.headD none).typeTag)
  | "hex" => some fun _ => .ok (text (String.ofList (Text.hexBytes bytes)))
  | _ => Option.none

/-! ## Methods of types -/

/-- The type that a caller's own type refines, or the type itself. -/
def underlying : TypeTag → TypeTag
  | .derived _ base => underlying base
  | t => t

/-- The methods that the values of a type have, and what a call of one says when it gets a value of
the type and nothing else. -/
def methodsOf (t : TypeTag) : List (String × String) :=
  let ends := ["startswith", "endswith"].map fun name =>
    (name, name ++ "() takes at least 1 argument (0 given)")
  let replacing := ("replace", "replace expected at least 2 arguments, got 1")
  let parting :=
    ("partition", t.qualifiedName ++ ".partition() takes exactly one argument (0 given)")
  match underlying t with
  | .text => ends ++ [replacing, parting]
  | .bytes | .bytearray => ends ++ [replacing, parting, ("hex", "")]
  | .float => [("hex", "")]
  | .timestamp | .date | .time => [("replace", "")]
  | .dict => [("get", "")]
  | _ => []

/-- What is wrong with calling a method of a type without a value of the type. -/
def unbound (t : TypeTag) (name complaint : String) (arguments : List Value) : Error :=
  let base := underlying t
  match arguments with
  | [] => .misfit ("unbound method " ++ base.qualifiedName ++ "." ++ name ++ "() needs an argument")
  | v :: _ =>
    if underlying v.typeTag == base then .misfit complaint
    else
      .misfit ("descriptor '" ++ name ++ "' for '" ++ base.qualifiedName
        ++ "' objects doesn't apply to a '" ++ v.typeTag.qualifiedName ++ "' object")

/-! ## Answers -/

/-- The methods that values have by their type, by name. -/
def method? (v : Value) (name : String) : Option Method :=
  match v, name with
  | scalar (.text s), name => textMethod? s name
  | scalar (.binary buffer bytes), name => bytesMethod? buffer bytes name
  | scalar (.float x), "hex" => some fun _ => .ok (text x.hexText)
  | scalar (.date _), "replace" | scalar (.time _), "replace" | scalar (.timestamp _), "replace" =>
    some fun arguments => .error (.notAnInteger (arguments.headD none).typeTag)
  | dict entries, "get" => some fun arguments => do
    let key := arguments.headD none
    key.checkHashable
    return (valueFor? entries key).getD ((arguments.drop 1).headD none)
  | expr e, "startswith" => some fun arguments =>
    .ok (.expr (e.like (arguments.headD none) { fuzzyStart := false }))
  | type t, name =>
    ((methodsOf t).lookup name).map fun complaint arguments =>
      .error (unbound t name complaint arguments)
  | _, _ => Option.none

/-- What a value answers when it is asked under a name. -/
def invoke (cat : Catalog) (v : Value) (name : String) (arguments : List Value) :
    Except Error Value :=
  match v.method? name with
  | some answer => answer arguments
  | Option.none => do (← v.get cat name).apply cat arguments

end Value

end SqlCompose
