import SqlCompose.Dialect.Basic

/-!
# Changing settings

Settings are changed as they are given, unchecked. A setting that is given as what it holds is
replaced; anything else, as well as the name of a placeholder style, has the effect that it can
have, and is kept as it was given.
-/
namespace SqlCompose

namespace Value

/-- The two quotes that a value is. -/
def quotes? : Value → Option (String × String)
  | sequence .tuple [scalar (.text a), scalar (.text b)] => some (a, b)
  | _ => Option.none

/-- The placeholder style that a value names. -/
def style? (v : Value) : Option PlaceholderStyle := v.text?.bind PlaceholderStyle.ofValue?

/-- The placeholder style that something else has the effect of. An expression counts as equal to
the first style that it is compared with. -/
def styleEffect (v : Value) : PlaceholderStyle := if v.expr?.isSome then .numeric else .qmark

/-- The rule for columns that count up that a value has the effect of. -/
def ruleEffect : Value → Option AutoIncrement
  | scalar .null => Option.none
  | rule r => some r
  | type t | generic t _ => some (.conversion t)
  | v => some (.unusable v.typeTag)

/-- Whether a value is a rule for columns that count up, or the absence of one. -/
def isRule : Value → Bool
  | scalar .null | rule _ => true
  | _ => false

/-- The keyword of a kind that an entry of a mapping is. -/
def typeKeyword? : Value × Value → Option (DataKind × String)
  | (kind k, scalar (.text s)) => some (k, s)
  | _ => Option.none

/-- The spelling of a keyword that an entry of a mapping is. -/
def respelling? : Value × Value → Option (String × String)
  | (scalar (.text k), scalar (.text s)) => some (k, s)
  | _ => Option.none

/-- The entries of a mapping, when all of them are of one form. -/
def entriesOf? {α : Type} (read? : Value × Value → Option α) : Value → Option (List α)
  | dict entries => entries.mapM read?
  | _ => Option.none

/-- Whether a value is a yes or no. -/
def bool? : Value → Option Bool
  | scalar (.bool b) => some b
  | _ => Option.none

end Value

namespace Dialect

/-- Keeps a setting as it was given. -/
def keep (d : Dialect) (field : String) (v : Value) : Dialect :=
  { d with given := d.given ++ [(field, v)] }

/-- A dialect with one setting changed. What is no setting changes nothing. -/
def set (d : Dialect) (field : String) (v : Value) : Dialect :=
  let d := { d with given := d.given.filter (·.1 ≠ field) }
  match field with
  | "identifier_quote" =>
    match v.quotes? with
    | some quotes => { d with identifierQuote := quotes }
    | none => d.keep field v
  | "placeholder_style" => { d with placeholderStyle := v.style?.getD v.styleEffect }.keep field v
  | "bind_literals" =>
    match v.bool? with
    | some b => { d with bindLiterals := b }
    | none => { d with bindLiterals := v.truthy }.keep field v
  | "create_auto_increment" =>
    let changed := { d with autoIncrement := v.ruleEffect }
    if v.isRule then changed else changed.keep field v
  | "type_names" =>
    match v.entriesOf? Value.typeKeyword? with
    | some names => { d with typeNames := names }
    | none => d.keep field v
  | "substitutions" =>
    match v.entriesOf? Value.respelling? with
    | some spellings => { d with substitutions := spellings }
    | none => d.keep field v
  | _ => d

/-- A dialect with several settings changed, one after the other. -/
def setAll (d : Dialect) (changes : List (String × Value)) : Dialect :=
  changes.foldl (fun d (field, v) => d.set field v) d

end Dialect

end SqlCompose
