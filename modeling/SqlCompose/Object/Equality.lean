import SqlCompose.Expr.Subscript
import SqlCompose.Object.Basic

/-!
# Equality of objects

Whether two objects that are no expressions are equal. Tables and statements equal only themselves.
Sequences and mappings go by their items, and schema objects and dialects by their fields; among
those, an object equals itself, and an expression equals anything, because comparing it makes a
comparison. A number that refuses to be compared may be met on the way: items are compared in order,
and no further than they are equal.
-/
namespace SqlCompose

/-- The outcome of a comparison, which may be refused. -/
abbrev Tested := Except Error Bool

namespace Tested

/-- A test that is made only if another one holds. -/
def andThen (first second : Tested) : Tested :=
  match first with
  | .ok true => second
  | outcome => outcome

@[simp] theorem andThen_false (second : Tested) : andThen (.ok false) second = .ok false := rfl

/-- A test that is made only if a condition holds. -/
def provided (condition : Bool) (test : Tested) : Tested :=
  if condition then test else .ok false

/-- Whether one of several tests holds. -/
def any (tests : List Tested) : Tested :=
  match tests with
  | [] => .ok false
  | .ok false :: rest => any rest
  | test :: _ => test

end Tested

/-- Whether a value answers for itself when it is compared with an expression. -/
def Value.answersAlone : Value → Bool
  | .expr _ => false
  | v => v.hasFields

/-- Whether sequences of two forms can be equal. -/
def SequenceForm.matches (a b : SequenceForm) : Bool :=
  (a.isList && b.isList) || (a.isTuple && b.isTuple) || (a == .set && b == .set)

/-- Whether sequences of two forms and lengths may be equal. Tuples are told apart by their items
before their lengths. -/
def SequenceForm.mayEqual (a b : SequenceForm) (m n : Nat) : Bool :=
  a.matches b && (a.isTuple || m == n)

/-- Whether two lists have the same members, given that neither repeats one. -/
def sameMembers {α : Type} [BEq α] (xs ys : List α) : Bool :=
  xs.length == ys.length && xs.all ys.contains

/-- Whether two sets of values have the same members, given that they have as many. -/
def Value.sameMembers (xs ys : List Value) : Bool := xs.all fun x => ys.any x.sameKey

/-- Whether two rules for columns that count up are the same. One that is written out is a function
of its own every time. -/
def sameRule : Option AutoIncrement → Option AutoIncrement → Bool
  | some (.template _), _ => false
  | a, b => a == b

/-- Whether two dialects agree in a setting that both have as what it holds. -/
def Dialect.agreesOn (a b : Dialect) (field : String) : Bool :=
  match field with
  | "identifier_quote" => a.identifierQuote == b.identifierQuote
  | "placeholder_style" => a.placeholderStyle == b.placeholderStyle
  | "bind_literals" => a.bindLiterals == b.bindLiterals
  | "create_auto_increment" => sameRule a.autoIncrement b.autoIncrement
  | "type_names" => sameMembers a.typeNames b.typeNames
  | "substitutions" => sameMembers a.substitutions b.substitutions
  | _ => true

/-- A setting as what it holds. -/
def Dialect.setting (d : Dialect) (field : String) : Value :=
  (Dialect.namedFields { d with given := [] }).lookup field |>.getD .none

/-- Whether a setting that was given otherwise counts as equal to one that was not. -/
def Value.settingAlike (a b : Value) : Tested :=
  match a, b with
  | .scalar _, .scalar _ => a.equalPlain b
  | a, b => .ok (a.expr?.isSome || b.expr?.isSome)

/-- Whether two dialects agree in all settings that the first one has as what they hold. -/
def Dialect.agrees (a b : Dialect) (given : List String) : Tested :=
  (Dialect.fieldNames.filter (!given.contains ·)).foldl (fun tested field =>
    tested.andThen <|
      match b.given.lookup field with
      | some w => (a.setting field).settingAlike w
      | none => .ok (a.agreesOn b field)) (.ok (a.engine == b.engine))

mutual

/-- Whether values that are parts of different objects count as equal. -/
def Value.alike : Value → Value → Tested
  | .expr _ => fun _ => .ok true
  | .sequence form xs => fun
    | .sequence form' ys =>
      if form = .set then .ok (form' == .set && xs.length == ys.length && Value.sameMembers xs ys)
      else .provided (form.mayEqual form' xs.length ys.length) (alikeAll xs ys)
    | b => .ok b.expr?.isSome
  | .dict xs => fun
    | .dict ys => .provided (xs.length == ys.length) (alikeEntries xs ys)
    | b => .ok b.expr?.isSome
  | .table a => fun b => .ok (b.table? == some a)
  | .join { kind, source, on := _, shared } => fun
    | .join b =>
      .provided (kind == b.kind) ((source.alike b.source).andThen (.ok (shared == b.shared)))
    | _ => .ok false
  | .index { name, columns, unique, table } => fun
    | .index b =>
      .provided (name == b.name)
        ((alikeAll columns b.columns).andThen (.ok (unique == b.unique && table == b.table)))
    | _ => .ok false
  | .foreignKey a => fun
    | .foreignKey b =>
      .ok (a.columns == b.columns && a.references.length == b.references.length
        && a.onDelete == b.onDelete && a.onUpdate == b.onUpdate)
    | _ => .ok false
  | .dialect a => fun
    | .dialect b => a.alike b
    | _ => .ok false
  | .context a _ xs => fun
    | .context b _ ys =>
      (a.alike b).andThen (.provided (xs.length == ys.length) (alikeAll xs ys))
    | _ => .ok false
  | .union xs => fun
    | .union ys => .ok (Value.typeKey (.union xs) == Value.typeKey (.union ys))
    | b => .ok b.expr?.isSome
  | .generic t xs => fun
    | .generic t' ys => .ok (Value.typeKey (.generic t xs) == Value.typeKey (.generic t' ys))
    | b => .ok b.expr?.isSome
  | a => fun b => if b.expr?.isSome then .ok !a.answersAlone else a.equalPlain b

def alikeAll : List Value → List Value → Tested
  | [] => fun ys => .ok ys.isEmpty
  | x :: xs => fun
    | [] => .ok false
    | y :: ys => (x.alike y).andThen (alikeAll xs ys)

/-- Whether all entries of a mapping are alike with entries of another one. -/
def alikeEntries : List (Value × Value) → List (Value × Value) → Tested
  | [] => fun _ => .ok true
  | (k, v) :: xs => fun ys =>
    (Tested.any (ys.map fun y => .provided (k.sameKey y.1) (v.alike y.2))).andThen
      (alikeEntries xs ys)

/-- Whether settings that were given otherwise are alike with those of another dialect. -/
def alikeSettings : List (String × Value) → Dialect → Tested
  | [] => fun _ => .ok true
  | (field, v) :: given => fun b =>
    Tested.andThen
      (match b.given.lookup field with
        | some w => v.alike w
        | none => v.settingAlike (b.setting field))
      (alikeSettings given b)

def Dialect.alike : Dialect → Dialect → Tested
  | { engine, identifierQuote, placeholderStyle, bindLiterals, autoIncrement, typeNames,
      substitutions, given } => fun b =>
    (Dialect.agrees ⟨engine, identifierQuote, placeholderStyle, bindLiterals, autoIncrement,
        typeNames, substitutions, []⟩ b (given.map (·.1))).andThen
      (alikeSettings given b)

end

namespace Object

/-- Whether two items count as equal, given whether they are equal if neither is an expression. -/
def countsAs (a b : Object) (equal : Tested) : Tested :=
  if a.same b || a.value.expr?.isSome then .ok true
  else if b.value.expr?.isSome then .ok !a.value.answersAlone
  else equal

mutual

/-- Whether two objects are equal. -/
def equal : Object → Object → Tested
  | mk (.sequence form _) _ xs _ => fun
    | mk (.sequence form' _) _ ys _ =>
      if form = .set then .ok (form' == .set && sameMembers (xs.map atoms) (ys.map atoms))
      else .provided (form.mayEqual form' xs.length ys.length) (equalItems xs ys)
    | _ => .ok false
  | mk (.dict _) _ xs _ => fun
    | mk (.dict _) _ ys _ => .provided (xs.length == ys.length) (equalEntries xs (pairs ys))
    | _ => .ok false
  | mk (.scalar s) .. => fun b => (Value.scalar s).equalPlain b.value
  | mk (.complex z) .. => fun b => (Value.complex z).equalPlain b.value
  | mk (.method v name) i items fields => fun b =>
    .ok ((mk (.method v name) i items fields).atoms == b.atoms)
  | mk v i .. => fun b => if i == b.identity then .ok true else v.alike b.value

/-- Whether the items of two sequences are equal, one by one. -/
def equalItems : List Object → List Object → Tested
  | [] => fun ys => .ok ys.isEmpty
  | x :: xs => fun
    | [] => .ok false
    | y :: ys => (x.countsAs y (x.equal y)).andThen (equalItems xs ys)

/-- Whether every key of one mapping stands for the same in another. -/
def equalEntries : List Object → List (Object × Object) → Tested
  | k :: v :: rest => fun ys =>
    (Tested.any (ys.map fun y => .provided (k.atoms == y.1.atoms) (v.countsAs y.2 (v.equal y.2)))
      ).andThen (equalEntries rest ys)
  | _ => fun _ => .ok true

end

end Object

end SqlCompose
