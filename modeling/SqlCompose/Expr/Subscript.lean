import SqlCompose.Expr.Hashable
import SqlCompose.Key

/-!
# Parts of values by key

Which values are the same key, and what a value holds at a key or a place.
-/
namespace SqlCompose

namespace Value

/-- What a value that has a name holds there, and otherwise the value itself, as bare text. -/
def nameOrLabel (cat : Catalog) (v : Value) : Shown := ((v.held? cat "name").getD v).label cat

/-! ## Keys -/

mutual

/-- Whether two values are the same key wherever they occur. Two objects that are told apart by
identity are not. -/
def sameKey : Value → Value → Bool
  | sequence form xs => fun
    | sequence form' ys => form.isTuple && form'.isTuple && sameKeys xs ys
    | _ => false
  | table a => fun b => b.table? == some a
  | expr (.column _ a) => fun b => b.column? == some a
  | union xs => fun
    | union ys => typeKey (union xs) == typeKey (union ys)
    | _ => false
  | generic t xs => fun
    | generic t' ys => typeKey (generic t xs) == typeKey (generic t' ys)
    | _ => false
  | v => fun b => v.plainKey?.isSome && v.plainKey? == b.plainKey?

/-- Whether two rows of values are the same keys. -/
def sameKeys : List Value → List Value → Bool
  | [] => List.isEmpty
  | x :: xs => fun
    | [] => false
    | y :: ys => sameKey x y && sameKeys xs ys

end

/-- The value of a mapping for a key. -/
def valueFor? (entries : List (Value × Value)) (key : Value) : Option Value :=
  (entries.find? fun (k, _) => k.sameKey key).map (·.2)

/-- The types that can be made special for the type of their parts. -/
def isGeneric (t : TypeTag) : Bool := [.list, .tuple, .set, .dict].contains t

/-- The place that a value names, if it is a whole number; a negative one counts from the end. -/
def place? (v : Value) (size : Nat) : Option Int :=
  let counted := fun (n : Int) => some (if n < 0 then n + size else n)
  match v with
  | scalar (.int n) => counted n
  | scalar (.bool b) => counted (if b then 1 else 0)
  | _ => Option.none

/-- The item of a sequence at the place that a value names. -/
def itemAt (holder : TypeTag) (items : List Value) (key : Value) : Except Error (Option Value) :=
  match key.place? items.length with
  | some n =>
    if n < 0 then .error (.indexOutOfRange holder)
    else (items[n.toNat]?).elim (.error (.indexOutOfRange holder)) (.ok ∘ some)
  | Option.none => .error (.badIndex holder key.typeTag)

/-- What a value holds at a key, if the value has keys; a sequence is asked by place. -/
def at? (cat : Catalog) (v key : Value) : Except Error (Option Value) :=
  match v with
  | dict entries => do
    key.checkHashable
    return valueFor? entries key
  | table id => do
    key.checkHashable
    return key.text?.bind fun name => (cat.find? id name).map fun r => .expr r.expr
  | scalar (.text _) | scalar (.binary ..) | sequence .list _ | sequence (.bound _) _
  | sequence .tuple _ =>
    itemAt v.typeTag (v.parts?.getD []) key
  | sequence .compiled items => itemAt .tuple items key
  | type t =>
    if isGeneric t then .ok (some (generic t (key.tuple?.getD [key])))
    else .error (.notSubscriptable ("type '" ++ t.qualifiedName ++ "'"))
  | union _ | generic .. => do throw (.misfit ((← v.display cat) ++ " is not a generic class"))
  | v => .error (.notSubscriptable v.typeTag.holder)

/-- The two parts that a value falls into. -/
def pair (cat : Catalog) (v : Value) : Except Error (Value × Value) :=
  match v.items cat with
  | .ok [a, b] => .ok (a, b)
  | .ok (_ :: _ :: _) => .error (.tooManyValues 2)
  | .ok parts => .error (.tooFewValues 2 parts.length)
  | .error _ => .error (.notUnpackable v.typeTag)

end Value

end SqlCompose
