import SqlCompose.Expr.Display
import SqlCompose.Expr.Hashable
import SqlCompose.Expr.Updated
import SqlCompose.Key

/-!
# Objects

What a caller holds: a value together with its identity. The items of a sequence and the entries of
a mapping are objects of their own, and so are the fields of a value that were made from objects.
-/
namespace SqlCompose

/-- A value with its identity. The items of a mapping are its keys, each followed by what it stands
for. Fields that are not listed are parts of the object. -/
inductive Object
  | mk (value : Value) (identity : Identity) (items : List Object) (fields : List (String × Object))

namespace Object

def value : Object → Value
  | mk v .. => v

def identity : Object → Identity
  | mk _ i .. => i

def items : Object → List Object
  | mk _ _ items _ => items

def fields : Object → List (String × Object)
  | mk _ _ _ fields => fields

/-- An object of a given identity, unless its value is one object wherever it occurs. -/
def build (identity : Identity) (v : Value) (items : List Object)
    (fields : List (String × Object)) : Object :=
  mk v (v.identity?.getD identity) items fields

mutual

/-- A value as an object, whose items are parts of it. -/
def ofValue (identity : Identity) : Value → Object
  | .sequence form vs => build identity (.sequence form vs) (ofValues identity 0 vs) []
  | .dict entries => build identity (.dict entries) (ofEntries identity 0 entries) []
  | v => build identity v [] []

/-- Values as parts of an object, counted from `place`. -/
def ofValues (whole : Identity) (place : Nat) : List Value → List Object
  | [] => []
  | v :: vs => ofValue (.part whole (toString place)) v :: ofValues whole (place + 1) vs

/-- Keys and what they stand for as parts of an object, counted from `place`. -/
def ofEntries (whole : Identity) (place : Nat) : List (Value × Value) → List Object
  | [] => []
  | (k, v) :: entries =>
    ofValue (.part whole (toString place)) k
      :: ofValue (.part whole (toString (place + 1))) v :: ofEntries whole (place + 2) entries

end

instance : Inhabited Object := ⟨ofValue default .none⟩

/-- The object that stands for nothing. -/
def none : Object := ofValue default .none

def bool (b : Bool) : Object := ofValue default (.bool b)

/-- A word that the library says. -/
def word (s : String) : Object := ofValue (.word s) (.text s)

/-- A sequence of objects. -/
def sequence (identity : Identity) (form : SequenceForm) (items : List Object) : Object :=
  build identity (.sequence form (items.map value)) items []

/-- A mapping of objects. -/
def dict (identity : Identity) (entries : List (Object × Object)) : Object :=
  build identity (.dict (entries.map fun (k, v) => (k.value, v.value)))
    (entries.flatMap fun (k, v) => [k, v]) []

/-- Items two by two, as the keys of a mapping and what they stand for. -/
def pairs : List Object → List (Object × Object)
  | k :: v :: rest => (k, v) :: pairs rest
  | _ => []

/-- What a field of an object holds. -/
def field? (cat : Catalog) (o : Object) (name : String) : Option Object :=
  match o.fields.lookup name with
  | some held => some held
  | Option.none =>
    ((o.value.declaredFields cat ++ o.value.extras).lookup name).map
      (ofValue (.part o.identity name))

/-- An object some more of whose fields were given as objects. -/
def holding (o : Object) (fields : List (String × Object)) : Object :=
  mk o.value o.identity o.items (o.fields ++ fields)

/-- What a copy of a statement was given under a name that is none of its clauses. -/
def extra? (o : Object) (name : String) : Option Object :=
  (o.value.extras.lookup name).map fun v =>
    (o.fields.lookup name).getD (ofValue (.part o.identity name) v)

/-- An object like another with another value. The fields that did not change are still the same
objects, and `held` are the others as far as they were given. -/
def revised (cat : Catalog) (o : Object) (identity : Identity) (v : Value)
    (changed : List String) (held : List (String × Object)) : Object :=
  let kept := (v.declaredFields cat ++ v.extras).filterMap fun (name, _) =>
    if changed.contains name then Option.none else (o.field? cat name).map fun x => (name, x)
  build identity v [] (held ++ kept)

/-! ## Objects as they are now -/

/-- What contexts have bound so far, each under its number. -/
abbrev Bound := List (Nat × List Object)

/-- What contexts have bound so far, as values. -/
def Bound.values (b : Bound) : Bindings := b.map fun (n, os) => (n, os.map value)

mutual

/-- An object as it is now, given what contexts have bound so far. -/
def updated (b : Bound) (values : Bindings) : Object → Object
  | mk v i items fields =>
    match v with
    | .sequence (.bound n) vs =>
      let now := (b.lookup n).getD items
      mk (.parameters n ((values.lookup n).getD vs)) i now fields
    | v => mk (v.updated values) i (updatedAll b values items) (updatedFields b values fields)

def updatedAll (b : Bound) (values : Bindings) : List Object → List Object
  | [] => []
  | o :: os => o.updated b values :: updatedAll b values os

def updatedFields (b : Bound) (values : Bindings) :
    List (String × Object) → List (String × Object)
  | [] => []
  | (name, o) :: fields => (name, o.updated b values) :: updatedFields b values fields

end

/-! ## Identity -/

/-- Whether two objects are the same one. -/
def same (a b : Object) : Bool := a.identity == b.identity

/-! ## Keys -/

mutual

/-- What tells an object apart from other keys. -/
def atoms : Object → Key
  | mk (.sequence form _) i items _ =>
    if form = .tuple ∨ form = .compiled then .tuple items.length :: atomsOf items else [.object i]
  | mk (.union vs) .. => Value.typeKey (.union vs)
  | mk (.generic t vs) .. => Value.typeKey (.generic t vs)
  | mk (.method _ name) i _ fields =>
    [.method name, .object (((fields.lookup "__self__").map identity).getD i)]
  | mk v i .. => v.plainKey?.getD [.object i]

/-- What tells objects apart, one after the other. -/
def atomsOf : List Object → Key
  | [] => []
  | o :: os => o.atoms ++ atomsOf os

end

/-- The key that an object is. -/
def key (o : Object) : Except Error Key := do
  o.value.checkHashable
  return o.atoms

/-- The objects that are no key before them, each with its key. -/
def distinct (keyed : List (Key × Object)) : List (Key × Object) :=
  keyed.foldl (fun kept e => if kept.any (·.1 == e.1) then kept else kept ++ [e]) []

/-- A set of objects: the first of those that are the same key. -/
def setOf (identity : Identity) (items : List Object) : Except Error Object := do
  let keyed ← items.mapM fun o => return (← o.key, o)
  return sequence identity .set ((distinct keyed).map (·.2))

/-- Puts a value under a key, in the place of the key if it is there. -/
def putEntry (entries : List (Key × Object × Object)) (key : Key) (k v : Object) :
    List (Key × Object × Object) :=
  if entries.any (·.1 == key) then
    entries.map fun e => if e.1 == key then (e.1, e.2.1, v) else e
  else entries ++ [(key, k, v)]

/-- A mapping with the given entries: the first of the keys that are the same, and the last of what
they stand for. -/
def dictOf (identity : Identity) (entries : List (Object × Object)) : Except Error Object := do
  let keyed ← entries.mapM fun (k, v) => return (← k.key, k, v)
  return dict identity ((keyed.foldl (fun kept e => putEntry kept e.1 e.2.1 e.2.2) []).map (·.2))

/-! ## Which objects are bound

What is bound to a placeholder is a scalar that the rendered object holds. Which object that is can
be told from the scalars that were given to it, in the order in which it holds them.
-/

/-- The fields in which a scalar may stand that is bound when an object is rendered. -/
def boundFields : List String :=
  ["arguments", "value", "expression", "inner", "query", "select_fields", "tables", "joins",
    "table", "on", "where_clause", "group_by_fields", "having_clause", "order_by_fields", "unions",
    "rows_values", "select_query", "assignments", "returning_fields"]

mutual

/-- The scalars that an object was given, and that may be bound when it is rendered. -/
def scalars : Object → List Object
  | mk v i items fields =>
    match v with
    | .scalar _ => [mk v i items fields]
    | .table _ | .expr (.column ..) => []
    | _ => scalarsOf items ++ scalarsIn fields

def scalarsOf : List Object → List Object
  | [] => []
  | o :: os => o.scalars ++ scalarsOf os

def scalarsIn : List (String × Object) → List Object
  | [] => []
  | (name, o) :: fields =>
    if boundFields.contains name then o.scalars ++ scalarsIn fields else scalarsIn fields

end

/-- The scalar that a value is. -/
def scalar? : Value → Option Scalar
  | .scalar s => some s
  | _ => Option.none

/-- For each value the object that it is: the next one that holds it, or else the first one. -/
def claimed (all : List Object) : List Object → List Value → List (Option Object)
  | _, [] => []
  | rest, v :: vs =>
    let holds := fun (o : Object) => scalar? o.value == scalar? v
    match rest.dropWhile fun o => !holds o with
    | o :: rest => some o :: claimed all rest vs
    | [] => all.find? holds :: claimed all rest vs

end Object

end SqlCompose
