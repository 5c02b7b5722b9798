import SqlCompose.Expr.Display

/-!
# Values that can be keys

A key has to stay what it is, so nothing that can change is one: no list, set, mapping, buffer or
context. A tuple is a key if all of its items are.
-/
namespace SqlCompose

/-- Checks that a scalar can be a key. A buffer may change, and a signaling number refuses. -/
def Scalar.checkHashable : Scalar → Except Error Unit
  | .binary true _ => .error (.notHashable .bytearray)
  | .decimal (.notANumber _ true _) => .error .signalingKey
  | _ => .ok ()

mutual

/-- Checks that a value can be a key. A dialect holds mappings, but does not say so. -/
def Value.checkHashable : Value → Except Error Unit
  | .scalar s => s.checkHashable
  | .sequence .list _ | .sequence (.bound _) _ => .error (.notHashable .list)
  | .sequence .set _ => .error (.notHashable .set)
  | .sequence _ items => checkAllHashable items
  | .dict _ => .error (.notHashable .dict)
  | .generic _ parts => checkAllHashable parts
  | .union members => checkAllHashable members
  | .dialect _ => .error .badCall
  | .context .. => .error (.notHashable (.entity ["context"] "BuildContext"))
  | _ => .ok ()

/-- Checks that values can be keys. -/
def checkAllHashable : List Value → Except Error Unit
  | [] => .ok ()
  | v :: vs => do
    v.checkHashable
    checkAllHashable vs

end

/-- One entry of a mapping that is given as pairs. -/
def Value.entry (cat : Catalog) (v : Value) (place : Nat) : Except Error (Value × Value) :=
  match v.items cat with
  | .ok [key, value] => do
    key.checkHashable
    return (key, value)
  | .ok parts => .error (.entryLength place parts.length)
  | .error _ => .error (.notAnEntry place)

/-- The entries of a mapping, which may be given as pairs of a key and a value. What counts as false
has none. -/
def Value.entries (cat : Catalog) (v : Value) : Except Error (List (Value × Value)) :=
  match v with
  | .dict entries => .ok entries
  | v =>
    if !v.truthy then .ok []
    else do (← v.items cat).zipIdx.mapM fun (item, place) => item.entry cat place

end SqlCompose
