import SqlCompose.Object.Equality
import SqlCompose.Object.Filling
import SqlCompose.Object.Temporal
import SqlCompose.Object.Workspace

/-!
# Operators between plain objects

What the operators make of objects of which none is an expression. Numbers are worked with as
numbers, spans of time move days and points in time, texts and sequences are put together and
repeated, values are filled in for the marks of a text, sets and types are combined, and numbers,
texts, sequences, sets, dates and spans have an order. Everything else is refused.
-/
namespace SqlCompose.Plain

/-! ## Order -/

/-- Whether an outcome of a comparison is what a symbol says. -/
def holds (symbol : String) (o : Ordering) : Bool :=
  match symbol with
  | "<" => o == .lt
  | "<=" => o != .gt
  | ">" => o == .gt
  | _ => o != .lt

/-- The order of two times, which both have an offset or both have none. -/
def orderTimes (symbol : String) (s t : TimeOfDay) (before after : Int) : Except Error Bool :=
  let place := fun (t : TimeOfDay) (days : Int) =>
    (t.instant?.getD ((({ t with offset := some 0 } : TimeOfDay).instant?).getD 0))
      + days * Span.day
  if s.offset.isSome = t.offset.isSome then
    .ok (holds symbol (compare (place s before) (place t after)))
  else .error .unsupportedOperands

/-- The order of two scalars. -/
def orderScalars (symbol : String) (a b : Scalar) : Except Error Bool :=
  match a, b with
  | .text s, .text t => .ok (holds symbol (compare s t))
  | .binary _ xs, .binary _ ys =>
    .ok (holds symbol (compare (xs.map UInt8.toNat) (ys.map UInt8.toNat)))
  | .date s, .date t => .ok (holds symbol (compare s.dayNumber t.dayNumber))
  | .time s, .time t => orderTimes symbol s t 0 0
  | .timestamp s, .timestamp t =>
    orderTimes symbol s.time t.time s.date.dayNumber t.date.dayNumber
  | _, _ => .error .unsupportedOperands

/-- The order of two values without parts. -/
def orderValues (symbol : String) (a b : Value) : Except Error Bool :=
  match Quantity.ofValue? a, Quantity.ofValue? b, a, b with
  | some x, some y, _, _ => Quantity.order (holds symbol) x y
  | _, _, .scalar s, .scalar t => orderScalars symbol s t
  | _, _, .span s, .span t => .ok (holds symbol (compare s.microseconds t.microseconds))
  | _, _, _, _ => .error .unsupportedOperands

/-- Whether one set is part of another one. -/
def isPart (xs ys : List Object) : Bool :=
  (xs.map Object.atoms).all (ys.map Object.atoms).contains

/-- The order of two sets: a smaller one is part of a larger one. -/
def orderSets (symbol : String) (xs ys : List Object) : Bool :=
  match symbol with
  | "<" => isPart xs ys && decide (xs.length < ys.length)
  | "<=" => isPart xs ys
  | ">" => isPart ys xs && decide (ys.length < xs.length)
  | _ => isPart ys xs

/-- What comes of asking for an order: an answer, or two items on which it depends and of which the
second one is an expression. -/
inductive Ordered
  | settled (answer : Bool)
  | depends (a b : Object)

mutual

/-- The order of two objects. -/
def order (symbol : String) : Object → Object → Except Error Ordered
  | .mk (.sequence form _) _ xs _ => fun
    | .mk (.sequence form' _) _ ys _ =>
      if !form.matches form' then .error .unsupportedOperands
      else if form = .set then .ok (.settled (orderSets symbol xs ys))
      else orderItems symbol xs ys
    | _ => .error .unsupportedOperands
  | .mk v .. => fun
    | .mk w .. => (orderValues symbol v w).map .settled

/-- The order of two sequences: that of the first items that differ, or else of the lengths. -/
def orderItems (symbol : String) : List Object → List Object → Except Error Ordered
  | [] => fun ys => .ok (.settled (holds symbol (if ys.isEmpty then .eq else .lt)))
  | x :: xs => fun
    | [] => .ok (.settled (holds symbol .gt))
    | y :: ys =>
      match x.countsAs y (x.equal y) with
      | .error e => .error e
      | .ok true => orderItems symbol xs ys
      | .ok false => if y.value.expr?.isSome then .ok (.depends x y) else order symbol x y

end

/-! ## Putting together and repeating -/

/-- The items of a sequence that can be put behind another one of its form. -/
def joinable? (o : Object) : Option (SequenceForm × List Object) :=
  match o.value with
  | .sequence form _ =>
    if form.isList then some (.list, o.items)
    else if form.isTuple then some (.tuple, o.items)
    else none
  | _ => none

/-- Whether an object never changes, so that where nothing is added to it, it is the outcome itself:
a text, binary data that is no buffer, or a tuple. -/
def isFixed (o : Object) : Bool :=
  match o.value with
  | .scalar (.text _) | .scalar (.binary false _) | .sequence .tuple _ => true
  | _ => false

/-- Whether an object has parts, but none so far. -/
def isEmpty (o : Object) : Bool := (o.value.parts?.map List.isEmpty).getD false

/-- The one of two objects that is their joint outcome, if the other one adds nothing to it. -/
def unchanged? (a b : Object) : Option Object :=
  if !isFixed a then none
  else if isEmpty a && isFixed b then some b
  else if isEmpty b then some a
  else none

/-- One object behind another. -/
def join (a b : Object) : Action Object := do
  match joinable? a, joinable? b with
  | some (form, xs), some (form', ys) =>
    if form ≠ form' then throw .unsupportedOperands
    match unchanged? a b with
    | some o => return o
    | none => Workspace.sequence form (xs ++ ys)
  | none, none =>
    match a.value.plus b.value, unchanged? a b with
    | .ok _, some o => return o
    | .ok v, none => Workspace.make v
    | .error _, _ => throw .unsupportedOperands
  | _, _ => throw .unsupportedOperands

/-- How many parts something may have that is made by repeating. -/
def largestRepeated : Nat := 100000000

/-- Something as often over as a number says. -/
def repeated {α : Type} (n : Int) (xs : List α) : Action (List α) :=
  if Filling.largestWidth < n ∨ n < -Filling.largestWidth - 1 then throw .endlessNumber
  else if largestRepeated < xs.length * n.toNat then throw .exhausted
  else if xs.isEmpty then pure []
  else pure (List.replicate n.toNat xs).flatten

/-- An object as often over as a number says. -/
def times (n : Int) (o : Object) : Action Object := do
  if n = 1 && isFixed o then return o
  match joinable? o, o.value with
  | some (form, xs), _ => Workspace.sequence form (← repeated n xs)
  | none, .scalar (.text s) => Workspace.text (String.ofList (← repeated n s.toList))
  | none, .scalar (.binary buffer bytes) =>
    Workspace.make (.scalar (.binary buffer (← repeated n bytes)))
  | none, _ => throw .unsupportedOperands

/-! ## Arithmetic -/

/-- The members of a set. -/
def members? (o : Object) : Option (List Object) :=
  match o.value with
  | .sequence .set _ => some o.items
  | _ => none

/-- The members of one set that another one has, or has not. -/
def among (xs ys : List Object) (wanted : Bool) : List Object :=
  xs.filter fun x => (ys.map Object.atoms).contains x.atoms == wanted

/-- Whether a value is a pattern for other values. -/
def isPattern (v : Value) : Bool := v.text?.isSome || v.bytes?.isSome

/-- What a pattern becomes when an object is filled in. A text without marks is the object that it
was. -/
def fillIn (a b : Object) : Action Object := do
  let cat ← Workspace.catalog
  match a.value with
  | .scalar (.text s) =>
    let filled ← Workspace.lift (Filling.run cat false s.toList b)
    match filled.same, s.toList.contains '%' with
    | some o, _ => return o
    | none, true => Workspace.text filled.text
    | none, false => return a
  | .scalar (.binary buffer bytes) =>
    let filled ← Workspace.lift (Filling.run cat true (Value.spelledBy bytes).toList b)
    Workspace.make (.scalar (.binary buffer (filled.text.toList.map fun c => UInt8.ofNat c.toNat)))
  | _ => throw .unsupportedOperands

/-- An arithmetic operator between two objects that are not both numbers. -/
def combine (symbol : String) (a b : Object) : Action Object := do
  match Quantity.ofValue? a.value, Quantity.ofValue? b.value, symbol with
  | some (.whole n), none, "*" => times n b
  | none, some (.whole n), "*" => times n a
  | none, none, "+" => join a b
  | none, none, "-" =>
    match members? a, members? b with
    | some xs, some ys => Workspace.sequence .set (among xs ys false)
    | _, _ => throw .unsupportedOperands
  | _, _, _ => throw .unsupportedOperands

/-- An arithmetic operator between two objects. -/
def arithmetic (symbol : String) (a b : Object) : Action Object := do
  match Quantity.ofValue? a.value, Quantity.ofValue? b.value with
  | some x, some y => Workspace.make (← Workspace.lift (x.combine symbol y))
  | _, _ =>
    if symbol = "%" && isPattern a.value then fillIn a b
    else
      match Temporal.combine? symbol a.value b.value with
      | some outcome => Workspace.make (← Workspace.lift outcome)
      | none => combine symbol a b

/-! ## Combination -/

/-- The types that an object brings into a choice. Nothing stands for its own type there. -/
def choices? (o : Object) : Option (List Object) :=
  match o.value with
  | .scalar .null => some [Object.ofValue default (.type .nothing)]
  | .type _ | .generic .. => some [o]
  | .union members => some (Object.ofValues o.identity 0 members)
  | _ => none

/-- The choice between types. There is none between nothing and nothing, a single type is the
choice itself, and so is a choice to which nothing is added. -/
def eitherType (a b : Object) : Action Object := do
  match choices? a, choices? b with
  | some xs, some ys =>
    if a.value.isNone && b.value.isNone then throw .unsupportedOperands
    match Object.distinct ((xs ++ ys).map fun o => (o.atoms, o)) with
    | [(_, o)] => return o
    | members =>
      if 1 < xs.length ∧ members.length = xs.length then return a
      else Workspace.make (.union (members.map (·.2.value)))
  | _, _ => throw .unsupportedOperands

/-- Bit by bit, AND or OR of two whole numbers. -/
def bitwise (isAnd : Bool) (m n : Int) : Int :=
  let both := fun (a b : Nat) => if isAnd then a &&& b else a ||| b
  match m, n with
  | .ofNat a, .ofNat b => (both a b : Nat)
  | .ofNat a, .negSucc b => if isAnd then (a - (a &&& b) : Nat) else .negSucc (b - (b &&& a))
  | .negSucc a, .ofNat b => if isAnd then (b - (b &&& a) : Nat) else .negSucc (a - (a &&& b))
  | .negSucc a, .negSucc b => .negSucc (if isAnd then a ||| b else a &&& b)

/-- What two sets have in common, or have together. Common members are those of the smaller set, or
of the second one. -/
def connectSets (isAnd : Bool) (xs ys : List Object) : List Object :=
  if !isAnd then xs ++ among ys xs false
  else if ys.length ≤ xs.length then among ys xs true
  else among xs ys true

/-- AND or OR of two objects: of bits, of sets, of mappings and of types. -/
def connect (isAnd : Bool) (a b : Object) : Action Object := do
  match a.value, b.value with
  | .scalar (.bool s), .scalar (.bool t) => return .bool (if isAnd then s && t else s || t)
  | .sequence .set _, .sequence .set _ =>
    Workspace.sequence .set (connectSets isAnd a.items b.items)
  | .dict _, .dict _ =>
    if isAnd then throw .unsupportedOperands
    else
      let entries := Object.pairs a.items ++ Object.pairs b.items
      Workspace.lift (Object.dictOf (← Workspace.fresh) entries)
  | v, w =>
    match Quantity.ofValue? v, Quantity.ofValue? w with
    | some (.whole m), some (.whole n) => Workspace.make (.int (bitwise isAnd m n))
    | _, _ => if isAnd then throw .unsupportedOperands else eitherType a b

/-! ## Signs -/

/-- Whether an object that has a plus before it is the same object: a number that is neither a yes
or no nor decimal. -/
def keepsPlus (v : Value) : Bool :=
  match v with
  | .scalar (.int _) | .scalar (.float _) | .complex _ => true
  | _ => false

/-- A sign before an object. -/
def sign (minus : Bool) (a : Object) : Action Object := do
  if !minus && keepsPlus a.value then return a
  match Quantity.ofValue? a.value, Temporal.signed? minus a.value with
  | some x, _ => Workspace.make (← Workspace.lift (x.signed minus))
  | none, some outcome => Workspace.make (← Workspace.lift outcome)
  | none, none => throw .unsupportedOperands

/-- The bits of a whole number the other way round. -/
def complement (a : Object) : Action Object := do
  match Quantity.ofValue? a.value with
  | some (.whole n) => Workspace.make (.int (-n - 1))
  | _ => throw .unsupportedOperands

end SqlCompose.Plain
