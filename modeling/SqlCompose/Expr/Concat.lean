import SqlCompose.Expr.Build
import SqlCompose.Expr.Subscript

/-!
# Putting values together

What it is to put one value behind another. Two texts make a text, and so do sequences of one form
among themselves; next to an expression anything makes a sum. All else is refused, and the message
says what stood on either side.
-/
namespace SqlCompose.Value

/-- What goes wrong when one value cannot be put behind another. A text, a sequence or binary data
says that it takes only its like. -/
def cannotJoin (symbol : String) (a b : Value) : Error :=
  match a with
  | scalar (.text _) | scalar (.binary ..) | sequence .list _ | sequence (.bound _) _ =>
    .badConcatenation a.typeTag b.typeTag
  | sequence .tuple _ | sequence .compiled _ => .badConcatenation .tuple b.typeTag
  | a => .badOperands symbol a.typeTag b.typeTag

/-- One value behind another. Where it cannot be, `symbol` is what the message calls the attempt. -/
def joinedTo (symbol : String) (a b : Value) : Except Error Value :=
  if a.expr?.isSome || b.expr?.isSome then .ok (.expr (.binary "+" a b))
  else
    match a, b with
    | scalar (.text s), scalar (.text t) => .ok (text (s ++ t))
    | scalar (.binary buffer xs), scalar (.binary _ ys) => .ok (scalar (.binary buffer (xs ++ ys)))
    | a, b =>
      match a.list?, b.list?, a.tuple?, b.tuple? with
      | some xs, some ys, _, _ => .ok (list (xs ++ ys))
      | _, _, some xs, some ys => .ok (tuple (xs ++ ys))
      | _, _, _, _ => .error (cannotJoin symbol a b)

/-- One value behind another. -/
def plus (a b : Value) : Except Error Value := joinedTo "+" a b

@[simp] theorem plus_text (s t : String) : (text s).plus (text t) = .ok (text (s ++ t)) := rfl

/-- A value that goes on with another one. A list takes the parts of anything that has parts. -/
def extend (cat : Catalog) (a b : Value) : Except Error Value :=
  match a.list?, b.expr? with
  | some xs, Option.none => do return list (xs ++ (← b.items cat))
  | _, _ => joinedTo "+=" a b

@[simp] theorem extend_text (cat : Catalog) (s t : String) :
    (text s).extend cat (text t) = .ok (text (s ++ t)) := rfl

/-- A value twice over. Of a span or a number that may have a fraction only its type matters. -/
def twice (v : Value) : Except Error Value :=
  match v with
  | expr e => .ok (.expr (.binary "*" (.expr e) (int 2)))
  | scalar (.text s) => .ok (text (s ++ s))
  | scalar (.binary buffer bytes) => .ok (scalar (.binary buffer (bytes ++ bytes)))
  | scalar (.bool b) => .ok (int (if b then 2 else 0))
  | scalar (.int n) => .ok (int (2 * n))
  | scalar (.float _) | scalar (.decimal _) | complex _ | span _ => .ok v
  | sequence .list items | sequence (.bound _) items => .ok (list (items ++ items))
  | sequence .tuple items | sequence .compiled items => .ok (tuple (items ++ items))
  | v => .error (.badOperands "*" v.typeTag .int)

/-- The texts of items, which have to be texts. -/
def textsFrom (place : Nat) : List Value → Except Error (List String)
  | [] => .ok []
  | v :: vs =>
    match v.text? with
    | some s => (textsFrom (place + 1) vs).map (s :: ·)
    | Option.none => .error (.badPart place v.typeTag)

@[simp] theorem textsFrom_text (place : Nat) (names : List String) :
    textsFrom place (names.map text) = .ok names := by
  induction names generalizing place with
  | nil => rfl
  | cons s names ih =>
    rw [List.map_cons, textsFrom, ih]
    rfl

/-- Texts with a separator between them. -/
def joined (separator : String) (items : List Value) : Except Error Value :=
  (textsFrom 0 items).map fun texts => text (separator.intercalate texts)

@[simp] theorem joined_text (separator : String) (names : List String) :
    joined separator (names.map text) = .ok (text (separator.intercalate names)) := by
  simp [joined, Except.map]

/-- Whether a character occurs in a text, or a text of it among the parts of another value. Next to
an expression everything counts as equal. A type that is made special has no text among its parts.
-/
def contains (cat : Catalog) (v : Value) (c : Char) : Except Error Bool :=
  match v with
  | scalar (.text s) => .ok (s.toList.contains c)
  | scalar (.binary ..) => .error (.notBytes .text)
  | generic .. => .ok false
  | v =>
    match v.items cat with
    | .ok parts =>
      .ok (parts.any fun part => part.expr?.isSome || part.text? == some (String.ofList [c]))
    | .error _ => .error (.notSearchable v.typeTag)

end SqlCompose.Value
