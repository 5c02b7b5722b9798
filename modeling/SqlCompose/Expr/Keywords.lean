import SqlCompose.Expr.Calling

/-!
# Calling values with keywords

What a value does when it is called with arguments under names. Only a mapping can be made of them;
the other types take none, or none of the names that they are given here.
-/
namespace SqlCompose

/-- How many arguments a type takes at most, if it counts them before it looks at their names. -/
def TypeTag.capacity? : TypeTag → Option Nat
  | .int | .complex | .decimal => some 2
  | .text | .bytes | .bytearray | .date => some 3
  | .time => some 6
  | .timestamp => some 9
  | _ => none

/-- How a type calls itself when it is given a name that it does not know. -/
def TypeTag.callee : TypeTag → String
  | .decimal | .date | .time | .timestamp => "function"
  | t => t.name ++ "()"

namespace Value

/-- What is wrong with giving a type a value under a name. -/
def unnameable (t : TypeTag) (arguments : List Value) (named : List (String × Value)) : Error :=
  let given := arguments.length + named.length
  let name := (named.head?.map (·.1)).getD ""
  let unknown := fun (callee : String) =>
    Error.misfit ("'" ++ name ++ "' is an invalid keyword argument for " ++ callee)
  match t.capacity?, t with
  | some most, t =>
    if most < given then
      .misfit (t.callee ++ " takes at most " ++ toString most ++ " arguments ("
        ++ toString given ++ " given)")
    else
      match t, arguments with
      | .date, [] | .timestamp, [] => .missingField "year" 1
      | .date, v :: _ | .timestamp, v :: _ | .time, v :: _ => .notAnInteger v.typeTag
      | .decimal, _ | .time, _ => unknown "this function"
      | t, _ => unknown t.callee
  | Option.none, .object => .takesNothing "object()"
  | Option.none, .nothing => .takesNothing "NoneType"
  | Option.none, t => .misfit (t.name ++ "() takes no keyword arguments")

/-- A mapping with further entries under names. -/
def withEntries (v : Value) (named : List (String × Value)) : Value :=
  match v with
  | dict entries => dict (entries ++ named.map fun (name, w) => (text name, w))
  | v => v

/-- What a value makes of arguments, some of them under names. -/
def applyNamed (cat : Catalog) (f : Value) (arguments : List Value)
    (named : List (String × Value)) : Except Error Value :=
  if named.isEmpty then f.apply cat arguments
  else
    match f with
    | type t =>
      if underlying t = .dict then do return (← f.apply cat arguments).withEntries named
      else .error (unnameable (underlying t) arguments named)
    | rule _ => .error .badCall
    | f => .error (.notCallable f.typeTag)

end Value

end SqlCompose
