import SqlCompose.Object.Basic

/-!
# Signatures

What a procedure takes: parameters by position or by name, of which the last ones may be left out,
and perhaps any number of further arguments. A call that does not fit is refused before anything
happens.
-/
namespace SqlCompose

/-- The arguments of a call as they are given. -/
structure Call where
  positional : List Object
  keywords : List (String × Object)
deriving Inhabited

/-- The parameters of a procedure. -/
structure Signature where
  /-- All parameters that have a name, in order. -/
  names : List String
  /-- How many of them have to be given. -/
  required : Nat
  /-- How many of them are given by position only. -/
  unnamed : Nat := 0
  /-- Whether there may be more arguments by position. -/
  takesMore : Bool := false
  /-- Whether there may be arguments under other names. -/
  takesOthers : Bool := false
  /-- Names that no argument may have, because what is called has them already. -/
  reserved : List String := []

/-- The arguments of a call as a procedure finds them. -/
structure Arguments where
  named : List (String × Object)
  more : List Object
  others : List (String × Object)

namespace Signature

/-- Parameters all of which have to be given. -/
def exact (names : List String) : Signature := { names, required := names.length }

/-- Parameters the last of which may be left out. -/
def optional (required others : List String) : Signature :=
  { names := required ++ others, required := required.length }

/-- Parameters that have to be given, and any number of further arguments. -/
def variadic (names : List String) : Signature :=
  { names, required := names.length, takesMore := true }

/-- The parameters of a declaration by fields. -/
def declaration : Signature := { names := [], required := 0, takesOthers := true }

/-- Whether an argument under a name is one of the parameters. -/
def isNamed (s : Signature) (name : String) : Bool := (s.names.drop s.unnamed).contains name

/-- The arguments of a call, each under the name of its parameter. -/
def bind (s : Signature) (c : Call) : Except Error Arguments :=
  let placed := s.names.zip c.positional
  let (matching, others) := c.keywords.partition fun (name, _) => s.isNamed name
  let given := placed ++ matching
  if c.positional.length > s.names.length ∧ !s.takesMore then .error .badCall
  else if !others.isEmpty ∧ !s.takesOthers then .error .badCall
  else if others.any fun (name, _) => s.reserved.contains name then .error .badCall
  else if matching.any fun (name, _) => (placed.lookup name).isSome then .error .badCall
  else if (s.names.take s.required).any fun name => (given.lookup name).isNone then .error .badCall
  else .ok { named := given, more := c.positional.drop s.names.length, others }

end Signature

namespace Arguments

def get? (a : Arguments) (name : String) : Option Object := a.named.lookup name

/-- All arguments that have a name. -/
def all (a : Arguments) : List (String × Object) := a.named ++ a.others

/-- An argument; one that is left out stands for nothing. -/
def get (a : Arguments) (name : String) : Object := (a.get? name).getD .none

def value (a : Arguments) (name : String) : Value := (a.get name).value

/-- An argument that has a default. -/
def valueOr (a : Arguments) (name : String) (default : Value) : Value :=
  ((a.get? name).map Object.value).getD default

/-- Whether an argument counts as true. -/
def flag (a : Arguments) (name : String) : Bool := (a.value name).truthy

/-- The values of the further arguments by position. -/
def moreValues (a : Arguments) : List Value := a.more.map Object.value

/-- The values of the arguments under other names. -/
def otherValues (a : Arguments) : List (String × Value) := a.others.map fun (k, o) => (k, o.value)

end Arguments

end SqlCompose
