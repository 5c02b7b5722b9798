import SqlCompose.Object.Workspace

/-!
# Procedures

What can be called: a signature with what is done with the arguments. The arguments are looked at as
they are when all of them are known, and nothing is done for a call that does not fit.
-/
namespace SqlCompose

/-- Something that can be called. -/
structure Procedure where
  signature : Signature
  run : Arguments → Action Object

namespace Procedure

/-- The arguments of a call as they are now. -/
def settled (c : Call) : Action Call := do
  return {
    positional := ← c.positional.mapM Workspace.current
    keywords := ← c.keywords.mapM fun (name, o) => return (name, ← Workspace.current o) }

def call (p : Procedure) (c : Call) : Action Object := do
  p.run (← Workspace.lift (p.signature.bind (← settled c)))

/-- A procedure all of whose parameters have to be given. -/
def exact (names : List String) (run : Arguments → Action Object) : Procedure :=
  ⟨.exact names, run⟩

/-- A procedure the last of whose parameters may be left out. -/
def optional (required others : List String) (run : Arguments → Action Object) : Procedure :=
  ⟨.optional required others, run⟩

/-- A procedure that takes any number of further arguments. -/
def variadic (names : List String) (run : Arguments → Action Object) : Procedure :=
  ⟨.variadic names, run⟩

/-- A procedure that makes a value of its arguments and the catalog. -/
def making (names : List String) (f : Catalog → Arguments → Except Error Value) : Procedure :=
  exact names fun a => do
    Workspace.make (← Workspace.lift (f (← Workspace.catalog) a))

/-- A procedure that makes a text of one. A text that does not change is the same object. -/
def rewriting (names : List String) (f : Catalog → Arguments → Except Error Value) : Procedure :=
  exact names fun a => do
    let v ← Workspace.lift (f (← Workspace.catalog) a)
    Workspace.rewritten (a.get (names.headD "")) v

/-- A procedure that takes arguments by position and under any names. -/
def anyNames (run : Arguments → Action Object) : Procedure :=
  ⟨{ names := [], required := 0, takesMore := true, takesOthers := true, reserved := ["self"] },
    run⟩

/-- A procedure that takes arguments under any names, and none by position. -/
def anyKeywords (run : Arguments → Action Object) : Procedure :=
  ⟨{ Signature.declaration with reserved := ["self"] }, run⟩

/-- A declaration by fields. -/
def declaration (run : Arguments → Action Object) : Procedure := ⟨.declaration, run⟩

end Procedure

/-! ## Rendering in a context

Rendering an object in a context that the caller keeps. Where something else stands in the place of
the context, it is asked for what a context would be asked for; plain SQL text asks nothing.
-/

namespace Method

/-- A procedure that renders an object in a context. -/
def rendering (o : Object) (draft : Catalog → Engine → Draft) : Procedure :=
  .exact ["context"] fun a => Workspace.render (a.get "context") o draft

/-- A procedure that renders an object in a context, in one of two ways. -/
def renderingIf (o : Object) (flag : String) (draft : Bool → Catalog → Engine → Draft) :
    Procedure :=
  .optional ["context"] [flag] fun a =>
    Workspace.render (a.get "context") o (draft (a.flag flag))

end Method

end SqlCompose
