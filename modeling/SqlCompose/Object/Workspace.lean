import SqlCompose.Expr.Keywords
import SqlCompose.Object.Basic
import SqlCompose.Object.Signature
import SqlCompose.Session

/-!
# Workspaces

A workspace is a session together with the contexts that are in use and the objects that have names.
An action may fail, but what it has done before it fails stays done: the values bound in a context,
for instance.
-/
namespace SqlCompose

/-- A session, what the contexts in use have bound, and the named objects. -/
structure Workspace where
  session : Session := {}
  /-- The parameters of each context so far. -/
  bound : Object.Bound := []
  /-- Which objects the registered dialects are. -/
  registered : List (Key × Object) := []
  /-- The fields of columns and tables that were given as objects. -/
  kept : List (Identity × List (String × Object)) := []
  names : List (String × Object) := []
  /-- The number of the next object. -/
  made : Nat := 1
deriving Inhabited

/-- A step that works on a workspace and may fail. -/
abbrev Action := ExceptT Error (StateM Workspace)

namespace Workspace

/-- The outcome of a call as an action. -/
def lift {α : Type} (r : Except Error α) : Action α :=
  match r with
  | .ok a => pure a
  | .error e => throw e

def catalog : Action Catalog := return (← get).session.catalog

def setCatalog (cat : Catalog) : Action Unit :=
  modify fun w => { w with session := { w.session with catalog := cat } }

/-- Runs a call that leaves a new session. -/
def onSession {α : Type} (f : Session → Except Error (α × Session)) : Action α := do
  let (a, session) ← lift (f (← get).session)
  modify fun w => { w with session }
  return a

/-! ## Making objects -/

/-- An identity that no object has yet. -/
def fresh : Action Identity := do
  let w ← get
  set { w with made := w.made + 1 }
  return .made w.made

/-- A new object. -/
def make (v : Value) : Action Object := return Object.ofValue (← fresh) v

/-- A new object some of whose fields were given as objects. -/
def makeWith (v : Value) (fields : List (String × Object)) : Action Object :=
  return Object.build (← fresh) v [] fields

def text (s : String) : Action Object := make (.text s)

/-- The text that something becomes; one that does not change is the same object. -/
def rewritten (o : Object) (v : Value) : Action Object :=
  if v.text?.isSome && v.text? == o.value.text? then pure o else make v

def expr (e : Expr) : Action Object := make (.expr e)

def expr? (e : Except Error Expr) : Action Object := do expr (← lift e)

/-- A new sequence of objects. -/
def sequence (form : SequenceForm) (items : List Object) : Action Object :=
  return Object.sequence (← fresh) form items

/-- The nodes of expressions as objects. -/
def exprs (es : List Expr) : Action Object := do
  sequence .list (← es.mapM expr)

mutual

/-- The expression for an object; an expression is the same object. -/
def asExpr : Object → Action Object
  | .mk v i items fields =>
    match v with
    | .expr _ => pure (.mk v i items fields)
    | .sequence .. => do
      makeWith (.expr v.toExpr) [("arguments", ← sequence .tuple (← asExprs items))]
    | .select _ => makeWith (.expr v.toExpr) [("query", .mk v i items fields)]
    | v => makeWith (.expr v.toExpr) [("value", .mk v i items fields)]

/-- The expressions for objects. -/
def asExprs : List Object → Action (List Object)
  | [] => pure []
  | o :: os => return (← asExpr o) :: (← asExprs os)

end

/-- An operator node that was applied to the given objects. -/
def applied (e : Expr) (arguments : List Object) : Action Object := do
  makeWith (.expr e) [("arguments", ← sequence .tuple (← asExprs arguments))]

/-- A field of an object; one that does not exist stands for nothing. -/
def field (o : Object) (name : String) : Action Object := do
  return (o.field? (← catalog) name).getD .none

/-! ## Combining predicates -/

/-- The objects that a predicate adds to a combination. -/
def flattened (symbol : String) (o : Object) : Action (List Object) := do
  let o ← asExpr o
  match o.value with
  | .expr (.apply asName .boolean own _) =>
    if own = symbol ∧ !asName.truthy then return (← field o "arguments").items else return [o]
  | _ => return [o]

/-- The combination of predicates that an expression is. One argument stands for itself. -/
def combined (e : Expr) (predicates : List Object) : Action Object := do
  match predicates with
  | [o] => return o
  | os => makeWith (.expr e) [("arguments", ← sequence .tuple os)]

/-- A combination of predicates. -/
def combine (symbol : String) (predicates : List Object) : Action Object := do
  let e ← lift (Expr.combine symbol (predicates.map Object.value))
  combined e (← predicates.flatMapM (flattened symbol))

/-! ## Tables, names and contexts -/

/-- Lets a column or a table hold some objects wherever it is met. -/
def note (o : Object) (held : List (String × Object)) : Action Unit :=
  modify fun w => { w with kept := (o.identity, held) :: w.kept }

/-- An expression under another alias. -/
def named (asName : Object) (o : Object) (e : Expr) : Action Object := do
  let cat ← catalog
  let (e, cat') := cat.named asName.value e
  setCatalog cat'
  let copy := o.revised cat (← fresh) (.expr e) ["alias"] [("alias", asName)]
  match e with
  | .column .. => note copy copy.fields
  | _ => pure ()
  return copy

/-- A table under an alias. -/
def aliasTable (id : TableId) (asName : Except Error (Option String)) : Action Object := do
  let (id, cat) ← lift ((← catalog).aliasTable id asName)
  setCatalog cat
  make (.table id)

/-- Gives a name to what an action yields. The name means nothing until the action is done. -/
def bindName (name : String) (a : Action Object) : Action Unit := do
  modify fun w => { w with names := w.names.filter (·.1 ≠ name) }
  let o ← a
  modify fun w => { w with names := (name, o) :: w.names }

/-- An object with its fields, if it is a column or a table and they were given as objects. -/
def attached (kept : List (Identity × List (String × Object))) (o : Object) : Object :=
  match o.value, o.fields with
  | .table _, [] | .expr (.column ..), [] => o.holding ((kept.lookup o.identity).getD [])
  | _, _ => o

/-- An object as it is now. -/
def current (o : Object) : Action Object := do
  let w ← get
  let o := attached w.kept o
  return if w.bound.isEmpty then o else o.updated w.bound w.bound.values

/-- The object that has a name. -/
def lookup (name : String) : Action Object := do
  match (← get).names.lookup name with
  | some o => current o
  | none => throw (.undefinedName name)

/-- What a value makes of the arguments of a call. Of what goes wrong inside a type nothing is said.
-/
def called (cat : Catalog) (f : Value) (arguments : List Value) (named : List (String × Value)) :
    Except Error Value :=
  match f, f.applyNamed cat arguments named with
  | .rule .serial, outcome => outcome
  | _, .ok v => .ok v
  | _, .error e => .error e.silent

/-- Calls an object that is no procedure of its own. -/
def callValue (f : Object) (arguments : List Object) (named : List (String × Object)) :
    Action Object := do
  let outcome := called (← catalog) f.value (arguments.map Object.value)
    (named.map fun (name, o) => (name, o.value))
  make (← lift outcome)

/-- Bound values as objects: those that the rendered object holds. -/
def found (rendered : Object) (values : List Value) : Action (List Object) := do
  let given := rendered.scalars
  ((Object.claimed given given values).zip values).mapM fun (held, v) =>
    match held with
    | some o => pure o
    | none => make v

/-- Puts a context to use. -/
def addContext (d : Dialect) (parameters : List Object) : Action Object := do
  let w ← get
  let n := w.made
  set { w with made := n + 1, bound := (n, parameters) :: w.bound }
  let held := Object.mk (.parameters n (parameters.map Object.value))
    (.part (.made n) "parameters") parameters []
  return .mk (.context d n (parameters.map Object.value)) (.made n) [] [("parameters", held)]

/-- Notes what a context has bound, wherever it is held. -/
def noteBound (n : Nat) (parameters : List Object) : Action Unit :=
  modify fun w => { w with
    bound := (n, parameters) :: w.bound.filter (·.1 ≠ n)
    session := w.session.updated [(n, parameters.map Object.value)] }

/-- Renders an object in a context. What is bound stays bound if the work fails. -/
def inContext (context rendered : Object) (f : Dialect → Assembly Value) : Action Object := do
  let .context d n _ := context.value | throw .badCall
  let before := ((← get).bound.lookup n).getD []
  let (r, bound) := (f d).run (before.map Object.value).toArray
  noteBound n (before ++ (← found rendered (bound.toList.drop before.length)))
  make (← lift r)

/-- Renders an object in a context, which keeps what is bound, or with what stands in its place. -/
def render (context rendered : Object) (draft : Catalog → Engine → Draft) : Action Object := do
  let cat ← catalog
  let host := Host.ofValue context.value
  let draft := draft cat (host.engine cat)
  match host with
  | .context .. => inContext context rendered fun _ => draft.assemble cat host
  | .other _ => make (← lift (draft.outcome cat host []).1)

/-! ## Dialects and compiling -/

/-- The object of the dialect under a name, which messages call `label`. -/
def dialectNamed (name : Key) (label : Shown) : Action Object := do
  let w ← get
  let d ← lift (w.session.dialect name label)
  match w.registered.lookup name with
  | some o => return .mk (.dialect d) o.identity o.items o.fields
  | none => make (.dialect d)

/-- The given dialect, or the default one if there is none. -/
def dialectOr (given : Value) : Action Value :=
  if given.isNone then return (← dialectNamed Registry.defaultName (.ok "default")).value
  else pure given

/-- The dialect that a value is. -/
def asDialect (v : Value) : Action Dialect :=
  match v with
  | .dialect d => pure d
  | _ => throw .badField

/-- The dialect that a value is when a schema is defined. -/
def schemaDialect (v : Value) : Action Dialect :=
  match v with
  | .dialect d => pure d
  | v => throw (if v.hasFields then .badField else .lacksAttribute v.holder "model_copy")

/-- What an object was compiled to. -/
def outcome (o : Object) (c : Compiled) : Action Object := do
  sequence .compiled [← make c.sql, ← sequence .list (← found o c.parameters)]

/-- Compiles an object for a dialect. -/
def compile (dialect : Value) (o : Object) : Action Object := do
  let d ← asDialect dialect
  outcome o (← onSession fun s => s.compile d o.value)

/-- What a value answers when it is asked to create or drop what only a table can. -/
def asked (dialect v : Value) (verb flag : String) (given : Bool) : Action Value := do
  let cat ← catalog
  let known := match v, verb with
    | .expr (.column ..), "create" => true
    | _, _ => false
  if known then
    discard (schemaDialect dialect)
    throw (.unexpectedArgument "Column.create" flag)
  let f ← lift (v.get cat verb)
  let d ← schemaDialect dialect
  lift (f.applyNamed cat [.context d.inlining 0 []] [(flag, .bool given)])

/-- Compiles the creation of a table. -/
def createTable (dialect v : Value) (ifNotExists : Bool) : Action Object := do
  match v with
  | .table id =>
    let d ← schemaDialect dialect
    make (← onSession fun s => s.compileCreateTable d id ifNotExists)
  | v =>
    let sql ← asked dialect v "create" "if_not_exists" ifNotExists
    let d ← schemaDialect dialect
    discard (onSession fun s => return ((), ← s.noteCreation d sql))
    make sql

/-- Compiles the removal of a table. -/
def dropTable (dialect v : Value) (ifExists : Bool) : Action Object := do
  match v with
  | .table id =>
    let d ← schemaDialect dialect
    make (← lift (compileDropTable (← catalog) d id ifExists))
  | v => make (← asked dialect v "drop" "if_exists" ifExists)

/-- Compiles the creation of an index, or anything else that can be compiled, with its literals
written out. -/
def createIndex (dialect v : Value) : Action Object := do
  let cat ← catalog
  if !v.isBuildable then discard (lift (v.get cat "build"))
  let d ← schemaDialect dialect
  make (← lift (compileInlined cat d (v.built cat d.engine)))

/-- What runs compiled statements makes of a text and its parameters. -/
def handOver (runner : Value) (compiled : Object) : Action Object := do
  match runner with
  | .executor => sequence .list (.word "executed" :: compiled.items)
  | v =>
    let cat ← catalog
    make (← lift (do (← v.get cat "execute").apply cat (compiled.items.map Object.value)))

/-- Whether a value can run compiled statements. -/
def isRunner (cat : Catalog) (v : Value) : Bool :=
  match v with
  | .executor => true
  | v => ((v.held? cat "execute").map fun w => !w.isNone).getD false

/-- Compiles a statement and hands it to an executor, which yields what it was given. -/
def execute (given : Object) (runner dialect : Value) : Action Object := do
  if !isRunner (← catalog) runner then throw (.notAnExecutor runner.typeTag)
  let d ← asDialect (← dialectOr dialect)
  handOver runner (← outcome given (← onSession fun s => s.prepare d given.value))

/-! ## Registering -/

/-- Registers a dialect with some settings changed. Without changes it stays the same object. -/
def use (given name : Object) (changed : List (String × Object)) : Action Object := do
  let changes := changed.map fun (field, o) => (field, o.value)
  let source : Registry.Source := match given.value with
    | .dialect d => .dialect d
    | .scalar (.text s) => .scheme s
    | v => .other v.typeTag
  let cat ← catalog
  discard (lift (source.configure changes))
  let key ← lift name.key
  let shown ← lift (shownInside (name.value.display cat))
  let d ← onSession fun s => s.use source key shown changes
  let o ← match given.value, changes with
    | .dialect _, [] => pure given
    | .dialect _, _ =>
      pure (given.revised cat (← fresh) (.dialect d) (changed.map (·.1)) changed)
    | _, _ => makeWith (.dialect d) changed
  modify fun w => { w with registered := (key, o) :: w.registered.filter (·.1 ≠ key) }
  return o

/-- Forgets all registered dialects. -/
def resetRegistry : Action Unit :=
  modify fun w => { w with registered := [], session := { w.session with registry := {} } }

/-- The records of the journal, which is empty afterwards. -/
def takeRecords : Action (List Record) := do
  onSession fun s => .ok s.takeRecords

end Workspace

end SqlCompose
