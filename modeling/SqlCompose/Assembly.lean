import SqlCompose.Dialect.Identifier
import SqlCompose.Dialect.Literal
import SqlCompose.Draft

/-!
# Assembling drafts

Writing a draft yields SQL text and binds values on the way, which stay bound if it fails. A draft
is written in a context, that is a dialect and what has been bound before; where something else
stands in the place of a context, it is asked for what a context would be asked for.
-/
namespace SqlCompose

/-- A step that binds values and may fail. -/
abbrev Assembly := ExceptT Error (StateM (Array Value))

/-- What a draft is written with. -/
inductive Host
  | context (d : Dialect) (number : Nat)
  /-- Something else in the place of a context. -/
  | other (v : Value)

namespace Host

/-- The host that a value is. -/
def ofValue : Value → Host
  | .context d n _ => context d n
  | v => other v

/-- The value that a host is when some values have been bound. -/
def value (bound : Array Value) : Host → Value
  | context d n => .context d n bound.toList
  | other v => v

/-- The dialect of a host, which may be anything. -/
def dialect (cat : Catalog) : Host → Except Error Value
  | context d _ => .ok (.dialect d)
  | other v => v.get cat "dialect"

/-- The engine whose rules a host follows. -/
def engine (cat : Catalog) (host : Host) : Engine :=
  match host.dialect cat with
  | .ok (.dialect d) => d.engine
  | _ => .generic

/-- What the dialect of a host answers; `fallback` is asked of what is no dialect. -/
def consult (cat : Catalog) (host : Host) (answer : Dialect → Except Error Value)
    (fallback : Value → Except Error Value) : Except Error Value := do
  match ← host.dialect cat with
  | .dialect d => answer d
  | v => fallback v

/-- Whether the dialect of a host has a part of the given name. -/
def checkPart (cat : Catalog) (host : Host) (part : String) : Except Error Unit := do
  match ← host.dialect cat with
  | .dialect _ => return ()
  | v => if part ≠ "" then discard (v.get cat part)

/-- A name as a host writes it. -/
def quote (cat : Catalog) (name : Value) : Host → Except Error Value
  | context d _ => d.quote cat name
  | other v => v.invoke cat "pack_name" [name]

/-- A value as a host writes it out; `task` is what it is asked to do. -/
def pack (cat : Catalog) (task : String) (v : Value) : Host → Except Error Value
  | context d _ => d.pack cat v
  | other w => w.invoke cat task [v]

end Host

namespace Assembly

/-- The outcome of a call as a step. -/
def lift {α : Type} (r : Except Error α) : Assembly α :=
  match r with
  | .ok a => pure a
  | .error e => throw e

/-- Binds a value, which gets the next placeholder. -/
def bind (cat : Catalog) (d : Dialect) (v : Value) : Assembly Value := do
  discard (lift (v.toScalar cat))
  modify (·.push v)
  return .text (d.placeholder ((← get).size : Nat))

/-- Binds a value or writes it out, as the host says. -/
def literal (cat : Catalog) (host : Host) (v : Value) : Assembly Value :=
  match host with
  | .context d _ => if d.bindLiterals then bind cat d v else lift (d.pack cat v)
  | .other w => lift (w.invoke cat "literal" [v])

/-- A lead before the first of several values. -/
def led (lead : Option String) (items : List Value) : Except Error (List Value) :=
  match lead, items with
  | some s, first :: rest => do return (← (Value.text s).plus first) :: rest
  | _, items => .ok items

end Assembly

namespace Draft

mutual

/-- Writes a draft. -/
def assemble (cat : Catalog) (host : Host) : Draft → Assembly Value
  | token t => pure (.text t.spelling)
  | literal v => Assembly.literal cat host v
  | inlined v => Assembly.lift (host.pack cat "literal" v)
  | packed v => Assembly.lift (host.pack cat "pack_type" v)
  | name v => Assembly.lift (host.quote cat v)
  | spelling keyword =>
    Assembly.lift (host.consult cat (·.spelling cat (.text keyword))
      (·.invoke cat "substitute" [.text keyword]))
  | ofDialect answer => Assembly.lift (host.consult cat answer fun _ => .error .badCall)
  | applied f => do Assembly.lift (f.apply cat [host.value (← get)])
  | member v word => do
    let f ← Assembly.lift (v.get cat word)
    Assembly.lift (f.apply cat [host.value (← get)])
  | ask part => do
    Assembly.lift (host.checkPart cat part)
    return .text ""
  | fail e => throw e
  | before first rest => do
    discard (assemble cat host first)
    assemble cat host rest
  | checked d last => do
    let v ← assemble cat host d
    discard (assemble cat host last)
    return v
  | plus a b => do
    let left ← assemble cat host a
    Assembly.lift (left.plus (← assemble cat host b))
  | extend a b => do
    let left ← assemble cat host a
    Assembly.lift (left.extend cat (← assemble cat host b))
  | shown d => do
    let v ← assemble cat host d
    return .text (← Assembly.lift (v.label cat))
  | row separator items => do
    Assembly.lift (Value.joined separator.spelling (← assembleAll cat host items))
  | framed lead opening items closing => do
    let written ← Assembly.lift (Assembly.led lead (← assembleAll cat host items))
    let opened ← assemble cat host opening
    let filled ← Assembly.lift (opened.plus (← Assembly.lift (Value.joined ", " written)))
    Assembly.lift (filled.plus (← assemble cat host closing))

/-- Writes several drafts, one after the other. -/
def assembleAll (cat : Catalog) (host : Host) : List Draft → Assembly (List Value)
  | [] => pure []
  | d :: ds => do
    let v ← assemble cat host d
    return v :: (← assembleAll cat host ds)

end

/-- The outcome of a draft after what has been bound before, and all that is bound in the end. -/
def outcome (cat : Catalog) (host : Host) (d : Draft) (bound : List Value) :
    Except Error Value × List Value :=
  let (r, bound) := (d.assemble cat host).run bound.toArray
  (r, bound.toList)

theorem outcome_eq_iff {cat : Catalog} {host : Host} {d : Draft} {bound more : List Value}
    {r : Except Error Value} : d.outcome cat host bound = (r, more) ↔
      (d.assemble cat host).run bound.toArray = (r, more.toArray) := by
  unfold outcome
  cases (d.assemble cat host).run bound.toArray with
  | mk s rest =>
    constructor <;> rintro ⟨⟩ <;> rfl

end Draft

end SqlCompose
