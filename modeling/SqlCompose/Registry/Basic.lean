import SqlCompose.Dialect.Change
import SqlCompose.Dialect.Standard
import SqlCompose.Expr.Updated
import SqlCompose.Key
import SqlCompose.Registry.Url

/-!
# The registry of dialects

Dialects under names. What is compiled without a dialect uses the one named `default`, which is the
generic dialect as long as none has that name.
-/
namespace SqlCompose

/-- Dialects under names, each name once. -/
structure Registry where
  entries : List (Key × Dialect) := []
deriving Inhabited

namespace Registry

/-- How a dialect is asked for. -/
inductive Source
  | dialect (d : Dialect)
  /-- A scheme or a URL. -/
  | scheme (text : String)
  | other (given : TypeTag)

/-- The dialect that is asked for. -/
def Source.resolve : Source → Except Error Dialect
  | dialect d => .ok d
  | scheme text => do Dialect.ofScheme (← schemeOf text)
  | other given => .error (.notADialect given)

/-- The names among `names` that are no settings, each once, in alphabetical order. -/
def unknownFields (names : List String) : List String :=
  ((names.filter fun n => !Dialect.fieldNames.contains n).eraseDups).mergeSort fun a b => a ≤ b

/-- Puts a dialect under a name, in place of the one that has it. -/
def insert (r : Registry) (name : Key) (d : Dialect) : Registry :=
  { entries := (name, d) :: r.entries.filter (·.1 ≠ name) }

/-- The name that stands for no dialect in particular. -/
def defaultName : Key := Key.ofText "default"

/-- The dialect under a name. -/
def get? (r : Registry) (name : Key) : Option Dialect :=
  match r.entries.lookup name with
  | some d => some d
  | none => if name = defaultName then some (Dialect.standard .generic) else none

@[simp] theorem get?_insert_self (r : Registry) (name : Key) (d : Dialect) :
    (r.insert name d).get? name = some d := by
  simp [get?, insert]

theorem lookup_filter_ne {κ ν : Type} [BEq κ] [LawfulBEq κ] [DecidableEq κ] (entries : List (κ × ν))
    {name other : κ} (h : other ≠ name) :
    (entries.filter (·.1 ≠ name)).lookup other = entries.lookup other := by
  induction entries with
  | nil => rfl
  | cons entry entries ih =>
    obtain ⟨key, v⟩ := entry
    by_cases hk : key = name
    · subst hk
      have : (other == key) = false := by simpa using h
      simpa [List.lookup_cons, this] using ih
    · simp only [ne_eq, decide_not, List.filter_cons, hk, decide_false, Bool.not_false, if_true,
        List.lookup_cons]
      cases other == key <;> simp_all

theorem get?_insert_of_ne (r : Registry) {name other : Key} (d : Dialect) (h : other ≠ name) :
    (r.insert name d).get? other = r.get? other := by
  have hb : (other == name) = false := by simpa using h
  have := lookup_filter_ne r.entries h
  simp only [get?, insert, List.lookup_cons, hb, this]

/-- The dialect that is asked for, with some settings changed. All changed settings have to be
known. -/
def Source.configure (source : Source) (changes : List (String × Value)) :
    Except Error Dialect := do
  let d ← source.resolve
  let unknown := unknownFields (changes.map (·.1))
  if !unknown.isEmpty then throw (.unknownDialectFields unknown)
  return d.setAll changes

/-- Registers a dialect with some settings changed. -/
def use (r : Registry) (source : Source) (name : Key) (changes : List (String × Value)) :
    Except Error (Dialect × Registry) := do
  let d ← source.configure changes
  return (d, r.insert name d)

/-- The registry as it is now, given what contexts have bound so far. -/
def updated (b : Bindings) (r : Registry) : Registry :=
  { entries := r.entries.map fun (name, d) => (name, d.updated b) }

end Registry

end SqlCompose
