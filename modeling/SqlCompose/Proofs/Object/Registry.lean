import SqlCompose.Object.Function.Statement
import SqlCompose.Proofs.Dialect.Change
import SqlCompose.Proofs.Object.Ownership

/-!
# Runs of the registry

Dialects are registered under names and forgotten again, and some of these calls fail. What a name
stands for after all of them is what the last call returned that succeeded for this name, as long as
nothing was forgotten since.
-/
namespace SqlCompose

open SqlCompose.Action

/-! ## Names -/

theorem Object.key_of_text {name : Object} {s : String} (h : name.value = .text s) :
    name.key = .ok (Key.ofText s) := by
  obtain ⟨v, i, items, fields⟩ := name
  obtain rfl : v = .text s := h
  rfl

theorem Number.Binary64.atom?_ne_text (x : Number.Binary64) (s : String) :
    x.atom? ≠ some (.text s) := by
  unfold atom?
  split
  · simp
  · split <;> simp

theorem Scalar.eq_text_of_atom? {a : Scalar} {s : String} (h : a.atom? = some (.text s)) :
    a = .text s := by
  cases a with
  | text t => simpa [Scalar.atom?] using h
  | float x => exact (x.atom?_ne_text s h).elim
  | decimal x => cases x <;> simp [Scalar.atom?, Number.Decimal.exact?] at h
  | time t =>
    simp only [Scalar.atom?] at h
    cases ht : t.instant? <;> simp [ht] at h
  | timestamp t =>
    simp only [Scalar.atom?] at h
    cases ht : t.instant? <;> simp [ht] at h
  | _ => cases h

theorem Value.eq_text_of_plainKey? {v : Value} {s : String}
    (h : v.plainKey? = some (Key.ofText s)) : v = .text s := by
  cases v with
  | scalar a =>
    obtain ⟨atom, hatom, heq⟩ := Option.map_eq_some_iff.1 h
    obtain rfl : atom = .text s := (List.cons.inj heq).1
    rw [Scalar.eq_text_of_atom? hatom]
    rfl
  | complex z =>
    simp only [plainKey?, Number.Complex.key?, Option.bind_eq_bind, Option.bind_eq_some_iff] at h
    obtain ⟨re, hre, h⟩ := h
    split at h
    · obtain rfl : re = .text s := (List.cons.inj (Option.some.inj h)).1
      exact (z.re.atom?_ne_text s hre).elim
    · cases him : z.im.atom? <;> simp [him, Key.ofText] at h
  | _ => cases h

/-- Nothing but a text is the same key as a text. -/
theorem Object.value_of_key {name : Object} {s : String} (h : name.key = .ok (Key.ofText s)) :
    name.value = .text s := by
  obtain ⟨v, i, items, fields⟩ := name
  obtain ⟨-, -, hkey⟩ := Except.bind_eq_ok_iff.1 h
  replace hkey : Object.atoms (mk v i items fields) = Key.ofText s := Except.ok.inj hkey
  unfold Object.atoms at hkey
  split at hkey
  case h_1 => split at hkey <;> cases hkey
  case h_2 => cases hkey
  case h_3 => cases hkey
  case h_4 => cases hkey
  case h_5 heq =>
    obtain ⟨rfl, -, -, -⟩ := Object.mk.inj heq
    refine Value.eq_text_of_plainKey? ?_
    cases hplain : v.plainKey? with
    | none => simp [hplain, Key.ofText] at hkey
    | some key =>
      rw [hplain] at hkey
      exact hplain.trans (congrArg some hkey)

/-! ## One call -/

/-- How an object asks for a dialect. -/
def Object.source (given : Object) : Registry.Source :=
  match given.value with
  | .dialect d => .dialect d
  | .scalar (.text s) => .scheme s
  | v => .other v.typeTag

/-- A call that registers a dialect under a name, with some settings changed. -/
structure UseCall where
  given : Object
  name : Object
  changed : List (String × Object)

namespace UseCall

def run (call : UseCall) : Action Object := Workspace.use call.given call.name call.changed

/-- The settings that are changed, as values. -/
def changes (call : UseCall) : List (String × Value) :=
  call.changed.map fun (field, o) => (field, o.value)

/-- Whether an object is the dialect that a call asks for: the one it was given or that of a scheme,
with the changes and nothing else changed. A dialect that is given without changes is the same
object. -/
def Yields (call : UseCall) (o : Object) : Prop :=
  ∃ base d, call.given.source.resolve = .ok base ∧ Dialect.Overrides call.changes base d ∧
    o.value = .dialect d ∧ ((∃ d, call.given.value = .dialect d) → call.changed = [] → o = call.given)

variable {call : UseCall} {w : Workspace}

/-- What a call makes of a workspace: if it fails nothing has changed, and otherwise a dialect is
registered. -/
inductive Turns (call : UseCall) (w : Workspace) (r : Except Error Object × Workspace) : Prop
  | fails (e : Error) (h : r = (.error e, w))
    (hcause : call.given.source.configure call.changes = .error e ∨ call.name.key = .error e ∨
      shownInside (call.name.value.display w.session.catalog) = .error e)
  | succeeds (o : Object) (d : Dialect) (key : Key) (h : r.1 = .ok o)
    (hd : call.given.source.configure call.changes = .ok d) (ho : o.value = .dialect d)
    (hy : call.Yields o) (hkey : call.name.key = .ok key)
    (hregistry : r.2.session.registry = w.session.registry.insert key d)
    (hregistered : r.2.registered = (key, o) :: w.registered.filter (·.1 ≠ key))

theorem exists_of_configure {source : Registry.Source} {changes : List (String × Value)}
    {d : Dialect} (h : source.configure changes = .ok d) :
    ∃ base, source.resolve = .ok base ∧ Dialect.Overrides changes base d := by
  obtain ⟨base, hbase, hrest⟩ := Except.bind_eq_ok_iff.1 h
  simp only at hrest
  split at hrest
  · cases hrest
  · obtain rfl := Except.ok.inj hrest
    exact ⟨base, hbase, Dialect.overrides_setAll base changes⟩

theorem run_onSession_bind_ok {α β : Type} {f : Session → Except Error (α × Session)} {x : α}
    {session : Session} (h : f w.session = .ok (x, session)) (g : α → Action β) :
    (Workspace.onSession f >>= g).run w = (g x).run { w with session } := by
  have hrun : (Workspace.onSession f).run w = (.ok x, { w with session }) := by
    change ((Workspace.lift (f w.session)) >>= _).run w = _
    rw [h]
    rfl
  rw [run_bind_of_ok (congrArg Prod.fst hrun), Action.after, hrun]

theorem turns (call : UseCall) (w : Workspace) : Turns call w (call.run.run w) := by
  unfold run Workspace.use
  rw [Workspace.run_catalog_bind]
  change Turns call w
    ((discard (Workspace.lift (call.given.source.configure call.changes)) >>= _).run w)
  cases hd : call.given.source.configure call.changes with
  | error e => exact .fails e rfl (.inl hd)
  | ok d =>
    change Turns call w ((Workspace.lift call.name.key >>= _).run w)
    cases hkey : call.name.key with
    | error e => exact .fails e rfl (.inr (.inl hkey))
    | ok key =>
      rw [Workspace.run_lift_bind_ok]
      cases hshown : shownInside (call.name.value.display w.session.catalog) with
      | error e => exact .fails e rfl (.inr (.inr hshown))
      | ok shown =>
        rw [Workspace.run_lift_bind_ok]
        have huse : w.session.use call.given.source key shown call.changes = .ok (d,
            { w.session with registry := w.session.registry.insert key d }.note .registry
              ("Using dialect " ++ d.name ++ " as " ++ shown)) := by
          rw [Session.use, Registry.use, hd]
          rfl
        rw [run_onSession_bind_ok huse]
        obtain ⟨base, hbase, hover⟩ := exists_of_configure hd
        simp only
        split
        case h_1 d₀ hv hchanges =>
          have hd₀ : Registry.Source.configure (.dialect d₀) [] = .ok d₀ := by
            simp [Registry.Source.configure, Registry.Source.resolve, Registry.unknownFields,
              Dialect.setAll]
          have hsame : d₀ = d := by
            rw [Object.source, hv, changes, hchanges, hd₀] at hd
            exact Except.ok.inj hd
          subst hsame
          exact .succeeds _ d₀ key rfl hd hv ⟨base, d₀, hbase, hover, hv, fun _ _ => rfl⟩ hkey rfl
            rfl
        case h_2 hne =>
          refine .succeeds _ d key rfl hd rfl ⟨base, d, hbase, hover, rfl, fun _ hnil => ?_⟩ hkey rfl
            rfl
          rw [hnil] at hne
          exact (hne rfl).elim
        case h_3 hne _ =>
          refine .succeeds _ d key rfl hd rfl ⟨base, d, hbase, hover, rfl, fun hv _ => ?_⟩ hkey rfl
            rfl
          obtain ⟨d₀, hv⟩ := hv
          exact (hne d₀ hv).elim

/-- A call that fails changes nothing at all. -/
theorem after_of_error {e : Error} (h : call.run.outcome w = .error e) : call.run.after w = w := by
  rcases call.turns w with ⟨e', hr, -⟩ | ⟨o, d, key, hr, -⟩
  · rw [Action.after, hr]
  · rw [Action.outcome, hr] at h
    cases h

theorem yields_of_outcome {o : Object} (h : call.run.outcome w = .ok o) : call.Yields o := by
  rcases call.turns w with ⟨e, hr, -⟩ | ⟨o', d, key, hr, -, -, hy, -⟩
  · rw [Action.outcome, hr] at h
    cases h
  · obtain rfl : o' = o := Except.ok.inj (hr.symm.trans h)
    exact hy

/-- Under a text for a name, a call fails exactly if what it asks for cannot be had. -/
theorem outcome_eq_error_iff {s : String} (hname : call.name.value = .text s) {e : Error} :
    call.run.outcome w = .error e ↔ call.given.source.configure call.changes = .error e := by
  have hkey := Object.key_of_text hname
  have hshown : shownInside (call.name.value.display w.session.catalog)
      = .ok (Text.display s) := by
    rw [hname]
    rfl
  rcases call.turns w with ⟨e', hr, hd | hk | hs⟩ | ⟨o, d, key, hr, hd, -⟩
  · rw [Action.outcome, hr, hd, Except.error.injEq, Except.error.injEq]
  · rw [hkey] at hk
    cases hk
  · rw [hshown] at hs
    cases hs
  · rw [Action.outcome, hr, hd]
    exact iff_of_false (fun h => by cases h) (fun h => by cases h)

end UseCall

/-! ## What a name stands for -/

/-- Whether the registered objects are the registered dialects. -/
def Workspace.RegistryAgrees (w : Workspace) : Prop :=
  ∀ key, (w.registered.lookup key).map Object.value
    = (w.session.registry.entries.lookup key).map .dialect

theorem Workspace.run_get_bind {α : Type} {w : Workspace} (f : Workspace → Action α) :
    (get >>= f).run w = (f w).run w := rfl

theorem Workspace.outcome_dialectNamed_ok {w : Workspace} {key : Key} {label : Shown} {d : Dialect}
    (hd : w.session.dialect key label = .ok d) :
    (dialectNamed key label).outcome w = .ok (match w.registered.lookup key with
      | some o => .mk (.dialect d) o.identity o.items o.fields
      | none => Object.ofValue (.made w.made) (.dialect d)) := by
  change ((lift (w.session.dialect key label) >>= _).run w).1 = _
  rw [hd, run_lift_bind_ok]
  cases w.registered.lookup key <;> rfl

theorem Workspace.outcome_dialectNamed_error {w : Workspace} {key : Key} {label : Shown} {e : Error}
    (he : w.session.dialect key label = .error e) :
    (dialectNamed key label).outcome w = .error e := by
  change ((lift (w.session.dialect key label) >>= _).run w).1 = _
  rw [he]
  rfl

/-- What a text stands for is the object that is registered under it; otherwise it is the generic
dialect for the default name, and an error for any other. -/
theorem Function.outcome_registered {w : Workspace} (hw : w.RegistryAgrees) {name : Object}
    {s : String} (hname : name.value = .text s) :
    (Function.registered name).outcome w =
      match w.registered.lookup (Key.ofText s) with
      | some o => .ok o
      | none =>
        if s = "default" then .ok (Object.ofValue (.made w.made) (.dialect (.standard .generic)))
        else .error (.unknownDialect s) := by
  have hwhole := hw (Key.ofText s)
  have hrun : (Function.registered name).outcome w
      = (Workspace.dialectNamed (Key.ofText s) (.ok s)).outcome w := by
    unfold Function.registered
    rw [Action.outcome, Workspace.run_catalog_bind, Object.key_of_text hname,
      Workspace.run_lift_bind_ok, hname, Workspace.run_get_bind]
    cases w.session.registry.get? (Key.ofText s) <;> rfl
  rw [hrun]
  cases ho : w.registered.lookup (Key.ofText s) with
  | some o =>
    rw [ho] at hwhole
    obtain ⟨d, hd, hvalue⟩ := Option.map_eq_some_iff.1 hwhole.symm
    have hget : w.session.dialect (Key.ofText s) (.ok s) = .ok d := by
      simp only [Session.dialect, Registry.get?, hd]
    rw [Workspace.outcome_dialectNamed_ok hget, ho, hvalue]
    cases o
    rfl
  | none =>
    rw [ho] at hwhole
    have hlookup := Option.map_eq_none_iff.1 hwhole.symm
    by_cases hs : s = "default"
    · subst hs
      have hget : w.session.dialect (Key.ofText "default") (.ok "default")
          = .ok (Dialect.standard .generic) := by
        simp only [Session.dialect, Registry.get?, hlookup]
        rfl
      rw [Workspace.outcome_dialectNamed_ok hget, ho]
      rfl
    · have hget : w.session.dialect (Key.ofText s) (.ok s) = .error (.unknownDialect s) := by
        have hne : Key.ofText s ≠ Registry.defaultName := by
          simpa [Key.ofText, Registry.defaultName] using hs
        simp only [Session.dialect, Registry.get?, hlookup, hne, if_false]
        rfl
      rw [Workspace.outcome_dialectNamed_error hget]
      simp only [hs, if_false]

/-- What a key stands for once an entry has been put in front of those under other keys. -/
theorem Registry.lookup_cons_filter {ν : Type} (entries : List (Key × ν)) (name key : Key) (v : ν) :
    ((name, v) :: entries.filter (·.1 ≠ name)).lookup key
      = if key = name then some v else entries.lookup key := by
  rw [List.lookup_cons]
  by_cases h : key = name
  · rw [if_pos h, beq_iff_eq.2 h]
  · rw [if_neg h, beq_eq_false_iff_ne.2 h, lookup_filter_ne entries h]

theorem UseCall.agrees_after {call : UseCall} {w : Workspace} (hw : w.RegistryAgrees) :
    (call.run.after w).RegistryAgrees := by
  rcases call.turns w with ⟨e, hr, -⟩ | ⟨o, d, key, -, -, ho, -, -, hregistry, hregistered⟩
  · rw [Action.after, hr]
    exact hw
  · intro other
    rw [Action.after, hregistered, hregistry, Registry.insert, Registry.lookup_cons_filter,
      Registry.lookup_cons_filter]
    split
    · rw [Option.map_some, ho, Option.map_some]
    · exact hw other

/-- A call that succeeds registers what it returns under its name, and nothing else. -/
theorem UseCall.lookup_after {call : UseCall} {w : Workspace} {o : Object}
    (ho : call.run.outcome w = .ok o) (s : String) :
    (call.run.after w).registered.lookup (Key.ofText s)
      = if call.name.value.text? = some s then some o else w.registered.lookup (Key.ofText s) := by
  rcases call.turns w with ⟨e, hr, -⟩ | ⟨o', d, key, hr, -, -, -, hkey, -, hregistered⟩
  · rw [Action.outcome, hr] at ho
    cases ho
  · obtain rfl : o' = o := Except.ok.inj (hr.symm.trans ho)
    rw [Action.after, hregistered, Registry.lookup_cons_filter]
    have hiff : Key.ofText s = key ↔ call.name.value.text? = some s := by
      constructor
      · rintro rfl
        rw [Object.value_of_key hkey]
        rfl
      · intro htext
        have hname := Object.key_of_text (Value.eq_text_of_text? htext)
        exact Except.ok.inj (hname.symm.trans hkey)
    simp only [hiff]

/-! ## Runs -/

/-- A call that changes the registry. -/
inductive RegistryCall
  | use (call : UseCall)
  | reset

namespace RegistryCall

def run : RegistryCall → Action Object
  | use call => call.run
  | reset => do
    Workspace.resetRegistry
    return .none

/-- The workspace after calls, the last of which comes first. Calls go on after one that fails. -/
def after (w : Workspace) : List RegistryCall → Workspace
  | [] => w
  | call :: earlier => call.run.after (after w earlier)

/-- The last call that succeeded for a name since the registry was reset, and what it returned. The
last call comes first. -/
def lastUse? (w : Workspace) (s : String) : List RegistryCall → Option (UseCall × Object)
  | [] | reset :: _ => none
  | use call :: earlier =>
    match call.run.outcome (after w earlier) with
    | .ok o => if call.name.value.text? = some s then some (call, o) else lastUse? w s earlier
    | .error _ => lastUse? w s earlier

variable {w : Workspace} {calls : List RegistryCall} {call : UseCall} {s : String} {o : Object}

theorem agrees_after (hw : w.RegistryAgrees) (calls : List RegistryCall) :
    (after w calls).RegistryAgrees := by
  induction calls with
  | nil => exact hw
  | cons call earlier ih =>
    cases call with
    | use call => exact UseCall.agrees_after ih
    | reset => exact fun _ => rfl

/-- After a run a name has the object that the last call for it returned. -/
theorem lookup_after (hw : w.registered = []) (s : String) (calls : List RegistryCall) :
    (after w calls).registered.lookup (Key.ofText s) = (lastUse? w s calls).map (·.2) := by
  induction calls with
  | nil =>
    rw [after, hw]
    rfl
  | cons call earlier ih =>
    cases call with
    | reset => rfl
    | use call =>
      rw [after, run, lastUse?]
      cases ho : call.run.outcome (after w earlier) with
      | error e =>
        rw [UseCall.after_of_error ho]
        exact ih
      | ok o =>
        rw [UseCall.lookup_after ho, ih]
        split <;> rfl

/-- What the last call returned is what it asked for. -/
theorem yields_of_lastUse? (h : lastUse? w s calls = some (call, o)) : call.Yields o := by
  induction calls with
  | nil => cases h
  | cons first earlier ih =>
    cases first with
    | reset => cases h
    | use first =>
      rw [lastUse?] at h
      cases ho : first.run.outcome (after w earlier) with
      | error e => exact ih (by simpa only [ho] using h)
      | ok o' =>
        simp only [ho] at h
        split at h
        · obtain ⟨rfl, rfl⟩ := Prod.mk.inj (Option.some.inj h)
          exact UseCall.yields_of_outcome ho
        · exact ih h

end RegistryCall

/-- After any calls that register dialects or forget all of them, a name stands for the dialect that
the last successful call for it returned since they were forgotten: what was asked for with its
changes, and nothing else changed. When there is none it stands for the generic dialect if it is the
default name, and for nothing otherwise. A call fails exactly if what it asks for cannot be had, and
then nothing has changed. -/
theorem registry_holds_last_use {w : Workspace} (h : w.registered = [])
    (hempty : w.session.registry.entries = []) (calls : List RegistryCall) (s : String)
    {name : Object} (hname : name.value = .text s) :
    let now := RegistryCall.after w calls
    (∀ call o, RegistryCall.lastUse? w s calls = some (call, o) →
      (Function.registered name).outcome now = .ok o ∧ call.Yields o) ∧
    (RegistryCall.lastUse? w s calls = none →
      (s = "default" → ∃ o, (Function.registered name).outcome now = .ok o ∧
        o.value = .dialect (.standard .generic)) ∧
      (s ≠ "default" → (Function.registered name).outcome now = .error (.unknownDialect s) ∧
        (Error.unknownDialect s).category = .value)) ∧
    ∀ call : UseCall, (∀ e, call.run.outcome now = .error e → call.run.after now = now) ∧
      ∀ t, call.name.value = .text t → ∀ e, call.run.outcome now = .error e ↔
        call.given.source.configure call.changes = .error e := by
  intro now
  have hw : w.RegistryAgrees := fun key => by rw [h, hempty]; rfl
  have hget := Function.outcome_registered (RegistryCall.agrees_after hw calls) hname
  rw [RegistryCall.lookup_after h] at hget
  refine ⟨fun call o hlast => ?_, fun hlast => ?_, fun call => ⟨fun e => UseCall.after_of_error,
    fun t ht e => UseCall.outcome_eq_error_iff ht⟩⟩
  · rw [hlast] at hget
    exact ⟨hget, RegistryCall.yields_of_lastUse? hlast⟩
  · rw [hlast] at hget
    refine ⟨fun hs => ⟨_, hget.trans (if_pos hs), rfl⟩, fun hs => ⟨hget.trans (if_neg hs), rfl⟩⟩

/-- A dialect that writes literals out, under a name of its own. -/
def UseCall.inlined : UseCall := ⟨.word "sqlite://", .word "inline", [("bind_literals", .bool false)]⟩

/-- A call that misspells a setting. -/
def UseCall.misspelled : UseCall := ⟨.word "mysql", .word "inline", [("bind_literal", .bool true)]⟩

/-- A call that fails leaves what was registered under its name. -/
theorem registry_holds_last_use_inlined :
    let now := RegistryCall.after default [.use .misspelled, .use .inlined, .reset]
    (∃ o, (Function.registered (.word "inline")).outcome now = .ok o ∧ UseCall.inlined.Yields o) ∧
    (∃ o, (Function.registered (.word "default")).outcome now = .ok o ∧
      o.value = .dialect (.standard .generic)) ∧
    (Function.registered (.word "other")).outcome now = .error (.unknownDialect "other") ∧
    ∃ e, UseCall.misspelled.run.outcome now = .error e := by
  intro now
  have hgood : ∃ o, UseCall.inlined.run.outcome (RegistryCall.after default [.reset]) = .ok o := by
    have hok : (UseCall.inlined.run.outcome (RegistryCall.after default [.reset])).isOk = true := by
      decide +kernel
    cases ho : UseCall.inlined.run.outcome (RegistryCall.after default [.reset]) with
    | ok o => exact ⟨o, rfl⟩
    | error e => rw [ho] at hok; cases hok
  have hbad : ∃ e, UseCall.misspelled.given.source.configure UseCall.misspelled.changes
      = .error e := by
    have hok : (UseCall.misspelled.given.source.configure UseCall.misspelled.changes).isOk
        = false := by decide +kernel
    cases hd : UseCall.misspelled.given.source.configure UseCall.misspelled.changes with
    | ok d => rw [hd] at hok; cases hok
    | error e => exact ⟨e, rfl⟩
  obtain ⟨o, ho⟩ := hgood
  obtain ⟨e, he⟩ := hbad
  have hmisspelled : ∀ w, UseCall.misspelled.run.outcome w = .error e := fun w =>
    (UseCall.outcome_eq_error_iff rfl).2 he
  have hlast : ∀ s, RegistryCall.lastUse? default s [.use .misspelled, .use .inlined, .reset]
      = if some "inline" = some s then some (.inlined, o) else none := fun s => by
    simp only [RegistryCall.lastUse?, hmisspelled, ho]
    rfl
  have hholds := fun s => @registry_holds_last_use default rfl rfl
    [.use .misspelled, .use .inlined, .reset] s (.word s) rfl
  refine ⟨?_, ?_, ?_, ?_⟩
  · exact ⟨o, (hholds "inline").1 _ _ (hlast "inline")⟩
  · exact ((hholds "default").2.1 (hlast "default")).1 rfl
  · exact (((hholds "other").2.1 (hlast "other")).2 (by decide)).1
  · exact ⟨e, (((hholds "inline").2.2 .misspelled).2 "inline" rfl e).2 he⟩

end SqlCompose
