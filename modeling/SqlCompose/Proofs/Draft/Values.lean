import SqlCompose.Expr.Operand
import SqlCompose.Proofs.Draft.Binding

/-!
# The values in a draft

A draft has places for values, which a dialect may bind. Whatever comes of writing it, no other
value is bound, and if it is written at all, every one of them is, in the order of the places. A draft
without such a place leaves what was bound before as it is, and its text has no placeholder in it:
dialects that differ in how they mark values write it alike.
-/
namespace SqlCompose

namespace Draft

mutual

/-- The values that have a place in a draft, in the order in which the places are written. -/
def values : Draft → List Value
  | literal v => [v]
  | token _ | inlined _ | packed _ | name _ | spelling _ | ofDialect _ | applied _ | member ..
  | ask _ | fail _ => []
  | before x y | checked x y | plus x y | extend x y => x.values ++ y.values
  | shown x => x.values
  | row _ items => valuesAll items
  | framed _ opening items closing => valuesAll items ++ (opening.values ++ closing.values)

/-- The values that have a place in several drafts, one after the other. -/
def valuesAll : List Draft → List Value
  | [] => []
  | x :: items => x.values ++ valuesAll items

end

attribute [local simp] values

@[simp] theorem values_plus (x y : Draft) : (x + y).values = x.values ++ y.values := rfl

@[simp] theorem values_extend (x y : Draft) : (x ++ y).values = x.values ++ y.values := rfl

@[simp] theorem values_text (s : String) : (text s).values = [] := rfl

@[simp] theorem values_operator (fixity : Fixity) (symbol : String) :
    (operator fixity symbol).values = [] := rfl

@[simp] theorem values_asking (part : String) (x : Draft) : (asking part x).values = x.values := rfl

@[simp] theorem values_parenthesized (x : Draft) : x.parenthesized.values = x.values := by
  simp [parenthesized]

@[simp] theorem values_infixed (x : Draft) (symbol : String) (y : Draft) :
    (infixed x symbol y).values = x.values ++ y.values := by
  simp [infixed]

theorem valuesAll_eq_flatMap (items : List Draft) : valuesAll items = items.flatMap values := by
  induction items with
  | nil => rfl
  | cons x items ih => rw [valuesAll, ih, List.flatMap_cons]

@[simp] theorem values_commaSeparated (items : List Draft) :
    (commaSeparated items).values = items.flatMap values := valuesAll_eq_flatMap items

@[simp] theorem values_framed (lead : Option String) (opening closing : Draft)
    (items : List Draft) : (framed lead opening items closing).values
      = items.flatMap values ++ (opening.values ++ closing.values) := by
  rw [values, valuesAll_eq_flatMap]

@[simp] theorem values_callWith (symbol : String) (lead : Option String) (items : List Draft) :
    (callWith symbol lead items).values = items.flatMap values := by
  rw [callWith, values_framed]
  simp

@[simp] theorem values_continued (x : Draft) (items : List Draft) :
    (x.continued items).values = x.values ++ items.flatMap values := by
  induction items generalizing x with
  | nil => simp [continued]
  | cons y items ih =>
    have hrest := ih (x ++ y)
    rwa [values_extend, List.append_assoc] at hrest

/-! ## Complete drafts -/

/-- Whether nothing in a draft fails in any case. -/
def Complete (x : Draft) : Prop := ∃ vs, x.bindings? = some vs

section Complete

variable {x y : Draft} {items : List Draft}

theorem exists_together_iff {vs ws : Option (List Value)} :
    (∃ us, together vs ws = some us) ↔ (∃ us, vs = some us) ∧ ∃ us, ws = some us := by
  cases vs <;> cases ws <;> simp [together]

@[simp] theorem not_complete_fail (e : Error) : ¬(fail e).Complete := fun ⟨_, h⟩ => nomatch h

@[simp] theorem complete_literal (v : Value) : (literal v).Complete := ⟨_, rfl⟩

@[simp] theorem complete_token (t : Token) : (token t).Complete := ⟨_, rfl⟩

@[simp] theorem complete_text (s : String) : (text s).Complete := complete_token _

@[simp] theorem complete_operator (fixity : Fixity) (symbol : String) :
    (operator fixity symbol).Complete := complete_token _

@[simp] theorem complete_packed (v : Value) : (packed v).Complete := ⟨_, rfl⟩

@[simp] theorem complete_before : (before x y).Complete ↔ x.Complete ∧ y.Complete :=
  exists_together_iff

@[simp] theorem complete_plus : (x + y).Complete ↔ x.Complete ∧ y.Complete := exists_together_iff

@[simp] theorem complete_extend : (x ++ y).Complete ↔ x.Complete ∧ y.Complete := exists_together_iff

@[simp] theorem complete_shown : x.shown.Complete ↔ x.Complete := Iff.rfl

@[simp] theorem complete_asking (part : String) : (asking part x).Complete ↔ x.Complete :=
  complete_before.trans (and_iff_right ⟨_, rfl⟩)

@[simp] theorem complete_parenthesized : x.parenthesized.Complete ↔ x.Complete := by
  simp [parenthesized]

@[simp] theorem complete_infixed (symbol : String) :
    (infixed x symbol y).Complete ↔ x.Complete ∧ y.Complete := by
  simp [infixed]

theorem exists_bindingsAll?_iff :
    (∃ vs, bindingsAll? items = some vs) ↔ ∀ x ∈ items, x.Complete := by
  induction items with
  | nil => simp [bindingsAll?]
  | cons x items ih => rw [bindingsAll?, exists_together_iff, List.forall_mem_cons, ih]; rfl

@[simp] theorem complete_row (separator : Token) :
    (row separator items).Complete ↔ ∀ x ∈ items, x.Complete := exists_bindingsAll?_iff

@[simp] theorem complete_framed (lead : Option String) {opening closing : Draft} :
    (framed lead opening items closing).Complete ↔
      (∀ x ∈ items, x.Complete) ∧ opening.Complete ∧ closing.Complete := by
  rw [← exists_bindingsAll?_iff]
  exact exists_together_iff.trans (and_congr_right fun _ => exists_together_iff)

@[simp] theorem complete_callWith (symbol : String) (lead : Option String) :
    (callWith symbol lead items).Complete ↔ ∀ x ∈ items, x.Complete := by
  have hopening : (asking "function_sql" (spelling symbol) + token .opening).Complete := ⟨_, rfl⟩
  simp only [callWith, complete_framed, hopening, complete_token, and_true]

@[simp] theorem complete_continued :
    (x.continued items).Complete ↔ x.Complete ∧ ∀ y ∈ items, y.Complete := by
  induction items generalizing x with
  | nil => simp [continued]
  | cons y items ih =>
    rw [List.forall_mem_cons, ← and_assoc, ← complete_extend]
    exact ih

/-- A draft that comes out at all where values are bound is complete. -/
theorem complete_of_outcome {cat : Catalog} {d : Dialect} (hb : d.bindLiterals = true)
    {number : Nat} {bound rest : List Value} {v : Value}
    (h : x.outcome cat (.context d number) bound = (.ok v, rest)) : x.Complete := by
  obtain ⟨vs, hvs, -⟩ := binds_assemble hb number x _ _ _ (outcome_eq_iff.1 h)
  exact ⟨vs, hvs⟩

end Complete

end Draft

/-- A settled draft that binds nothing has no values in it. -/
theorem Draft.Settled.values_eq_nil {cat : Catalog} {x : Draft} (h : Settled cat false x) :
    x.values = [] := by
  generalize hb : false = b at h
  induction h with
  | literal v => cases hb
  | before _ _ ihx ihy => simp [values, ihx rfl, ihy hb]
  | checked _ _ ihx ihy => simp [values, ihx hb, ihy rfl]
  | plus _ _ ihx ihy | extend _ _ ihx ihy => simp [values, ihx hb, ihy hb]
  | shown _ ih => exact ih hb
  | row _ _ ih =>
    rw [values, valuesAll_eq_flatMap, List.flatMap_eq_nil_iff]
    exact fun x hx => ih x hx hb
  | parenthesized _ ih => rw [values_parenthesized, ih hb]
  | call symbol lead _ ih =>
    rw [values_callWith, List.flatMap_eq_nil_iff]
    exact fun x hx => ih x hx hb
  | _ => rfl

theorem Draft.flatMap_values_of_settled {cat : Catalog} {items : List Draft}
    (h : ∀ x ∈ items, x.Settled cat false) : items.flatMap values = [] :=
  List.flatMap_eq_nil_iff.2 fun x hx => (h x hx).values_eq_nil

/-! ## What is bound -/

/-- What a host binds of some values: all of them, or none. -/
def Host.bound (vs : List Value) : Host → List Value
  | context d _ => if d.bindLiterals then vs else []
  | other _ => []

@[simp] theorem Host.bound_nil (host : Host) : host.bound [] = [] := by
  cases host <;> simp [bound]

@[simp] theorem Host.bound_append (host : Host) (vs ws : List Value) :
    host.bound (vs ++ ws) = host.bound vs ++ host.bound ws := by
  cases host with
  | context d number => cases h : d.bindLiterals <;> simp [bound, h]
  | other v => rfl

namespace Assembly

variable {α β : Type} {step : Assembly α} {next : α → Assembly β} {vs ws : List Value}

/-- Whether a step binds nothing but the given values, in their order, and all of them if it goes
well. -/
def Adds (step : Assembly α) (vs : List Value) : Prop :=
  ∀ bound, ∃ added, (step.run bound).2.toList = bound.toList ++ added ∧ added <+: vs ∧
    ((∃ a, (step.run bound).1 = .ok a) → added = vs)

theorem adds_pure (a : α) : (pure a : Assembly α).Adds [] := fun _ =>
  ⟨[], (List.append_nil _).symm, List.prefix_rfl, fun _ => rfl⟩

theorem adds_throw (e : Error) (vs : List Value) : (throw e : Assembly α).Adds vs := fun _ =>
  ⟨[], (List.append_nil _).symm, List.nil_prefix, fun ⟨_, h⟩ => by cases h⟩

theorem adds_lift (r : Except Error α) : (lift r).Adds [] := by
  cases r with
  | ok a => exact adds_pure a
  | error e => exact adds_throw e []

theorem adds_get : (get : Assembly (Array Value)).Adds [] := fun _ =>
  ⟨[], (List.append_nil _).symm, List.prefix_rfl, fun _ => rfl⟩

/-- A step that goes wrong keeps the next one from adding anything. -/
theorem Adds.bind (h : step.Adds vs) (hn : ∀ a, (next a).Adds ws) :
    (step >>= next).Adds (vs ++ ws) := by
  intro bound
  obtain ⟨first, hfirst, hstart, hall⟩ := h bound
  cases hrun : step.run bound with
  | mk r between =>
    rw [hrun] at hfirst hall
    cases r with
    | error e =>
      rw [run_bind_of_error hrun]
      exact ⟨first, hfirst, hstart.trans (List.prefix_append ..), fun ⟨_, hok⟩ => by cases hok⟩
    | ok a =>
      obtain rfl := hall ⟨a, rfl⟩
      obtain ⟨second, hsecond, hstarts, hsecondAll⟩ := hn a between
      rw [run_bind_of_ok hrun]
      refine ⟨first ++ second, ?_, (List.prefix_append_right_inj _).2 hstarts, fun hok => ?_⟩
      · rw [hsecond, hfirst, List.append_assoc]
      · rw [hsecondAll hok]

/-- A step between others that adds nothing. -/
theorem Adds.after (h : step.Adds []) (hn : ∀ a, (next a).Adds vs) : (step >>= next).Adds vs :=
  h.bind hn

theorem Adds.followed (h : step.Adds vs) (hn : ∀ a, (next a).Adds []) :
    (step >>= next).Adds vs := by
  simpa using h.bind hn

theorem Adds.discard (h : step.Adds vs) : (discard step).Adds vs := by
  change (Functor.mapConst PUnit.unit step).Adds vs
  rw [map_const, Function.comp_apply, map_eq_pure_bind]
  exact h.followed fun _ => adds_pure _

/-- A literal is bound where literals are. -/
theorem adds_literal (cat : Catalog) (host : Host) (v : Value) :
    (literal cat host v).Adds (host.bound [v]) := by
  cases host with
  | context d number =>
    have hpush : (modify (·.push v) : Assembly PUnit).Adds [v] := by
      intro bound
      refine ⟨[v], ?_, List.prefix_rfl, fun _ => rfl⟩
      change (bound.push v).toList = bound.toList ++ [v]
      simp
    unfold literal Host.bound
    dsimp only
    split
    · exact (adds_lift _).discard.after fun _ => hpush.followed fun _ =>
        adds_get.after fun _ => adds_pure _
    · exact adds_lift _
  | other w => exact adds_lift _

end Assembly

namespace Draft

variable {cat : Catalog}

mutual

/-- Writing a draft binds the values in it, in their order, as far as it gets. -/
theorem adds_assemble (host : Host) : ∀ x : Draft, (x.assemble cat host).Adds (host.bound x.values)
  | token _ => by
    rw [values, Host.bound_nil]
    exact Assembly.adds_pure _
  | literal v => Assembly.adds_literal cat host v
  | inlined _ | packed _ | name _ | spelling _ | ofDialect _ => by
    rw [values, Host.bound_nil]
    exact Assembly.adds_lift _
  | applied _ => by
    rw [values, Host.bound_nil]
    exact Assembly.adds_get.after fun _ => Assembly.adds_lift _
  | member _ _ => by
    rw [values, Host.bound_nil]
    exact (Assembly.adds_lift _).after fun _ => Assembly.adds_get.after fun _ =>
      Assembly.adds_lift _
  | ask _ => by
    rw [values, Host.bound_nil]
    exact (Assembly.adds_lift _).after fun _ => Assembly.adds_pure _
  | fail e => Assembly.adds_throw e _
  | before first rest => by
    rw [values, Host.bound_append]
    exact (adds_assemble host first).discard.bind fun _ => adds_assemble host rest
  | checked x last => by
    rw [values, Host.bound_append]
    exact (adds_assemble host x).bind fun _ =>
      (adds_assemble host last).discard.followed fun _ => Assembly.adds_pure _
  | plus x y | extend x y => by
    rw [values, Host.bound_append]
    exact (adds_assemble host x).bind fun _ =>
      (adds_assemble host y).followed fun _ => Assembly.adds_lift _
  | shown x =>
    (adds_assemble host x).followed fun _ => (Assembly.adds_lift _).after fun _ =>
      Assembly.adds_pure _
  | row _ items => (adds_assembleAll host items).followed fun _ => Assembly.adds_lift _
  | framed _ opening items closing => by
    rw [values, Host.bound_append, Host.bound_append]
    exact (adds_assembleAll host items).bind fun _ => (Assembly.adds_lift _).after fun _ =>
      (adds_assemble host opening).bind fun _ => (Assembly.adds_lift _).after fun _ =>
        (Assembly.adds_lift _).after fun _ =>
          (adds_assemble host closing).followed fun _ => Assembly.adds_lift _

/-- Writing several drafts binds the values in them, in their order, as far as it gets. -/
theorem adds_assembleAll (host : Host) : ∀ items : List Draft,
    (assembleAll cat host items).Adds (host.bound (valuesAll items))
  | [] => by
    rw [valuesAll, Host.bound_nil]
    exact Assembly.adds_pure _
  | x :: items => by
    rw [valuesAll, Host.bound_append]
    exact (adds_assemble host x).bind fun _ =>
      (adds_assembleAll host items).followed fun _ => Assembly.adds_pure _

end

/-- What has been bound after a draft: as many of its values as it got to, and all of them if it
comes out at all. -/
theorem exists_added_of_outcome (cat : Catalog) (host : Host) (x : Draft) (bound : List Value) :
    ∃ added, (x.outcome cat host bound).2 = bound ++ added ∧ added <+: host.bound x.values ∧
      ((∃ v, (x.outcome cat host bound).1 = .ok v) → added = host.bound x.values) :=
  adds_assemble host x bound.toArray

end Draft

/-! ## Marks -/

@[simp] theorem Host.consult_context {cat : Catalog} {d : Dialect} {number : Nat}
    (answer : Dialect → Except Error Value) (fallback : Value → Except Error Value) :
    (Host.context d number).consult cat answer fallback = answer d := rfl

namespace Assembly

variable {α β : Type} {step step' : Assembly α} {next next' : α → Assembly β}

/-- Whether what comes of a step, if it goes well, comes of another one whatever was bound before
it, which then binds nothing. -/
def Carries (step step' : Assembly α) : Prop :=
  ∀ bound a rest, step.run bound = (.ok a, rest) → ∀ bound', step'.run bound' = (.ok a, bound')

theorem carries_pure (a : α) : (pure a : Assembly α).Carries (pure a) := fun _ _ _ h _ => by
  cases h
  rfl

theorem carries_lift (r : Except Error α) : (lift r).Carries (lift r) := by
  cases r with
  | ok a => exact carries_pure a
  | error e => exact fun _ _ _ h => by cases h

theorem Fails.carries (h : step.Fails) : step.Carries step' := fun bound _ _ hrun => by
  obtain ⟨e, rest, he⟩ := h bound
  rw [he] at hrun
  cases hrun

theorem Carries.bind (h : step.Carries step') (hn : ∀ a, (next a).Carries (next' a)) :
    (step >>= next).Carries (step' >>= next') := by
  intro bound b rest hrun bound'
  obtain ⟨a, between, hstep, hnext⟩ := run_bind_eq_ok hrun
  rw [run_bind_of_ok (h _ _ _ hstep bound')]
  exact hn a _ _ _ hnext bound'

theorem Carries.discard (h : step.Carries step') : (discard step).Carries (discard step') := by
  change (Functor.mapConst PUnit.unit step).Carries (Functor.mapConst PUnit.unit step')
  rw [map_const, Function.comp_apply, map_eq_pure_bind, map_eq_pure_bind]
  exact h.bind fun _ => carries_pure _

end Assembly

namespace Draft

variable {cat : Catalog} {host host' : Host} {x y : Draft}

/-- Whether what a draft comes out as in one host it comes out as in another one, where it binds
nothing. -/
def Carried (cat : Catalog) (host host' : Host) (x : Draft) : Prop :=
  (x.assemble cat host).Carries (x.assemble cat host')

namespace Carried

theorem token (t : Token) : Carried cat host host' (.token t) := by
  simpa [Carried, assemble] using Assembly.carries_pure _

theorem fail (e : Error) : Carried cat host host' (.fail e) := (Assembly.fails_throw e).carries

theorem before (hx : Carried cat host host' x) (hy : Carried cat host host' y) :
    Carried cat host host' (.before x y) := Assembly.Carries.bind hx.discard fun _ => hy

theorem checked (hx : Carried cat host host' x) (hy : Carried cat host host' y) :
    Carried cat host host' (.checked x y) :=
  Assembly.Carries.bind hx fun _ => (Assembly.Carries.discard hy).bind fun _ =>
    Assembly.carries_pure _

theorem plus (hx : Carried cat host host' x) (hy : Carried cat host host' y) :
    Carried cat host host' (x + y) :=
  Assembly.Carries.bind hx fun _ => Assembly.Carries.bind hy fun _ => Assembly.carries_lift _

theorem extend (hx : Carried cat host host' x) (hy : Carried cat host host' y) :
    Carried cat host host' (x ++ y) :=
  Assembly.Carries.bind hx fun _ => Assembly.Carries.bind hy fun _ => Assembly.carries_lift _

theorem shown (hx : Carried cat host host' x) : Carried cat host host' x.shown :=
  Assembly.Carries.bind hx fun _ => (Assembly.carries_lift _).bind fun _ => Assembly.carries_pure _

theorem assembleAll {items : List Draft} (h : ∀ x ∈ items, Carried cat host host' x) :
    (assembleAll cat host items).Carries (Draft.assembleAll cat host' items) := by
  induction items with
  | nil => exact Assembly.carries_pure _
  | cons x items ih =>
    rw [List.forall_mem_cons] at h
    exact Assembly.Carries.bind h.1 fun _ => (ih h.2).bind fun _ => Assembly.carries_pure _

theorem row {separator : Token} {items : List Draft} (h : ∀ x ∈ items, Carried cat host host' x) :
    Carried cat host host' (.row separator items) :=
  (assembleAll h).bind fun _ => Assembly.carries_lift _

theorem framed {lead : Option String} {opening closing : Draft} {items : List Draft}
    (ho : Carried cat host host' opening) (hi : ∀ x ∈ items, Carried cat host host' x)
    (hc : Carried cat host host' closing) :
    Carried cat host host' (.framed lead opening items closing) :=
  (assembleAll hi).bind fun _ => (Assembly.carries_lift _).bind fun _ =>
    Assembly.Carries.bind ho fun _ => (Assembly.carries_lift _).bind fun _ =>
      (Assembly.carries_lift _).bind fun _ => Assembly.Carries.bind hc fun _ =>
        Assembly.carries_lift _

theorem continued {items : List Draft} (hx : Carried cat host host' x)
    (h : ∀ y ∈ items, Carried cat host host' y) : Carried cat host host' (x.continued items) := by
  induction items generalizing x with
  | nil => exact hx
  | cons y items ih =>
    rw [List.forall_mem_cons] at h
    exact ih (hx.extend h.1) h.2

end Carried

/-! ## Dialects that differ in their marks -/

section Marking

variable {d : Dialect} (style : PlaceholderStyle) (binding : Bool) (number number' : Nat)

theorem carried_spelling (keyword : String) :
    Carried cat (.context d number) (.context (d.marking style binding) number')
      (.spelling keyword) := by
  simpa [Carried, assemble] using Assembly.carries_lift _

/-- A dialect's answer that does not depend on how values are marked. -/
theorem carried_ofDialect {answer : Dialect → Except Error Value}
    (h : answer (d.marking style binding) = answer d) :
    Carried cat (.context d number) (.context (d.marking style binding) number')
      (.ofDialect answer) := by
  simpa [Carried, assemble, h] using Assembly.carries_lift _

theorem carried_name (v : Value) :
    Carried cat (.context d number) (.context (d.marking style binding) number') (.name v) := by
  simpa [Carried, assemble, Host.quote] using Assembly.carries_lift _

theorem carried_inlined (v : Value) :
    Carried cat (.context d number) (.context (d.marking style binding) number') (.inlined v) := by
  simpa [Carried, assemble, Host.pack] using Assembly.carries_lift _

/-- A settled draft is written alike however values are marked, if those that have a place in it are
written out. -/
theorem Settled.carried {b : Bool} {x : Draft} (h : Settled cat b x)
    (hv : ∀ v ∈ x.values, d.bindLiterals = false ∧ binding = false) :
    Carried cat (.context d number) (.context (d.marking style binding) number') x := by
  induction h with
  | token _ => exact .token _
  | literal v =>
    obtain ⟨hd, hb⟩ := hv v List.mem_cons_self
    simpa [Carried, assemble, Assembly.literal, hd, hb] using Assembly.carries_lift _
  | packed v => simpa [Carried, assemble, Host.pack] using Assembly.carries_lift _
  | name s => exact carried_name style binding number number' _
  | spelling keyword => exact carried_spelling style binding number number' keyword
  | ask part => exact (Assembly.carries_lift _).bind fun _ => Assembly.carries_pure _
  | fail e => exact .fail e
  | @member b v word hl =>
    -- a value that has nothing to call under the name is not written at all
    refine Assembly.Fails.carries ?_
    rw [assemble]
    refine Assembly.fails_lift_bind fun f hf => Assembly.Fails.after _ fun bound => ?_
    obtain ⟨e, he⟩ := hl f hf [Host.value bound (.context d number)]
    rw [he]
    exact Assembly.fails_throw e
  | before _ _ ihf ihr =>
    rw [values, List.forall_mem_append] at hv
    exact (ihf hv.1).before (ihr hv.2)
  | checked _ _ ihx ihl =>
    rw [values, List.forall_mem_append] at hv
    exact (ihx hv.1).checked (ihl hv.2)
  | plus _ _ ihx ihy =>
    rw [values, List.forall_mem_append] at hv
    exact (ihx hv.1).plus (ihy hv.2)
  | extend _ _ ihx ihy =>
    rw [values, List.forall_mem_append] at hv
    exact (ihx hv.1).extend (ihy hv.2)
  | shown _ ih => exact (ih hv).shown
  | row _ _ ih =>
    rw [values, valuesAll_eq_flatMap, List.forall_mem_flatMap] at hv
    exact .row fun x hx => ih x hx (hv x hx)
  | parenthesized _ ih =>
    rw [values_parenthesized] at hv
    exact ((Carried.token _).plus (ih hv)).plus (.token _)
  | call symbol lead _ ih =>
    rw [values_callWith, List.forall_mem_flatMap] at hv
    have hname : Carried cat (.context d number) (.context (d.marking style binding) number')
        (.spelling symbol) := carried_spelling style binding number number' symbol
    have hasked : Carried cat (.context d number) (.context (d.marking style binding) number')
        (.ask "function_sql") :=
      (Assembly.carries_lift _).bind fun _ => Assembly.carries_pure _
    exact .framed ((hasked.before hname).plus (.token _)) (fun x hx => ih x hx (hv x hx)) (.token _)

variable {style binding number number'} in
/-- A settled draft without values is written alike however values are marked. -/
theorem Settled.carried_of_quiet {x : Draft} (h : Settled cat false x) :
    Carried cat (.context d number) (.context (d.marking style binding) number') x :=
  h.carried style binding number number' fun v hv => by simp [h.values_eq_nil] at hv

end Marking

end Draft

end SqlCompose
