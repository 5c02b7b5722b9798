import SqlCompose.Proofs.Statement.Select

/-!
# Calls that build a SELECT

A SELECT is built by a sequence of calls, each of which may be refused. Except for the one that adds
a member, a call neither looks at the members nor changes them, so the other clauses have the form
of those of a SELECT without members.
-/
namespace SqlCompose

/-- A call that adds to a SELECT. -/
inductive SelectCall
  | select (given : List Value)
  | addSources (given : List Value)
  | join (kind : String) (source on shared : Value)
  | addConditions (given : List Value) (keywords : List (String × Value))
  | addGroups (given : List Value)
  | addHaving (given : List Value)
  | addOrders (given : List Value)
  | setLimit (v : Value)
  | setOffset (v : Value)
  | setDistinct
  | addUnion (op : SetOperator) (v : Value)

/-- The SELECT that a call makes of another one. -/
def SelectCall.run (cat : Catalog) (q : Select) : SelectCall → Except Error Select
  | select given => q.select cat given
  | addSources given => q.addSources given
  | join kind source on shared => q.join cat kind source on shared
  | addConditions given keywords => q.addConditions cat given keywords
  | addGroups given => q.addGroups given
  | addHaving given => q.addHaving cat given
  | addOrders given => q.addOrders cat given
  | setLimit v => q.setLimit cat v
  | setOffset v => q.setOffset cat v
  | setDistinct => .ok q.setDistinct
  | addUnion op v => q.addUnion op v

namespace Select

/-- The SELECT that a sequence of calls builds, each with the tables that there are at its time. -/
def built? (calls : List (Catalog × SelectCall)) : Except Error Select :=
  calls.foldlM (fun q (cat, call) => call.run cat q) .empty

/-- A SELECT with other members. -/
def withUnions (u : Value) (q : Select) : Select := { q with unions := u }

variable {cat : Catalog} {q later : Select} {u : Value}

theorem map_withUnions_bind {α : Type} (x : Except Error α) (f : α → Except Error Select) :
    (x >>= f).map (withUnions u) = x >>= fun a => (f a).map (withUnions u) := by
  cases x <;> rfl

/-- A call that adds no member does the same whatever the members are. -/
theorem run_withUnions (u : Value) (q : Select) {call : SelectCall}
    (h : ∀ op v, call ≠ .addUnion op v) :
    call.run cat (q.withUnions u) = (call.run cat q).map (withUnions u) := by
  cases call with
  | select given =>
    simp only [SelectCall.run, Select.select, map_withUnions_bind]
    rfl
  | addSources given =>
    simp only [SelectCall.run, addSources]
    cases given.find? fun v => !v.isSource with
    | some v => rfl
    | none =>
      simp only [map_withUnions_bind]
      rfl
  | join kind source on shared =>
    simp only [SelectCall.run, join]
    cases source.isSource with
    | false => rfl
    | true =>
      simp only [Bool.not_true, Bool.false_eq_true, if_false, map_withUnions_bind]
      rfl
  | addConditions given keywords =>
    simp only [SelectCall.run, addConditions, map_withUnions_bind]
    rfl
  | addGroups given =>
    simp only [SelectCall.run, addGroups, map_withUnions_bind]
    rfl
  | addHaving given =>
    simp only [SelectCall.run, addHaving]
    cases given with
    | nil => rfl
    | cons v vs =>
      simp only [List.isEmpty_cons, Bool.false_eq_true, if_false, map_withUnions_bind]
      rfl
  | addOrders given =>
    simp only [SelectCall.run, addOrders, map_withUnions_bind]
    rfl
  | setLimit v =>
    simp only [SelectCall.run, setLimit, map_withUnions_bind]
    rfl
  | setOffset v =>
    simp only [SelectCall.run, setOffset, map_withUnions_bind]
    rfl
  | setDistinct => rfl
  | addUnion op v => exact absurd rfl (h op v)

/-- A call that adds no member keeps the form of the clauses. -/
theorem Shape.run (hs : q.Shape) {call : SelectCall} (h : ∀ op v, call ≠ .addUnion op v)
    (hq : call.run cat q = .ok later) : later.Shape := by
  cases call with
  | select given => exact hs.select hq
  | addSources given => exact hs.addSources hq
  | join kind source on shared => exact hs.join hq
  | addConditions given keywords => exact hs.addConditions hq
  | addGroups given => exact hs.addGroups hq
  | addHaving given => exact hs.addHaving hq
  | addOrders given => exact hs.addOrders hq
  | setLimit v => exact hs.setLimit hq
  | setOffset v => exact hs.setOffset hq
  | setDistinct => exact Except.ok.inj hq ▸ hs.setDistinct
  | addUnion op v => exact absurd rfl (h op v)

/-- Whether the clauses of a SELECT besides its members have the form of their kind. -/
def Formed (q : Select) : Prop := (q.withUnions (.tuple [])).Shape

theorem Formed.run (hs : q.Formed) {call : SelectCall} (hq : call.run cat q = .ok later) :
    later.Formed := by
  by_cases h : ∃ op v, call = .addUnion op v
  · obtain ⟨op, v, rfl⟩ := h
    change q.addUnion op v = .ok later at hq
    unfold addUnion at hq
    split at hq
    · obtain ⟨unions, -, hlater⟩ := Except.bind_eq_ok_iff.1 hq
      obtain rfl := Except.ok.inj hlater
      exact hs
    · cases hq
  · have hnone : ∀ op v, call ≠ .addUnion op v := fun op v heq => h ⟨op, v, heq⟩
    have hrun : call.run cat (q.withUnions (.tuple [])) = .ok (later.withUnions (.tuple [])) := by
      rw [run_withUnions _ _ hnone, hq]
      rfl
    exact Shape.run hs hnone hrun

/-- The JOIN clauses of a SELECT of the usual form. -/
theorem Shape.exists_joins (hs : q.Shape) :
    ∃ joins : List Join, q.joins = .tuple (joins.map .join) := by
  obtain ⟨vs, hvs, hall⟩ := hs.joins
  have hjoins : ∃ joins : List Join, vs = joins.map .join := by
    clear hvs
    induction vs with
    | nil => exact ⟨[], rfl⟩
    | cons v vs ih =>
      obtain ⟨j, rfl, -⟩ := hall v List.mem_cons_self
      obtain ⟨joins, rfl⟩ := ih fun w hw => hall w (List.mem_cons_of_mem _ hw)
      exact ⟨j :: joins, rfl⟩
  obtain ⟨joins, rfl⟩ := hjoins
  exact ⟨joins, hvs⟩

theorem formed_empty : empty.Formed := Shape.empty

theorem formed_of_foldlM {calls : List (Catalog × SelectCall)} (hs : q.Formed)
    (hq : calls.foldlM (fun q (cat, call) => call.run cat q) q = .ok later) : later.Formed := by
  induction calls generalizing q with
  | nil =>
    obtain rfl := Except.ok.inj hq
    exact hs
  | cons call calls ih =>
    rw [List.foldlM_cons] at hq
    obtain ⟨next, hnext, hrest⟩ := Except.bind_eq_ok_iff.1 hq
    exact ih (hs.run hnext) hrest

/-- Whatever calls build a SELECT, its clauses have the form of their kind. -/
theorem formed_of_built? {calls : List (Catalog × SelectCall)} (hq : built? calls = .ok q) :
    q.Formed := formed_of_foldlM formed_empty hq

end Select

end SqlCompose
