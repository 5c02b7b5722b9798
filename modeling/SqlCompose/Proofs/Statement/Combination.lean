import Mathlib.Algebra.Order.Group.Multiset
import Mathlib.Data.Multiset.Dedup
import SqlCompose.Expr.Basic

/-!
# Rows of combined SELECTs

SELECTs are combined to trees, but SQL reads what stands in a row from left to right: UNION and
UNION ALL bind equally strongly. A UNION drops the duplicates of all rows on its left. Read in that
way the leaves of a tree have the rows of the tree if its UNIONs come first and are followed by no
more than leaves under UNION ALL; otherwise the rows differ for some rows of the leaves.
-/
namespace SqlCompose

variable {α ρ : Type} [DecidableEq ρ]

/-- The rows that a set operator makes of two bags of rows. -/
def SetOperator.rows : SetOperator → Multiset ρ → Multiset ρ → Multiset ρ
  | union, x, y => (x + y).dedup
  | unionAll, x, y => x + y

theorem SetOperator.mem_rows {op : SetOperator} {x y : Multiset ρ} {r : ρ} :
    r ∈ op.rows x y ↔ r ∈ x ∨ r ∈ y := by
  cases op <;> simp [rows]

/-- A combination as it is built. -/
inductive SetTree (α : Type)
  | leaf (a : α)
  | node (op : SetOperator) (left right : SetTree α)

/-- A combination as it is read: members behind a first one, each with its operator. -/
structure SetChain (α : Type) where
  first : α
  members : List (SetOperator × α)

namespace SetChain

/-- The rows after further members. -/
def run (bag : α → Multiset ρ) (x : Multiset ρ) (members : List (SetOperator × α)) : Multiset ρ :=
  members.foldl (fun x m => m.1.rows x (bag m.2)) x

/-- The rows of a chain, read from left to right. -/
def rows (bag : α → Multiset ρ) (c : SetChain α) : Multiset ρ := run bag (bag c.first) c.members

def operators (c : SetChain α) : List SetOperator := c.members.map (·.1)

def leaves (c : SetChain α) : List α := c.first :: c.members.map (·.2)

variable {bag : α → Multiset ρ} {x y : Multiset ρ} {members : List (SetOperator × α)} {r : ρ}

theorem run_append (others : List (SetOperator × α)) :
    run bag x (members ++ others) = run bag (run bag x members) others := List.foldl_append

theorem mem_run : r ∈ run bag x members ↔ r ∈ x ∨ ∃ m ∈ members, r ∈ bag m.2 := by
  induction members generalizing x with
  | nil => simp [run]
  | cons m members ih =>
    have hcons : run bag x (m :: members) = run bag (m.1.rows x (bag m.2)) members := rfl
    rw [hcons, ih, SetOperator.mem_rows, List.exists_mem_cons_iff, or_assoc]

/-- Without UNION what comes first stays as it is. -/
theorem run_add (h : ∀ op ∈ members.map (·.1), op = .unionAll) :
    run bag (x + y) members = x + run bag y members := by
  induction members generalizing y with
  | nil => rfl
  | cons m members ih =>
    obtain ⟨op, a⟩ := m
    rw [List.map_cons, List.forall_mem_cons] at h
    obtain rfl : op = .unionAll := h.1
    have hcons : ∀ z, run bag z ((.unionAll, a) :: members) = run bag (z + bag a) members :=
      fun _ => rfl
    rw [hcons, hcons, add_assoc, ih h.2]

theorem exists_append_of_getLast? {op : SetOperator}
    (h : (members.map (·.1)).getLast? = some op) : ∃ before a, members = before ++ [(op, a)] := by
  rw [List.getLast?_map, Option.map_eq_some_iff] at h
  obtain ⟨m, hm, rfl⟩ := h
  obtain ⟨before, rfl⟩ := List.getLast?_eq_some_iff.1 hm
  exact ⟨before, m.2, rfl⟩

/-- A UNION at the end leaves no duplicates. -/
theorem nodup_run (h : (members.map (·.1)).getLast? = some .union) :
    (run bag x members).Nodup := by
  obtain ⟨before, a, rfl⟩ := exists_append_of_getLast? h
  rw [run_append]
  exact Multiset.nodup_dedup _

/-- A member without rows adds no duplicates. -/
theorem nodup_run_of_empty (hx : x.Nodup) (h : ∀ m ∈ members, bag m.2 = 0) :
    (run bag x members).Nodup := by
  induction members generalizing x with
  | nil => exact hx
  | cons m members ih =>
    obtain ⟨op, a⟩ := m
    rw [List.forall_mem_cons] at h
    refine ih (x := op.rows x (bag a)) ?_ h.2
    rw [h.1]
    cases op with
    | union => exact Multiset.nodup_dedup _
    | unionAll => simpa [SetOperator.rows] using hx

/-- A UNION leaves no duplicates if only members without rows follow. -/
theorem nodup_run_of_union (hu : .union ∈ members.map (·.1)) (h : ∀ m ∈ members, bag m.2 = 0) :
    (run bag x members).Nodup := by
  obtain ⟨m, hm, hop⟩ := List.mem_map.1 hu
  obtain ⟨before, rest, rfl⟩ := List.append_of_mem hm
  rw [run_append]
  refine nodup_run_of_empty (x := m.1.rows _ _) ?_ fun m' hm' => h m' (by simp [hm'])
  rw [hop]
  exact Multiset.nodup_dedup _

end SetChain

namespace SetTree

/-- The rows of a combination. -/
def rows (bag : α → Multiset ρ) : SetTree α → Multiset ρ
  | leaf a => bag a
  | node op left right => op.rows (left.rows bag) (right.rows bag)

/-- A combination as a chain: its leaves one after the other. -/
def chain : SetTree α → SetChain α
  | leaf a => ⟨a, []⟩
  | node op left right => ⟨left.chain.first,
      left.chain.members ++ (op, right.chain.first) :: right.chain.members⟩

/-- Whether the chain of a combination always has its rows: no UNION comes behind UNION ALL, and
nothing under UNION ends in UNION ALL. -/
def keeps : SetTree α → Bool
  | leaf _ => true
  | node .union _ right => right.chain.operators.getLast? != some .unionAll
  | node .unionAll left right => left.keeps && right.chain.operators.all (· == .unionAll)

variable {bag : α → Multiset ρ} {left right t : SetTree α} {op : SetOperator} {r : ρ}

@[simp] theorem operators_chain_node :
    (node op left right).chain.operators
      = left.chain.operators ++ op :: right.chain.operators := by
  simp [chain, SetChain.operators]

@[simp] theorem leaves_chain_node :
    (node op left right).chain.leaves = left.chain.leaves ++ right.chain.leaves := by
  simp [chain, SetChain.leaves]

/-- Whether two combinations are put together in the same way from leaves that are related. -/
inductive Forall₂ {β : Type} (R : α → β → Prop) : SetTree α → SetTree β → Prop
  | leaf {a : α} {b : β} (h : R a b) : Forall₂ R (leaf a) (leaf b)
  | node (op : SetOperator) {left right : SetTree α} {left' right' : SetTree β}
    (hl : Forall₂ R left left') (hr : Forall₂ R right right') :
    Forall₂ R (node op left right) (node op left' right')

namespace Forall₂

variable {β : Type} {R : α → β → Prop} {u : SetTree β}

theorem operators_eq (h : Forall₂ R t u) : u.chain.operators = t.chain.operators := by
  induction h with
  | leaf h => rfl
  | node op hl hr ihl ihr => rw [operators_chain_node, operators_chain_node, ihl, ihr]

theorem keeps_eq (h : Forall₂ R t u) : u.keeps = t.keeps := by
  induction h with
  | leaf h => rfl
  | node op hl hr ihl ihr =>
    cases op with
    | union => rw [keeps, keeps, hr.operators_eq]
    | unionAll => rw [keeps, keeps, hr.operators_eq, ihl]

/-- The leaves of the one come from those of the other. -/
theorem exists_of_mem_leaves (h : Forall₂ R t u) {b : β} (hb : b ∈ u.chain.leaves) :
    ∃ a ∈ t.chain.leaves, R a b := by
  induction h with
  | @leaf a b' h =>
    obtain rfl := List.mem_singleton.1 hb
    exact ⟨a, List.mem_cons_self, h⟩
  | node op hl hr ihl ihr =>
    rw [leaves_chain_node, List.mem_append] at hb
    simp only [leaves_chain_node, List.mem_append]
    rcases hb with hb | hb
    · obtain ⟨a, ha, h⟩ := ihl hb
      exact ⟨a, .inl ha, h⟩
    · obtain ⟨a, ha, h⟩ := ihr hb
      exact ⟨a, .inr ha, h⟩

end Forall₂

/-- The chain of a combination runs on from that of its left part. -/
theorem rows_chain_node : (node op left right).chain.rows bag
    = SetChain.run bag (op.rows (left.chain.rows bag) (bag right.chain.first))
      right.chain.members := SetChain.run_append _

/-- A combination and its chain have the same rows, up to duplicates. -/
theorem mem_rows_chain : r ∈ t.chain.rows bag ↔ r ∈ t.rows bag := by
  induction t with
  | leaf a => rfl
  | node op left right ihl ihr =>
    rw [SetChain.rows, SetChain.mem_run] at ihr
    rw [rows_chain_node, SetChain.mem_run, SetOperator.mem_rows, ihl, or_assoc, ihr, rows,
      SetOperator.mem_rows]

/-- Without UNION a chain has the rows of the combination. -/
theorem rows_chain_of_unionAll (h : ∀ op ∈ t.chain.operators, op = .unionAll) :
    t.chain.rows bag = t.rows bag := by
  induction t with
  | leaf a => rfl
  | node op left right ihl ihr =>
    simp only [operators_chain_node, List.forall_mem_append, List.forall_mem_cons] at h
    obtain ⟨hl, rfl, hr⟩ := h
    rw [rows, ← ihl hl, ← ihr hr, rows_chain_node]
    exact SetChain.run_add hr

theorem nodup_chain_of_union (h : right.chain.operators.getLast? ≠ some .unionAll) :
    ((node .union left right).chain.rows bag).Nodup := by
  rw [rows_chain_node]
  cases hlast : right.chain.operators.getLast? with
  | none =>
    rw [SetChain.operators, List.getLast?_eq_none_iff, List.map_eq_nil_iff] at hlast
    rw [hlast]
    exact Multiset.nodup_dedup _
  | some op =>
    cases op with
    | union => exact SetChain.nodup_run hlast
    | unionAll => exact absurd hlast h

/-- The chain of a combination that keeps its rows has the rows of the combination. -/
theorem rows_chain_of_keeps (h : t.keeps = true) : t.chain.rows bag = t.rows bag := by
  induction t with
  | leaf a => rfl
  | node op left right ihl ihr =>
    cases op with
    | union =>
      have hlast : right.chain.operators.getLast? ≠ some .unionAll := by simpa [keeps] using h
      exact (Multiset.Nodup.ext (nodup_chain_of_union hlast) (Multiset.nodup_dedup _)).2
        fun r => mem_rows_chain
    | unionAll =>
      rw [keeps, Bool.and_eq_true, List.all_eq_true] at h
      have hr : ∀ op ∈ right.chain.operators, op = .unionAll := by simpa using h.2
      rw [rows, ← ihl h.1, ← rows_chain_of_unionAll hr, rows_chain_node]
      exact SetChain.run_add hr

/-- A row that all leaves have shows a UNION that UNION ALL follows. -/
theorem rows_ne_of_last (r : ρ) (h : right.chain.operators.getLast? = some .unionAll) :
    (node .union left right).chain.rows (fun _ => {r})
      ≠ (node .union left right).rows (fun _ => ({r} : Multiset ρ)) := by
  obtain ⟨before, a, hmembers⟩ := SetChain.exists_append_of_getLast? h
  intro heq
  have hnodup : ((node .union left right).chain.rows fun _ => ({r} : Multiset ρ)).Nodup :=
    heq ▸ Multiset.nodup_dedup _
  rw [rows_chain_node, hmembers, SetChain.run_append] at hnodup
  have hadd := Multiset.nodup_add.1 hnodup
  have hmem : r ∈ SetChain.run (fun _ => ({r} : Multiset ρ)) (SetOperator.union.rows
      (left.chain.rows fun _ => {r}) {r}) before :=
    SetChain.mem_run.2 (.inl (SetOperator.mem_rows.2 (.inr (by simp))))
  exact Multiset.disjoint_left.1 hadd.2.2 hmem (by simp)

/-- A row that only the first leaves of both parts have shows a UNION behind UNION ALL. -/
theorem rows_ne_of_union (r : ρ) (hu : .union ∈ right.chain.operators)
    (hn : (node .unionAll left right).chain.leaves.Nodup) : ∃ bag : α → Multiset ρ,
      (node .unionAll left right).chain.rows bag ≠ (node .unionAll left right).rows bag := by
  classical
  let bag : α → Multiset ρ := fun a =>
    if a = left.chain.first ∨ a = right.chain.first then {r} else 0
  refine ⟨bag, fun heq => ?_⟩
  have hl : r ∈ left.rows bag :=
    mem_rows_chain.1 (SetChain.mem_run.2 (.inl (by simp [bag])))
  have hr : r ∈ right.rows bag :=
    mem_rows_chain.1 (SetChain.mem_run.2 (.inl (by simp [bag])))
  have hempty : ∀ m ∈ right.chain.members, bag m.2 = 0 := by
    intro m hm
    rw [leaves_chain_node, List.nodup_append] at hn
    have hmem : m.2 ∈ right.chain.members.map (·.2) := List.mem_map_of_mem hm
    have hfirst : m.2 ≠ left.chain.first := fun he =>
      hn.2.2 _ List.mem_cons_self _ (List.mem_cons_of_mem _ hmem) he.symm
    have hother : m.2 ≠ right.chain.first := fun he => (List.nodup_cons.1 hn.2.1).1 (he ▸ hmem)
    exact if_neg (not_or.2 ⟨hfirst, hother⟩)
  have hnodup : ((node .unionAll left right).chain.rows bag).Nodup := by
    rw [rows_chain_node]
    exact SetChain.nodup_run_of_union hu hempty
  rw [heq] at hnodup
  exact Multiset.disjoint_left.1 (Multiset.nodup_add.1 hnodup).2.2 hl hr

/-- If the chain of a combination of different leaves does not keep its rows, then it has other ones
for some rows of the leaves. -/
theorem exists_rows_ne (r : ρ) (h : t.keeps = false) (hn : t.chain.leaves.Nodup) :
    ∃ bag : α → Multiset ρ, t.chain.rows bag ≠ t.rows bag := by
  induction t with
  | leaf a => cases h
  | node op left right ihl ihr =>
    cases op with
    | union =>
      have hlast : right.chain.operators.getLast? = some .unionAll := by simpa [keeps] using h
      exact ⟨_, rows_ne_of_last r hlast⟩
    | unionAll =>
      by_cases hu : .union ∈ right.chain.operators
      · exact rows_ne_of_union r hu hn
      · have hr : ∀ op ∈ right.chain.operators, op = .unionAll := by
          intro op hop
          cases op with
          | union => exact absurd hop hu
          | unionAll => rfl
        have hl : left.keeps = false := by
          have hall : right.chain.operators.all (· == .unionAll) = true := by simpa using hr
          rwa [keeps, hall, Bool.and_true] at h
        rw [leaves_chain_node] at hn
        obtain ⟨bag, hne⟩ := ihl hl hn.of_append_left
        refine ⟨bag, fun heq => hne ?_⟩
        rw [rows_chain_node, rows, ← rows_chain_of_unionAll hr] at heq
        exact add_right_cancel ((SetChain.run_add hr).symm.trans heq)

end SetTree

end SqlCompose
