import SqlCompose.Proofs.Render.Congruence

/-!
# Columns that occur in expressions

A node occurs in an expression if the expression leads down to it without entering a subquery. The
tables that are collected from expressions are the owners of the columns that occur in them, each
once, in the order in which they are first met.
-/
namespace SqlCompose

/-! ## First occurrences -/

section FirstOccurrence

variable {α β : Type} [BEq α] [LawfulBEq α] [BEq β] [LawfulBEq β]

omit [LawfulBEq α] in
/-- Induction that drops all further occurrences of the first member. -/
theorem firstOccurrence_induction {motive : List α → Prop} (nil : motive [])
    (cons : ∀ a as, motive (as.filter fun b => !b == a) → motive (a :: as)) (as : List α) :
    motive as := by
  induction h : as.length using Nat.strongRecOn generalizing as with
  | ind n ih =>
    cases as with
    | nil => exact nil
    | cons a as =>
      have hlength := List.length_filter_le (fun b => !b == a) as
      rw [List.length_cons] at h
      exact cons a as (ih _ (by omega) _ rfl)

theorem nodup_eraseDups (as : List α) : as.eraseDups.Nodup := by
  induction as using firstOccurrence_induction with
  | nil => exact List.nodup_nil
  | cons a as ih =>
    rw [List.eraseDups_cons, List.nodup_cons]
    exact ⟨by simp, ih⟩

/-- Members that a filter keeps stand in the same order in the whole list. -/
theorem idxOf_lt_of_filter {p : α → Bool} {as : List α} {a b : α} (ha : p a = true)
    (hb : p b = true) (h : (as.filter p).idxOf a < (as.filter p).idxOf b) :
    as.idxOf a < as.idxOf b := by
  induction as with
  | nil => simp at h
  | cons c as ih =>
    by_cases hc : p c = true
    · rw [List.filter_cons_of_pos hc] at h
      simp only [List.idxOf_cons] at h ⊢
      cases hca : c == a <;> cases hcb : c == b <;> simp_all
    · have hne : ∀ x, p x = true → (c == x) = false := by
        intro x hx
        rw [beq_eq_false_iff_ne]
        rintro rfl
        exact hc hx
      rw [List.filter_cons_of_neg hc] at h
      simp only [List.idxOf_cons, hne a ha, hne b hb, cond_false]
      have := ih h
      omega

/-- Without repetitions the members stand in the order of their first occurrences. -/
theorem pairwise_eraseDups (as : List α) :
    as.eraseDups.Pairwise fun a b => as.idxOf a < as.idxOf b := by
  induction as using firstOccurrence_induction with
  | nil => exact .nil
  | cons a as ih =>
    have hkept : ∀ b ∈ (as.filter fun b => !b == a).eraseDups, (!b == a) = true := by
      intro b hb
      exact (List.mem_filter.1 (List.mem_eraseDups.1 hb)).2
    have hlater : ∀ b, (!b == a) = true → (a :: as).idxOf b = as.idxOf b + 1 := by
      intro b hb
      have hne : (a == b) = false := by
        rw [beq_eq_false_iff_ne]
        rintro rfl
        simp at hb
      rw [List.idxOf_cons, hne, cond_false]
    rw [List.eraseDups_cons, List.pairwise_cons]
    refine ⟨fun b hb => ?_, ih.imp_of_mem fun hb hc h => ?_⟩
    · rw [hlater b (hkept b hb), List.idxOf_cons_self]
      omega
    · rw [hlater _ (hkept _ hb), hlater _ (hkept _ hc)]
      have := idxOf_lt_of_filter (p := fun b => !b == a) (hkept _ hb) (hkept _ hc) h
      omega

theorem eraseDups_filter (p : α → Bool) (as : List α) :
    (as.filter p).eraseDups = as.eraseDups.filter p := by
  induction as using firstOccurrence_induction with
  | nil => rfl
  | cons a as ih =>
    have hcomm : (as.filter p).filter (fun b => !b == a)
        = (as.filter fun b => !b == a).filter p := by
      rw [List.filter_filter, List.filter_filter]
      exact List.filter_congr fun b _ => Bool.and_comm _ _
    rw [List.eraseDups_cons]
    by_cases ha : p a = true
    · rw [List.filter_cons_of_pos ha, List.filter_cons_of_pos ha, List.eraseDups_cons, hcomm, ih]
    · rw [List.filter_cons_of_neg ha, List.filter_cons_of_neg ha, ← ih, ← hcomm]
      have hall : (as.filter p).filter (fun b => !b == a) = as.filter p := by
        refine List.filter_eq_self.2 fun b hb => ?_
        have hne : b ≠ a := by
          rintro rfl
          exact ha (List.mem_filter.1 hb).2
        simpa using hne
      rw [hall]

/-- What comes of a member is met first where the member is met first. -/
theorem eraseDups_filterMap_eraseDups (f : α → Option β) (as : List α) :
    (as.eraseDups.filterMap f).eraseDups = (as.filterMap f).eraseDups := by
  induction as using firstOccurrence_induction with
  | nil => rfl
  | cons a as ih =>
    rw [List.eraseDups_cons]
    cases ha : f a with
    | none =>
      have hsame : (as.filter fun b => !b == a).filterMap f = as.filterMap f := by
        rw [List.filterMap_filter]
        refine List.filterMap_congr fun b _ => ?_
        by_cases hb : b = a <;> simp [hb, ha]
      rw [List.filterMap_cons_none ha, List.filterMap_cons_none ha, ih, hsame]
    | some t =>
      have hsame : ((as.filter fun b => !b == a).filterMap f).filter (fun u => !u == t)
          = (as.filterMap f).filter fun u => !u == t := by
        rw [List.filter_filterMap, List.filter_filterMap, List.filterMap_filter]
        refine List.filterMap_congr fun b _ => ?_
        by_cases hb : b = a <;> simp [hb, ha, Option.filter]
      rw [List.filterMap_cons_some ha, List.filterMap_cons_some ha, List.eraseDups_cons,
        List.eraseDups_cons, eraseDups_filter, ih, ← eraseDups_filter, hsame]

end FirstOccurrence

/-! ## Nodes -/

/-- Whether a node is an expression or one below it, without going into subqueries. -/
inductive Expr.Within (y : Expr) : Expr → Prop
  | self : Within y y
  | apply {a : Value} {op : Operator} {symbol : String} {arguments : List Expr} {x : Expr}
    (hx : x ∈ arguments) (h : Within y x) : Within y (.apply a op symbol arguments)
  | order {a : Value} {x : Expr} {descending : Bool} (h : Within y x) :
    Within y (.order a x descending)
  | group {a : Value} {x : Expr} (h : Within y x) : Within y (.group a x)

namespace Expr.Within

variable {x y : Expr}

theorem mem_walk (h : y.Within x) : y ∈ x.walk := by
  induction h with
  | self => cases y <;> simp [walk]
  | apply hx _ ih =>
    rw [walk, walkAll_eq_flatMap]
    exact List.mem_cons_of_mem _ (List.mem_flatMap.2 ⟨_, hx, ih⟩)
  | order _ ih => exact List.mem_cons_of_mem _ ih
  | group _ ih => exact List.mem_cons_of_mem _ ih

mutual

theorem of_mem_walk : (x : Expr) → y ∈ x.walk → y.Within x
  | .apply a op symbol arguments, h => by
    rcases List.mem_cons.1 h with rfl | h
    · exact .self
    · obtain ⟨z, hz, hy⟩ := of_mem_walkAll arguments h
      exact .apply hz hy
  | .order a x descending, h => by
    rcases List.mem_cons.1 h with rfl | h
    · exact .self
    · exact .order (of_mem_walk x h)
  | .group a x, h => by
    rcases List.mem_cons.1 h with rfl | h
    · exact .self
    · exact .group (of_mem_walk x h)
  | .literal a v k, h => List.mem_singleton.1 h ▸ .self
  | .column a id, h => List.mem_singleton.1 h ▸ .self
  | .raw a s, h => List.mem_singleton.1 h ▸ .self
  | .subquery a body, h => List.mem_singleton.1 h ▸ .self
  | .bare a, h => List.mem_singleton.1 h ▸ .self

theorem of_mem_walkAll : (xs : List Expr) → y ∈ walkAll xs → ∃ x ∈ xs, y.Within x
  | [], h => by simp [walkAll] at h
  | x :: xs, h => by
    rcases List.mem_append.1 h with h | h
    · exact ⟨x, by simp, of_mem_walk x h⟩
    · obtain ⟨z, hz, hy⟩ := of_mem_walkAll xs h
      exact ⟨z, by simp [hz], hy⟩

end

/-- The nodes of an expression are those that occur in it. -/
theorem mem_walk_iff : y ∈ x.walk ↔ y.Within x := ⟨of_mem_walk x, mem_walk⟩

end Expr.Within

/-! ## Columns and their owners -/

/-- Whether a column occurs in a value. -/
def Value.Reads (v : Value) (id : ColumnId) : Prop :=
  ∃ x a, v = .expr x ∧ (Expr.column a id).Within x

theorem Expr.columnRef?_eq_some_iff {x : Expr} {r : ColumnRef} :
    x.columnRef? = some r ↔ x = .column r.asName r.id := by
  obtain ⟨id, asName⟩ := r
  cases x <;> simp [Expr.columnRef?, and_comm]

theorem Value.mem_columnIds_iff {v : Value} {id : ColumnId} : id ∈ v.columnIds ↔ v.Reads id := by
  have hwalk : ∀ y, y ∈ Value.walk [v] ↔ ∃ x, v = .expr x ∧ y.Within x := by
    intro y
    have hexpr : ∀ x, v.expr? = some x ↔ v = .expr x := by cases v <;> simp [expr?]
    simp [Value.walk, walkAll_eq_flatMap, hexpr, Expr.Within.mem_walk_iff]
  simp only [columnIds, columnRefs, List.mem_map, List.mem_filterMap, hwalk,
    Expr.columnRef?_eq_some_iff, Reads]
  constructor
  · rintro ⟨r, ⟨y, ⟨x, hv, hy⟩, rfl⟩, rfl⟩
    exact ⟨x, r.asName, hv, hy⟩
  · rintro ⟨x, a, hv, hx⟩
    exact ⟨⟨id, a⟩, ⟨_, ⟨x, hv, hx⟩, rfl⟩, rfl⟩

/-- The owners of the columns that occur in values, in reading order, as often as they occur. -/
def owners (cat : Catalog) (vs : List Value) : List TableId :=
  (vs.flatMap Value.columnIds).filterMap cat.owner

variable {cat : Catalog} {vs : List Value}

theorem mem_owners_iff {t : TableId} :
    t ∈ owners cat vs ↔ ∃ v ∈ vs, ∃ id, v.Reads id ∧ cat.owner id = some t := by
  simp only [owners, List.mem_filterMap, List.mem_flatMap, Value.mem_columnIds_iff]
  constructor
  · rintro ⟨id, ⟨v, hv, hid⟩, ht⟩
    exact ⟨v, hv, id, hid, ht⟩
  · rintro ⟨v, hv, id, hid, ht⟩
    exact ⟨id, ⟨v, hv, hid⟩, ht⟩

/-- The tables that are collected are the owners of columns, each where it is first met. -/
theorem collectTables_eq_eraseDups (cat : Catalog) (vs : List Value) :
    collectTables cat vs = (owners cat vs).eraseDups := by
  rw [collectTables_eq, eraseDups_filterMap_eraseDups, owners]

end SqlCompose
