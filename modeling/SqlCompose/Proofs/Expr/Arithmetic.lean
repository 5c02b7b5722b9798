import SqlCompose.Expr.Precedence

/-!
# Arithmetic

Terms of integer arithmetic and what becomes of them where the right operand of a sum or a product
stands without parentheses: it is joined to what stands before it. A sum keeps its value. A product
does so unless it divides, since the factor before it then goes into the dividend.
-/
namespace SqlCompose

/-- The infix operators of arithmetic. -/
inductive ArithmeticOp
  | add
  | sub
  | mul
  | div
  | mod
deriving DecidableEq

/-- The signs. -/
inductive Sign
  | plus
  | minus
deriving DecidableEq

namespace ArithmeticOp

/-- The level of an operator. -/
def level : ArithmeticOp → Level
  | add | sub => .additive
  | mul | div | mod => .multiplicative

theorem level_ne_atom (op : ArithmeticOp) : op.level ≠ .atom := by
  cases op <;> decide

theorem level_ne_unary (op : ArithmeticOp) : op.level ≠ .unary := by
  cases op <;> decide

/-- Sums and products are exact, a quotient is cut off towards zero, and the remainder is what it
leaves. Nothing is divided by zero. -/
def apply : ArithmeticOp → Int → Int → Option Int
  | add, a, b => some (a + b)
  | sub, a, b => some (a - b)
  | mul, a, b => some (a * b)
  | div, a, b => if b = 0 then none else some (a.tdiv b)
  | mod, a, b => if b = 0 then none else some (a.tmod b)

end ArithmeticOp

/-- The value under a sign. -/
def Sign.apply : Sign → Int → Int
  | plus, a => a
  | minus, a => -a

@[simp] theorem Sign.apply_apply (s : Sign) (a : Int) : s.apply (s.apply a) = a := by
  cases s <;> simp [apply]

@[simp] theorem Sign.natAbs_apply (s : Sign) (a : Int) : (s.apply a).natAbs = a.natAbs := by
  cases s <;> simp [apply]

/-- A term of integer arithmetic with leaves of some type. -/
inductive Arithmetic (α : Type)
  | leaf (a : α)
  | sign (s : Sign) (t : Arithmetic α)
  | binary (op : ArithmeticOp) (left right : Arithmetic α)

namespace Arithmetic

variable {α β : Type}

/-- The same term with other leaves. -/
def map (f : α → β) : Arithmetic α → Arithmetic β
  | leaf a => leaf (f a)
  | sign s t => sign s (t.map f)
  | binary op l r => binary op (l.map f) (r.map f)

/-- The leaves of a term from left to right. -/
def leaves : Arithmetic α → List α
  | leaf a => [a]
  | sign _ t => t.leaves
  | binary _ l r => l.leaves ++ r.leaves

/-- The level of the operator of a term. -/
def level : Arithmetic α → Level
  | leaf _ => .atom
  | sign .. => .unary
  | binary op .. => op.level

/-- The value of a term under an assignment to its leaves, if it is defined. -/
def value (σ : α → Int) : Arithmetic α → Option Int
  | leaf a => some (σ a)
  | sign s t => (t.value σ).map s.apply
  | binary op l r => (l.value σ).bind fun a => (r.value σ).bind fun b => op.apply a b

theorem value_map (f : α → β) (σ : β → Int) (t : Arithmetic α) :
    (t.map f).value σ = t.value (σ ∘ f) := by
  induction t with
  | leaf a => rfl
  | sign s t ih => rw [map, value, value, ih]
  | binary op l r ihl ihr => rw [map, value, value, ihl, ihr]

theorem map_congr {f g : α → β} {t : Arithmetic α} (h : ∀ a ∈ t.leaves, f a = g a) :
    t.map f = t.map g := by
  induction t with
  | leaf a => rw [map, map, h a (by simp [leaves])]
  | sign s t ih => rw [map, map, ih h]
  | binary op l r ihl ihr =>
    rw [map, map, ihl fun a ha => h a (List.mem_append_left _ ha),
      ihr fun a ha => h a (List.mem_append_right _ ha)]

/-- The value depends on what is assigned to the leaves. -/
theorem value_congr {σ τ : α → Int} {t : Arithmetic α} (h : ∀ a ∈ t.leaves, σ a = τ a) :
    t.value σ = t.value τ := by
  have hmap := map_congr h
  calc t.value σ = (t.map σ).value id := (value_map σ id t).symm
    _ = (t.map τ).value id := by rw [hmap]
    _ = t.value τ := value_map τ id t

@[simp] theorem leaves_map (f : α → β) (t : Arithmetic α) : (t.map f).leaves = t.leaves.map f := by
  induction t with
  | leaf a => rfl
  | sign s t ih => exact ih
  | binary op l r ihl ihr => rw [map, leaves, leaves, ihl, ihr, List.map_append]

/-! ## Regrouping -/

/-- Joins a term to what stands before it: an operator with it goes to the first operand of the
operators of the same level. -/
def graft (op : ArithmeticOp) (x : Arithmetic α) : Arithmetic α → Arithmetic α
  | binary op' l r =>
    if op'.level = op.level then binary op' (graft op x l) r else binary op x (binary op' l r)
  | t => binary op x t

/-- Whether a term has the operator of the term around it, one of those that are called
associative. -/
def repeats (op : ArithmeticOp) : Arithmetic α → Bool
  | binary op' .. => op' == op && (op == .add || op == .mul)
  | _ => false

/-- A term as it is grouped where repeated operators stand without parentheses. -/
def regrouped : Arithmetic α → Arithmetic α
  | leaf a => leaf a
  | sign s t => sign s t.regrouped
  | binary op l r =>
    if repeats op r then graft op l.regrouped r.regrouped else binary op l.regrouped r.regrouped

/-- Whether a term divides outside of its parentheses. -/
def divides : Arithmetic α → Bool
  | binary .mul l r => l.divides || (repeats .mul r && r.divides)
  | binary .div .. | binary .mod .. => true
  | _ => false

/-- Whether somewhere a product that divides is multiplied from the left without parentheses. -/
def misgroups : Arithmetic α → Bool
  | leaf _ => false
  | sign _ t => t.misgroups
  | binary op l r =>
    l.misgroups || r.misgroups || (op == .mul && repeats .mul r && r.divides)

theorem level_graft (op : ArithmeticOp) (x t : Arithmetic α) : (graft op x t).level = op.level := by
  cases t with
  | binary op' l r =>
    by_cases h : op'.level = op.level
    · simp [graft, h, level]
    · simp [graft, h, level]
  | _ => rfl

/-- A term whose operator has another level is joined as a whole. -/
theorem graft_of_level {op : ArithmeticOp} {t : Arithmetic α} (h : t.level ≠ op.level)
    (x : Arithmetic α) : graft op x t = binary op x t := by
  cases t with
  | binary op' l r =>
    have hop : op'.level ≠ op.level := h
    rw [graft, if_neg hop]
  | _ => rfl

theorem level_regrouped (t : Arithmetic α) : t.regrouped.level = t.level := by
  cases t with
  | binary op l r =>
    rw [regrouped]
    split
    · exact level_graft op _ _
    · rfl
  | _ => rfl

theorem map_graft (f : α → β) (op : ArithmeticOp) (x t : Arithmetic α) :
    (graft op x t).map f = graft op (x.map f) (t.map f) := by
  induction t with
  | binary op' l r ihl ihr =>
    by_cases h : op'.level = op.level
    · simp [graft, h, map, ihl]
    · simp [graft, h, map]
  | _ => rfl

@[simp] theorem level_map (f : α → β) (t : Arithmetic α) : (t.map f).level = t.level := by
  cases t <;> rfl

@[simp] theorem repeats_map (f : α → β) (op : ArithmeticOp) (t : Arithmetic α) :
    repeats op (t.map f) = repeats op t := by
  cases t <;> rfl

theorem map_regrouped (f : α → β) (t : Arithmetic α) :
    t.regrouped.map f = (t.map f).regrouped := by
  induction t with
  | leaf a => rfl
  | sign s t ih => rw [regrouped, map, map, regrouped, ih]
  | binary op l r ihl ihr =>
    rw [map, regrouped, regrouped, repeats_map]
    split
    · rw [map_graft, ihl, ihr]
    · rw [map, ihl, ihr]

@[simp] theorem divides_map (f : α → β) (t : Arithmetic α) : (t.map f).divides = t.divides := by
  induction t with
  | binary op l r ihl ihr =>
    cases op with
    | mul => rw [map, divides, divides, repeats_map, ihl, ihr]
    | _ => rfl
  | _ => rfl

@[simp] theorem misgroups_map (f : α → β) (t : Arithmetic α) :
    (t.map f).misgroups = t.misgroups := by
  induction t with
  | leaf a => rfl
  | sign s t ih => exact ih
  | binary op l r ihl ihr => rw [map, misgroups, misgroups, repeats_map, divides_map, ihl, ihr]

theorem value_regrouped_congr {σ τ : α → Int} {t : Arithmetic α} (h : ∀ a ∈ t.leaves, σ a = τ a) :
    t.regrouped.value σ = t.regrouped.value τ := by
  have hmap := map_congr h
  calc t.regrouped.value σ = (t.map σ).regrouped.value id := by
        rw [← map_regrouped, value_map, Function.id_comp]
    _ = (t.map τ).regrouped.value id := by rw [hmap]
    _ = t.regrouped.value τ := by rw [← map_regrouped, value_map, Function.id_comp]

theorem eq_of_repeats {op : ArithmeticOp} {t : Arithmetic α} (h : repeats op t = true) :
    (op = .add ∨ op = .mul) ∧ ∃ l r, t = binary op l r := by
  cases t with
  | binary op' l r =>
    simp only [repeats, Bool.and_eq_true, beq_iff_eq, Bool.or_eq_true] at h
    obtain ⟨rfl, hop⟩ := h
    exact ⟨hop, l, r, rfl⟩
  | _ => simp [repeats] at h

/-! ## Values of joined terms -/

section Values

variable {σ : α → Int}

/-- The value of a term whose first factor goes through a function. -/
def valueFrom (σ : α → Int) (k : Int → Option Int) : Arithmetic α → Option Int
  | binary op l r =>
    if op.level = .multiplicative then
      (valueFrom σ k l).bind fun a => (r.value σ).bind fun b => op.apply a b
    else ((binary op l r).value σ).bind k
  | t => (t.value σ).bind k

theorem valueFrom_of_level {t : Arithmetic α} (h : t.level ≠ .multiplicative)
    (k : Int → Option Int) : t.valueFrom σ k = (t.value σ).bind k := by
  cases t with
  | binary op l r =>
    have hop : op.level ≠ .multiplicative := h
    rw [valueFrom, if_neg hop]
  | _ => rfl

theorem valueFrom_some (t : Arithmetic α) : t.valueFrom σ some = t.value σ := by
  induction t with
  | binary op l r ihl ihr =>
    rw [valueFrom]
    split
    · rw [ihl, value]
    · exact Option.bind_fun_some _
  | _ => exact Option.bind_fun_some _

/-- A factor that is undefined leaves a product undefined. -/
theorem valueFrom_none (t : Arithmetic α) : t.valueFrom σ (fun _ => none) = none := by
  induction t with
  | binary op l r ihl ihr =>
    rw [valueFrom]
    split
    · rw [ihl]
      rfl
    · exact Option.bind_fun_none _
  | _ => exact Option.bind_fun_none _

/-- A factor that is joined to a product goes into its first factor. -/
theorem valueFrom_graft (k : Int → Option Int) (x t : Arithmetic α) :
    (graft .mul x t).valueFrom σ k
      = t.valueFrom σ fun v => (x.valueFrom σ k).map fun a => a * v := by
  have hwhole : ∀ t : Arithmetic α, t.level ≠ .multiplicative → (graft .mul x t).valueFrom σ k
      = t.valueFrom σ fun v => (x.valueFrom σ k).map fun a => a * v := by
    intro t ht
    have hmul : ArithmeticOp.mul.level = .multiplicative := rfl
    rw [graft_of_level ht, valueFrom_of_level ht, valueFrom, if_pos hmul]
    cases x.valueFrom σ k <;> cases t.value σ <;> simp [ArithmeticOp.apply]
  induction t with
  | binary op l r ihl ihr =>
    by_cases h : op.level = .multiplicative
    · have hm : op.level = ArithmeticOp.mul.level := h
      rw [graft, if_pos hm, valueFrom, if_pos h, valueFrom, if_pos h, ihl]
    · exact hwhole (binary op l r) h
  | leaf a => exact hwhole (leaf a) (by simp [level])
  | sign s t ih => exact hwhole (sign s t) (by simp [level])

/-- A term that is joined to a sum is added to it. -/
theorem value_graft_add (x t : Arithmetic α) : (graft .add x t).value σ
    = (x.value σ).bind fun a => (t.value σ).map fun b => a + b := by
  have hwhole : ∀ t : Arithmetic α, t.level ≠ .additive → (graft .add x t).value σ
      = (x.value σ).bind fun a => (t.value σ).map fun b => a + b := by
    intro t ht
    rw [graft_of_level ht, value]
    cases x.value σ <;> cases t.value σ <;> simp [ArithmeticOp.apply]
  induction t with
  | binary op l r ihl ihr =>
    by_cases h : op.level = .additive
    · have hm : op.level = ArithmeticOp.add.level := h
      rw [graft, if_pos hm, value, ihl, value]
      cases x.value σ <;> cases l.value σ <;> cases r.value σ <;>
        cases op <;> simp_all [ArithmeticOp.apply, ArithmeticOp.level] <;> omega
    · exact hwhole (binary op l r) h
  | leaf a => exact hwhole (leaf a) (by simp [level])
  | sign s t ih => exact hwhole (sign s t) (by simp [level])

/-! ## Terms that keep their value -/

/-- A factor before a product that does not divide is a factor of the product. -/
theorem valueFrom_regrouped {t : Arithmetic α} (h : t.divides = false) (a : Int) :
    t.regrouped.valueFrom σ (fun v => some (a * v)) = (t.regrouped.value σ).map fun v => a * v := by
  have hwhole : ∀ (a : Int) (t : Arithmetic α), t.level ≠ .multiplicative →
      t.regrouped.valueFrom σ (fun v => some (a * v))
        = (t.regrouped.value σ).map fun v => a * v := by
    intro a t ht
    rw [valueFrom_of_level (by rwa [level_regrouped])]
    cases t.regrouped.value σ <;> rfl
  induction t generalizing a with
  | leaf b => rfl
  | sign s t ih => exact hwhole a (sign s t) (by simp [level])
  | binary op l r ihl ihr =>
    cases op with
    | add => exact hwhole a (binary .add l r) (by simp [level, ArithmeticOp.level])
    | sub => exact hwhole a (binary .sub l r) (by simp [level, ArithmeticOp.level])
    | div => simp [divides] at h
    | mod => simp [divides] at h
    | mul =>
      simp only [divides, Bool.or_eq_false_iff] at h
      have hmul : ArithmeticOp.mul.level = .multiplicative := rfl
      by_cases hr : repeats .mul r = true
      · have hd : r.divides = false := by simpa [hr] using h.2
        rw [regrouped, if_pos hr, ← valueFrom_some (graft ..), valueFrom_graft, valueFrom_graft,
          ihl h.1, valueFrom_some]
        cases l.regrouped.value σ with
        | none => simp [valueFrom_none]
        | some b =>
          simp only [Option.map_some]
          rw [ihr hd, ihr hd, Option.map_map]
          simp [Function.comp_def, Int.mul_assoc]
      · rw [regrouped, if_neg hr, valueFrom, if_pos hmul, ihl h.1, value]
        cases l.regrouped.value σ <;> cases r.regrouped.value σ <;>
          simp [ArithmeticOp.apply, Int.mul_assoc]

/-- Regrouping keeps the value of a term in which no product that divides is joined to a factor. -/
theorem value_regrouped {t : Arithmetic α} (h : t.misgroups = false) :
    t.regrouped.value σ = t.value σ := by
  induction t with
  | leaf a => rfl
  | sign s t ih => rw [regrouped, value, value, ih h]
  | binary op l r ihl ihr =>
    simp only [misgroups, Bool.or_eq_false_iff] at h
    obtain ⟨⟨hl, hr⟩, hjoined⟩ := h
    by_cases hrep : repeats op r = true
    · rw [regrouped, if_pos hrep, value]
      obtain ⟨rfl | rfl, -⟩ := eq_of_repeats hrep
      · rw [value_graft_add, ihl hl, ihr hr]
        simp [ArithmeticOp.apply, Option.map_eq_bind, Function.comp_def]
      · have hd : r.divides = false := by simpa [hrep] using hjoined
        rw [← valueFrom_some (graft ..), valueFrom_graft, valueFrom_some, ihl hl]
        cases l.value σ with
        | none => simp [valueFrom_none]
        | some a =>
          simp only [Option.map_some]
          rw [valueFrom_regrouped hd, ihr hr]
          simp [ArithmeticOp.apply, Option.map_eq_bind, Function.comp_def]
    · rw [regrouped, if_neg hrep, value, value, ihl hl, ihr hr]

end Values

end Arithmetic

end SqlCompose
