import SqlCompose.Proofs.Expr.Arithmetic

/-!
# Terms that lose their value

A product that divides and is multiplied from the left without parentheses does lose its value: for
any such term whose leaves can be chosen freely there is a choice under which regrouping changes the
value. The choice is made bottom up. Beside the product everything is chosen to leave values as they
are, and the two values that come out of the product are kept apart and large on the way up.
-/
namespace SqlCompose.Arithmetic

variable {α : Type}

/-- A term without its leaves. -/
def shape (t : Arithmetic α) : Arithmetic Unit := t.map fun _ => ()

theorem shape_binary {op : ArithmeticOp} {l r : Arithmetic α} {ul ur : Arithmetic Int}
    (hl : ul.shape = l.shape) (hr : ur.shape = r.shape) :
    (binary op ul ur).shape = (binary op l r).shape := by
  change binary op ul.shape ur.shape = binary op l.shape r.shape
  rw [hl, hr]

theorem repeats_of_shape {t : Arithmetic α} {u : Arithmetic Int} (h : u.shape = t.shape)
    (op : ArithmeticOp) : repeats op u = repeats op t := by
  have hrepeats := congrArg (repeats op) h
  rwa [shape, shape, repeats_map, repeats_map] at hrepeats

/-- A choice of leaves that are all different is an assignment to them. -/
theorem exists_eq_map {t : Arithmetic α} (hn : t.leaves.Nodup) {u : Arithmetic Int}
    (h : u.shape = t.shape) : ∃ f : α → Int, u = t.map f := by
  classical
  induction t generalizing u with
  | leaf a =>
    cases u with
    | leaf n => exact ⟨fun _ => n, rfl⟩
    | _ => cases h
  | sign s t ih =>
    cases u with
    | sign s' u =>
      obtain ⟨rfl, hu⟩ := Arithmetic.sign.inj h
      obtain ⟨f, rfl⟩ := ih hn hu
      exact ⟨f, rfl⟩
    | _ => cases h
  | binary op l r ihl ihr =>
    cases u with
    | binary op' ul ur =>
      obtain ⟨rfl, hl, hr⟩ := Arithmetic.binary.inj h
      obtain ⟨hnl, hnr, hdisjoint⟩ := List.nodup_append.1 hn
      obtain ⟨f, rfl⟩ := ihl hnl hl
      obtain ⟨g, rfl⟩ := ihr hnr hr
      refine ⟨fun a => if a ∈ l.leaves then f a else g a, ?_⟩
      have hf : l.map f = l.map fun a => if a ∈ l.leaves then f a else g a :=
        map_congr fun a ha => by rw [if_pos ha]
      have hg : r.map g = r.map fun a => if a ∈ l.leaves then f a else g a := by
        refine map_congr fun a ha => ?_
        rw [if_neg fun hl => hdisjoint a hl a ha rfl]
      rw [map, ← hf, ← hg]
    | _ => cases h

/-! ## Terms whose leaves are numbers -/

/-- The value of a term of numbers. -/
def total (u : Arithmetic Int) : Option Int := u.value id

/-- The value of a term of numbers as it is regrouped, with a factor before its first one. -/
def totalAfter (a : Int) (u : Arithmetic Int) : Option Int :=
  u.regrouped.valueFrom id fun v => some (a * v)

theorem totalAfter_one (u : Arithmetic Int) : u.totalAfter 1 = u.regrouped.total := by
  have hone : (fun v : Int => some (1 * v)) = some := by simp
  rw [totalAfter, hone, valueFrom_some, total]

theorem totalAfter_of_level {u : Arithmetic Int} (h : u.level ≠ .multiplicative) (a : Int) :
    u.totalAfter a = u.regrouped.total.map fun v => a * v := by
  rw [totalAfter, valueFrom_of_level (by rwa [level_regrouped]), total]
  cases u.regrouped.value id <;> rfl

section Products

variable {l r : Arithmetic Int} {a b c : Int}

theorem total_binary (op : ArithmeticOp) (hl : l.total = some a) (hr : r.total = some b) :
    (binary op l r).total = op.apply a b := by
  rw [total] at hl hr
  rw [total, value, hl, hr]
  rfl

/-- An operator whose right operand stands as it is. -/
theorem total_regrouped_binary {op : ArithmeticOp} (hrep : repeats op r = false)
    (hl : l.regrouped.total = some a) (hr : r.regrouped.total = some b) :
    (binary op l r).regrouped.total = op.apply a b := by
  rw [regrouped, if_neg (by simp [hrep])]
  exact total_binary op hl hr

theorem totalAfter_binary {op : ArithmeticOp} (hop : op.level = .multiplicative)
    (hrep : repeats op r = false) (hl : l.totalAfter c = some a)
    (hr : r.regrouped.total = some b) : (binary op l r).totalAfter c = op.apply a b := by
  rw [totalAfter] at hl
  rw [total] at hr
  rw [totalAfter, regrouped, if_neg (by simp [hrep]), valueFrom, if_pos hop, hl, hr]
  rfl

/-- A product whose right operand is joined to its left one. -/
theorem totalAfter_mul (hrep : repeats .mul r = true) (hl : l.totalAfter c = some a) :
    (binary .mul l r).totalAfter c = r.totalAfter a := by
  rw [totalAfter] at hl
  rw [totalAfter, regrouped, if_pos hrep, valueFrom_graft, hl]
  rfl

theorem total_regrouped_mul (hrep : repeats .mul r = true) (hl : l.regrouped.total = some a) :
    (binary .mul l r).regrouped.total = r.totalAfter a := by
  rw [← totalAfter_one] at hl ⊢
  exact totalAfter_mul hrep hl

theorem total_regrouped_add (hl : l.regrouped.total = some a) (hr : r.regrouped.total = some b) :
    (binary .add l r).regrouped.total = some (a + b) := by
  by_cases hrep : repeats .add r = true
  · rw [total] at hl hr
    rw [total, regrouped, if_pos hrep, value_graft_add, hl, hr]
    rfl
  · exact total_regrouped_binary (by simpa using hrep) hl hr

end Products

/-! ## Choices that leave values as they are -/

/-- A choice of leaves that gives a term some value, and keeps the term a factor of any product that
it is the first part of, as long as the factor before it is bounded. -/
structure Chosen (t : Arithmetic α) (m : Int) (bound : Nat) (u : Arithmetic Int) : Prop where
  shape : u.shape = t.shape
  total : u.total = some m
  after : ∀ a : Int, a.natAbs ≤ bound + 1 → u.totalAfter a = some (a * m)

theorem Chosen.regrouped {t : Arithmetic α} {m : Int} {bound : Nat} {u : Arithmetic Int}
    (h : Chosen t m bound u) : u.regrouped.total = some m := by
  rw [← totalAfter_one, h.after 1 (by simp), Int.one_mul]

theorem Chosen.ofLevel {t : Arithmetic α} {m : Int} {bound : Nat} {u : Arithmetic Int}
    (hs : u.shape = t.shape) (ht : u.total = some m) (hr : u.regrouped.total = some m)
    (hl : u.level ≠ .multiplicative) : Chosen t m bound u :=
  ⟨hs, ht, fun a _ => by rw [totalAfter_of_level hl, hr, Option.map_some]⟩

theorem repeats_eq_false {op : ArithmeticOp} (ha : op ≠ .add) (hm : op ≠ .mul) (t : Arithmetic α) :
    repeats op t = false := by
  cases t <;> simp [repeats, ha, hm]

section Operands

variable {op : ArithmeticOp} {r : Arithmetic α} {l u : Arithmetic Int} {a b c : Int} {bound : Nat}

/-- An operand that was chosen counts with its value after a bounded factor. -/
theorem Chosen.totalAfter_binary (hop : op.level = .multiplicative) (hl : l.totalAfter c = some a)
    (hr : Chosen r b bound u) (ha : a.natAbs ≤ bound + 1) :
    (binary op l u).totalAfter c = op.apply a b := by
  by_cases hrep : repeats op u = true
  · obtain ⟨rfl | rfl, -⟩ := eq_of_repeats hrep
    · cases hop
    · rw [totalAfter_mul hrep hl, hr.after a ha, ArithmeticOp.apply]
  · exact Arithmetic.totalAfter_binary hop (by simpa using hrep) hl hr.regrouped

theorem Chosen.total_regrouped_binary (hl : l.regrouped.total = some a) (hr : Chosen r b bound u)
    (ha : a.natAbs ≤ bound + 1) : (binary op l u).regrouped.total = op.apply a b := by
  by_cases hrep : repeats op u = true
  · obtain ⟨rfl | rfl, -⟩ := eq_of_repeats hrep
    · rw [total_regrouped_add hl hr.regrouped, ArithmeticOp.apply]
    · rw [total_regrouped_mul hrep hl, hr.after a ha, ArithmeticOp.apply]
  · exact Arithmetic.total_regrouped_binary (by simpa using hrep) hl hr.regrouped

/-- Any operand counts with its value, after the factor one. -/
theorem total_regrouped_of (hl : l.regrouped.total = some a) (hu : u.regrouped.total = some b)
    (ha : op = .mul → a = 1) : (binary op l u).regrouped.total = op.apply a b := by
  by_cases hrep : repeats op u = true
  · obtain ⟨rfl | rfl, -⟩ := eq_of_repeats hrep
    · rw [total_regrouped_add hl hu, ArithmeticOp.apply]
    · obtain rfl := ha rfl
      rw [total_regrouped_mul hrep hl, totalAfter_one, hu, ArithmeticOp.apply, Int.one_mul]
  · exact Arithmetic.total_regrouped_binary (by simpa using hrep) hl hu

end Operands

/-- A remainder by something larger is the dividend. -/
theorem apply_mod_of_lt {a b : Int} (h : a.natAbs < b.natAbs) :
    ArithmeticOp.mod.apply a b = some a := by
  have hb : b ≠ 0 := by
    rintro rfl
    simp at h
  have habs := Int.natAbs_tmod a b
  rw [Nat.mod_eq_of_lt h] at habs
  have heq : a.tmod b = a := by
    rcases Int.le_total 0 a with ha | ha
    · have hnonneg := Int.tmod_nonneg b ha
      omega
    · have hnonneg := Int.tmod_nonneg b (a := -a) (by omega)
      rw [Int.neg_tmod] at hnonneg
      omega
  rw [ArithmeticOp.apply, if_neg hb, heq]

/-- Every operator has a right operand that leaves bounded numbers as they are. -/
theorem exists_neutral (op : ArithmeticOp) (bound : Nat) :
    ∃ b : Int, ∀ a : Int, a.natAbs ≤ bound → op.apply a b = some a := by
  cases op with
  | add => exact ⟨0, fun a _ => by rw [ArithmeticOp.apply, Int.add_zero]⟩
  | sub => exact ⟨0, fun a _ => by rw [ArithmeticOp.apply, Int.sub_zero]⟩
  | mul => exact ⟨1, fun a _ => by rw [ArithmeticOp.apply, Int.mul_one]⟩
  | div => exact ⟨1, fun a _ => by simp [ArithmeticOp.apply]⟩
  | mod => exact ⟨bound + 1, fun a ha => apply_mod_of_lt (by omega)⟩

/-- Leaves can be chosen so that a term has any value. -/
theorem exists_chosen (t : Arithmetic α) (m : Int) (bound : Nat) : ∃ u, Chosen t m bound u := by
  induction t generalizing m bound with
  | leaf a => exact ⟨leaf m, rfl, rfl, fun a _ => rfl⟩
  | sign s t ih =>
    obtain ⟨u, hu⟩ := ih (s.apply m) 0
    have ht := hu.total
    have hr := hu.regrouped
    rw [total] at ht hr
    refine ⟨sign s u, .ofLevel (congrArg (sign s) hu.shape) ?_ ?_ (by simp [level])⟩
    · rw [total, value, ht, Option.map_some, Sign.apply_apply]
    · rw [Arithmetic.regrouped, total, value, hr, Option.map_some, Sign.apply_apply]
  | binary op l r ihl ihr =>
    have hbound : ∀ a : Int, a.natAbs ≤ bound + 1 →
        (a * m).natAbs ≤ m.natAbs * (bound + 1) := by
      intro a ha
      rw [Int.natAbs_mul, Nat.mul_comm]
      exact Nat.mul_le_mul_left _ ha
    have hm := hbound 1 (by simp)
    rw [Int.one_mul] at hm
    obtain ⟨b, hb⟩ := exists_neutral op (m.natAbs * (bound + 1))
    obtain ⟨ul, hl⟩ := ihl m bound
    obtain ⟨ur, hr⟩ := ihr b (m.natAbs * (bound + 1))
    have hshape : (binary op ul ur).shape = (binary op l r).shape := shape_binary hl.shape hr.shape
    have htotal : (binary op ul ur).total = some m := by
      rw [total_binary op hl.total hr.total, hb m hm]
    by_cases hop : op.level = .multiplicative
    · refine ⟨binary op ul ur, hshape, htotal, fun a ha => ?_⟩
      have hle := hbound a ha
      rw [hr.totalAfter_binary hop (hl.after a ha) (by omega), hb _ hle]
    · refine ⟨binary op ul ur, .ofLevel hshape htotal ?_ hop⟩
      rw [hr.total_regrouped_binary hl.regrouped (by omega), hb m hm]

/-! ## Choices that tell the two groupings apart -/

/-- Two numbers of different size that are both large. -/
structure Apart (least : Nat) (a b : Int) : Prop where
  left : least ≤ a.natAbs
  right : least ≤ b.natAbs
  ne : a.natAbs ≠ b.natAbs

/-- A number is divided, or it is doubled before. -/
theorem exists_apart_apply {op : ArithmeticOp} (h : op = .div ∨ op = .mod) (least : Nat) :
    ∃ a b w v : Int, op.apply a b = some w ∧ op.apply (2 * a) b = some v ∧
      Apart least (2 * w) v := by
  rcases h with rfl | rfl
  · have hw : (2 * (least : Int) + 1).tdiv 2 = least := by
      rw [Int.tdiv_eq_ediv_of_nonneg (by omega)]
      omega
    have hv : (2 * (2 * (least : Int) + 1)).tdiv 2 = 2 * least + 1 :=
      Int.mul_tdiv_cancel_left _ (by decide)
    refine ⟨2 * least + 1, 2, least, 2 * least + 1, ?_, ?_, ⟨?_, ?_, ?_⟩⟩
    · simp [ArithmeticOp.apply, hw]
    · simp [ArithmeticOp.apply, hv]
    all_goals omega
  · have hb : (least : Int) + 2 ≠ 0 := by omega
    have hv : (2 * ((least : Int) + 1)).tmod (least + 2) = least := by
      rw [show 2 * ((least : Int) + 1) = least + (least + 2) * 1 by omega,
        Int.tmod_eq_emod_of_nonneg (by omega), Int.add_mul_emod_self_left]
      exact Int.emod_eq_of_lt (by omega) (by omega)
    refine ⟨least + 1, least + 2, least + 1, least, ?_, ?_, ⟨?_, ?_, ?_⟩⟩
    · exact apply_mod_of_lt (by omega)
    · rw [ArithmeticOp.apply, if_neg hb, hv]
    all_goals omega

/-- A product that divides can be told apart from the same product with a doubled first factor. -/
theorem exists_apart_of_divides {t : Arithmetic α} (h : t.divides = true) (least : Nat) :
    ∃ u : Arithmetic Int, u.shape = t.shape ∧ ∃ w v : Int,
      u.total = some w ∧ u.totalAfter 2 = some v ∧ Apart least (2 * w) v := by
  have hdivision : ∀ {op : ArithmeticOp} (l r : Arithmetic α), op = .div ∨ op = .mod →
      ∃ u : Arithmetic Int, u.shape = (binary op l r).shape ∧ ∃ w v : Int,
        u.total = some w ∧ u.totalAfter 2 = some v ∧ Apart least (2 * w) v := by
    intro op l r hop
    obtain ⟨a, b, w, v, hw, hv, hapart⟩ := exists_apart_apply hop least
    obtain ⟨ul, hl⟩ := exists_chosen l a 1
    obtain ⟨ur, hr⟩ := exists_chosen r b 0
    have hrep : repeats op ur = false := by
      rcases hop with rfl | rfl <;> exact repeats_eq_false (by decide) (by decide) ur
    have hlevel : op.level = .multiplicative := by rcases hop with rfl | rfl <;> rfl
    refine ⟨binary op ul ur, shape_binary hl.shape hr.shape, w, v, ?_, ?_, hapart⟩
    · rw [total_binary op hl.total hr.total, hw]
    · rw [totalAfter_binary hlevel hrep (hl.after 2 (by decide)) hr.regrouped, hv]
  induction t with
  | leaf a => simp [divides] at h
  | sign s t ih => simp [divides] at h
  | binary op l r ihl ihr =>
    cases op with
    | add => simp [divides] at h
    | sub => simp [divides] at h
    | div => exact hdivision l r (.inl rfl)
    | mod => exact hdivision l r (.inr rfl)
    | mul =>
      simp only [divides, Bool.or_eq_true, Bool.and_eq_true] at h
      rcases h with hl | ⟨hrep, hr⟩
      · obtain ⟨ul, hshape, w, v, hw, hv, hapart⟩ := ihl hl
        obtain ⟨ur, hr⟩ := exists_chosen r 1 v.natAbs
        refine ⟨binary .mul ul ur, shape_binary hshape hr.shape, w, v, ?_, ?_, hapart⟩
        · rw [total_binary .mul hw hr.total, ArithmeticOp.apply, Int.mul_one]
        · rw [hr.totalAfter_binary rfl hv (by omega), ArithmeticOp.apply, Int.mul_one]
      · obtain ⟨ur, hshape, w, v, hw, hv, hapart⟩ := ihr hr
        obtain ⟨ul, hl⟩ := exists_chosen l 1 1
        have hrep' : repeats .mul ur = true := (repeats_of_shape hshape .mul).trans hrep
        refine ⟨binary .mul ul ur, shape_binary hl.shape hshape, w, v, ?_, ?_, hapart⟩
        · rw [total_binary .mul hl.total hw, ArithmeticOp.apply, Int.one_mul]
        · rw [totalAfter_mul hrep' (hl.after 2 (by decide)), Int.mul_one, hv]

/-- Every operator has a left operand that keeps two large right operands apart. -/
theorem exists_apart_apply_right (op : ArithmeticOp) {least : Nat} {w v : Int}
    (h : Apart (least + 1) w v) : ∃ a w' v' : Int, op.apply a w = some w' ∧
      op.apply a v = some v' ∧ Apart least w' v' ∧ (op = .mul → a = 1) := by
  obtain ⟨hwl, hvl, hne⟩ := h
  have hw : w ≠ 0 := by
    rintro rfl
    simp at hwl
  have hv : v ≠ 0 := by
    rintro rfl
    simp at hvl
  cases op with
  | add => exact ⟨0, 0 + w, 0 + v, rfl, rfl, ⟨by omega, by omega, by omega⟩, by simp⟩
  | sub => exact ⟨0, 0 - w, 0 - v, rfl, rfl, ⟨by omega, by omega, by omega⟩, by simp⟩
  | mul => exact ⟨1, 1 * w, 1 * v, rfl, rfl, ⟨by omega, by omega, by omega⟩, fun _ => rfl⟩
  | div =>
    refine ⟨w * v, v, w, ?_, ?_, ⟨by omega, by omega, hne.symm⟩, by simp⟩
    · rw [ArithmeticOp.apply, if_neg hw, Int.mul_tdiv_cancel_left _ hw]
    · rw [ArithmeticOp.apply, if_neg hv, Int.mul_tdiv_cancel _ hv]
  | mod =>
    -- one less than a common multiple leaves one less than each of the two
    have hrest : ∀ m n : Nat, 0 < m → 0 < n → (m * n - 1) % m = m - 1 := by
      intro m n hm hn
      obtain ⟨k, rfl⟩ : ∃ k, n = k + 1 := ⟨n - 1, by omega⟩
      rw [show m * (k + 1) - 1 = m - 1 + m * k by rw [Nat.mul_add]; omega,
        Nat.add_mul_mod_self_left]
      exact Nat.mod_eq_of_lt (by omega)
    let a : Int := (w.natAbs * v.natAbs - 1 : Nat)
    have hmodw : (a.tmod w).natAbs = w.natAbs - 1 := by
      rw [Int.natAbs_tmod, Int.natAbs_natCast, hrest _ _ (by omega) (by omega)]
    have hmodv : (a.tmod v).natAbs = v.natAbs - 1 := by
      rw [Int.natAbs_tmod, Int.natAbs_natCast, Nat.mul_comm, hrest _ _ (by omega) (by omega)]
    refine ⟨a, a.tmod w, a.tmod v, ?_, ?_, ⟨by omega, by omega, by omega⟩, by simp⟩
    · rw [ArithmeticOp.apply, if_neg hw]
    · rw [ArithmeticOp.apply, if_neg hv]

/-- A term that is misgrouped can be told apart from its regrouping. -/
theorem exists_apart_of_misgroups {t : Arithmetic α} (h : t.misgroups = true) (least : Nat) :
    ∃ u : Arithmetic Int, u.shape = t.shape ∧ ∃ w v : Int,
      u.total = some w ∧ u.regrouped.total = some v ∧ Apart least w v := by
  induction t generalizing least with
  | leaf a => simp [misgroups] at h
  | sign s t ih =>
    obtain ⟨u, hshape, w, v, hw, hv, hapart⟩ := ih h least
    rw [total] at hw hv
    refine ⟨sign s u, congrArg (sign s) hshape, s.apply w, s.apply v, ?_, ?_, ?_⟩
    · rw [total, value, hw, Option.map_some]
    · rw [regrouped, total, value, hv, Option.map_some]
    · exact ⟨by simpa using hapart.left, by simpa using hapart.right, by simpa using hapart.ne⟩
  | binary op l r ihl ihr =>
    simp only [misgroups, Bool.or_eq_true, Bool.and_eq_true, beq_iff_eq] at h
    rcases h with (hl | hr) | ⟨⟨rfl, hrep⟩, hr⟩
    · obtain ⟨ul, hshape, w, v, hw, hv, hapart⟩ := ihl hl least
      obtain ⟨b, hb⟩ := exists_neutral op (w.natAbs + v.natAbs)
      obtain ⟨ur, hr⟩ := exists_chosen r b v.natAbs
      refine ⟨binary op ul ur, shape_binary hshape hr.shape, w, v, ?_, ?_, hapart⟩
      · rw [total_binary op hw hr.total, hb w (by omega)]
      · rw [hr.total_regrouped_binary hv (by omega), hb v (by omega)]
    · obtain ⟨ur, hshape, w, v, hw, hv, hapart⟩ := ihr hr (least + 1)
      obtain ⟨a, w', v', hw', hv', hapart', ha⟩ := exists_apart_apply_right op hapart
      obtain ⟨ul, hl⟩ := exists_chosen l a 0
      refine ⟨binary op ul ur, shape_binary hl.shape hshape, w', v', ?_, ?_, hapart'⟩
      · rw [total_binary op hl.total hw, hw']
      · rw [total_regrouped_of hl.regrouped hv ha, hv']
    · obtain ⟨ur, hshape, w, v, hw, hv, hapart⟩ := exists_apart_of_divides hr least
      obtain ⟨ul, hl⟩ := exists_chosen l 2 0
      have hrep' : repeats .mul ur = true := (repeats_of_shape hshape .mul).trans hrep
      refine ⟨binary .mul ul ur, shape_binary hl.shape hshape, 2 * w, v, ?_, ?_, hapart⟩
      · rw [total_binary .mul hl.total hw, ArithmeticOp.apply]
      · rw [total_regrouped_mul hrep' hl.regrouped, hv]

/-- Where a product that divides is joined to a factor, some assignment tells the term apart from
its regrouping, as long as the leaves are all different. -/
theorem exists_value_regrouped_ne {t : Arithmetic α} (h : t.misgroups = true)
    (hn : t.leaves.Nodup) : ∃ σ : α → Int, t.regrouped.value σ ≠ t.value σ := by
  obtain ⟨u, hshape, w, v, hw, hv, hapart⟩ := exists_apart_of_misgroups h 0
  obtain ⟨σ, rfl⟩ := exists_eq_map hn hshape
  refine ⟨σ, fun heq => hapart.ne ?_⟩
  rw [total, value_map] at hw
  rw [total, ← map_regrouped, value_map] at hv
  obtain rfl : v = w := Option.some.inj (hv.symm.trans (heq.trans hw))
  rfl

-- twice what is left of a half is not half of two
example : (binary .mul (leaf 2) (binary .mul (binary .div (leaf 1) (leaf 2)) (leaf 1))).value id
      = some 0 ∧
    (binary .mul (leaf 2) (binary .mul (binary .div (leaf 1) (leaf 2)) (leaf 1))).regrouped.value id
      = some 1 := by decide

end SqlCompose.Arithmetic
