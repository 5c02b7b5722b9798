import SqlCompose.Proofs.Expr.Formula
import SqlCompose.Proofs.Expr.Reading
import SqlCompose.Proofs.Expr.Regrouping

/-!
# Calculations

Where an operator that counts as associative is repeated on its right side, its operand stands
without parentheses. What is rendered from a calculation reads as its regrouping. So it has the
value of the expression unless a product that divides is multiplied from the left.
-/
namespace SqlCompose

/-- An operand of a calculation: a column with the name that qualifies it, or a number. -/
inductive Leaf
  | column (qualifier name : String)
  | number (n : Int)

namespace Leaf

/-- The pieces of an operand. A number is one operand also where it is negative, since a sign binds
most strongly. -/
def pieces (d : Dialect) : Leaf → List Piece
  | column qualifier name =>
    [.word (quoteName d.identifierQuote qualifier), .token (.text "."),
      .word (quoteName d.identifierQuote name)]
  | number n => [.value (.int n)]

/-- The value of an operand where columns have values by the names that are written for them. -/
def value (d : Dialect) (columns : String → String → Int) : Leaf → Int
  | column qualifier name =>
    columns (quoteName d.identifierQuote qualifier) (quoteName d.identifierQuote name)
  | number n => n

/-- Whether an operand is a column. -/
def IsColumn (x : Leaf) : Prop := ∃ qualifier name, x = column qualifier name

end Leaf

/-- The value of the pieces of an operand. -/
def Piece.operandValue (columns : String → String → Int) : List Piece → Int
  | [.word qualifier, .token (.text "."), .word name] => columns qualifier name
  | [.value (.int n)] => n
  | _ => 0

theorem Leaf.operandValue_comp (d : Dialect) (columns : String → String → Int) :
    Piece.operandValue columns ∘ Leaf.pieces d = Leaf.value d columns := by
  funext x
  cases x <;> rfl

/-- Any values of operands that are all columns are values of these columns. -/
theorem Leaf.exists_columns (d : Dialect) (σ : List Piece → Int) :
    ∃ columns, ∀ x : Leaf, x.IsColumn → σ (x.pieces d) = x.value d columns := by
  refine ⟨fun qualifier name => σ [.word qualifier, .token (.text "."), .word name], ?_⟩
  rintro x ⟨qualifier, name, rfl⟩
  rfl

/-- A product that divides and is multiplied from the left changes its value for some values of its
operands if they are different columns. -/
theorem Arithmetic.exists_columns_ne {d : Dialect} {t : Arithmetic Leaf} (h : t.misgroups = true)
    (hc : ∀ x ∈ t.leaves, x.IsColumn) (hn : (t.leaves.map (Leaf.pieces d)).Nodup) :
    ∃ columns, t.regrouped.value (Leaf.value d columns) ≠ t.value (Leaf.value d columns) := by
  rw [← leaves_map] at hn
  obtain ⟨σ, hne⟩ := exists_value_regrouped_ne ((misgroups_map _ t).trans h) hn
  obtain ⟨columns, hcolumns⟩ := Leaf.exists_columns d σ
  have hagree : ∀ x ∈ t.leaves, (σ ∘ Leaf.pieces d) x = Leaf.value d columns x :=
    fun x hx => hcolumns x (hc x hx)
  refine ⟨columns, ?_⟩
  rwa [← map_regrouped, value_map, value_map, value_congr hagree, value_regrouped_congr hagree]
    at hne

/-- The calculation that an expression is, without its aliases. -/
inductive Expr.Computes (cat : Catalog) : Expr → Arithmetic Leaf → Prop
  | column (a : Value) (id : ColumnId) :
    Computes cat (.column a id) (.leaf (.column (cat.qualifier id) (cat.column id).name))
  | literal (a : Value) (n : Int) (k : Option DataKind) :
    Computes cat (.literal a (.int n) k) (.leaf (.number n))
  | sign (a : Value) (s : Sign) {x : Expr} {t : Arithmetic Leaf} (h : Computes cat x t) :
    Computes cat (.apply a (.unary false) s.symbol [x]) (.sign s t)
  | binary (a : Value) (op : ArithmeticOp) {x y : Expr} {t u : Arithmetic Leaf}
    (hx : Computes cat x t) (hy : Computes cat y u) :
    Computes cat (.apply a .binary op.symbol [x, y]) (.binary op t u)

namespace Arithmetic

/-! ## Rows of a level -/

/-- Whether pieces read as one operand for the operators of every level below a given one. -/
structure Stands (level : Level) (ps : List Piece) (row : Row) (t : Arithmetic (List Piece)) :
    Prop where
  scanned : ScannedAs readSum ps row
  ends : endsOperand false row = true
  below : ∀ op : ArithmeticOp, op.level.rank < level.rank → Whole op.level row t

/-- Whether pieces also read as a term by the operators of the level itself. -/
structure ReadsAs (level : Level) (ps : List Piece) (row : Row) (t : Arithmetic (List Piece)) : Prop
    extends Stands level ps row t where
  joins : ∀ op : ArithmeticOp, op.level = level → Joins op.level row t

section Rows

variable {level : Level} {ps qs : List Piece} {row other : Row} {t u : Arithmetic (List Piece)}

theorem ReadsAs.reads (h : ReadsAs level ps row t) (hl : Level.additive.rank ≤ level.rank) :
    readSum row = some t := by
  rcases Nat.lt_or_eq_of_le hl with hlt | heq
  · exact (h.below .add hlt).readChain_eq
  · exact (h.joins .add (Level.rank_injective heq)).reads

theorem Stands.mono (h : Stands level ps row t) {weaker : Level}
    (hle : weaker.rank ≤ level.rank) : Stands weaker ps row t :=
  ⟨h.scanned, h.ends, fun op hop => h.below op (Nat.lt_of_lt_of_le hop hle)⟩

/-- A row of a level is one of a weaker level if its term is not an operator of that level. -/
theorem ReadsAs.mono (h : ReadsAs level ps row t) {op : ArithmeticOp}
    (hle : op.level.rank ≤ level.rank) (hne : level ≠ op.level → t.level ≠ op.level) :
    ReadsAs op.level ps row t := by
  refine ⟨h.toStands.mono hle, fun op' hop => ?_⟩
  by_cases heq : level = op.level
  · exact h.joins op' (hop.trans heq.symm)
  · have hlt : op'.level.rank < level.rank := by
      rw [hop]
      exact Nat.lt_of_le_of_ne hle fun h => heq (Level.rank_injective h.symm)
    exact (h.below op' hlt).joins (hop ▸ hne heq)

/-- A row without infix operators. -/
theorem Whole.ofFactor (hs : ∀ op : ArithmeticOp, split op.level false row = (row, []))
    (hr : readFactor row = some t) (op : ArithmeticOp) : Whole op.level row t := by
  refine ⟨hs op, ?_⟩
  have hproduct : readProduct row = some t := by
    rw [readProduct, readChain, show Level.multiplicative = ArithmeticOp.mul.level from rfl, hs]
    exact hr
  cases op with
  | add | sub => exact hproduct
  | mul | div | mod => exact hr

theorem split_of_bare (h : Item.operators row = []) (behind : Bool) :
    split level behind row = (row, []) := by
  induction row generalizing behind with
  | nil => rfl
  | cons item row ih =>
    have hitem : item.operator? = none := by
      cases hi : item.operator? with
      | none => rfl
      | some s => simp [Item.operators, hi] at h
    have hrow : Item.operators row = [] := by simpa [Item.operators, hitem] using h
    have hnone : infixAt level behind item = none := by simp [infixAt, hitem]
    simp [split, hnone, ih hrow]

theorem endsOperand_of_bare (h : Item.operators row = []) (hn : row ≠ []) :
    endsOperand false row = true := by
  have hends : ∀ row : Row, Item.operators row = [] → endsOperand true row = true := by
    intro row h
    induction row with
    | nil => rfl
    | cons item row ih =>
      cases hi : item.operator? with
      | none => simpa [endsOperand, hi] using ih (by simpa [Item.operators, hi] using h)
      | some s => simp [Item.operators, hi] at h
  cases row with
  | nil => exact absurd rfl hn
  | cons item row =>
    cases hi : item.operator? with
    | none => simpa [endsOperand, hi] using hends row (by simpa [Item.operators, hi] using h)
    | some s => simp [Item.operators, hi] at h

/-- A row without operators reads as a factor for all operators. -/
theorem ReadsAs.ofBare (hs : ScannedAs readSum ps row) (ho : Item.operators row = [])
    (hn : row ≠ []) (hr : readFactor row = some t) : ReadsAs .atom ps row t :=
  ⟨⟨hs, endsOperand_of_bare ho hn, fun op _ => .ofFactor (fun _ => split_of_bare ho false) hr op⟩,
    fun op hop => absurd hop op.level_ne_atom⟩

theorem ReadsAs.group (h : ScannedAs readSum ps row) (hr : readSum row = some t) :
    ReadsAs .atom (.token .opening :: ps ++ [.token .closing]) [.group ps (readSum row)] t :=
  .ofBare h.group rfl (by simp) hr

/-- A sign before an operand that binds as strongly. -/
theorem Stands.sign (h : Stands .unary ps row t) (s : Sign) :
    ReadsAs .unary (.token (.operator .before s.symbol) :: ps)
      (.leaf (.token (.operator .before s.symbol)) :: row) (.sign s t) := by
  have hlevel : ∀ op : ArithmeticOp, op.level.rank < Level.unary.rank := by
    intro op
    cases op <;> decide
  have hfactor : readFactor row = some t := (h.below .mul (by decide)).reads
  refine ⟨⟨.cons_token rfl h.scanned, h.ends, fun op _ => .ofFactor (fun op' => ?_) ?_ op⟩,
    fun op hop => absurd hop op.level_ne_unary⟩
  · have hrow := (h.below op' (hlevel op')).split_eq
    simp [split, infixAt, Item.operator?, hrow]
  · simp [readFactor, Item.operator?, hfactor]

/-- An infix operator between two operands, the right of which may be joined to what stands before
it. -/
theorem ReadsAs.between (op : ArithmeticOp) (hl : ReadsAs op.level ps row t)
    (hr : Stands op.level qs other u) {w : Arithmetic (List Piece)}
    (hj : Joins op.level (row ++ .leaf (.token (.operator .between op.symbol)) :: other) w) :
    ReadsAs op.level (ps ++ .token (.operator .between op.symbol) :: qs)
      (row ++ .leaf (.token (.operator .between op.symbol)) :: other) w := by
  refine ⟨⟨hl.scanned.append (.cons_token rfl hr.scanned), ?_, fun op' hlt => ⟨?_, ?_⟩⟩, ?_⟩
  · rw [endsOperand_append]
    exact hr.ends
  · have hne : op.level ≠ op'.level := by
      intro heq
      rw [heq] at hlt
      exact Nat.lt_irrefl _ hlt
    rw [split_append (hl.below op' hlt).split_eq, hl.ends, split, infixAt_operator, if_neg hne]
    simp [Item.operator?, (hr.below op' hlt).split_eq]
  · -- only products stand above another level, and there the row is read by its own operators
    have hlevels : op'.level = .additive ∧ op.level = .multiplicative := by
      cases op <;> cases op' <;> first | exact ⟨rfl, rfl⟩ | exact absurd hlt (by decide)
    have hreads := hj.reads
    rw [hlevels.2] at hreads
    rw [hlevels.1]
    exact hreads
  · intro op' hop
    rw [hop]
    exact hj

end Rows

end Arithmetic

/-! ## Calculations -/

section Calculations

variable {cat : Catalog} {d : Dialect} {x y : Expr} {t u : Arithmetic Leaf} {ps : List Piece}

namespace ArithmeticOp

theorem binaryLevel_symbol (op : ArithmeticOp) : binaryLevel op.symbol = op.level := by
  cases op <;> rfl

theorem additive_le (op : ArithmeticOp) : Level.additive.rank ≤ op.level.rank := by
  cases op <;> decide

end ArithmeticOp

theorem Expr.Computes.level_eq (h : x.Computes cat t) : x.level = t.level := by
  cases h with
  | binary a op hx hy => exact op.binaryLevel_symbol
  | _ => rfl

/-- Under an operator of its own level, a right operand stands without parentheses only if it
repeats an operator that counts as associative. -/
theorem Expr.Computes.needsParentheses_eq (h : x.Computes cat t) {op : ArithmeticOp}
    (hl : t.level = op.level) :
    needsParentheses x.level x.symbol op.level op.symbol .right = !t.repeats op := by
  cases h with
  | column a id => exact absurd hl.symm op.level_ne_atom
  | literal a n k => exact absurd hl.symm op.level_ne_atom
  | sign a s h => exact absurd hl.symm op.level_ne_unary
  | binary a op' hx hy =>
    have hop : op'.level = op.level := hl
    cases op <;> cases op' <;> first | rfl | cases hop

/-- Whether a calculation is read back as its regrouping. -/
def Expr.IsCalculated (cat : Catalog) (d : Dialect) (x : Expr) (t : Arithmetic Leaf) : Prop :=
  ∀ ps, (x.reference cat d.engine).pieces cat d = .ok ps →
    ∃ row, Arithmetic.ReadsAs t.level ps row (t.regrouped.map (Leaf.pieces d))

theorem Expr.Computes.additive_le (hx : x.Computes cat t) :
    Level.additive.rank ≤ t.level.rank := by
  cases hx with
  | binary a op hx hy => exact op.additive_le
  | _ => simp [Arithmetic.level, Level.rank]

namespace Expr.IsCalculated

variable (h : x.IsCalculated cat d t) (hx : x.Computes cat t)
include h hx

/-- The pieces of an operand are read as its regrouping: as a factor if they are in parentheses, and
otherwise by the operators of its level. -/
theorem under {parent : Level} {symbol : String} {side : Side}
    (hp : ((x.operand cat d.engine).under parent symbol side).pieces cat d = .ok ps) :
    ∃ level row, Arithmetic.ReadsAs level ps row (t.regrouped.map (Leaf.pieces d)) ∧
      parent.rank ≤ level.rank ∧
        level = if needsParentheses x.level x.symbol parent symbol side then .atom else t.level := by
  unfold Operand.under at hp
  split at hp
  · rename_i hn
    obtain ⟨own, hown, rfl⟩ := Draft.pieces_parenthesized_eq_ok.1 hp
    obtain ⟨row, hread⟩ := h own hown
    refine ⟨.atom, _, .group hread.scanned (hread.reads hx.additive_le), ?_, (if_pos hn).symm⟩
    cases parent <;> decide
  · rename_i hn
    obtain ⟨row, hread⟩ := h ps hp
    refine ⟨t.level, row, hread, ?_, (if_neg hn).symm⟩
    rw [← hx.level_eq]
    exact Nat.not_lt.1 fun hlt => hn (needsParentheses_of_weaker _ _ _ hlt)

theorem left {op : ArithmeticOp}
    (hp : ((x.operand cat d.engine).under op.level op.symbol .left).pieces cat d = .ok ps) :
    ∃ row, Arithmetic.ReadsAs op.level ps row (t.regrouped.map (Leaf.pieces d)) := by
  obtain ⟨level, row, hread, hle, hlevel⟩ := h.under hx hp
  refine ⟨row, hread.mono hle fun hne heq => hne ?_⟩
  rw [Arithmetic.level_map, Arithmetic.level_regrouped] at heq
  have hnone : needsParentheses op.level x.symbol op.level op.symbol .left = false := by
    cases op <;> rfl
  rw [hlevel, hx.level_eq, heq, hnone, if_neg Bool.false_ne_true]

/-- A right operand is joined to what stands before it if it repeats the operator. -/
theorem right {op : ArithmeticOp}
    (hp : ((x.operand cat d.engine).under op.level op.symbol .right).pieces cat d = .ok ps) :
    ∃ row, Arithmetic.Stands op.level ps row (t.regrouped.map (Leaf.pieces d)) ∧
      if t.repeats op then Arithmetic.Joins op.level row (t.regrouped.map (Leaf.pieces d))
      else Arithmetic.Whole op.level row (t.regrouped.map (Leaf.pieces d)) := by
  obtain ⟨level, row, hread, hle, hlevel⟩ := h.under hx hp
  refine ⟨row, hread.toStands.mono hle, ?_⟩
  by_cases hrep : t.repeats op = true
  · obtain ⟨-, l, r, rfl⟩ := Arithmetic.eq_of_repeats hrep
    rw [hx.needsParentheses_eq rfl, hrep, Bool.not_true, if_neg Bool.false_ne_true] at hlevel
    rw [if_pos hrep]
    exact hread.joins op hlevel.symm
  · rw [if_neg hrep]
    refine hread.below op (Nat.lt_of_le_of_ne hle fun heq => ?_)
    have hop : op.level = level := Level.rank_injective heq
    split at hlevel
    · exact op.level_ne_atom (hop.trans hlevel)
    · rename_i hn
      rw [hx.needsParentheses_eq (hlevel.symm.trans hop.symm)] at hn
      simp [hrep] at hn

end Expr.IsCalculated

/-- What is rendered from a calculation reads as its regrouping. -/
theorem Expr.Computes.isCalculated (hd : d.WritesText) (hx : x.Computes cat t) :
    x.IsCalculated cat d t := by
  induction hx with
  | column a id =>
    intro ps hp
    have hcolumn : (columnDraft cat id).pieces cat d = .ok ps := by
      rwa [Expr.reference, Expr.drafted, Drafted.whole_of] at hp
    obtain rfl := pieces_columnDraft hd hcolumn
    exact ⟨_, .ofBare (.cons_word _ (.cons_token rfl (.word _))) rfl (by simp) rfl⟩
  | literal a n k =>
    intro ps hp
    have hps : [Piece.value (.int n)] = ps := by
      rw [Expr.reference, Expr.drafted, Drafted.whole_of, Draft.pieces] at hp
      exact Except.ok.inj hp
    subst hps
    exact ⟨_, .ofBare (.value _) rfl (by simp) rfl⟩
  | sign a s h ih =>
    intro ps hp
    rw [reference_apply] at hp
    obtain ⟨own, hown, rfl⟩ := Draft.pieces_before_operator_eq_ok.1 hp
    rw [Draft.pieces] at hown
    obtain ⟨level, row, hread, hle, -⟩ := ih.under h hown
    exact ⟨_, (hread.toStands.mono hle).sign s⟩
  | @binary a op x y t u hx hy ihx ihy =>
    intro ps hp
    rw [reference_apply] at hp
    have hparts : (infixDraft op.symbol (x.operand cat d.engine)
        (y.operand cat d.engine)).pieces cat d = .ok ps := by
      cases op <;> exact hp
    rw [infixDraft, op.binaryLevel_symbol] at hparts
    obtain ⟨ls, rs, hls, hrs, rfl⟩ := Draft.pieces_infixed_eq_ok.1 hparts
    obtain ⟨row, hl⟩ := ihx.left hx hls
    obtain ⟨other, hr, hjoined⟩ := ihy.right hy hrs
    have hjoins := hl.joins op rfl
    rw [Arithmetic.regrouped]
    split at hjoined
    · rename_i hrep
      rw [if_pos hrep, Arithmetic.map_graft]
      exact ⟨_, hl.between op hr (hjoins.infix_joins hl.ends hjoined)⟩
    · rename_i hrep
      rw [if_neg hrep]
      exact ⟨_, hl.between op hr (hjoins.infix_whole hl.ends hjoined)⟩

/-- The SQL of a calculation is read back as its regrouping, however its values are marked. This has
the value of the calculation, or none where that has none, if it never multiplies a product that
divides from the left; otherwise they differ for some values of the columns, provided that the
operands are different columns. -/
theorem calculation_read_back (hd : d.WritesText) (hx : x.Computes cat t)
    (hw : (Value.expr x).WellFormed) {style : PlaceholderStyle} {binding : Bool} {number : Nat}
    {bound rest : List Value} {sql : Value}
    (h : ((Value.expr x).built cat d.engine).outcome cat (.context (d.marking style binding) number)
      bound = (.ok sql, rest)) :
    ∃ (ps : List Piece) (marks : List String) (q : Arithmetic (List Piece)),
      (x.reference cat d.engine).pieces cat d = .ok ps ∧
      marks.length = (Piece.values ps).length ∧
      sql = .text ((Template.ofPieces (ps ++ x.aliasPieces d)).spelled marks) ∧
      Arithmetic.parse ps = some q ∧ q = t.regrouped.map (Leaf.pieces d) ∧
      (t.misgroups = false → ∀ columns,
        q.value (Piece.operandValue columns) = t.value (Leaf.value d columns)) ∧
      (t.misgroups = true → (∀ y ∈ t.leaves, y.IsColumn) → (t.leaves.map (Leaf.pieces d)).Nodup →
        ∃ columns, q.value (Piece.operandValue columns) ≠ t.value (Leaf.value d columns)) := by
  obtain ⟨ps, marks, hps, hlength, hsql⟩ := Expr.exists_pieces_of_outcome hd hw h
  obtain ⟨row, hread⟩ := hx.isCalculated hd ps hps
  have hvalue : ∀ columns, (t.regrouped.map (Leaf.pieces d)).value (Piece.operandValue columns)
      = t.regrouped.value (Leaf.value d columns) := by
    intro columns
    rw [Arithmetic.value_map, Leaf.operandValue_comp]
  refine ⟨ps, marks, _, hps, hlength, hsql, ?_, rfl, fun hm columns => ?_, fun hm hc hn => ?_⟩
  · rw [Arithmetic.parse, hread.scanned.readPieces_eq, hread.reads hx.additive_le]
  · rw [hvalue, Arithmetic.value_regrouped hm]
  · obtain ⟨columns, hne⟩ := Arithmetic.exists_columns_ne hm hc hn
    exact ⟨columns, by rwa [hvalue]⟩

/-- A table of four columns. -/
def Catalog.ofColumns (a b c d : String) : Catalog :=
  let column := fun (name : String) => ({ name, owner := some ⟨0⟩ } : Column)
  { columns := #[column a, column b, column c, column d], tables := #[{ name := "t" }] }

/-- The first column of a table times the product of a quotient of the next two with the last. -/
def Expr.ofQuotient : Expr :=
  let column := fun (i : Nat) => Expr.column .none ⟨i⟩
  .apply .none .binary "*"
    [column 0, .apply .none .binary "*"
      [.apply .none .binary "/" [column 1, column 2], column 3]]

/-- What the columns of a table are multiplied and divided to. -/
def Arithmetic.ofQuotient (a b c d : String) : Arithmetic Leaf :=
  let column := fun (name : String) => Arithmetic.leaf (.column "t" name)
  .binary .mul (column a) (.binary .mul (.binary .div (column b) (column c)) (column d))

theorem calculation_read_back_quotient : (default : Dialect).WritesText ∧
    Expr.ofQuotient.Computes (.ofColumns "a" "b" "c" "d") (.ofQuotient "a" "b" "c" "d") ∧
    (Value.expr .ofQuotient).WellFormed ∧
    ∃ (ps : List Piece) (marks : List String) (q : Arithmetic (List Piece)),
      Value.text "t.a * t.b / t.c * t.d" = .text ((Template.ofPieces ps).spelled marks) ∧
      Arithmetic.parse ps = some q ∧
      ∃ columns, q.value (Piece.operandValue columns)
        ≠ (Arithmetic.ofQuotient "a" "b" "c" "d").value (Leaf.value default columns) := by
  have hd : (default : Dialect).WritesText := ⟨rfl, rfl⟩
  have hcolumn : ∀ id, Expr.Computes (.ofColumns "a" "b" "c" "d") (.column .none id) _ :=
    fun id => .column .none id
  have hx : Expr.ofQuotient.Computes (.ofColumns "a" "b" "c" "d") (.ofQuotient "a" "b" "c" "d") :=
    .binary _ .mul (hcolumn _)
      (.binary _ .mul (.binary _ .div (hcolumn _) (hcolumn _)) (hcolumn _))
  have hw : (Value.expr .ofQuotient).WellFormed := by
    simp [Expr.ofQuotient]
  refine ⟨hd, hx, hw, ?_⟩
  have h : ((Value.expr .ofQuotient).built (.ofColumns "a" "b" "c" "d")
      (default : Dialect).engine).outcome (.ofColumns "a" "b" "c" "d")
        (.context ((default : Dialect).marking .qmark true) 0) []
      = (.ok (.text "t.a * t.b / t.c * t.d"), []) := rfl
  obtain ⟨ps, marks, q, -, -, hsql, hparse, -, -, hdiffer⟩ := calculation_read_back hd hx hw h
  rw [show Expr.ofQuotient.aliasPieces default = [] from rfl, List.append_nil] at hsql
  refine ⟨ps, marks, q, hsql, hparse, hdiffer rfl ?_ ?_⟩
  · simp [Arithmetic.ofQuotient, Arithmetic.leaves, Leaf.IsColumn]
  · have hnames : (["a", "b", "c", "d"].map
        (quoteName (default : Dialect).identifierQuote)).Nodup := by decide
    simpa [Arithmetic.ofQuotient, Arithmetic.leaves, Leaf.pieces] using hnames

end Calculations

end SqlCompose
