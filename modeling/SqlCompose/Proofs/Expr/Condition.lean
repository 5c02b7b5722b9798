import SqlCompose.Proofs.Expr.Predicate
import SqlCompose.Proofs.Render.Select

/-!
# Conditions

Parentheses are left out where binding strength makes up for them. What is rendered from a condition
still has its structure: reading the tokens by the grammar of conditions gives the condition back,
with each operand of a comparison as it is rendered on its own.
-/
namespace SqlCompose

/-- The symbol of a connective. -/
def Connective.symbol : Connective → String
  | and => "AND"
  | or => "OR"

/-- The level of a connective. -/
def Connective.level : Connective → Level
  | and => .and
  | or => .or

/-- The connective of a symbol. -/
def Connective.ofSymbol (symbol : String) : Connective := if symbol = "AND" then .and else .or

namespace LikeForm

/-- An operand of a LIKE test in lower case, when letter case is ignored. -/
def foldedExpr (form : LikeForm) (x : Expr) : Expr :=
  if form.caseInsensitive then .apply .none .function "LOWER" [x] else x

/-- The wildcard that stands for any text, as an expression. -/
def wildcardExpr : Expr := .literal .none (.text "%") none

/-- The pattern of a LIKE test as an expression. -/
def patternExpr (form : LikeForm) (needle : Expr) : Expr :=
  match needle.text? with
  | some s => .literal .none (.text (form.pattern s)) none
  | none =>
    let folded := form.foldedExpr needle
    let opened := if form.fuzzyStart then .apply .none .binary "||" [wildcardExpr, folded] else folded
    if form.fuzzyEnd then .apply .none .binary "||" [opened, wildcardExpr] else opened

/-- The escape character of a LIKE test as a dialect writes it. -/
def escapePieces (form : LikeForm) (d : Dialect) (needle : Expr) : Option (List Piece) :=
  match form.explicitEscape with
  | some mark => some [.word (d.packText mark)]
  | none =>
    if needle.text?.isSome && form.escapeNeedle then
      d.engine.likeEscape?.map fun s => [.token (.text s)]
    else none

end LikeForm

/-- Conditions with one connective between them. -/
def Predicate.chained {α : Type} (c : Connective) : Predicate α → List (Predicate α) → Predicate α
  | p, [] => p
  | p, q :: qs => joined c p (chained c q qs)

mutual

/-- The structure of an expression as a condition, without its explicit groups and its aliases. -/
def Expr.predicate (d : Dialect) : Expr → Predicate Expr
  | .group _ x => x.predicate d
  | .apply a op symbol arguments =>
    match op, arguments with
    | .boolean, first :: others =>
      .chained (.ofSymbol symbol) (first.predicate d) (Expr.predicates d others)
    | .not, [x] => .not (x.predicate d)
    | .binary, [x, y] =>
      if symbol ∈ comparisonSymbols then .compare symbol x y
      else .scalar (.apply a .binary symbol [x, y])
    | .unary true, [x] => .null (symbol = "IS NOT NULL") x
    | .unary false, [x] =>
      if symbol = "EXISTS" then .existence x else .scalar (.apply a (.unary false) symbol [x])
    | .between negated, [x, low, high] => .between negated x low high
    | .like form, [x, y] =>
      .like form.negated (form.foldedExpr x) (form.patternExpr y) (form.escapePieces d y)
    | op, arguments => .scalar (.apply a op symbol arguments)
  | x => .scalar x

/-- The structures of several expressions. -/
def Expr.predicates (d : Dialect) : List Expr → List (Predicate Expr)
  | [] => []
  | x :: xs => x.predicate d :: Expr.predicates d xs

end

namespace Expr

variable (d : Dialect) (a : Value) {symbol : String} (x y : Expr)

theorem predicate_boolean (symbol : String) (others : List Expr) :
    (apply a .boolean symbol (x :: others)).predicate d
      = .chained (.ofSymbol symbol) (x.predicate d) (Expr.predicates d others) := rfl

theorem predicate_not (symbol : String) :
    (apply a .not symbol [x]).predicate d = .not (x.predicate d) := rfl

theorem predicate_compare (h : symbol ∈ comparisonSymbols) :
    (apply a .binary symbol [x, y]).predicate d = .compare symbol x y := if_pos h

theorem predicate_infixed (h : symbol ∉ comparisonSymbols) :
    (apply a .binary symbol [x, y]).predicate d = .scalar (apply a .binary symbol [x, y]) :=
  if_neg h

theorem predicate_null (symbol : String) : (apply a (.unary true) symbol [x]).predicate d
    = .null (symbol = "IS NOT NULL") x := rfl

theorem predicate_existence :
    (apply a (.unary false) "EXISTS" [x]).predicate d = .existence x := if_pos rfl

theorem predicate_sign (h : symbol ≠ "EXISTS") :
    (apply a (.unary false) symbol [x]).predicate d = .scalar (apply a (.unary false) symbol [x]) :=
  if_neg h

theorem predicate_between (negated : Bool) (symbol : String) (low high : Expr) :
    (apply a (.between negated) symbol [x, low, high]).predicate d
      = .between negated x low high := rfl

theorem predicate_like (form : LikeForm) (symbol : String) :
    (apply a (.like form) symbol [x, y]).predicate d
      = .like form.negated (form.foldedExpr x) (form.patternExpr y) (form.escapePieces d y) := rfl

end Expr

/-- The symbols of operators that are no comparisons. -/
def scalarSymbols : List String := ["+", "-", "*", "/", "%", "||"]

/-- Expressions that have a structure as conditions: connectives, negations, comparisons and tests,
explicit groups, and scalars. A list of values stands only on the right of IN and NOT IN. -/
inductive Expr.IsCondition : Expr → Prop
  | literal (a v : Value) (k : Option DataKind) : IsCondition (.literal a v k)
  | column (a : Value) (id : ColumnId) : IsCondition (.column a id)
  | function (a : Value) (symbol : String) (arguments : List Expr) :
    IsCondition (.apply a .function symbol arguments)
  | aggregate (a : Value) (distinct : Bool) (symbol : String) (arguments : List Expr) :
    IsCondition (.apply a (.aggregate distinct) symbol arguments)
  | subquery (a : Value) (q : Select) : IsCondition (.subquery a (.select q))
  | group (a : Value) {x : Expr} (h : IsCondition x) : IsCondition (.group a x)
  | sign (a : Value) {symbol : String} (hs : symbol ∈ ["+", "-"]) {x : Expr} (h : IsCondition x) :
    IsCondition (.apply a (.unary false) symbol [x])
  | infixed (a : Value) {symbol : String} (hs : symbol ∈ scalarSymbols) {x y : Expr}
    (hx : IsCondition x) (hy : IsCondition y) : IsCondition (.apply a .binary symbol [x, y])
  | existence (a : Value) {x : Expr} (h : IsCondition x) :
    IsCondition (.apply a (.unary false) "EXISTS" [x])
  | null (a : Value) {symbol : String} (hs : symbol ∈ ["IS NULL", "IS NOT NULL"]) {x : Expr}
    (h : IsCondition x) : IsCondition (.apply a (.unary true) symbol [x])
  | compare (a : Value) {symbol : String} (hs : symbol ∈ comparisonSymbols) {x y : Expr}
    (hx : IsCondition x) (hy : IsCondition y) : IsCondition (.apply a .binary symbol [x, y])
  | member (a : Value) {symbol : String} (hs : symbol ∈ ["IN", "NOT IN"]) {x : Expr}
    (h : IsCondition x) (b : Value) (listSymbol : String) (items : List Expr) :
    IsCondition (.apply a .binary symbol [x, .apply b .list listSymbol items])
  | between (a : Value) (negated : Bool) (symbol : String) {x low high : Expr}
    (hx : IsCondition x) (hl : IsCondition low) (hh : IsCondition high) :
    IsCondition (.apply a (.between negated) symbol [x, low, high])
  | like (a : Value) (form : LikeForm) (symbol : String) {x y : Expr} (hx : IsCondition x)
    (hy : IsCondition y) : IsCondition (.apply a (.like form) symbol [x, y])
  | not (a : Value) (symbol : String) {x : Expr} (h : IsCondition x) :
    IsCondition (.apply a .not symbol [x])
  | boolean (a : Value) (c : Connective) {first : Expr} {others : List Expr}
    (hf : IsCondition first) (ho : ∀ x ∈ others, IsCondition x) :
    IsCondition (.apply a .boolean c.symbol (first :: others))

/-! ## Operands -/

section Operands

variable (cat : Catalog) (d : Dialect)

/-- An expression as an operand. -/
def Expr.operand (e : Engine) (x : Expr) : Operand :=
  { level := x.level, symbol := x.symbol, text := x.text?, draft := x.reference cat e }

theorem asOperand_drafted (e : Engine) (x : Expr) :
    (x.drafted cat e).asOperand = x.operand cat e := by
  simp only [Drafted.asOperand, Expr.value_drafted]
  rfl

theorem reference_apply (e : Engine) (a : Value) (op : Operator) (symbol : String)
    (arguments : List Expr) : (Expr.apply a op symbol arguments).reference cat e
      = op.draft e symbol (arguments.map (·.operand cat e)) := by
  rw [Expr.reference, Expr.drafted, draftExprs_eq_map, List.map_map]
  simp only [Drafted.whole_of]
  congr 1
  exact List.map_congr_left fun x _ => asOperand_drafted cat e x

theorem Operand.under_of_atom {o : Operand} (h : o.level = .atom) {parent : Level}
    (hp : parent ≠ .atom) (symbol : String) (side : Side) : o.under parent symbol side = o.draft := by
  rw [Operand.under, h, needsParentheses_atom _ _ _ _ hp, if_neg Bool.false_ne_true]

/-- Whether pieces are an expression as it is rendered on its own, possibly in parentheses. -/
def Expr.IsWrittenAs (x : Expr) (ps : List Piece) : Prop :=
  ∃ own, (x.reference cat d.engine).pieces cat d = .ok own ∧
    (ps = own ∨ ps = .token .opening :: own ++ [.token .closing])

/-- Pieces that are read back as a condition, with operands as they are rendered on their own. -/
structure Predicate.ReadsAs (p : Predicate Expr) (ps : List Piece) (level : Level)
    (row : Predicate.Row) (q : Predicate (List Piece)) : Prop where
  scanned : ScannedAs Predicate.readRow ps row
  fits : Predicate.Fits level row
  reads : Predicate.readRow row = some q
  alike : p.Alike (Expr.IsWrittenAs cat d) q
  opens : Predicate.startsStatement ps = false

/-- Whether whatever an expression is rendered as is read back. -/
def Expr.IsRead (x : Expr) : Prop :=
  ∀ ps, (x.reference cat d.engine).pieces cat d = .ok ps →
    ∃ row q, (x.predicate d).ReadsAs cat d ps x.level row q

/-- Pieces of an operand of a comparison. -/
structure Expr.StandsAs (x : Expr) (ps : List Piece) (row : Predicate.Row) : Prop where
  scanned : ScannedAs Predicate.readRow ps row
  fits : Predicate.Fits .concat row
  written : x.IsWrittenAs cat d ps
  opens : Predicate.startsStatement ps = false

variable {cat d}

theorem Expr.StandsAs.operand_eq {x : Expr} {ps : List Piece} {row : Predicate.Row}
    (h : x.StandsAs cat d ps row) : Predicate.operand row = some ps := by
  rw [h.fits.operand_eq, h.scanned.flatten_eq]

/-- Under an operator that is not repeated on its right side, an operand without parentheses binds
more strongly than the operator. -/
theorem rank_lt_of_not_needsParentheses {level parent : Level} {symbol parentSymbol : String}
    {side : Side} (h : ¬needsParentheses level symbol parent parentSymbol side = true)
    (hp : parent = .comparison ∨ (side = .right ∧ parentSymbol ∉ associativeSymbols)) :
    parent.rank < level.rank := by
  have hle : parent.rank ≤ level.rank :=
    Nat.not_lt.1 fun hlt => h (needsParentheses_of_weaker _ _ _ hlt)
  refine Nat.lt_of_le_of_ne hle fun heq => h ?_
  obtain rfl := Level.rank_injective heq
  rcases hp with rfl | ⟨rfl, hs⟩
  · simp [needsParentheses]
  · by_cases hc : parent = .comparison
    · simp [needsParentheses, hc]
    · simp [needsParentheses, hc, hs]

namespace Expr.IsRead

variable {x : Expr} (h : x.IsRead cat d) {parent : Level} {symbol : String} {side : Side}
  {ps : List Piece}
include h

/-- The pieces of an operand are those of the expression, possibly in parentheses. -/
theorem under (hp : ((x.operand cat d.engine).under parent symbol side).pieces cat d = .ok ps) :
    ∃ row q, (x.predicate d).ReadsAs cat d ps parent row q ∧ x.IsWrittenAs cat d ps ∧
      (parent = .comparison ∨ (side = .right ∧ symbol ∉ associativeSymbols) →
        ∀ level : Level, level.rank ≤ parent.rank + 1 → Predicate.Fits level row) := by
  unfold Operand.under at hp
  split at hp
  · obtain ⟨own, hown, rfl⟩ := Draft.pieces_parenthesized_eq_ok.1 hp
    obtain ⟨row, q, hread⟩ := h own hown
    have hgroup : ∀ level, Predicate.Fits level [.group own (Predicate.readRow row)] :=
      fun level => .group own _
    refine ⟨_, q, ⟨hread.scanned.group, hgroup parent, ?_, hread.alike, rfl⟩,
      ⟨own, hown, .inr rfl⟩, fun _ level _ => hgroup level⟩
    rw [(hgroup .concat).readRow_of_scalar, Predicate.readScalar, hread.opens]
    exact hread.reads
  · rename_i hn
    obtain ⟨row, q, hread⟩ := h ps hp
    have hle : parent.rank ≤ x.level.rank :=
      Nat.not_lt.1 fun hlt => hn (needsParentheses_of_weaker _ _ _ hlt)
    refine ⟨row, q, ⟨hread.scanned, hread.fits.mono hle, hread.reads, hread.alike, hread.opens⟩,
      ⟨ps, hp, .inl rfl⟩, fun hstrong level hlevel => hread.fits.mono ?_⟩
    have hlt : parent.rank < x.level.rank := rank_lt_of_not_needsParentheses hn hstrong
    omega

/-- An operand of a comparison. -/
theorem stands
    (hp : ((x.operand cat d.engine).under .comparison symbol side).pieces cat d = .ok ps) :
    ∃ row, x.StandsAs cat d ps row := by
  obtain ⟨row, q, hread, hwritten, hfits⟩ := h.under hp
  exact ⟨row, hread.scanned, hfits (.inl rfl) .concat (by decide), hwritten, hread.opens⟩

end Expr.IsRead

/-! ## Scalars -/

theorem Predicate.startsStatement_append {ps qs : List Piece} (h : ps ≠ []) :
    startsStatement (ps ++ qs) = startsStatement ps := by
  cases ps with
  | nil => exact absurd rfl h
  | cons p ps =>
    cases p with
    | token t => cases t <;> rfl
    | word s => rfl
    | value v => rfl

theorem ScannedAs.pieces_ne_nil {ps : List Piece} {row : Predicate.Row}
    (h : ScannedAs Predicate.readRow ps row) (hn : row ≠ []) : ps ≠ [] := by
  rw [← h.flatten_eq]
  cases row with
  | nil => exact absurd rfl hn
  | cons item row => cases item <;> simp [Item.pieces]

variable {x : Expr} {ps : List Piece} {row : Predicate.Row}

theorem comparison_lt_atom : Level.comparison.rank < Level.atom.rank := by decide

/-- A scalar reads as itself. -/
theorem Expr.readsAs_scalar (hx : x.predicate d = .scalar x)
    (hp : (x.reference cat d.engine).pieces cat d = .ok ps)
    (hs : ScannedAs Predicate.readRow ps row) {level : Level} (hf : Predicate.Fits level row)
    (hl : Level.comparison.rank < level.rank)
    (hr : Predicate.readScalar row = some (.scalar ps))
    (ho : Predicate.startsStatement ps = false) :
    (x.predicate d).ReadsAs cat d ps level row (.scalar ps) := by
  have hconcat : Predicate.Fits .concat row := hf.mono hl
  refine ⟨hs, hf, ?_, ?_, ho⟩
  · rw [hconcat.readRow_of_scalar, hr]
  · rw [hx]
    exact .scalar ⟨ps, hp, .inl rfl⟩

/-- A row without operators of conditions is a scalar unless it is a test or in brackets. -/
theorem Expr.readsAs_row (hx : x.predicate d = .scalar x)
    (hp : (x.reference cat d.engine).pieces cat d = .ok ps)
    (hs : ScannedAs Predicate.readRow ps row) {level : Level} (hf : Predicate.Fits level row)
    (hl : Level.comparison.rank < level.rank)
    (hg : ∀ content reading, row ≠ [.group content reading])
    (he : ∀ item rest, row = item :: rest → item.operator? = some "EXISTS" →
      Item.operators rest ≠ []) (ho : Predicate.startsStatement ps = false) :
    (x.predicate d).ReadsAs cat d ps level row (.scalar ps) := by
  have hconcat : Predicate.Fits .concat row := hf.mono hl
  have hoperand := hconcat.operand_eq
  refine readsAs_scalar hx hp hs hf hl ?_ ho
  unfold Predicate.readScalar
  split
  · exact absurd rfl (hg _ _)
  · rename_i item rest _
    rw [if_neg, hoperand, hs.flatten_eq]
    · rfl
    · rintro ⟨hi, -, hrest⟩
      exact he item rest rfl hi hrest
  · exact absurd rfl hf.nonempty

theorem Expr.isRead_literal (a v : Value) (k : Option DataKind) :
    (Expr.literal a v k).IsRead cat d := by
  intro ps hp
  have hps : [Piece.value v] = ps := by
    rw [Expr.reference, Expr.drafted, Drafted.whole_of, Draft.pieces] at hp
    exact Except.ok.inj hp
  subst hps
  refine ⟨_, _, readsAs_row rfl hp (.value v) (.ofBare (by simp) rfl) comparison_lt_atom
    (by simp) ?_ rfl⟩
  simp [Item.operator?]

/-- A column is two names with a point between them. -/
theorem pieces_columnDraft (hd : d.WritesText) {id : ColumnId}
    (hp : (columnDraft cat id).pieces cat d = .ok ps) :
    ps = [.word (quoteName d.identifierQuote (cat.qualifier id)), .token (.text "."),
      .word (quoteName d.identifierQuote (cat.column id).name)] := by
  unfold columnDraft at hp
  dsimp only at hp
  split at hp
  · simp [Draft.pieces] at hp
  · obtain ⟨front, name, hfront, hname, rfl⟩ := Draft.pieces_plus_eq_ok.1 hp
    obtain ⟨qualifier, point, hqualifier, hpoint, rfl⟩ := Draft.pieces_plus_eq_ok.1 hfront
    obtain rfl := Except.ok.inj ((Draft.pieces_name hd _).symm.trans hqualifier)
    obtain rfl := Except.ok.inj ((Draft.pieces_name hd _).symm.trans hname)
    obtain rfl := Draft.eq_of_pieces_token hpoint (by decide)
    rfl

theorem Expr.isRead_column (hd : d.WritesText) (a : Value) (id : ColumnId) :
    (Expr.column a id).IsRead cat d := by
  intro ps hp
  have hcolumn : (columnDraft cat id).pieces cat d = .ok ps := by
    rwa [Expr.reference, Expr.drafted, Drafted.whole_of] at hp
  obtain rfl := pieces_columnDraft hd hcolumn
  refine ⟨_, _, readsAs_row rfl hp (.cons_word _ (.cons_token rfl (.word _)))
    (.ofBare (by simp) rfl) comparison_lt_atom (by simp) ?_ rfl⟩
  simp [Item.operator?]

/-- Whether pieces are those of a call: a name with brackets, or the clock of an engine without such
a function. -/
def IsCall (ps : List Piece) : Prop :=
  ps = [.token (.text Dialect.clock)] ∨ ∃ name content row,
    ps = .word name :: (.token .opening :: content ++ [.token .closing]) ∧
      ScannedAs Predicate.readRow content row

theorem isCall_callWith (hd : d.WritesText) {symbol : String} {lead : Option String} {b : Bool}
    {items : List Draft} (h : ∀ y ∈ items, y.Settled cat b)
    (hp : (callWith symbol lead items).pieces cat d = .ok ps) : IsCall ps :=
  .inr (Draft.scannedAs_callWith _ hd (fun y hy _ hqs => (h y hy).exists_scannedAs _ hd hqs) hp)

theorem isCall_callDraft (hd : d.WritesText) {e : Engine} {symbol : String} {b : Bool}
    {items : List Draft} (h : ∀ y ∈ items, y.Settled cat b)
    (hp : (callDraft e symbol items).pieces cat d = .ok ps) : IsCall ps := by
  unfold callDraft at hp
  split at hp
  · rw [Draft.pieces_asking] at hp
    exact .inl (Draft.eq_of_pieces_token hp (by decide))
  · exact isCall_callWith hd h hp

/-- A call reads as itself. -/
theorem Expr.readsAs_call (hx : x.predicate d = .scalar x)
    (hp : (x.reference cat d.engine).pieces cat d = .ok ps) (hcall : IsCall ps) {level : Level}
    (hl : Level.comparison.rank < level.rank) :
    ∃ row q, (x.predicate d).ReadsAs cat d ps level row q := by
  rcases hcall with rfl | ⟨name, content, row, rfl, hrow⟩
  · refine ⟨_, _, readsAs_row hx hp (.token rfl) (.ofBare (by simp) rfl) hl (by simp) ?_ rfl⟩
    simp [Item.operator?]
  · refine ⟨_, _, readsAs_row hx hp (.cons_word name hrow.group) (.ofBare (by simp) rfl) hl
      (by simp) ?_ rfl⟩
    simp [Item.operator?]

/-! ## Arguments -/

theorem Expr.wellFormed_arguments {a : Value} {op : Operator} {symbol : String}
    {arguments : List Expr} (hw : (Value.expr (.apply a op symbol arguments)).WellFormed) :
    ∀ y ∈ arguments, (Value.expr y).WellFormed := by
  cases hw with
  | plain h => simp [Value.isPlain] at h
  | apply _ _ _ h => exact h

@[simp] theorem Expr.wellFormed_literal (v : Value) (k : Option DataKind) :
    (Value.expr (.literal .none v k)).WellFormed := .literal v k Value.isAlias_none

@[simp] theorem Expr.wellFormed_column (id : ColumnId) :
    (Value.expr (.column .none id)).WellFormed := .column id Value.isAlias_none

@[simp] theorem Expr.wellFormed_apply {op : Operator} {symbol : String} {arguments : List Expr} :
    (Value.expr (.apply .none op symbol arguments)).WellFormed ↔
      ∀ y ∈ arguments, (Value.expr y).WellFormed :=
  ⟨wellFormed_arguments, fun h => .apply op symbol Value.isAlias_none h⟩

variable (cat) in
theorem Expr.settled_operands (e : Engine) {a : Value} {op : Operator} {symbol : String}
    {arguments : List Expr} (hw : (Value.expr (.apply a op symbol arguments)).WellFormed) :
    Operand.AllSettled cat (arguments.map (·.operand cat e)) := by
  intro o ho
  obtain ⟨y, hy, rfl⟩ := List.mem_map.1 ho
  have hsettled := (wellFormed_arguments hw y hy).settled cat e
  rw [Value.drafted_expr] at hsettled
  exact hsettled.whole

section Calls

variable {a : Value} {symbol : String} {arguments : List Expr}

theorem Expr.isRead_function (hd : d.WritesText)
    (hw : (Value.expr (.apply a .function symbol arguments)).WellFormed) :
    (Expr.apply a .function symbol arguments).IsRead cat d := by
  intro ps hp
  have hcall := hp
  rw [reference_apply, Operator.draft, Operator.functionDraft] at hcall
  split at hcall
  · simp [Draft.pieces] at hcall
  · have hitems := (settled_operands cat d.engine hw).drafts
    exact readsAs_call rfl hp (isCall_callDraft hd hitems hcall) comparison_lt_atom

theorem Expr.isRead_aggregate (hd : d.WritesText) {distinct : Bool}
    (hw : (Value.expr (.apply a (.aggregate distinct) symbol arguments)).WellFormed) :
    (Expr.apply a (.aggregate distinct) symbol arguments).IsRead cat d := by
  intro ps hp
  have hcall := hp
  have hitems := (settled_operands cat d.engine hw).drafts
  rw [reference_apply, Operator.draft, Operator.aggregateDraft.eq_def] at hcall
  split at hcall
  · simp [Draft.pieces] at hcall
  · cases arguments with
    | nil =>
      have hstar : ∀ y ∈ [Draft.text "*"], y.Settled cat true := by
        simpa using Draft.Settled.text "*"
      exact readsAs_call rfl hp (isCall_callWith hd hstar hcall) comparison_lt_atom
    | cons first others =>
      exact readsAs_call rfl hp (isCall_callWith hd hitems hcall) comparison_lt_atom

end Calls

/-! ## Brackets -/

/-- A SELECT starts with its keyword. -/
theorem SelectParts.startsStatement_draft {p : SelectParts} {e : Engine}
    (hp : (p.draft cat e).pieces cat d = .ok ps) : Predicate.startsStatement ps = true := by
  obtain ⟨core, rows, tail, hcore, -, -, rfl⟩ := pieces_draft_eq_ok.1 hp
  unfold SelectParts.core at hcore
  cases hsources : sourceDrafts cat p.extras p.sources p.fields p.joins with
  | error error => simp [hsources, Draft.given, Draft.pieces] at hcore
  | ok sources =>
    simp only [hsources, Draft.given] at hcore
    split at hcore
    · simp [Draft.pieces] at hcore
    · obtain ⟨own, clauses, hown, -, rfl⟩ := Draft.pieces_continued_eq_ok.1 hcore
      obtain rfl := Draft.eq_of_pieces_token hown (by simp)
      rfl

theorem Expr.isRead_subquery (hd : d.WritesText) {a : Value} {q : Select}
    (hw : (Value.expr (.subquery a (.select q))).WellFormed) :
    (Expr.subquery a (.select q)).IsRead cat d := by
  intro ps hp
  have hbody : (Value.select q).WellFormed := by
    cases hw with
    | plain h => simp [Value.isPlain] at h
    | subquery _ h => exact h
  have hsettled : (q.drafted cat d.engine).built.Settled cat true :=
    (hbody.settled cat d.engine).built
  have hparts := hp
  rw [Expr.reference, Expr.drafted, Drafted.whole_of] at hparts
  obtain ⟨content, hcontent, rfl⟩ := Draft.pieces_parenthesized_eq_ok.1 hparts
  obtain ⟨row, hrow⟩ := hsettled.exists_scannedAs Predicate.readRow hd hcontent
  have hopens : Predicate.startsStatement content = true := by
    obtain ⟨filter, fields, sources, joins, groupBy, having, orderBy, unions, limit, offset,
      distinct, extras⟩ := q
    have hx : Value.Unhooked extras := by
      cases hbody with
      | plain h => simp [Value.isPlain] at h
      | select hx => exact hx
    have hnone : (Value.select ⟨filter, fields, sources, joins, groupBy, having, orderBy, unions,
        limit, offset, distinct, extras⟩).extras.lookup "build" = none :=
      hx "build" (by simp [Value.hooks, Value.renderings])
    rw [Value.drafted, Select.drafted, Drafted.ofStatement, hnone] at hcontent
    exact SelectParts.startsStatement_draft hcontent
  refine ⟨_, _, readsAs_scalar rfl hp hrow.group (.group ..) comparison_lt_atom ?_ rfl⟩
  rw [Predicate.readScalar, hopens]
  rfl

theorem Expr.isRead_group {a : Value} (h : x.IsRead cat d) : (Expr.group a x).IsRead cat d := by
  intro ps hp
  rw [Expr.reference, Expr.drafted, Drafted.whole_of] at hp
  obtain ⟨own, hown, rfl⟩ := Draft.pieces_parenthesized_eq_ok.1 hp
  obtain ⟨row, q, hread⟩ := h own hown
  refine ⟨_, q, hread.scanned.group, .group .., ?_, hread.alike, rfl⟩
  rw [(Predicate.Fits.group own _).readRow_of_scalar, Predicate.readScalar, hread.opens]
  exact hread.reads

end Operands

end SqlCompose
