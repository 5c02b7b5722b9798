import Mathlib.Data.List.Forall2
import SqlCompose.Proofs.Draft.Template
import SqlCompose.Proofs.Expr.Comparison

/-!
# Reading conditions back

What is rendered from a condition reads as the same condition, by induction on the expression: each
connective and each negation is put together from operands that are read back.
-/
namespace SqlCompose

section Reading

variable {cat : Catalog} {d : Dialect} {x : Expr} {ps qs : List Piece} {a : Value} {symbol : String}

/-! ## Negations and connectives -/

theorem Expr.isRead_not (h : x.IsRead cat d) : (Expr.apply a .not symbol [x]).IsRead cat d := by
  intro ps hp
  rw [reference_apply] at hp
  obtain ⟨own, hown, rfl⟩ := Draft.pieces_before_operator_eq_ok.1 hp
  obtain ⟨row, q, hread, -, -⟩ := h.under hown
  have hor := hread.fits.or_free (by decide)
  have hunsplit := hread.fits.unsplit (by decide)
  have hf : Predicate.Fits .not (.leaf (.token (.operator .before "NOT")) :: row) := by
    refine ⟨by simp, hread.fits.closed, fun _ => by simp [hor], fun _ => ?_,
      fun h => absurd h (by decide), fun h => absurd h (by decide), fun h => absurd h (by decide)⟩
    simp [Predicate.conjuncts, Item.operator?, Predicate.isBetween, hunsplit]
  have hown : Predicate.readNegation row = some q := by
    have hreads := hread.reads
    rwa [(hread.fits.mono (by decide)).readRow_eq, hread.fits.readConjunction_eq] at hreads
  refine ⟨_, .not q, .cons_token rfl hread.scanned, hf, ?_, ?_, rfl⟩
  · rw [(hf.mono (by decide)).readRow_eq, hf.readConjunction_eq, Predicate.readNegation]
    simp [Item.operator?, hown]
  · rw [Expr.predicate_not]
    exact .not hread.alike

/-- Two conditions with a connective between them read as one chain. -/
theorem Predicate.ReadsAs.joined (c : Connective) {p p' : Predicate Expr} {row row' : Row}
    {q q' : Predicate (List Piece)} (h : p.ReadsAs cat d ps c.level row q)
    (h' : p'.ReadsAs cat d qs c.level row' q') :
    (Predicate.joined c p p').ReadsAs cat d
      (ps ++ .token (.operator .between c.symbol) :: qs) c.level
      (row ++ .leaf (.token (.operator .between c.symbol)) :: row') (Predicate.joined c q q') := by
  have hclosed : pendingAfter false
      (row ++ .leaf (.token (.operator .between c.symbol)) :: row') = false := by
    rw [pendingAfter_append, h.fits.closed]
    cases c <;> simp [pendingAfter, Connective.symbol, Item.operator?, isBetween, h'.fits.closed]
  have hopens : startsStatement (ps ++ .token (.operator .between c.symbol) :: qs) = false := by
    rw [startsStatement_append (h.scanned.pieces_ne_nil h.fits.nonempty), h.opens]
  have hf : Fits c.level (row ++ .leaf (.token (.operator .between c.symbol)) :: row') := by
    refine .ofConnective (by simp) hclosed (by cases c <;> decide) fun hlevel => ?_
    have hor := h.fits.or_free hlevel
    have hor' := h'.fits.or_free hlevel
    cases c with
    | or => exact absurd hlevel (by decide)
    | and => simp [hor, hor', Connective.symbol]
  refine ⟨h.scanned.append (.cons_token rfl h'.scanned), hf, ?_, h.alike.joined c h'.alike, hopens⟩
  cases c with
  | or =>
    rw [readRow, Connective.symbol, disjuncts_append_or]
    exact readJoined_append h.reads h'.reads
  | and =>
    have hreads := h.reads
    have hreads' := h'.reads
    rw [Fits.readRow_eq h.fits, readConjunction] at hreads
    rw [Fits.readRow_eq h'.fits, readConjunction] at hreads'
    rw [Fits.readRow_eq hf, readConjunction, Connective.symbol, conjuncts_append_and _ h.fits.closed]
    exact readJoined_append hreads hreads'

/-- A chain of conditions with one connective between them reads as that chain. -/
theorem Predicate.readsAs_chained (c : Connective) {others : List Expr} {rows : List (List Piece)}
    (h : List.Forall₂ (fun y qs => ∃ row q, (y.predicate d).ReadsAs cat d qs c.level row q)
      others rows) {p : Predicate Expr} (hp : ∃ row q, p.ReadsAs cat d ps c.level row q) :
    ∃ row q, (chained c p (Expr.predicates d others)).ReadsAs cat d
      (Piece.separated (.operator .between c.symbol) (ps :: rows)) c.level row q := by
  induction h generalizing p ps with
  | nil =>
    rw [Expr.predicates, chained, Piece.separated]
    exact hp
  | cons hy hrest ih =>
    obtain ⟨row, q, hread⟩ := hp
    obtain ⟨row', q', hread'⟩ := ih hy
    rw [Expr.predicates, chained, Piece.separated]
    exact ⟨_, _, hread.joined c hread'⟩

/-- The operands of a connective are read back one by one. -/
theorem Expr.readsAs_others (c : Connective) {others : List Expr} {rows : List (List Piece)}
    (ho : ∀ y ∈ others, y.IsRead cat d)
    (hp : Draft.piecesAll cat d ((others.map (·.operand cat d.engine)).map
      (·.under c.level symbol .right)) = .ok rows) :
    List.Forall₂ (fun y qs => ∃ row q, (y.predicate d).ReadsAs cat d qs c.level row q)
      others rows := by
  induction others generalizing rows with
  | nil =>
    obtain rfl := Except.ok.inj hp
    exact .nil
  | cons y others ih =>
    obtain ⟨own, rest, hown, hrest, rfl⟩ := Draft.piecesAll_cons_eq_ok.1 hp
    obtain ⟨row, q, hread, -, -⟩ := (ho y (by simp)).under hown
    exact .cons ⟨row, q, hread⟩ (ih (fun z hz => ho z (by simp [hz])) hrest)

theorem Expr.isRead_boolean (c : Connective) {others : List Expr} (hx : x.IsRead cat d)
    (ho : ∀ y ∈ others, y.IsRead cat d) :
    (Expr.apply a .boolean c.symbol (x :: others)).IsRead cat d := by
  intro ps hp
  rw [reference_apply] at hp
  have hsymbol : ¬(c.symbol ≠ "AND" ∧ c.symbol ≠ "OR") := by cases c <;> decide
  have hlevel : Operator.boolean.level c.symbol = c.level := by cases c <;> rfl
  have hconnective : Connective.ofSymbol c.symbol = c := by cases c <;> rfl
  rw [Operator.draft, List.map_cons, Operator.booleanDraft, if_neg hsymbol, hlevel] at hp
  obtain ⟨rows, hrows, rfl⟩ := Draft.pieces_row_eq_ok.1 hp
  obtain ⟨own, rest, hown, hrest, rfl⟩ := Draft.piecesAll_cons_eq_ok.1 hrows
  have hfirst : ∃ row q, (x.predicate d).ReadsAs cat d own c.level row q := by
    obtain ⟨row, q, hread, -, -⟩ := hx.under hown
    exact ⟨row, q, hread⟩
  have hchain := Predicate.readsAs_chained c (readsAs_others c ho hrest) hfirst
  rw [Expr.predicate_boolean, hconnective]
  rwa [show (Expr.apply a .boolean c.symbol (x :: others)).level = c.level from hlevel]

/-! ## Conditions -/

/-- Whatever a condition is rendered as is read back. -/
theorem Expr.IsCondition.isRead (hd : d.WritesText) (hx : x.IsCondition)
    (hw : (Value.expr x).WellFormed) : x.IsRead cat d := by
  induction hx with
  | literal a v k => exact isRead_literal a v k
  | column a id => exact isRead_column hd a id
  | function a symbol arguments => exact isRead_function hd hw
  | aggregate a distinct symbol arguments => exact isRead_aggregate hd hw
  | subquery a q => exact isRead_subquery hd hw
  | group a h ih =>
    cases hw with
    | plain h => simp [Value.isPlain] at h
    | group _ hw => exact isRead_group (ih hw)
  | sign a hs h ih => exact isRead_sign hs (ih (wellFormed_arguments hw _ (by simp)))
  | infixed a hs hx hy ihx ihy =>
    have hargs := wellFormed_arguments hw
    exact isRead_infixed hd hs (ihx (hargs _ (by simp))) (ihy (hargs _ (by simp))) hw
  | existence a h ih => exact isRead_existence (ih (wellFormed_arguments hw _ (by simp)))
  | null a hs h ih => exact isRead_null hs (ih (wellFormed_arguments hw _ (by simp)))
  | compare a hs hx hy ihx ihy =>
    have hargs := wellFormed_arguments hw
    exact isRead_compare hs (ihx (hargs _ (by simp)))
      fun rs hrs => (ihy (hargs _ (by simp))).stands hrs
  | @member a symbol hs x h b listSymbol items ih =>
    have hargs := wellFormed_arguments hw
    have hc : symbol ∈ comparisonSymbols := by
      clear hw hargs
      revert symbol
      decide
    exact isRead_compare hc (ih (hargs _ (by simp)))
      fun rs hrs => standsAs_list hd (hargs _ (by simp)) hrs
  | between a negated symbol hx hl hh ihx ihl ihh =>
    have hargs := wellFormed_arguments hw
    exact isRead_between (ihx (hargs _ (by simp))) (ihl (hargs _ (by simp)))
      (ihh (hargs _ (by simp)))
  | @like a form symbol x y hx hy ihx ihy =>
    have hargs := wellFormed_arguments hw
    have hxw := hargs x (by simp)
    have hyw := hargs y (by simp)
    exact isRead_like hd (ihx hxw) hxw (ihy hyw) hyw
  | not a symbol h ih => exact isRead_not (ih (wellFormed_arguments hw _ (by simp)))
  | boolean a c hf ho ihf iho =>
    have hargs := wellFormed_arguments hw
    exact isRead_boolean c (ihf (hargs _ (by simp)))
      fun y hy => iho y hy (hargs y (by simp [hy]))

/-! ## Expressions that stand alone -/

/-- The alias that a column shows where it stands alone. -/
def Expr.aliasPieces (d : Dialect) : Expr → List Piece
  | .column a _ =>
    if a.truthy then
      [.token (.keyword .between "AS"), .word (quoteName d.identifierQuote (a.text?.getD ""))]
    else []
  | _ => []

theorem Expr.values_aliasPieces (d : Dialect) (x : Expr) :
    Piece.values (x.aliasPieces d) = [] := by
  cases x with
  | column a id =>
    rw [aliasPieces]
    split <;> rfl
  | _ => rfl

/-- An expression that stands alone has its own pieces and its alias. -/
theorem Expr.pieces_built (hd : d.WritesText) (ha : x.asName.IsAlias)
    (hp : ((Value.expr x).built cat d.engine).pieces cat d = .ok ps) :
    ∃ own, (x.reference cat d.engine).pieces cat d = .ok own ∧ ps = own ++ x.aliasPieces d := by
  rw [Value.built, Value.drafted_expr, Drafted.built, Expr.value_drafted] at hp
  cases x with
  | column a id =>
    simp only [aliasPieces]
    simp only [Draft.named] at hp
    split at hp
    · rename_i ht
      obtain ⟨s, rfl⟩ := ha ht
      obtain ⟨own, behind, hown, hbehind, rfl⟩ := Draft.pieces_plus_eq_ok.1 hp
      obtain ⟨link, name, hlink, hname, rfl⟩ := Draft.pieces_plus_eq_ok.1 hbehind
      obtain rfl := Draft.eq_of_pieces_token hlink (by simp)
      obtain rfl := Except.ok.inj ((Draft.pieces_name hd s).symm.trans hname)
      rw [if_pos ht]
      exact ⟨own, hown, rfl⟩
    · rename_i ht
      rw [if_neg ht]
      exact ⟨ps, hp, by simp⟩
  | _ => exact ⟨ps, hp, by simp [aliasPieces]⟩

/-- The SQL of an expression that stands alone: its own pieces with marks for their values, and its
alias. -/
theorem Expr.exists_pieces_of_outcome (hd : d.WritesText) (hw : (Value.expr x).WellFormed)
    {style : PlaceholderStyle} {binding : Bool} {number : Nat} {bound rest : List Value}
    {sql : Value}
    (h : ((Value.expr x).built cat d.engine).outcome cat (.context (d.marking style binding) number)
      bound = (.ok sql, rest)) :
    ∃ (ps : List Piece) (marks : List String), (x.reference cat d.engine).pieces cat d = .ok ps ∧
      marks.length = (Piece.values ps).length ∧
      sql = .text ((Template.ofPieces (ps ++ x.aliasPieces d)).spelled marks) := by
  have ha : x.asName.IsAlias := (hw.settled cat d.engine).steady.asName x (by
    rw [Value.drafted_expr, Expr.value_drafted])
  obtain ⟨all, marks, hall, hlength, rfl⟩ :=
    Draft.exists_pieces_of_outcome hd (hw.settled cat d.engine).built h
  obtain ⟨ps, hps, rfl⟩ := Expr.pieces_built hd ha hall
  refine ⟨ps, marks, hps, ?_, rfl⟩
  rw [hlength, Piece.values_append, Expr.values_aliasPieces, List.append_nil]

/-- The SQL of a condition is read back as the condition, however its values are marked: each operand
of a comparison stands as it is rendered on its own, possibly in parentheses. -/
theorem condition_read_back (hd : d.WritesText) (hx : x.IsCondition)
    (hw : (Value.expr x).WellFormed) {style : PlaceholderStyle} {binding : Bool} {number : Nat}
    {bound rest : List Value} {sql : Value}
    (h : ((Value.expr x).built cat d.engine).outcome cat (.context (d.marking style binding) number)
      bound = (.ok sql, rest)) :
    ∃ (ps : List Piece) (marks : List String) (q : Predicate (List Piece)),
      (x.reference cat d.engine).pieces cat d = .ok ps ∧
      marks.length = (Piece.values ps).length ∧
      sql = .text ((Template.ofPieces (ps ++ x.aliasPieces d)).spelled marks) ∧
      Predicate.parse ps = some q ∧ (x.predicate d).Alike (Expr.IsWrittenAs cat d) q := by
  obtain ⟨ps, marks, hps, hlength, hsql⟩ := Expr.exists_pieces_of_outcome hd hw h
  obtain ⟨row, q, hread⟩ := hx.isRead hd hw ps hps
  refine ⟨ps, marks, q, hps, hlength, hsql, ?_, hread.alike⟩
  rw [Predicate.parse, hread.scanned.readPieces_eq, hread.reads]

/-- A text within a range or unlike its lower bound, and null. -/
def Expr.ofRange (s low high : String) : Expr :=
  let literal := fun (t : String) => Expr.literal .none (.text t) none
  .apply .none .boolean "AND"
    [.apply .none .boolean "OR"
      [.apply .none (.between false) "" [literal s, literal low, literal high],
        .apply .none .not "NOT" [.apply .none .binary "=" [literal s, literal low]]],
      .apply .none (.unary true) "IS NULL" [literal s]]

theorem condition_read_back_range : (default : Dialect).WritesText ∧
    (Expr.ofRange "s" "a" "z").IsCondition ∧ (Value.expr (.ofRange "s" "a" "z")).WellFormed ∧
    ∃ (ps : List Piece) (marks : List String) (q : Predicate (List Piece)),
      Value.text "(? BETWEEN ? AND ? OR NOT ? = ?) AND ? IS NULL"
        = .text ((Template.ofPieces ps).spelled marks) ∧
      Predicate.parse ps = some q ∧
      ((Expr.ofRange "s" "a" "z").predicate default).Alike (Expr.IsWrittenAs default default) q := by
  have hd : (default : Dialect).WritesText := ⟨rfl, rfl⟩
  have hliteral : ∀ t, Expr.IsCondition (.literal .none (.text t) none) := fun t => .literal _ _ _
  have hx : (Expr.ofRange "s" "a" "z").IsCondition := by
    refine .boolean _ .and (.boolean _ .or (.between _ _ _ (hliteral _) (hliteral _) (hliteral _)) ?_)
      ?_
    · intro y hy
      obtain rfl := List.mem_singleton.1 hy
      exact .not _ _ (.compare _ (by decide) (hliteral _) (hliteral _))
    · intro y hy
      obtain rfl := List.mem_singleton.1 hy
      exact .null _ (by decide) (hliteral _)
  have hw : (Value.expr (.ofRange "s" "a" "z")).WellFormed := by
    simp [Expr.ofRange]
  refine ⟨hd, hx, hw, ?_⟩
  have h : ((Value.expr (.ofRange "s" "a" "z")).built default (default : Dialect).engine).outcome
      default (.context ((default : Dialect).marking .qmark true) 0) []
      = (.ok (.text "(? BETWEEN ? AND ? OR NOT ? = ?) AND ? IS NULL"),
        [.text "s", .text "a", .text "z", .text "s", .text "a", .text "s"]) := rfl
  obtain ⟨ps, marks, q, -, -, hsql, hparse, halike⟩ := condition_read_back hd hx hw h
  rw [show (Expr.ofRange "s" "a" "z").aliasPieces default = [] from rfl, List.append_nil] at hsql
  exact ⟨ps, marks, q, hsql, hparse, halike⟩

end Reading

end SqlCompose
