import SqlCompose.Proofs.Render.Composed

/-!
# The clauses of a composed SELECT

What is written of a composed SELECT is cut into its clauses, each behind its keyword and in the order
that SQL has for them, and each clause into phrases with commas, joins and the like between them.
-/
namespace SqlCompose

open Piece

/-! ## Marks -/

/-- The marks within clauses. -/
inductive Token.IsLink : Token → Prop
  | comma : IsLink (.text ", ")
  | blank : IsLink (.text " ")
  | as : IsLink (.keyword .between "AS")
  | on : IsLink (.keyword .between "ON")
  | using : IsLink (.keyword .between "USING")

/-- The keywords of the clauses that follow the fields and stand before the order. -/
def coreMarks : List Token :=
  [.keyword .between "FROM", .keyword .between "WHERE", .keyword .between "GROUP BY",
    .keyword .between "HAVING"]

/-- The keyword of a SELECT. -/
def selectMark : Token := .keyword .before "SELECT"

/-- The keyword of the order. -/
def orderMark : Token := .keyword .between "ORDER BY"

/-- Whether a bound is written as a number. -/
def RowBound.IsCount (b : RowBound) : Prop := ∃ n : Int, b.text = toString n

/-- Whether pieces are a paging clause, if there is one. -/
def IsPaging (e : Engine) (ordered : Bool) (ps : List Piece) : Prop :=
  ps = [] ∨ ∃ limit offset : Option RowBound, (∀ b ∈ limit, b.IsCount) ∧ (∀ b ∈ offset, b.IsCount) ∧
    ps = [.token (.text (" " ++ e.limitClause limit offset ordered))]

/-- The marks of a SELECT. -/
inductive Token.IsMark (e : Engine) : Token → Prop
  | link {t : Token} (h : t.IsLink) : IsMark e t
  | clause {t : Token} (h : t ∈ selectMark :: (coreMarks ++ [orderMark])) : IsMark e t
  | member (op : SetOperator) : IsMark e (.keyword .between op.keyword)
  | paging {limit offset : Option RowBound} (ordered : Bool) (hl : ∀ b ∈ limit, b.IsCount)
    (ho : ∀ b ∈ offset, b.IsCount) :
    IsMark e (.text (" " ++ e.limitClause limit offset ordered))

/-- What all phrases have in common besides the expressions: no phrase at all, whole rows, a name, a
list of names, and phrases behind the words that lead distinct fields and joins. -/
structure Piece.Covers (cat : Catalog) (d : Dialect) (V : Vocabulary) (R : List Piece → Prop) :
    Prop where
  nil : R []
  rows : R [.token (.text "*")]
  name : ∀ s, V.name s → R [.word (quoteName d.identifierQuote s)]
  list : ∀ names : List String, (∀ s ∈ names, V.name s) → (nameList names).PiecesIn cat d R
  distinct : ∀ ps, R ps → R (.token (.text "DISTINCT ") :: ps)
  join : ∀ kind, V.joinKind kind → ∀ ps, R ps →
    R (.token (.keyword .before (kind ++ " JOIN")) :: ps)

/-- Whether pieces are the content of a clause: phrases with links between them. -/
abbrev Piece.IsContent (R : List Piece → Prop) : List Piece → Prop := Linked R Token.IsLink

/-- Whether the names and joins in the clauses of a SELECT are of a vocabulary, and its expressions
are written as phrases. -/
structure SelectClauses.Covered (cat : Catalog) (d : Dialect) (V : Vocabulary)
    (R : List Piece → Prop) (c : SelectClauses) : Prop where
  isSource : ∀ v ∈ c.origins, v.isSource = true
  table : ∀ id, .table id ∈ c.origins → V.HasTable cat id
  join : ∀ j ∈ c.joins, V.HasJoin j
  expression : ∀ x ∈ c.expressions, (x.reference cat d.engine).PiecesIn cat d R
  asName : ∀ x ∈ c.expressions, V.IsAlias x.asName
  implied : ∀ x ∈ c.fields, ∀ id t, (Value.expr x).Reads id → cat.owner id = some t →
    V.HasTable cat t

variable {cat : Catalog} {d : Dialect} {V : Vocabulary} {R : List Piece → Prop} {x : Expr}
  {c : SelectClauses} {ps : List Piece}

/-! ## Phrases -/

section Phrases

variable (hd : d.WritesText) (hR : Covers cat d V R)

section Names

include hd hR

theorem piecesIn_named {y : Draft} (hy : y.PiecesIn cat d R) {a : Value} (ha : V.IsAlias a) :
    (y.named a).PiecesIn cat d (IsContent R) := by
  unfold Draft.named
  split
  · rename_i ht
    obtain ⟨s, rfl, hs⟩ := ha ht
    refine .extend hy.phrase .as (by decide) fun ps hp => .phrase ?_
    obtain rfl := Except.ok.inj ((Draft.pieces_name hd s).symm.trans hp)
    exact hR.name s hs
  · exact hy.phrase

theorem piecesIn_tableDraft {id : TableId} (h : V.HasTable cat id) :
    (tableDraft cat id).PiecesIn cat d (IsContent R) := by
  unfold tableDraft
  dsimp only
  split
  · exact .fail _
  · refine piecesIn_named hd hR (fun ps hp => ?_) fun ht => ?_
    · obtain rfl := Except.ok.inj ((Draft.pieces_name hd _).symm.trans hp)
      exact hR.name _ h.1
    · cases hs : (cat.table id).asName with
      | none => simp [hs, Value.ofOption, Value.truthy, Value.none, Scalar.truthy] at ht
      | some s =>
        have hne : s ≠ "" := by
          rintro rfl
          simp [hs, Value.ofOption, Value.truthy, Value.text, Scalar.truthy] at ht
        exact ⟨s, rfl, h.2 s hs hne⟩

end Names

/-! ## Expressions in their clauses -/

namespace SelectClauses.Covered

variable (h : c.Covered cat d V R)
include h

theorem piecesIn_reference (hx : x ∈ c.expressions) :
    ((Value.expr x).drafted cat d.engine).reference.PiecesIn cat d (IsContent R) := by
  rw [Value.drafted_expr, Drafted.reference, Expr.value_drafted]
  exact (h.expression x hx).phrase

include hd hR

theorem piecesIn_selected (hx : x ∈ c.expressions) :
    ((Value.expr x).drafted cat d.engine).selected.PiecesIn cat d (IsContent R) := by
  rw [Value.drafted_expr, Drafted.selected, Expr.value_drafted]
  exact piecesIn_named hd hR (h.expression x hx) (h.asName x hx)

theorem piecesIn_built (hx : x ∈ c.expressions) :
    ((Value.expr x).drafted cat d.engine).built.PiecesIn cat d (IsContent R) := by
  rw [Value.drafted_expr, Drafted.built, Expr.value_drafted]
  split
  · rename_i a id heq
    obtain rfl := Value.expr.inj heq
    exact piecesIn_named hd hR (h.expression _ hx) (h.asName _ hx)
  · exact (h.expression x hx).phrase

/-- A table, or a subquery under an alias. -/
theorem piecesIn_source {v : Value} (hv : v ∈ c.origins) :
    (v.drafted cat d.engine).source.PiecesIn cat d (IsContent R) := by
  have hsource := h.isSource v hv
  cases v with
  | table id => exact piecesIn_tableDraft hd hR (h.table id hv)
  | expr x =>
    have hx := SelectClauses.mem_expressions_of_origin hv
    rw [Value.drafted_expr, Drafted.source, Expr.value_drafted]
    dsimp only
    split
    · exact piecesIn_named hd hR (h.expression x hx) (h.asName x hx)
    · exact .fail _
  | _ => cases hsource

/-- What a JOIN clause matches on stands behind its source. -/
theorem behind_joinCondition {j : Join} (hj : j ∈ c.joins) {rows : List (List Piece)}
    (hp : Draft.piecesAll cat d
      (joinCondition j.kind (draftOptional cat d.engine j.on) j.shared) = .ok rows) :
    ∃ t : Token, t.IsLink ∧ Behind R Token.IsLink t rows.flatten := by
  have hfail : ∀ e : Error, Draft.piecesAll cat d [.fail e] ≠ .ok rows := by
    intro e he
    obtain ⟨ps, hps, -⟩ := Draft.piecesAll_singleton_eq_ok.1 he
    simp [Draft.pieces] at hps
  have hled : ∀ (word : String) (y : Draft), y.PiecesIn cat d (IsContent R) →
      Draft.piecesAll cat d [Draft.keyword .between word + y] = .ok rows →
      Behind R Token.IsLink (.keyword .between word) rows.flatten := by
    intro word y hy hrows
    obtain ⟨ps, hps, rfl⟩ := Draft.piecesAll_singleton_eq_ok.1 hrows
    obtain ⟨own, qs, hown, hqs, rfl⟩ := Draft.pieces_plus_eq_ok.1 hps
    obtain rfl := Draft.eq_of_pieces_token hown (by simp)
    exact .inr ⟨qs, by simp, hy qs hqs⟩
  unfold joinCondition at hp
  split at hp
  · exact absurd hp (hfail _)
  · split at hp
    · exact absurd hp (hfail _)
    · cases hon : j.on with
      | some x =>
        rw [hon] at hp
        have hx := SelectClauses.mem_expressions_of_on hj hon
        refine ⟨_, .on, hled _ _ ?_ hp⟩
        rw [← Value.drafted_expr]
        exact h.piecesIn_built hd hR hx
      | none =>
        rw [hon] at hp
        by_cases hs : j.shared = []
        · obtain rfl : rows = [] := by simpa [draftOptional, hs, Draft.piecesAll, eq_comm] using hp
          exact ⟨_, .on, .inl rfl⟩
        · rw [draftOptional, if_neg hs] at hp
          refine ⟨_, .using, hled _ _ ?_ hp⟩
          exact fun ps hps => .phrase (hR.list j.shared (h.join j hj).shared ps hps)

/-- A JOIN clause is linked to what stands before it. -/
theorem behind_join {j : Join} (hj : j ∈ c.joins)
    (hp : (Draft.text " " + ((Value.join j).drafted cat d.engine).built).pieces cat d = .ok ps) :
    Behind R Token.IsLink (.text " ") ps := by
  obtain ⟨blank, own, hblank, hown, rfl⟩ := Draft.pieces_plus_eq_ok.1 hp
  obtain rfl := Draft.eq_of_pieces_token hblank (by decide)
  have hbuilt : ((Value.join j).drafted cat d.engine).built
      = joinDraft j.kind (j.source.drafted cat d.engine) (draftOptional cat d.engine j.on)
        j.shared := by
    cases j
    rfl
  rw [hbuilt, joinDraft, Draft.pieces_continued_eq_ok] at hown
  obtain ⟨front, rows, hfront, hrows, rfl⟩ := hown
  obtain ⟨keyword, source, hkeyword, hsource, rfl⟩ := Draft.pieces_plus_eq_ok.1 hfront
  obtain rfl := Draft.eq_of_pieces_token hkeyword (by simp)
  rw [Draft.pieces] at hsource
  have horigin : j.source ∈ c.origins := List.mem_append_right _ (List.mem_map_of_mem hj)
  have hcontent := h.piecesIn_source hd hR horigin source hsource
  obtain ⟨t, ht, hcondition⟩ := h.behind_joinCondition hd hR hj hrows
  have hjoined := (hcontent.link ht hcondition).led (hR.join j.kind (h.join j hj).kind)
  exact .inr ⟨_, by simp, hjoined⟩

/-! ## Clauses -/

omit h hd in
theorem piecesIn_listed {xs : List Expr} {f : Drafted → Draft}
    (hf : ∀ x ∈ xs, (f ((Value.expr x).drafted cat d.engine)).PiecesIn cat d (IsContent R)) :
    (((Value.tuple (xs.map .expr)).drafted cat d.engine).listed f).PiecesIn cat d
      (IsContent R) := by
  rw [Drafted.listed, Drafted.items_tuple]
  refine .commaSeparated hR.nil .comma fun y hy => ?_
  rw [List.map_map, List.map_map] at hy
  obtain ⟨x, hx, rfl⟩ := List.mem_map.1 hy
  exact hf x hx

omit h hd hR in
/-- A clause of several expressions, if there are any. -/
theorem behind_listClause {xs : List Expr} {f : Drafted → Draft} {word : String}
    (hf : (((Value.tuple (xs.map .expr)).drafted cat d.engine).listed f).PiecesIn cat d
      (IsContent R)) {rows : List (List Piece)}
    (hp : Draft.piecesAll cat d (((Value.tuple (xs.map .expr)).drafted cat d.engine).listClause word
      f) = .ok rows) :
    Behind R Token.IsLink (.keyword .between word) rows.flatten ∧
      (xs = [] → rows.flatten = []) := by
  rw [Drafted.listClause, Value.value_drafted] at hp
  cases xs with
  | nil =>
    obtain rfl : rows = [] := (Except.ok.inj hp).symm
    exact ⟨.inl rfl, fun _ => rfl⟩
  | cons x xs =>
    have htruthy : (Value.tuple ((x :: xs).map .expr)).truthy = true := rfl
    rw [if_pos htruthy] at hp
    obtain ⟨ps, hps, rfl⟩ := Draft.piecesAll_singleton_eq_ok.1 hp
    obtain ⟨own, qs, hown, hqs, rfl⟩ := Draft.pieces_plus_eq_ok.1 hps
    obtain rfl := Draft.eq_of_pieces_token hown (by simp)
    exact ⟨.inr ⟨qs, by simp, hf qs hqs⟩, fun hxs => absurd hxs (List.cons_ne_nil _ _)⟩

/-- A clause of one expression, if it is there. -/
theorem behind_clause {x? : Option Expr} (hx : ∀ x, x? = some x → x ∈ c.expressions) {word : String}
    (hp : (((Value.ofOption .expr x?).drafted cat d.engine).clause word).pieces cat d = .ok ps) :
    Behind R Token.IsLink (.keyword .between word) ps := by
  rw [Drafted.clause, Value.value_drafted] at hp
  cases x? with
  | none =>
    obtain rfl : ps = [] := (Except.ok.inj hp).symm
    exact .inl rfl
  | some x =>
    rw [if_neg (by simp [Value.ofOption, Value.isNone])] at hp
    obtain ⟨own, qs, hown, hqs, rfl⟩ := Draft.pieces_plus_eq_ok.1 hp
    obtain rfl := Draft.eq_of_pieces_token hown (by simp)
    exact .inr ⟨qs, rfl, h.piecesIn_built hd hR (hx x rfl) qs hqs⟩

/-- A clause of one expression that is left out where there is none. -/
theorem behind_optionalClause {x? : Option Expr} (hx : ∀ x, x? = some x → x ∈ c.expressions) {word : String}
    {rows : List (List Piece)} (hp : Draft.piecesAll cat d
      (((Value.ofOption .expr x?).drafted cat d.engine).optionalClause word) = .ok rows) :
    Behind R Token.IsLink (.keyword .between word) rows.flatten := by
  unfold Drafted.optionalClause at hp
  split at hp
  · obtain rfl : rows = [] := (Except.ok.inj hp).symm
    exact .inl rfl
  · obtain ⟨ps, hps, rfl⟩ := Draft.piecesAll_singleton_eq_ok.1 hp
    rw [List.flatten_singleton]
    exact h.behind_clause hd hR hx hps

/-- The sources are tables and subqueries, or tables that the fields imply. -/
theorem piecesIn_sources {items : List Draft}
    (hi : sourceDrafts cat [] ((Value.tuple c.sources).drafted cat d.engine)
      ((Value.tuple (c.fields.map .expr)).drafted cat d.engine)
      ((Value.tuple (c.joins.map .join)).drafted cat d.engine) = .ok items) :
    ∀ y ∈ items, y.PiecesIn cat d (IsContent R) := by
  cases hs : c.sources with
  | nil =>
    obtain ⟨tables, htables, himplied⟩ :=
      exists_inferredTables cat (c.fields.map .expr) c.joins
    rw [hs, sourceDrafts_of_inferred (by rwa [Value.value_drafted, Value.value_drafted])] at hi
    obtain rfl := Except.ok.inj hi
    intro y hy
    obtain ⟨t, ht, rfl⟩ := List.mem_map.1 hy
    obtain ⟨⟨v, hv, id, hid, howner⟩, -⟩ := (himplied.mem_iff t).1 ht
    obtain ⟨x, hx, rfl⟩ := List.mem_map.1 hv
    exact piecesIn_tableDraft hd hR (h.implied x hx id t hid howner)
  | cons v vs =>
    rw [hs, sourceDrafts, List.lookup_nil, Value.value_drafted, Drafted.items_tuple] at hi
    obtain rfl := Except.ok.inj hi
    intro y hy
    rw [List.map_map] at hy
    obtain ⟨w, hw, rfl⟩ := List.mem_map.1 hy
    refine h.piecesIn_source hd hR (List.mem_append_left _ ?_)
    rwa [hs]

omit h hd in
/-- The FROM clause, if there are sources. -/
theorem behind_from {items : List Draft}
    (hi : ∀ y ∈ items, y.PiecesIn cat d (IsContent R)) {rows : List (List Piece)}
    (hp : Draft.piecesAll cat d (if items.isEmpty then []
      else [Draft.keyword .between "FROM" + .commaSeparated items]) = .ok rows) :
    Behind R Token.IsLink (.keyword .between "FROM") rows.flatten := by
  obtain ⟨sources, hsources, hrows⟩ := exists_of_fromClause hp
  rw [hrows]
  split
  · exact .inl rfl
  · refine .inr ⟨_, rfl, .separated hR.nil .comma fun ps hps => ?_⟩
    obtain ⟨y, hy, hpy⟩ := Draft.mem_piecesAll hsources hps
    exact hi y hy ps hpy

/-- The fields of a SELECT, or whole rows. -/
theorem piecesIn_fieldList :
    (c.select.parts cat d.engine).fieldList.PiecesIn cat d (IsContent R) := by
  have hvalue : (c.select.parts cat d.engine).fields
      = (Value.tuple (c.fields.map .expr)).drafted cat d.engine := rfl
  rw [SelectParts.fieldList, hvalue]
  split
  · refine piecesIn_listed hR fun x hx => h.piecesIn_selected hd hR ?_
    simp [SelectClauses.expressions, hx]
  · intro ps hp
    obtain rfl := Draft.eq_of_pieces_token hp (by decide)
    exact .phrase hR.rows

/-- The JOIN clauses of a SELECT are linked to what stands before them. -/
theorem marked_joins {joins : List Join} (hj : ∀ j ∈ joins, j ∈ c.joins) {ts : List Token}
    (hm : Marked (IsContent R) ts ps) {rows : List (List Piece)}
    (hp : List.Forall₂ (fun j qs => (Draft.text " " +
      ((Value.join j).drafted cat d.engine).built).pieces cat d = .ok qs) joins rows) :
    Marked (IsContent R) ts (ps ++ rows.flatten) := by
  induction hp generalizing ps with
  | nil => simpa using hm
  | cons hjoin hrest ih =>
    rw [List.forall_mem_cons] at hj
    have hfirst := hm.link .blank (h.behind_join hd hR hj.1 hjoin)
    simpa using ih hj.2 hfirst

/-- The clauses of a SELECT before its members are led by their keywords in order. -/
theorem exists_marked_core (hp : ((c.select.parts cat d.engine).core cat).pieces cat d = .ok ps) :
    ∃ ts clauses, ps = .token selectMark :: clauses ∧ ts.Sublist coreMarks ∧
      Marked (IsContent R) ts clauses := by
  have hextras : (c.select.parts cat d.engine).extras = [] := rfl
  rw [SelectParts.core, hextras] at hp
  cases hs : sourceDrafts cat [] (c.select.parts cat d.engine).sources
      (c.select.parts cat d.engine).fields (c.select.parts cat d.engine).joins with
  | error e => simp [hs, Draft.given, Draft.pieces] at hp
  | ok items =>
    rw [hs, Draft.given] at hp
    split at hp
    · simp [Draft.pieces] at hp
    · obtain ⟨keyword, clauses, hkeyword, hclauses, rfl⟩ := Draft.pieces_continued_eq_ok.1 hp
      obtain rfl := Draft.eq_of_pieces_token hkeyword (by decide)
      rw [SelectParts.coreClauses, hextras] at hclauses
      simp only [List.append_assoc, Draft.piecesAll_append_eq_ok] at hclauses
      obtain ⟨head, -, hhead, ⟨row, -, hrow, ⟨source, -, hsource, ⟨joined, -, hjoined,
        ⟨filter, -, hfilter, ⟨group, having, hgroup, hhaving, rfl⟩, rfl⟩, rfl⟩, rfl⟩, rfl⟩, rfl⟩ :=
        hclauses
      obtain ⟨list, hlist, rfl⟩ := Draft.piecesAll_singleton_eq_ok.1 hrow
      obtain ⟨condition, hcondition, rfl⟩ := Draft.piecesAll_singleton_eq_ok.1 hfilter
      have hfields := h.piecesIn_fieldList hd hR list hlist
      have hdistinct : IsContent R (head.flatten ++ list) := by
        rw [flatten_of_distinctWord hhead]
        split
        · exact hfields.led hR.distinct
        · exact hfields
      obtain ⟨from?, hfrom, hmarked⟩ :=
        (Marked.phrase hdistinct).clause (behind_from hR (h.piecesIn_sources hd hR hs) hsource)
      rw [show (c.select.parts cat d.engine).joins
        = (Value.tuple (c.joins.map .join)).drafted cat d.engine from rfl, Drafted.each_tuple,
        List.map_map, Draft.piecesAll_map_eq_ok] at hjoined
      have hjoins := h.marked_joins hd hR (fun _ => id) hmarked hjoined
      obtain ⟨where?, hwhere, hmarked⟩ := hjoins.clause
        (h.behind_clause hd hR (fun x hx => by simp [SelectClauses.expressions, hx]) hcondition)
      obtain ⟨group?, hgroups, hmarked⟩ := hmarked.clause (behind_listClause
        (piecesIn_listed hR fun x hx => h.piecesIn_reference
          (by simp [SelectClauses.expressions, hx])) hgroup).1
      obtain ⟨having?, hhavings, hmarked⟩ := hmarked.clause (h.behind_optionalClause hd hR
        (fun x hx => by simp [SelectClauses.expressions, hx]) hhaving)
      have hsublist := ((hfrom.append hwhere).append hgroups).append hhavings
      refine ⟨_, _, ?_, hsublist, hmarked⟩
      simp [selectMark]

omit h hd hR in
/-- A bound of rows is written as a number. -/
theorem isCount_of_bound {n? : Option Int} {bound : Option RowBound}
    (hb : (Value.ofOption .int n?).bound? cat = .ok bound) : ∀ b ∈ bound, b.IsCount := by
  cases n? with
  | none =>
    obtain rfl := Except.ok.inj hb
    simp
  | some n =>
    have hlabel : (Value.int n).label cat = Scalar.wholeText n := rfl
    rw [Value.ofOption, Value.bound?, if_neg (by simp [Value.int, Value.isNone]), hlabel,
      Scalar.wholeText] at hb
    split at hb
    · obtain rfl := Except.ok.inj hb
      intro b hb
      obtain rfl := Option.mem_some_iff.1 hb
      exact ⟨n, rfl⟩
    · cases hb

omit h hd hR in
theorem exists_of_pagingClause {limit offset : Option Int} {e : Engine} {ordered : Bool}
    {clause : String} (hc : pagingClause cat e (.ofOption .int limit) (.ofOption .int offset) ordered
      = .ok clause) : ∃ l o : Option RowBound, (∀ b ∈ l, b.IsCount) ∧ (∀ b ∈ o, b.IsCount) ∧
        clause = e.limitClause l o ordered := by
  unfold pagingClause at hc
  split at hc
  · obtain ⟨o, ho, hc⟩ := Except.bind_eq_ok_iff.1 hc
    obtain ⟨l, hl, hc⟩ := Except.bind_eq_ok_iff.1 hc
    exact ⟨l, o, isCount_of_bound hl, isCount_of_bound ho, (Except.ok.inj hc).symm⟩
  · obtain ⟨l, hl, hc⟩ := Except.bind_eq_ok_iff.1 hc
    obtain ⟨o, ho, hc⟩ := Except.bind_eq_ok_iff.1 hc
    exact ⟨l, o, isCount_of_bound hl, isCount_of_bound ho, (Except.ok.inj hc).symm⟩

omit h hd hR in
theorem isPaging_of_pieces {limit offset : Option Int} {e : Engine} {ordered : Bool}
    (hp : (paged cat e (.ofOption .int limit) (.ofOption .int offset) ordered .empty).pieces cat d
      = .ok ps) : IsPaging e ordered ps := by
  unfold paged at hp
  split at hp
  · exact .inl (Except.ok.inj (Draft.pieces_checked_eq_ok.1 hp).1).symm
  · rename_i clause _ hc
    obtain ⟨l, o, hl, ho, rfl⟩ := exists_of_pagingClause hc
    obtain ⟨xs, ys, hx, hy, rfl⟩ := Draft.pieces_extend_eq_ok.1 hp
    obtain rfl : xs = [] := (Except.ok.inj hx).symm
    rw [Draft.pieces_asking] at hy
    obtain rfl := Draft.eq_of_pieces_token hy (by simp)
    exact .inr ⟨l, o, hl, ho, rfl⟩
  · obtain ⟨xs, ys, -, hy, rfl⟩ := Draft.pieces_extend_eq_ok.1 hp
    simp [Draft.pieces_asking, Draft.pieces] at hy

/-- Behind the members of a SELECT stand its order and its paging clause. -/
theorem exists_closing
    (hp : ((c.select.parts cat d.engine).closing cat d.engine).pieces cat d = .ok ps) :
    ∃ order page, ps = order ++ page ∧ Behind R Token.IsLink orderMark order ∧
      (c.orderBy = [] → order = []) ∧ IsPaging d.engine (!c.orderBy.isEmpty) page := by
  obtain ⟨order, page, horder, hpage, rfl⟩ := pieces_paged_eq_ok.1 hp
  obtain ⟨none, rows, hnone, hrows, rfl⟩ := Draft.pieces_continued_eq_ok.1 horder
  obtain rfl : none = [] := (Except.ok.inj hnone).symm
  obtain ⟨hbehind, hempty⟩ := behind_listClause (piecesIn_listed hR fun x hx =>
    h.piecesIn_built hd hR (by simp [SelectClauses.expressions, hx])) hrows
  refine ⟨_, page, by simp, hbehind, hempty, ?_⟩
  have hordered : (c.select.parts cat d.engine).orderBy.value.truthy = !c.orderBy.isEmpty := by
    rw [Select.parts, Value.value_drafted]
    simp [SelectClauses.select, Value.truthy, Value.tuple]
  rw [← hordered]
  exact isPaging_of_pieces hpage

/-- A SELECT without members is its clauses, led by their keywords in order, and its paging clause. -/
theorem exists_marked_of_single (hm : c.members = [])
    (hp : ((Value.select c.select).built cat d.engine).pieces cat d = .ok ps) :
    ∃ ts clauses page, ps = .token selectMark :: clauses ++ page ∧ Marked (IsContent R) ts clauses ∧
      ts.Sublist (coreMarks ++ if c.orderBy.isEmpty then [] else [orderMark]) ∧
      IsPaging d.engine (!c.orderBy.isEmpty) page := by
  obtain ⟨core, rows, tail, hcore, hrows, htail, rfl⟩ := (Select.pieces_built_eq_ok rfl).1 hp
  have hunions : c.select.unions = .tuple [] := by simp [SelectClauses.select, hm]
  rw [hunions, Drafted.each_tuple] at hrows
  obtain rfl : rows = [] := (Except.ok.inj hrows).symm
  obtain ⟨ts, clauses, rfl, hts, hmarked⟩ := h.exists_marked_core hd hR hcore
  obtain ⟨order, page, rfl, horder, hempty, hpage⟩ := h.exists_closing hd hR htail
  obtain ⟨order?, horder?, hall⟩ := hmarked.clause horder
  by_cases ho : c.orderBy = []
  · rw [hempty ho] at hall ⊢
    exact ⟨ts, clauses, page, by simp, hmarked, by simpa [ho] using hts, hpage⟩
  · refine ⟨_, _, page, by simp, hall, ?_, hpage⟩
    rw [if_neg (by simpa using ho)]
    exact hts.append horder?

omit h hd hR in
/-- Members are linked to what stands before them by their operators. -/
theorem linked_members {members : List (SetOperator × Select)}
    (hm : ∀ m ∈ members, ((Value.select m.2).built cat d.engine).PiecesIn cat d
      (Linked R (Token.IsMark d.engine)))
    (hps : Linked R (Token.IsMark d.engine) ps) {rows : List (List Piece)}
    (hp : List.Forall₂ (fun m qs => (memberOf cat ((SelectClauses.memberValue m).drafted cat
      d.engine)).pieces cat d = .ok qs) members rows) :
    Linked R (Token.IsMark d.engine) (ps ++ rows.flatten) := by
  induction hp generalizing ps with
  | nil => simpa using hps
  | @cons m row members rows hmember hrest ih =>
    rw [List.forall_mem_cons] at hm
    obtain ⟨-, own, hown, rfl⟩ := Select.pieces_member_eq_ok.1 hmember
    have hfirst := hps.append (.member m.1) (hm.1 own hown)
    simpa using ih hm.2 hfirst

/-- A SELECT is phrases with marks between them, if its members are. -/
theorem linked_built (hm : ∀ m ∈ c.members, ((Value.select m.2).built cat d.engine).PiecesIn cat d
      (Linked R (Token.IsMark d.engine))) :
    ((Value.select c.select).built cat d.engine).PiecesIn cat d
      (Linked R (Token.IsMark d.engine)) := by
  intro ps hp
  obtain ⟨core, rows, tail, hcore, hrows, htail, rfl⟩ := (Select.pieces_built_eq_ok rfl).1 hp
  obtain ⟨ts, clauses, rfl, hts, hmarked⟩ := h.exists_marked_core hd hR hcore
  obtain ⟨order, page, rfl, horder, -, hpage⟩ := h.exists_closing hd hR htail
  have hclauses : Linked R (Token.IsMark d.engine) clauses :=
    .ofMarked (hmarked.imp fun _ hps => hps.imp fun _ => .link) fun t ht =>
      .clause (List.mem_cons_of_mem _ (List.mem_append_left _ (hts.subset ht)))
  have hcore := hclauses.lead hR.nil (.clause List.mem_cons_self)
  rw [show c.select.unions = .tuple (c.members.map SelectClauses.memberValue) from rfl,
    Drafted.each_tuple, List.map_map, Draft.piecesAll_map_eq_ok] at hrows
  have hmembers := linked_members hm hcore hrows
  have horder := hmembers.link (.clause (by simp)) (horder.imp fun _ => .link)
  rw [← List.append_assoc]
  rcases hpage with rfl | ⟨l, o, hl, ho, rfl⟩
  · rwa [List.append_nil]
  · exact horder.append (.paging _ hl ho) (.phrase hR.nil)

end SelectClauses.Covered

end Phrases

/-! ## Composed SELECTs -/

/-- A column that occurs in a composed expression has names of the vocabulary. -/
theorem Value.Composed.hasColumn (h : (Value.expr x).Composed cat V) {a : Value} {id : ColumnId}
    (hw : (Expr.column a id).Within x) : V.HasColumn cat id := by
  induction hw with
  | self =>
    cases h with
    | column ha hc => exact hc
  | apply hy hw ih =>
    cases h with
    | apply ha ho h => exact ih (h _ hy)
  | order hw ih =>
    cases h with
    | order descending ha h => exact ih h
  | group hw ih =>
    cases h with
    | group ha h => exact ih h

/-- Clauses of composed expressions that are written as phrases. -/
theorem SelectClauses.covered (ho : ∀ v ∈ c.origins, v.isSource = true)
    (ht : ∀ id, .table id ∈ c.origins → V.HasTable cat id) (hj : ∀ j ∈ c.joins, V.HasJoin j)
    (hc : ∀ x ∈ c.expressions, (Value.expr x).Composed cat V)
    (hx : ∀ x ∈ c.expressions, (x.reference cat d.engine).PiecesIn cat d R) :
    c.Covered cat d V R := by
  refine ⟨ho, ht, hj, hx, fun x hx => (hc x hx).asName, ?_⟩
  rintro x hx id t ⟨y, a, hy, hw⟩ howner
  obtain rfl := Value.expr.inj hy
  exact ((hc _ (by simp [expressions, hx])).hasColumn hw).2 t howner

end SqlCompose
