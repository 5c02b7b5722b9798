import SqlCompose.Proofs.Render.Settled

/-!
# The pieces of a SELECT

A SELECT is written with its own clauses first, then with its members, each behind its set operator,
and at last with its order and its bounds.
-/
namespace SqlCompose

variable {cat : Catalog} {d : Dialect} {q : Select} {ps : List Piece}

theorem Drafted.items_tuple (e : Engine) (vs : List Value) :
    ((Value.tuple vs).drafted cat e).items = .ok (vs.map (·.drafted cat e)) :=
  congrArg Except.ok (draftAll_eq_map cat e vs)

theorem Drafted.pair_tuple (e : Engine) (v w : Value) :
    ((Value.tuple [v, w]).drafted cat e).pair = .ok (v.drafted cat e, w.drafted cat e) := rfl

theorem Drafted.each_tuple (e : Engine) (f : Drafted → Draft) (vs : List Value) :
    ((Value.tuple vs).drafted cat e).each f = vs.map fun v => f (v.drafted cat e) := by
  rw [Drafted.each, Drafted.items_tuple]
  exact List.map_map

/-- The drafted clauses of a SELECT. -/
def Select.parts (cat : Catalog) (e : Engine) (q : Select) : SelectParts where
  filter := q.filter.drafted cat e
  fields := q.fields.drafted cat e
  sources := q.sources.drafted cat e
  joins := q.joins.drafted cat e
  groupBy := q.groupBy.drafted cat e
  having := q.having.drafted cat e
  orderBy := q.orderBy.drafted cat e
  unions := q.unions.drafted cat e
  limit := q.limit
  offset := q.offset
  distinct := q.distinct
  extras := q.extras

theorem Select.built_eq_draft {q : Select} {e : Engine} (hx : q.extras.lookup "build" = none) :
    (Value.select q).built cat e = (q.parts cat e).draft cat e := by
  obtain ⟨filter, fields, sources, joins, groupBy, having, orderBy, unions, limit, offset, distinct,
    extras⟩ := q
  have hnone : (Value.select ⟨filter, fields, sources, joins, groupBy, having, orderBy, unions, limit,
    offset, distinct, extras⟩).extras.lookup "build" = none := hx
  rw [Value.built, Value.drafted, Select.drafted, Drafted.ofStatement, hnone]
  rfl

namespace SelectParts

/-- The clauses of a SELECT before its members. -/
def coreClauses (sources : List Draft) (p : SelectParts) : List Draft :=
  (if p.distinct.truthy then [.text "DISTINCT "] else [])
    ++ [p.fieldList]
    ++ (if sources.isEmpty then []
      else [Draft.keyword .between "FROM" + .commaSeparated sources])
    ++ p.joins.each (fun j => Draft.text " " + j.built)
    ++ [whereDraft p.extras p.filter]
    ++ p.groupBy.listClause "GROUP BY" Drafted.reference
    ++ p.having.optionalClause "HAVING"

/-- A SELECT without members, order and bounds. -/
def core (cat : Catalog) (p : SelectParts) : Draft :=
  .given (sourceDrafts cat p.extras p.sources p.fields p.joins) fun sources =>
    if !p.fields.value.truthy ∧ sources.isEmpty then .fail .emptySelect
    else (Draft.keyword .before "SELECT").continued (p.coreClauses sources)

/-- What stands behind the members of a SELECT: its order and its bounds. -/
def closing (cat : Catalog) (e : Engine) (p : SelectParts) : Draft :=
  paged cat e p.limit p.offset p.orderBy.value.truthy
    (Draft.empty.continued (p.orderBy.listClause "ORDER BY" Drafted.built))

theorem clauses_eq_append (sources : List Draft) (p : SelectParts) : p.clauses cat sources
    = p.coreClauses sources
      ++ (p.unions.each (memberOf cat) ++ p.orderBy.listClause "ORDER BY" Drafted.built) := by
  rw [← List.append_assoc]
  rfl

end SelectParts

/-- A paging clause stands behind what it pages. -/
theorem pieces_paged_eq_ok {e : Engine} {limit offset : Value} {ordered : Bool} {x : Draft} :
    (paged cat e limit offset ordered x).pieces cat d = .ok ps ↔
      ∃ xs page, x.pieces cat d = .ok xs ∧
        (paged cat e limit offset ordered .empty).pieces cat d = .ok page ∧ ps = xs ++ page := by
  have hempty : Draft.empty.pieces cat d = .ok [] := rfl
  unfold paged
  split
  · have hall : ∀ (x : Draft) (ps : List Piece),
        (Draft.checked x (.ask "limit_clause")).pieces cat d = .ok ps ↔ x.pieces cat d = .ok ps :=
      fun x ps => Draft.pieces_checked_eq_ok.trans (and_iff_left ⟨[], by rw [Draft.pieces]⟩)
    simp [hall, hempty]
  · simp [Draft.pieces_extend_eq_ok, hempty]
  · simp [Draft.pieces_extend_eq_ok, hempty]

/-- The pieces of a SELECT: its own clauses, its members, and what stands behind them. -/
theorem SelectParts.pieces_draft_eq_ok {p : SelectParts} {e : Engine} :
    (p.draft cat e).pieces cat d = .ok ps ↔ ∃ core rows tail, (p.core cat).pieces cat d = .ok core ∧
      Draft.piecesAll cat d (p.unions.each (memberOf cat)) = .ok rows ∧
      (p.closing cat e).pieces cat d = .ok tail ∧ ps = core ++ rows.flatten ++ tail := by
  unfold draft core closing
  cases sourceDrafts cat p.extras p.sources p.fields p.joins with
  | error error => simp [Draft.given, Draft.pieces]
  | ok sources =>
    simp only [Draft.given]
    split
    · simp [Draft.pieces]
    · have hempty : Draft.empty.pieces cat d = .ok [] := rfl
      rw [clauses_eq_append, pieces_paged_eq_ok]
      simp only [Draft.pieces_continued_eq_ok, Draft.piecesAll_append_eq_ok]
      constructor
      · rintro ⟨-, page, ⟨xs, -, hx, ⟨own, -, hown, ⟨rows, terms, hrows, hterms, rfl⟩, rfl⟩, rfl⟩,
          hpage, rfl⟩
        have horder := Draft.pieces_continued_eq_ok.2 ⟨[], terms, hempty, hterms, rfl⟩
        exact ⟨_, rows, _, ⟨xs, own, hx, hown, rfl⟩, hrows,
          pieces_paged_eq_ok.2 ⟨_, page, horder, hpage, rfl⟩, by simp⟩
      · rintro ⟨-, rows, tail, ⟨xs, own, hx, hown, rfl⟩, hrows, htail, rfl⟩
        obtain ⟨order, page, horder, hpage, rfl⟩ := pieces_paged_eq_ok.1 htail
        obtain ⟨none, terms, hnone, hterms, rfl⟩ := Draft.pieces_continued_eq_ok.1 horder
        obtain rfl := Except.ok.inj (hempty.symm.trans hnone)
        exact ⟨_, page, ⟨xs, _, hx, ⟨own, _, hown, ⟨rows, terms, hrows, hterms, rfl⟩, rfl⟩, rfl⟩,
          hpage, by simp⟩

/-- A SELECT is paged if it has an order or bounds. -/
theorem Value.isPaged_select (q : Select) :
    (Value.select q).isPaged cat = .ok (q.orderBy.truthy || !q.limit.isNone || !q.offset.isNone) := by
  have horder : (Value.select q).get cat "order_by_fields" = .ok q.orderBy := rfl
  have hlimit : (Value.select q).get cat "limit_value" = .ok q.limit := rfl
  have hoffset : (Value.select q).get cat "offset_value" = .ok q.offset := rfl
  simp only [Value.isPaged, horder, hlimit, hoffset]
  cases ho : q.orderBy.truthy <;> cases hl : q.limit.isNone <;>
    simp [ho, hl, bind, Except.bind, pure, Except.pure]

namespace Select

/-- Behind a SELECT without an order and bounds stands nothing. -/
theorem pieces_closing_of_unpaged (h : (Value.select q).isPaged cat = .ok false)
    (hp : ((q.parts cat d.engine).closing cat d.engine).pieces cat d = .ok ps) : ps = [] := by
  rw [Value.isPaged_select, Except.ok.injEq] at h
  simp only [Bool.or_eq_false_iff, Bool.not_eq_false'] at h
  obtain ⟨⟨horder, hlimit⟩, hoffset⟩ := h
  have hpaging : ∀ ordered, pagingClause cat d.engine q.limit q.offset ordered = .ok "" := by
    intro ordered
    rw [pagingClause, Value.bound?, Value.bound?, if_pos hlimit, if_pos hoffset]
    split <;> exact congrArg Except.ok (Engine.limitClause_none d.engine ordered)
  have hlist : (q.orderBy.drafted cat d.engine).listClause "ORDER BY" Drafted.built = [] := by
    rw [Drafted.listClause, Value.value_drafted, horder]
    rfl
  have hclosing : (q.parts cat d.engine).closing cat d.engine
      = .checked .empty (.ask "limit_clause") := by
    rw [SelectParts.closing, paged]
    simp [parts, hpaging, hlist, Draft.continued]
  rw [hclosing, Draft.pieces_checked_eq_ok] at hp
  exact (Except.ok.inj hp.1).symm

/-- The pieces of a SELECT: its own clauses, its members, and what stands behind them. -/
theorem pieces_built_eq_ok (hx : q.extras = []) :
    ((Value.select q).built cat d.engine).pieces cat d = .ok ps ↔ ∃ own rows tail,
      ((q.parts cat d.engine).core cat).pieces cat d = .ok own ∧
      Draft.piecesAll cat d ((q.unions.drafted cat d.engine).each (memberOf cat)) = .ok rows ∧
      ((q.parts cat d.engine).closing cat d.engine).pieces cat d = .ok tail ∧
      ps = own ++ rows.flatten ++ tail := by
  rw [built_eq_draft (congrArg (List.lookup "build") hx)]
  exact SelectParts.pieces_draft_eq_ok

/-- A member is a SELECT without an order and bounds behind its operator. -/
theorem pieces_member_eq_ok {op : SetOperator} : (memberOf cat ((Value.tuple
    [.text op.keyword, .select q]).drafted cat d.engine)).pieces cat d = .ok ps ↔
      (Value.select q).isPaged cat = .ok false ∧
      ∃ own, ((Value.select q).built cat d.engine).pieces cat d = .ok own ∧
        ps = .token (.keyword .between op.keyword) :: own := by
  have hlabel : (Value.text op.keyword).label cat = .ok op.keyword := rfl
  obtain ⟨isPaged, hpaged⟩ : ∃ b, (Value.select q).isPaged cat = .ok b := ⟨_, Value.isPaged_select q⟩
  rw [memberOf, Drafted.pair_tuple, Draft.given]
  simp only [Value.value_drafted, hlabel, hpaged]
  cases isPaged with
  | true => simp [Draft.given, Draft.pieces]
  | false =>
    have hword : (Draft.keyword .between op.keyword).pieces cat d
        = .ok [.token (.keyword .between op.keyword)] := rfl
    have hown : ((Value.select q).drafted cat d.engine).built
        = (Value.select q).built cat d.engine := rfl
    have hplus : (Draft.keyword .between op.keyword + (Value.select q).built cat d.engine).pieces
        cat d = .ok ps ↔ ∃ word own, (Draft.keyword .between op.keyword).pieces cat d = .ok word ∧
          ((Value.select q).built cat d.engine).pieces cat d = .ok own ∧ ps = word ++ own :=
      Draft.pieces_plus_eq_ok
    simp [Draft.given, hplus, hword, hown]

end Select

end SqlCompose
