import Mathlib.Data.List.Flatten
import SqlCompose.Proofs.Compile.Rows
import SqlCompose.Proofs.Expr.Nesting
import SqlCompose.Proofs.Expr.Reading
import SqlCompose.Proofs.Render.Changes
import SqlCompose.Proofs.Render.Unaliased

/-!
# Nested statements

The SQL of a composed expression or statement, read by the rules of its engine for literals and
names, closes every parenthesis that it opens and no other. What a SELECT without members shows
outside of its parentheses are its own clauses, in their order, so a SELECT that is nested in it
stands in parentheses.
-/
namespace SqlCompose

open Piece

variable {cat : Catalog} {e : Engine} {ps : List Piece}

theorem keeps_shows (he : e ≠ .generic) {v : Value} (hv : v.Composed cat (.inert e)) :
    Phrasing.Keeps cat (Dialect.standard e) (fun _ => Shows cat e []) (Shows cat e []) v :=
  (phrasing_shows he).keeps (Dialect.writesText_standard e) hv

/-! ## SELECT -/

/-- The words of a clause. -/
def Token.clauses (t : Token) : List String := Text.clausesOf t.spelling.toList

/-- The keywords of clauses start them, and stand apart from what is around them. -/
theorem Token.apart_of_mem_marks : ∀ t ∈ coreMarks ++ [orderMark],
    t.spelling.toList.all Text.isPlain = true ∧ Text.startsApart t.spelling.toList = true ∧
      Text.endsApart t.spelling.toList = true := by decide

/-- Clauses show their keywords. -/
theorem shows_clauses {ts : List Token} (hm : Marked (Shows cat e []) ts ps)
    (ht : ∀ t ∈ ts, t ∈ coreMarks ++ [orderMark]) : Shows cat e (ts.flatMap Token.clauses) ps := by
  induction hm with
  | phrase h => exact h
  | @mark ts ps qs h t hq ih =>
    obtain ⟨hplain, hstarts, hends⟩ := Token.apart_of_mem_marks t (ht t (by simp))
    have hall := (ih fun u hu => ht u (by simp [hu])).between
      (.ofPlain (Text.ne_nil_of_startsApart hstarts) hplain) hstarts hends hq
    simpa [Token.clauses] using hall

/-- What a paging clause shows behind what it pages. -/
theorem exists_shows_of_isPaging {ordered : Bool} {page : List Piece} {ws : List String}
    (h : Shows cat e ws ps) (hp : IsPaging e ordered page) :
    ∃ us, Shows cat e (ws ++ us) (ps ++ page) ∧ us.Sublist (if ordered then [] else ["ORDER"]) := by
  rcases hp with rfl | ⟨limit, offset, hl, ho, rfl⟩
  · exact ⟨[], by simpa using h, List.nil_sublist _⟩
  · obtain ⟨shown, hparts, hstarts, hsub⟩ := Engine.exists_parts_paging hl ho e ordered
    exact ⟨_, h.behind hparts hstarts, hsub⟩

/-- A SELECT without members shows its own SELECT first, and behind it words that start clauses, each
at most once and in their order. -/
theorem exists_shows_of_single (he : e ≠ .generic) {q : Select}
    (hq : (Value.select q).Composed cat (.inert e)) (hu : q.unions = .tuple [])
    (hp : ((Value.select q).built cat e).pieces cat (Dialect.standard e) = .ok ps) :
    ∃ ws, Shows cat e ("SELECT" :: ws) ps ∧ ws.Sublist Text.clauseWords.tail := by
  have hd := Dialect.writesText_standard e
  cases hq with
  | @select c ho ht hj hx hm =>
    have hcovered : c.Covered cat (Dialect.standard e) (.inert e) (Shows cat e []) :=
      c.covered ho ht hj hx fun x hmem => (keeps_shows he (hx x hmem)).1
    have hmembers : c.members = [] := by
      have hitems := Value.sequence.inj (show Value.tuple _ = Value.tuple [] from hu)
      simpa using hitems.2
    obtain ⟨ts, clauses, page, rfl, hmarked, hts, hpage⟩ :=
      hcovered.exists_marked_of_single hd (covers_shows he) hmembers hp
    have hcalm := hmarked.imp fun qs hqs => Shows.ofLinked (fun _ => Token.IsLink.isApart) hqs
    have hmem : ∀ t ∈ ts, t ∈ coreMarks ++ [orderMark] := by
      intro t ht
      have hin := hts.subset ht
      split at hin
      · exact List.mem_append_left _ (by simpa using hin)
      · exact hin
    have hselect : e.Parts selectMark.spelling.toList selectMark.spelling.toList :=
      .ofPlain (by decide) (by decide)
    have hown := (shows_clauses hcalm hmem).before hselect (by decide)
    obtain ⟨us, hall, hus⟩ := exists_shows_of_isPaging hown hpage
    have hfirst : Text.clausesOf selectMark.spelling.toList = ["SELECT"] := by decide
    rw [hfirst] at hall
    refine ⟨_, hall, ?_⟩
    -- An order comes from the SELECT or from its paging clause, but never from both.
    have hwords : ∀ unordered : Bool, Text.clauseWords.tail
        = (coreMarks ++ if unordered then [] else [orderMark]).flatMap Token.clauses
          ++ if !unordered then [] else ["ORDER"] := by decide
    rw [hwords c.orderBy.isEmpty]
    exact (hts.flatMap Token.clauses).append hus

/-! ## Rows -/

/-- The marks of the statements that change a table. -/
theorem exists_parts_of_mem_changeMarks : ∀ t ∈ [Token.text ", ", .text " ",
    .keyword .before "INSERT INTO", .keyword .between "VALUES", .keyword .before "UPDATE",
    .keyword .between "SET", .operator .between "=", .keyword .before "DELETE FROM",
    .keyword .between "WHERE", .keyword .between "RETURNING"],
    ∃ shown, e.Parts shown t.spelling.toList := by
  intro t ht
  refine ⟨_, .ofPlain ?_ ?_⟩ <;> (revert t; decide)

/-- Rows that close what they open, with commas between them. -/
theorem closes_separated {rows : List (List Piece)} (h : ∀ ps ∈ rows, Closes cat e ps) :
    Closes cat e (Piece.separated (.text ", ") rows) :=
  Closes.ofLinked (fun _ => id) (fun t ht => exists_parts_of_mem_changeMarks t (by simp [ht]))
    (Linked.separated (R := Closes cat e) (T := (· = .text ", ")) Follows.nil.closes rfl
      fun ps hps => .phrase (h ps hps))

theorem closes_commaSeparated {items : List Draft}
    (h : ∀ x ∈ items, x.PiecesIn cat (Dialect.standard e) (Closes cat e)) :
    (Draft.commaSeparated items).PiecesIn cat (Dialect.standard e) (Closes cat e) := by
  intro ps hp
  obtain ⟨rows, hrows, rfl⟩ := Draft.pieces_row_eq_ok.1 hp
  refine closes_separated fun qs hqs => ?_
  obtain ⟨x, hx, hpx⟩ := Draft.mem_piecesAll hrows hqs
  exact h x hx qs hpx

theorem closes_listed {f : Drafted → Draft} {items : List Value}
    (h : ∀ v ∈ items, (f (v.drafted cat e)).PiecesIn cat (Dialect.standard e) (Closes cat e)) :
    (Drafted.listed f ((Value.tuple items).drafted cat e)).PiecesIn cat (Dialect.standard e)
      (Closes cat e) := by
  rw [Drafted.listed, Drafted.items_tuple]
  refine closes_commaSeparated fun x hx => ?_
  obtain ⟨y, hy, rfl⟩ := List.mem_map.1 hx
  obtain ⟨v, hv, rfl⟩ := List.mem_map.1 hy
  exact h v hv

section Changes

variable (he : e ≠ .generic)
include he

theorem closes_built {q : Select} (hq : (Value.select q).Composed cat (.inert e)) :
    ((Value.select q).built cat e).PiecesIn cat (Dialect.standard e) (Closes cat e) :=
  fun ps hp => (phrasing_shows he).statement (keeps_shows he hq ps hp)

/-- A value in a row starts no clause. -/
theorem shows_operand {v : Value} (hv : v.Entry cat (.inert e)) :
    (v.drafted cat e).operand.PiecesIn cat (Dialect.standard e) (Shows cat e []) := by
  induction hv with
  | @composed v h =>
    rw [Value.operand_drafted]
    cases v with
    | expr x =>
      have hx := (keeps_shows he h).1
      rwa [Expr.reference, ← Value.drafted_expr] at hx
    | select q =>
      -- The clauses of a SELECT are not seen outside of its parentheses.
      have hbuilt : (Value.select q).built cat e = ((Value.select q).drafted cat e).whole := by
        rw [Value.built, Drafted.built, Value.value_drafted]
      exact (phrasing_shows he).parenthesized (hbuilt ▸ closes_built he h)
    | _ => cases h
  | @literal v hw hv =>
    have hdraft : (v.drafted cat e).operand = .literal v := by
      rw [Value.operand_drafted]
      cases v <;> first | rfl | cases hv
    intro ps hp
    rw [hdraft, Draft.pieces] at hp
    obtain rfl := Except.ok.inj hp
    exact (phrasing_shows he).value v
  | @sequence form items h ih =>
    intro ps hp
    have hdraft : ((Value.sequence form items).drafted cat e).operand
        = Operator.listDraft ((items.map (·.drafted cat e)).map Drafted.operand) := by
      rw [Value.operand_drafted, ← draftAll_eq_map, Value.drafted]
      rfl
    rw [hdraft, Operator.listDraft] at hp
    split at hp
    · simp [Draft.pieces] at hp
    · refine (phrasing_shows he).parenthesized (closes_commaSeparated fun z hz => ?_) ps hp
      obtain ⟨y, hy, rfl⟩ := List.mem_map.1 hz
      obtain ⟨v, hv, rfl⟩ := List.mem_map.1 hy
      exact fun qs hqs => (ih v hv qs hqs).closes

/-! ## Clauses of changes -/

omit he in
theorem exists_parts_emptyInsert (e : Engine) :
    ∃ shown, e.Parts shown (Token.text (" " ++ e.emptyInsert)).spelling.toList := by
  cases e with
  | mysql =>
    have hnothing : ∀ s : String, s.toList ≠ [] ∧ s.toList.all Text.isPlain = true →
        Engine.mysql.Parts (s.toList ++ ['(', ')']) (s.toList ++ ('(' :: [] ++ [')'])) :=
      fun s hs => (Engine.Parts.ofPlain hs.1 hs.2).append (.bracketed Engine.Continues.nil.isBalanced)
    exact ⟨_, (hnothing " " (by decide)).append (hnothing " VALUES " (by decide))⟩
  | generic | sqlite | postgresql | sqlserver => exact ⟨_, .ofPlain (by decide) (by decide)⟩

omit he in
/-- A clause behind its keyword. -/
theorem follows_of_behind {t : Token} (ht : ∃ shown, e.Parts shown t.spelling.toList)
    (h : Behind (Shows cat e []) Token.IsLink t ps) : Follows cat e ps := by
  rcases h with rfl | ⟨qs, rfl, hq⟩
  · exact .nil
  · exact (Shows.ofLinked (fun _ => Token.IsLink.isApart) hq).closes.led ht

/-- The columns of an INSERT. -/
theorem follows_columns {columns : List (Value × ColumnId)}
    (hc : ∀ a ∈ columns, (Vocabulary.inert e).name (cat.column a.2).name)
    (hp : (columnsDraft cat (.tuple (columns.map columnValue))).pieces cat (Dialect.standard e)
      = .ok ps) : Follows cat e ps := by
  have hcolumn : ∀ v ∈ columns.map columnValue, ∃ a c, v = .expr (.column a c) := by
    intro v hv
    obtain ⟨a, -, rfl⟩ := List.mem_map.1 hv
    exact ⟨_, _, rfl⟩
  obtain rfl := Insert.pieces_columnsDraft (Dialect.writesText_standard e) hcolumn hp
  unfold Insert.columnPieces
  split
  · exact .nil
  · have hnames : Closes cat e (Piece.names (Dialect.standard e)
        ((columns.map columnValue).filterMap (·.columnName? cat))) := by
      refine closes_separated fun ps hps => ?_
      obtain ⟨s, hs, rfl⟩ := List.mem_map.1 hps
      obtain ⟨v, hv, hname⟩ := List.mem_filterMap.1 hs
      obtain ⟨a, ha, rfl⟩ := List.mem_map.1 hv
      obtain rfl := Option.some.inj hname
      exact (Shows.word (Dialect.shows_name he (hc a ha))).closes
    intro cs hcs
    obtain ⟨front, last, hfront, hlast, rfl⟩ := hcs.exists_of_append
    cases hfront with
    | token _ hinner =>
      rw [hlast.eq_of_token]
      have hblank : e.Parts [' '] [' '] := .ofPlain (by decide) (by decide)
      exact (hblank.append (.bracketed (hnames _ hinner))).continues

/-- The rows of an INSERT. -/
theorem closes_rows {rows : List (List Value)} {table columns : Value}
    (hr : ∀ row ∈ rows, ∀ v ∈ row, v.Entry cat (.inert e))
    (hp : (rowsDraft cat table columns ((Value.tuple (rows.map .tuple)).drafted cat e)).pieces cat
      (Dialect.standard e) = .ok ps) : Closes cat e ps := by
  unfold rowsDraft at hp
  cases hw : rowWidth cat table columns with
  | error error => simp [hw, Draft.given, Draft.pieces] at hp
  | ok width =>
    rw [hw, Draft.given] at hp
    refine closes_listed (fun v hv qs hqs => ?_) ps hp
    obtain ⟨values, hvalues, rfl⟩ := List.mem_map.1 hv
    obtain ⟨-, row, hrow, rfl⟩ := Insert.pieces_rowDraft (d := Dialect.standard e) hqs
    have hclosed : Closes cat e (Piece.separated (.text ", ") row) := by
      refine closes_separated fun own hown => ?_
      obtain ⟨z, hz, hpz⟩ := Draft.mem_piecesAll (Draft.piecesAll_map_eq_ok.2 hrow) hown
      obtain ⟨w, hwmem, rfl⟩ := List.mem_map.1 hz
      exact (shows_operand he (hr values hvalues w hwmem) own hpz).closes
    exact (hclosed.brackets rfl rfl).closes

/-- The clauses that a change shares with a SELECT. -/
def changeClauses (filter : Option Expr) (returning : List Expr) : SelectClauses :=
  { filter, fields := returning }

section Shared

variable {filter : Option Expr} {returning : List Expr}
  (hf : ∀ x ∈ filter, (Value.expr x).Composed cat (.inert e))
  (hx : ∀ x ∈ returning, (Value.expr x).Composed cat (.inert e))
include hf hx

theorem covered_changeClauses : (changeClauses filter returning).Covered cat (Dialect.standard e)
    (.inert e) (Shows cat e []) := by
  have hmem : ∀ x ∈ (changeClauses filter returning).expressions,
      (Value.expr x).Composed cat (.inert e) := by
    intro x hmem
    simp only [changeClauses, SelectClauses.expressions, SelectClauses.origins, List.map_nil,
      List.append_nil, List.filterMap_nil, List.mem_append, Option.mem_toList,
      Option.toList_none] at hmem
    rcases hmem with hmem | hmem
    · exact hx x hmem
    · exact hf x hmem
  exact SelectClauses.covered (by simp [changeClauses, SelectClauses.origins])
    (by simp [changeClauses, SelectClauses.origins]) (by simp [changeClauses]) hmem
    fun x h => (keeps_shows he (hmem x h)).1

/-- The condition of a change. -/
theorem follows_where (hp : (whereDraft [] ((Value.ofOption .expr filter).drafted cat e)).pieces cat
    (Dialect.standard e) = .ok ps) : Follows cat e ps :=
  follows_of_behind (exists_parts_of_mem_changeMarks _ (by simp))
    ((covered_changeClauses he hf hx).behind_clause (Dialect.writesText_standard e)
      (covers_shows he) (fun x h => by simp [changeClauses, SelectClauses.expressions, h]) hp)

/-- The fields that a change returns. -/
theorem follows_returning (hp : (returningDraft cat e
    ((Value.tuple (returning.map .expr)).drafted cat e)).pieces cat (Dialect.standard e) = .ok ps) :
    Follows cat e ps := by
  have hd := Dialect.writesText_standard e
  unfold returningDraft at hp
  split at hp
  · obtain rfl := Except.ok.inj hp
    exact .nil
  · rw [Draft.pieces_asking] at hp
    split at hp
    · obtain ⟨keyword, list, hkeyword, hlist, rfl⟩ := Draft.pieces_plus_eq_ok.1 hp
      obtain rfl := Draft.eq_of_pieces_token hkeyword (by decide)
      have hreturned : ∀ x ∈ returning, (returnedDraft cat ((Value.expr x).drafted cat e)).PiecesIn
          cat (Dialect.standard e) (IsContent (Shows cat e [])) := by
        intro x hmem
        rw [returnedDraft, Value.value_drafted]
        have hcomposed := hx x hmem
        split
        · rename_i a id heq
          obtain rfl := Value.expr.inj heq
          refine piecesIn_named hd (covers_shows he) (fun qs hqs => ?_) hcomposed.asName
          obtain rfl := Except.ok.inj ((Draft.pieces_name hd _).symm.trans hqs)
          cases hcomposed with
          | column ha hc => exact .word (Dialect.shows_name he hc.1)
        · exact (covered_changeClauses he hf hx).piecesIn_selected hd (covers_shows he)
            (by simp [changeClauses, SelectClauses.expressions, hmem])
      have hcontent := SelectClauses.Covered.piecesIn_listed (covers_shows he) hreturned list hlist
      exact (Shows.ofLinked (fun _ => Token.IsLink.isApart) hcontent).closes.led
        (exists_parts_of_mem_changeMarks _ (by simp))
    · simp [Draft.pieces] at hp

end Shared

/-! ## INSERT, UPDATE and DELETE -/

/-- What an INSERT puts into its table. -/
theorem follows_content {c : InsertClauses}
    (hc : ∀ a ∈ c.columns, (Vocabulary.inert e).name (cat.column a.2).name)
    (hr : ∀ row ∈ c.rows, ∀ v ∈ row, v.Entry cat (.inert e))
    (hq : ∀ q ∈ c.query, (Value.select q).Composed cat (.inert e)) {returning : Drafted}
    (hp : (InsertParts.content cat e
      { table := .table c.table
        columns := .tuple (c.columns.map columnValue)
        rows := (Value.tuple (c.rows.map .tuple)).drafted cat e
        query := (Value.ofOption .select c.query).drafted cat e
        returning }).pieces cat (Dialect.standard e) = .ok ps) : Follows cat e ps := by
  simp only [InsertParts.content, Value.value_drafted] at hp
  split at hp
  · rename_i hquery
    obtain ⟨q, hsome⟩ : ∃ q, c.query = some q := by
      cases hcase : c.query with
      | none => simp [hcase, Value.ofOption, Value.isNone, Value.none] at hquery
      | some q => exact ⟨q, rfl⟩
    split at hp
    · obtain ⟨-, hfail⟩ := Draft.pieces_before_eq_ok.1 hp
      simp [Draft.pieces] at hfail
    · obtain ⟨front, own, hfront, hown, rfl⟩ := Draft.pieces_plus_eq_ok.1 hp
      obtain ⟨names, blank, hnames, hblank, rfl⟩ := Draft.pieces_plus_eq_ok.1 hfront
      obtain rfl := Draft.eq_of_pieces_token hblank (by decide)
      rw [hsome] at hown
      have hselect := closes_built he (hq q hsome) own hown
      have hled := hselect.led (t := .text " ") (exists_parts_of_mem_changeMarks _ (by simp))
      simpa using (follows_columns he hc hnames).append hled
  · split at hp
    · obtain ⟨front, list, hfront, hlist, rfl⟩ := Draft.pieces_plus_eq_ok.1 hp
      obtain ⟨names, keyword, hnames, hkeyword, rfl⟩ := Draft.pieces_plus_eq_ok.1 hfront
      obtain rfl := Draft.eq_of_pieces_token hkeyword (by decide)
      have hled := (closes_rows he hr hlist).led (t := .keyword .between "VALUES")
        (exists_parts_of_mem_changeMarks _ (by simp))
      simpa using (follows_columns he hc hnames).append hled
    · obtain ⟨-, hempty⟩ := Draft.pieces_before_eq_ok.1 hp
      rw [Draft.pieces_asking] at hempty
      obtain rfl := Draft.eq_of_pieces_token hempty (by cases e <;> decide)
      exact Follows.nil.closes.led (exists_parts_emptyInsert e)

theorem closes_insert {c : InsertClauses} (ht : (Vocabulary.inert e).name (cat.table c.table).name)
    (hc : ∀ a ∈ c.columns, (Vocabulary.inert e).name (cat.column a.2).name)
    (hr : ∀ row ∈ c.rows, ∀ v ∈ row, v.Entry cat (.inert e))
    (hq : ∀ q ∈ c.query, (Value.select q).Composed cat (.inert e))
    (hx : ∀ x ∈ c.returning, (Value.expr x).Composed cat (.inert e))
    (hp : ((Value.insert c.insert).built cat e).pieces cat (Dialect.standard e) = .ok ps) :
    Closes cat e ps := by
  have hd := Dialect.writesText_standard e
  have hdraft : (Value.insert c.insert).built cat e = InsertParts.draft cat e
      { table := .table c.table
        columns := .tuple (c.columns.map columnValue)
        rows := (Value.tuple (c.rows.map .tuple)).drafted cat e
        query := (Value.ofOption .select c.query).drafted cat e
        returning := (Value.tuple (c.returning.map .expr)).drafted cat e } := rfl
  have hname : (Value.table c.table).get cat "name" = .ok (.text (cat.table c.table).name) := rfl
  rw [hdraft, InsertParts.draft, hname, Draft.given] at hp
  split at hp
  · simp [Draft.pieces] at hp
  · dsimp only at hp
    cases hcheck : checkOwned cat (.table c.table) (.tuple (c.columns.map columnValue)) with
    | error error => simp [hcheck, Draft.guarded, Draft.pieces] at hp
    | ok u =>
      rw [hcheck, Draft.guarded] at hp
      obtain ⟨front, returned, hfront, hreturned, rfl⟩ := Draft.pieces_plus_eq_ok.1 hp
      obtain ⟨start, content, hstart, hcontent, rfl⟩ := Draft.pieces_plus_eq_ok.1 hfront
      obtain ⟨keyword, name, hkeyword, hname, rfl⟩ := Draft.pieces_plus_eq_ok.1 hstart
      obtain rfl := Draft.eq_of_pieces_token hkeyword (by decide)
      obtain rfl := Except.ok.inj ((Draft.pieces_name hd _).symm.trans hname)
      have htable : Shows cat e [] [.word (quoteName _ (cat.table c.table).name)] :=
        .word (Dialect.shows_name he ht)
      have hled := htable.closes.led (t := .keyword .before "INSERT INTO")
        (exists_parts_of_mem_changeMarks _ (by simp))
      have hnone : ∀ x ∈ (none : Option Expr), (Value.expr x).Composed cat (.inert e) := by simp
      exact ((hled.append (follows_content he hc hr hq hcontent)).append
        (follows_returning he hnone hx hreturned)).closes

/-- The table that a statement changes. -/
theorem closes_table {id : TableId} (ht : (Vocabulary.inert e).HasTable cat id)
    (hp : ((Value.table id).drafted cat e).built.pieces cat (Dialect.standard e) = .ok ps) :
    Closes cat e ps :=
  (Shows.ofLinked (fun _ => Token.IsLink.isApart) (piecesIn_tableDraft
    (Dialect.writesText_standard e) (covers_shows he) ht ps hp)).closes

/-- An assignment to a column. -/
theorem closes_assignment {a : (Value × ColumnId) × Value}
    (hc : (Vocabulary.inert e).name (cat.column a.1.2).name) (hv : a.2.Entry cat (.inert e))
    (hp : (assignmentDraft cat ((assignmentValue a).drafted cat e)).pieces cat (Dialect.standard e)
      = .ok ps) : Closes cat e ps := by
  have hdraft : assignmentDraft cat ((assignmentValue a).drafted cat e)
      = nameDraft (cat.column a.1.2).name + .operator .between "="
        + (a.2.drafted cat e).operand := rfl
  rw [hdraft] at hp
  obtain ⟨front, own, hfront, hown, rfl⟩ := Draft.pieces_plus_eq_ok.1 hp
  obtain ⟨name, sign, hname, hsign, rfl⟩ := Draft.pieces_plus_eq_ok.1 hfront
  obtain rfl := Draft.eq_of_pieces_token hsign (by decide)
  obtain rfl := Except.ok.inj
    ((Draft.pieces_name (Dialect.writesText_standard e) _).symm.trans hname)
  have hall := (Shows.word (Dialect.shows_name he hc)).apart (t := .operator .between "=") (by decide)
    (shows_operand he hv own hown)
  rw [List.append_assoc]
  exact hall.closes

theorem closes_update {c : UpdateClauses} (ht : (Vocabulary.inert e).HasTable cat c.table)
    (hc : ∀ a ∈ c.assignments, (Vocabulary.inert e).name (cat.column a.1.2).name)
    (hv : ∀ a ∈ c.assignments, a.2.Entry cat (.inert e))
    (hf : ∀ x ∈ c.filter, (Value.expr x).Composed cat (.inert e))
    (hx : ∀ x ∈ c.returning, (Value.expr x).Composed cat (.inert e))
    (hp : ((Value.update c.update).built cat e).pieces cat (Dialect.standard e) = .ok ps) :
    Closes cat e ps := by
  have hdraft : (Value.update c.update).built cat e = UpdateParts.draft cat e
      { filter := (Value.ofOption .expr c.filter).drafted cat e
        table := (Value.table c.table).drafted cat e
        assignments := (Value.tuple (c.assignments.map assignmentValue)).drafted cat e
        returning := (Value.tuple (c.returning.map .expr)).drafted cat e
        extras := [] } := rfl
  rw [hdraft, UpdateParts.draft] at hp
  split at hp
  · simp [Draft.pieces] at hp
  · dsimp only at hp
    rw [Value.value_drafted] at hp
    cases hcheck : checkAssignments cat (.table c.table)
        ((Value.tuple (c.assignments.map assignmentValue)).drafted cat e) with
    | error error => simp [hcheck, Draft.guarded, Draft.pieces] at hp
    | ok u =>
      rw [hcheck, Draft.guarded] at hp
      obtain ⟨front, returned, hfront, hreturned, rfl⟩ := Draft.pieces_plus_eq_ok.1 hp
      obtain ⟨start, condition, hstart, hcondition, rfl⟩ := Draft.pieces_extend_eq_ok.1 hfront
      obtain ⟨lead, list, hlead, hlist, rfl⟩ := Draft.pieces_extend_eq_ok.1 hstart
      obtain ⟨named, set, hnamed, hset, rfl⟩ := Draft.pieces_plus_eq_ok.1 hlead
      obtain ⟨keyword, table, hkeyword, htable, rfl⟩ := Draft.pieces_plus_eq_ok.1 hnamed
      obtain rfl := Draft.eq_of_pieces_token hkeyword (by decide)
      obtain rfl := Draft.eq_of_pieces_token hset (by decide)
      have hassigned : Closes cat e list := by
        refine closes_listed (fun v hvmem qs hqs => ?_) list hlist
        obtain ⟨a, ha, rfl⟩ := List.mem_map.1 hvmem
        exact closes_assignment he (hc a ha) (hv a ha) hqs
      have hlead := (closes_table he ht htable).led (t := .keyword .before "UPDATE")
        (exists_parts_of_mem_changeMarks _ (by simp))
      have hset := hassigned.led (t := .keyword .between "SET")
        (exists_parts_of_mem_changeMarks _ (by simp))
      have hall := ((hlead.append hset).append (follows_where he hf hx hcondition)).append
        (follows_returning he hf hx hreturned)
      simpa using hall.closes

theorem closes_delete {c : DeleteClauses} (ht : (Vocabulary.inert e).HasTable cat c.table)
    (hf : ∀ x ∈ c.filter, (Value.expr x).Composed cat (.inert e))
    (hx : ∀ x ∈ c.returning, (Value.expr x).Composed cat (.inert e))
    (hp : ((Value.delete c.delete).built cat e).pieces cat (Dialect.standard e) = .ok ps) :
    Closes cat e ps := by
  have hdraft : (Value.delete c.delete).built cat e = deleteDraft cat e
      ((Value.ofOption .expr c.filter).drafted cat e) ((Value.table c.table).drafted cat e)
      ((Value.tuple (c.returning.map .expr)).drafted cat e) [] := rfl
  rw [hdraft, deleteDraft] at hp
  obtain ⟨front, returned, hfront, hreturned, rfl⟩ := Draft.pieces_plus_eq_ok.1 hp
  obtain ⟨start, condition, hstart, hcondition, rfl⟩ := Draft.pieces_extend_eq_ok.1 hfront
  obtain ⟨keyword, table, hkeyword, htable, rfl⟩ := Draft.pieces_plus_eq_ok.1 hstart
  obtain rfl := Draft.eq_of_pieces_token hkeyword (by decide)
  have hlead := (closes_table he ht htable).led (t := .keyword .before "DELETE FROM")
    (exists_parts_of_mem_changeMarks _ (by simp))
  exact ((hlead.append (follows_where he hf hx hcondition)).append
    (follows_returning he hf hx hreturned)).closes

end Changes

/-! ## Compiled text -/

/-- The alias of an expression starts no clause. -/
theorem shows_alias (he : e ≠ .generic) {x : Expr} (ha : (Vocabulary.inert e).IsAlias x.asName)
    (h : Shows cat e [] ps) : Shows cat e [] (ps ++ x.aliasPieces (Dialect.standard e)) := by
  cases x with
  | column a id =>
    rw [Expr.aliasPieces]
    split
    · rename_i ht
      obtain ⟨s, rfl, hs⟩ := ha ht
      exact h.apart (by decide) (.word (Dialect.shows_name he hs))
    · rwa [List.append_nil]
  | _ => simpa [Expr.aliasPieces] using h

theorem closes_stated (he : e ≠ .generic) {v : Value} (hv : v.Stated cat (.inert e))
    (hp : (v.built cat e).pieces cat (Dialect.standard e) = .ok ps) : Closes cat e ps := by
  cases hv with
  | composed h =>
    cases v with
    | expr x =>
      obtain ⟨own, hown, rfl⟩ :=
        Expr.pieces_built (Dialect.writesText_standard e) h.asName.isAlias hp
      exact (shows_alias he h.asName ((keeps_shows he h).1 own hown)).closes
    | select q => exact closes_built he h ps hp
    | _ => cases h
  | insert ht hc hr hq hx => exact closes_insert he ht hc hr hq hx hp
  | update ht hc hv hf hx => exact closes_update he ht (fun a ha => (hc a ha).2) hv hf hx hp
  | delete ht hf hx => exact closes_delete he ht hf hx hp

/-- In the SQL of an expression or a statement all parentheses close one another, and no literal and
no name is left open, however values are marked. Outside of parentheses, literals and names a SELECT
without members has its own SELECT and behind it the first words of its clauses, each at most once
and in their order: all SELECTs that are nested in it stand in parentheses. -/
theorem nested_statements_enclosed (he : e ≠ .generic) {v : Value} (hv : v.Stated cat (.inert e))
    {style : PlaceholderStyle} {binding : Bool} {c : Compiled}
    (hc : compile cat ((Dialect.standard e).marking style binding) v = .ok c) :
    ∃ s : String, c.sql = .text s ∧ e.IsBalanced s.toList ∧
      ∀ q : Select, v = .select q → q.unions = .tuple [] →
        ∃ ws, Text.clausesOf (e.outline (.code, 0) s.toList) = "SELECT" :: ws ∧
          ws.Sublist Text.clauseWords.tail := by
  obtain ⟨ps, s, hp, hs, hwritten⟩ := Draft.exists_written_of_outcome (Dialect.writesText_standard e)
    (hv.wellFormed.settled cat e).built (compile_eq_ok_iff_outcome.1 hc)
  refine ⟨s, hs, closes_stated he hv hp _ hwritten, ?_⟩
  rintro q rfl hu
  cases hv with
  | composed h =>
    obtain ⟨ws, hshows, hsub⟩ := exists_shows_of_single he h hu hp
    obtain ⟨z, -, -, houtline⟩ := hshows _ hwritten
    exact ⟨ws, houtline, hsub⟩

/-- The clauses of a page of a column. -/
def SelectClauses.ofPage (size : Int) : SelectClauses :=
  { fields := [.column .none ⟨0⟩], limit := some size }

/-- The clauses of a page of a column and of a page nested in it, where another column is a text. -/
def SelectClauses.ofPages (s : String) : SelectClauses :=
  { fields := [.column .none ⟨0⟩, .subquery .none (.select (ofPage 1).select)]
    filter := some (.apply .none .binary "=" [.column .none ⟨1⟩, .literal .none (.text s) none])
    limit := some 2 }

theorem nested_statements_enclosed_pages :
    Engine.sqlserver ≠ .generic ∧
    (Value.select (SelectClauses.ofPages "') FROM (").select).Stated (.ofPair "a]" "b(")
      (.inert .sqlserver) ∧
    ∃ s, s = "SELECT [t].[a]]], (SELECT [t].[a]]] FROM [t] ORDER BY (SELECT NULL) " ++
        "OFFSET 0 ROWS FETCH NEXT 1 ROWS ONLY) FROM [t] WHERE [t].[b(] = ''') FROM (' " ++
        "ORDER BY (SELECT NULL) OFFSET 0 ROWS FETCH NEXT 2 ROWS ONLY" ∧
      Engine.sqlserver.IsBalanced s.toList ∧
      ∃ ws, Text.clausesOf (Engine.sqlserver.outline (.code, 0) s.toList) = "SELECT" :: ws ∧
        ws.Sublist Text.clauseWords.tail := by
  have hnone : (Vocabulary.inert .sqlserver).IsAlias .none := fun h => absurd h (by decide)
  have hcolumn : ∀ id ∈ [(⟨0⟩ : ColumnId), ⟨1⟩], (Value.expr (.column .none id)).Composed
      (.ofPair "a]" "b(") (.inert .sqlserver) := by
    have hnames : ∀ id ∈ [(⟨0⟩ : ColumnId), ⟨1⟩],
        ¬(Dialect.standardQuote .sqlserver).1.toList
          <+: ((Catalog.ofPair "a]" "b(").column id).name.toList ∧
        (Catalog.ofPair "a]" "b(").owner id = some ⟨0⟩ := by decide
    intro id hid
    refine .column hnone ⟨(hnames id hid).1, fun t ht => ?_⟩
    obtain rfl := Option.some.inj ((hnames id hid).2.symm.trans ht)
    exact ⟨by simp only [Vocabulary.inert]; decide, fun s hs => by cases hs⟩
  have hpage : (Value.select (SelectClauses.ofPage 1).select).Composed (.ofPair "a]" "b(")
      (.inert .sqlserver) :=
    .select nofun nofun nofun (List.forall_mem_singleton.2 (hcolumn _ (by simp))) nofun
  have hcondition : (Value.expr (.apply .none .binary "=" [.column .none ⟨1⟩,
      .literal .none (.text "') FROM (") none])).Composed (.ofPair "a]" "b(") (.inert .sqlserver) :=
    .apply hnone (List.mem_append_right _ (by decide)) (List.forall_mem_cons.2
      ⟨hcolumn _ (by simp), List.forall_mem_singleton.2 (.literal _ _ hnone)⟩)
  have hpages : (Value.select (SelectClauses.ofPages "') FROM (").select).Composed
      (.ofPair "a]" "b(") (.inert .sqlserver) :=
    .select nofun nofun nofun (List.forall_mem_cons.2 ⟨hcolumn _ (by simp), List.forall_mem_cons.2
      ⟨.subquery hnone hpage, List.forall_mem_singleton.2 hcondition⟩⟩) nofun
  refine ⟨nofun, .composed hpages, ?_⟩
  -- The sizes of pages are compared with the largest number that is written, a power too large to
  -- be unfolded.
  have hc : ((compile (.ofPair "a]" "b(") ((Dialect.standard .sqlserver).marking .qmark false)
      (.select (SelectClauses.ofPages "') FROM (").select)).toOption.bind fun c => c.sql.text?)
        = some ("SELECT [t].[a]]], (SELECT [t].[a]]] FROM [t] ORDER BY (SELECT NULL) " ++
          "OFFSET 0 ROWS FETCH NEXT 1 ROWS ONLY) FROM [t] WHERE [t].[b(] = ''') FROM (' " ++
          "ORDER BY (SELECT NULL) OFFSET 0 ROWS FETCH NEXT 2 ROWS ONLY") := by decide +kernel
  obtain ⟨c, hok, htext⟩ := Option.bind_eq_some_iff.1 hc
  cases hcompiled : compile (.ofPair "a]" "b(")
      ((Dialect.standard .sqlserver).marking .qmark false)
      (.select (SelectClauses.ofPages "') FROM (").select) with
  | error error => simp [hcompiled, Except.toOption] at hok
  | ok c =>
    obtain ⟨s, hs, hbalanced, hwords⟩ :=
      nested_statements_enclosed (e := .sqlserver) nofun (.composed hpages) hcompiled
    rw [hcompiled] at hok
    obtain rfl := Option.some.inj hok
    rw [hs] at htext
    exact ⟨s, Option.some.inj htext, hbalanced, hwords _ rfl rfl⟩

/-- The functions and joins of SQL start no clause. -/
example : ∀ s ∈ ["UCASE", "LCASE", "UPPER", "LOWER", "TRIM", "LTRIM", "RTRIM", "MID", "LEN", "ROUND",
    "POWER", "CONCAT", "COALESCE", "NOW", "COUNT", "SUM", "AVG", "MIN", "MAX", "FIRST", "LAST",
    "INNER", "LEFT OUTER", "RIGHT OUTER", "FULL OUTER", "CROSS", "NATURAL"], Text.IsInert s := by decide

/-- A SELECT that is put among the sources as it is, and not as a subquery, stands in no parentheses.
-/
theorem bare_source_not_enclosed :
    let inner : SelectClauses := { fields := [.column .none ⟨0⟩] }
    let outer : SelectClauses := { sources := [.select inner.select] }
    let sql := "SELECT * FROM SELECT \"t\".\"a\" FROM \"t\""
    outer.select.unions = .tuple [] ∧
    compile (.ofPair "a" "b") (.standard .sqlite) (.select outer.select) = .ok ⟨.text sql, []⟩ ∧
    ¬(Text.clausesOf (Engine.sqlite.outline (.code, 0) sql.toList)).Sublist Text.clauseWords :=
  ⟨rfl, rfl, by decide⟩

end SqlCompose
