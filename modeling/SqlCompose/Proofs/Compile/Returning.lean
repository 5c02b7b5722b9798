import SqlCompose.Proofs.Compile.Parameter
import SqlCompose.Proofs.Compile.Retargeting
import SqlCompose.Proofs.Render.Confined
import SqlCompose.Proofs.Render.TableChange

/-!
# What a compiled change returns

An INSERT, UPDATE or DELETE names its table first and lists last what it returns. A column that is
listed by itself stands there without its table, whichever table it belongs to; in any other field
the columns stand behind the name of their table, which is its alias if it has one. An INSERT does
not say the alias of its table.
-/
namespace SqlCompose

variable {cat : Catalog} {d : Dialect} {t : TableId} {fields : List Value}

/-- The pieces of an alias, if there is one. -/
def Piece.alias (d : Dialect) (a : Value) : List Piece :=
  if a.truthy then
    [.token (.keyword .between "AS"), .word (quoteName d.identifierQuote (a.text?.getD ""))]
  else []

namespace TableChange

/-- The pieces with which a change begins: the words for it, and the table with the alias that the
change says. -/
def targetPieces (cat : Catalog) (d : Dialect) (t : TableId) : TableChange → List Piece
  | insert _ => [.token (.keyword .before "INSERT INTO"),
      .word (quoteName d.identifierQuote (cat.table t).name)]
  | update _ => .token (.keyword .before "UPDATE")
      :: .word (quoteName d.identifierQuote (cat.table t).name)
      :: Piece.alias d (.ofOption .text (cat.table t).asName)
  | delete _ => .token (.keyword .before "DELETE FROM")
      :: .word (quoteName d.identifierQuote (cat.table t).name)
      :: Piece.alias d (.ofOption .text (cat.table t).asName)

/-- The name that a change introduces for its table. -/
def introduces (cat : Catalog) (t : TableId) : TableChange → String
  | insert _ => (cat.table t).name
  | update _ | delete _ => (cat.table t).nameInQuery

theorem alias_eq_nil_or (d : Dialect) (t : Table) :
    (t.nameInQuery = t.name ∧ Piece.alias d (.ofOption .text t.asName) = []) ∨
      Piece.alias d (.ofOption .text t.asName) = [.token (.keyword .between "AS"),
        .word (quoteName d.identifierQuote t.nameInQuery)] := by
  unfold Table.nameInQuery Piece.alias
  cases t.asName with
  | none => exact .inl ⟨rfl, rfl⟩
  | some a =>
    by_cases ha : a = ""
    · subst ha
      exact .inl ⟨rfl, rfl⟩
    · have htruthy : (Value.text a).truthy = true := by
        simpa [Value.text, Value.truthy, Scalar.truthy] using ha
      have hname : ((some a).filter (· ≠ "")).getD t.name = a := by
        rw [Option.filter_some, if_pos (by simpa using ha), Option.getD_some]
      right
      rw [hname]
      exact if_pos htruthy

/-- The words with which a change begins end in the name that it introduces. -/
theorem exists_targetPieces_eq (s : TableChange) : ∃ front, s.targetPieces cat d t
    = front ++ [.word (quoteName d.identifierQuote (s.introduces cat t))] := by
  cases s with
  | insert q => exact ⟨[_], rfl⟩
  | _ q =>
    unfold targetPieces introduces
    rcases alias_eq_nil_or d (cat.table t) with ⟨hname, halias⟩ | halias
    · rw [hname, halias]
      exact ⟨[_], rfl⟩
    · rw [halias]
      exact ⟨[_, _, _], rfl⟩

end TableChange

/-! ## Fields that are returned -/

/-- The pieces of a RETURNING clause, if anything is returned. -/
def Piece.returning (rows : List (List Piece)) : List Piece :=
  if rows = [] then []
  else .token (.keyword .between "RETURNING") :: separated (.text ", ") rows

/-- The pieces of a column behind the name of its table. -/
def Piece.qualified (d : Dialect) (qualifier name : String) : List Piece :=
  [.word (quoteName d.identifierQuote qualifier), .token (.text "."),
    .word (quoteName d.identifierQuote name)]

/-- Whether a returned field is written with given pieces: a column as its bare name, and anything
else as in a SELECT list, with the columns and the subqueries that occur in it. -/
inductive Value.ReturnedAs (cat : Catalog) (d : Dialect) : Value → List Piece → Prop
  | bare (a : Value) (id : ColumnId) : ReturnedAs cat d (.expr (.column a id))
      (.word (quoteName d.identifierQuote (cat.column id).name) :: Piece.alias d a)
  | whole {x : Expr} {row : List Piece} (hx : ∀ a id, x ≠ .column a id)
    (hp : (x.selected cat d.engine).pieces cat d = .ok row)
    (hc : (x.selected cat d.engine).Confined cat (fun id => ∃ a, (Expr.column a id).Within x)
      fun y => ∃ a body, (Expr.subquery a body).Within x ∧ y = body.built cat d.engine) :
    ReturnedAs cat d (.expr x) row

theorem Draft.pieces_named (hd : d.WritesText) {x : Draft} {a : Value} (ha : a.IsAlias)
    {ps : List Piece} (hp : (x.named a).pieces cat d = .ok ps) :
    ∃ xs, x.pieces cat d = .ok xs ∧ ps = xs ++ Piece.alias d a := by
  unfold Draft.named at hp
  unfold Piece.alias
  by_cases htruthy : a.truthy = true
  · rw [if_pos htruthy] at hp ⊢
    obtain ⟨s, rfl⟩ := ha htruthy
    obtain ⟨xs, ys, hx, hy, rfl⟩ := Draft.pieces_extend_eq_ok.1 hp
    obtain ⟨keyword, name, hkeyword, hname, rfl⟩ := Draft.pieces_plus_eq_ok.1 hy
    obtain rfl := Draft.eq_of_pieces_token hkeyword (by decide)
    obtain rfl := Except.ok.inj ((Draft.pieces_name hd s).symm.trans hname)
    exact ⟨xs, hx, rfl⟩
  · rw [if_neg htruthy] at hp ⊢
    exact ⟨ps, hp, (List.append_nil _).symm⟩

/-- A field is returned as a bare column or as what it is in a SELECT list. -/
theorem Value.returnedAs_of_pieces (hd : d.WritesText) {v : Value} (hv : v.WellFormed)
    {row : List Piece} (hp : (returnedDraft cat (v.drafted cat d.engine)).pieces cat d = .ok row) :
    v.ReturnedAs cat d row := by
  rw [returnedDraft, value_drafted] at hp
  split at hp
  · cases hv with
    | plain h => cases h
    | column id ha =>
      obtain ⟨xs, hname, rfl⟩ := Draft.pieces_named hd ha hp
      obtain rfl := Except.ok.inj ((Draft.pieces_name hd _).symm.trans hname)
      exact .bare _ _
  · rename_i hcolumn
    obtain ⟨x, rfl, hselected⟩ := exists_expr_of_selected hp
    refine .whole (fun a id hx => hcolumn a id (congrArg Value.expr hx)) hselected ?_
    exact x.confined_selected fun a id t hid _ => ⟨a, hid⟩

theorem pieces_returningDraft {ps : List Piece}
    (hp : (returningDraft cat d.engine ((Value.tuple fields).drafted cat d.engine)).pieces cat d
      = .ok ps) :
    ∃ rows, List.Forall₂ (fun v row => (returnedDraft cat (v.drafted cat d.engine)).pieces cat d
      = .ok row) fields rows ∧ ps = Piece.returning rows := by
  unfold returningDraft at hp
  rw [Value.value_drafted] at hp
  cases fields with
  | nil => exact ⟨[], .nil, (Except.ok.inj hp).symm⟩
  | cons v vs =>
    have hlisted : ¬(!(Value.tuple (v :: vs)).truthy) = true := Bool.false_ne_true
    rw [if_neg hlisted, Draft.pieces_asking] at hp
    split at hp
    · obtain ⟨keyword, list, hkeyword, hlist, rfl⟩ := Draft.pieces_plus_eq_ok.1 hp
      obtain rfl := Draft.eq_of_pieces_token hkeyword (by decide)
      rw [Drafted.listed, Drafted.items_tuple, Draft.given, List.map_map] at hlist
      obtain ⟨rows, hrows, rfl⟩ := Draft.pieces_commaSeparated_eq_ok.1 hlist
      refine ⟨rows, hrows, ?_⟩
      rw [Piece.returning, if_neg (by rintro rfl; cases hrows)]
      rfl
    · simp [Draft.pieces] at hp

/-- Whether two fields are the same up to the column that a bare one is: the columns have one name,
but may be of different tables. -/
def Value.SameReturned (cat : Catalog) (v w : Value) : Prop :=
  v = w ∨ ∃ a id other, v = .expr (.column a id) ∧ w = .expr (.column a other) ∧
    (cat.column id).name = (cat.column other).name

theorem returnedDraft_eq_of_same {e : Engine} {v w : Value} (h : v.SameReturned cat w) :
    returnedDraft cat (v.drafted cat e) = returnedDraft cat (w.drafted cat e) := by
  rcases h with rfl | ⟨a, id, other, rfl, rfl, hname⟩
  · rfl
  · have hnamed : (columnName cat id).named a = (columnName cat other).named a := by
      rw [columnName, columnName, hname]
    exact hnamed

theorem returningDraft_eq_of_same {e : Engine} {others : List Value}
    (h : List.Forall₂ (Value.SameReturned cat) fields others) :
    returningDraft cat e ((Value.tuple fields).drafted cat e)
      = returningDraft cat e ((Value.tuple others).drafted cat e) := by
  have hdrafts : fields.map (fun v => returnedDraft cat (v.drafted cat e))
      = others.map fun v => returnedDraft cat (v.drafted cat e) := by
    rw [← List.forall₂_eq_eq_eq, List.forall₂_map_left_iff, List.forall₂_map_right_iff]
    exact h.imp fun v w => returnedDraft_eq_of_same
  have htruthy : (Value.tuple fields).truthy = (Value.tuple others).truthy := by
    cases h <;> rfl
  unfold returningDraft
  simp only [Value.value_drafted, htruthy, Drafted.listed, Drafted.items_tuple, Draft.given,
    List.map_map, Function.comp_def, hdrafts]

/-! ## Changes -/

namespace TableChange

variable {s : TableChange}

/-- A change is drafted alike for returned columns of the same names, whichever tables they belong
to. -/
theorem built_withReturning_eq {e : Engine} {others : List Value}
    (hx : s.statement.extras.lookup "build" = none)
    (h : List.Forall₂ (Value.SameReturned cat) fields others) :
    (s.withReturning (.tuple fields)).statement.built cat e
      = (s.withReturning (.tuple others)).statement.built cat e := by
  have hextras : ∀ v, (s.withReturning v).statement.extras.lookup "build" = none := by
    intro v
    cases s <;> exact hx
  have hreturning : ∀ v, (s.withReturning v).returning = v := by
    intro v
    cases s <;> rfl
  rw [built_eq_draftWith (hextras _), built_eq_draftWith (hextras _), draftWith_withReturning,
    draftWith_withReturning, hreturning, hreturning, returningDraft_eq_of_same h]

theorem pieces_tableDraft (hd : d.WritesText) {ps : List Piece}
    (hp : (tableDraft cat t).pieces cat d = .ok ps) :
    (cat.table t).name ≠ "" ∧ ps = .word (quoteName d.identifierQuote (cat.table t).name)
      :: Piece.alias d (.ofOption .text (cat.table t).asName) := by
  unfold tableDraft at hp
  dsimp only at hp
  split at hp
  · simp [Draft.pieces] at hp
  · rename_i hname
    have ha : (Value.ofOption Value.text (cat.table t).asName).IsAlias := by
      cases (cat.table t).asName with
      | none => exact Value.isAlias_none
      | some a => exact fun _ => Value.isText_text a
    obtain ⟨xs, hxs, rfl⟩ := Draft.pieces_named hd ha hp
    obtain rfl := Except.ok.inj ((Draft.pieces_name hd _).symm.trans hxs)
    exact ⟨hname, rfl⟩

/-- A change begins with the words for it and with its table, and ends with what it returns. -/
theorem exists_pieces_draftWith (hd : d.WritesText) (ht : s.table = .table t) {returned : Draft}
    {ps : List Piece} (hp : (s.draftWith cat d.engine returned).pieces cat d = .ok ps) :
    (cat.table t).name ≠ "" ∧ ∃ body rs, returned.pieces cat d = .ok rs ∧
      ps = s.targetPieces cat d t ++ body ++ rs := by
  cases s with
  | insert q =>
    have hname : q.table.get cat "name" = .ok (.text (cat.table t).name) := by
      rw [show q.table = .table t from ht]
      rfl
    rw [draftWith, hname, Draft.given] at hp
    split at hp
    · simp [Draft.pieces] at hp
    · rename_i htruthy
      unfold Draft.guarded at hp
      split at hp
      · obtain ⟨front, rs, hfront, hrs, rfl⟩ := Draft.pieces_plus_eq_ok.1 hp
        obtain ⟨start, body, hstart, -, rfl⟩ := Draft.pieces_extend_eq_ok.1 hfront
        obtain ⟨keyword, name, hkeyword, hname, rfl⟩ := Draft.pieces_plus_eq_ok.1 hstart
        obtain rfl := Draft.eq_of_pieces_token hkeyword (by decide)
        obtain rfl := Except.ok.inj ((Draft.pieces_name hd _).symm.trans hname)
        refine ⟨fun hempty => htruthy ?_, body, rs, hrs, rfl⟩
        rw [hempty]
        rfl
      · simp [Draft.pieces] at hp
  | update q =>
    have htable : (q.table.drafted cat d.engine).built = tableDraft cat t := by
      rw [show q.table = .table t from ht]
      rfl
    rw [draftWith, htable] at hp
    split at hp
    · simp [Draft.pieces] at hp
    · unfold Draft.guarded at hp
      split at hp
      · obtain ⟨clauses, rs, hclauses, hrs, rfl⟩ := Draft.pieces_plus_eq_ok.1 hp
        obtain ⟨front, filter, hfront, -, rfl⟩ := Draft.pieces_extend_eq_ok.1 hclauses
        obtain ⟨start, assignments, hstart, -, rfl⟩ := Draft.pieces_extend_eq_ok.1 hfront
        obtain ⟨named, set, hnamed, -, rfl⟩ := Draft.pieces_plus_eq_ok.1 hstart
        obtain ⟨keyword, table, hkeyword, htable, rfl⟩ := Draft.pieces_plus_eq_ok.1 hnamed
        obtain rfl := Draft.eq_of_pieces_token hkeyword (by decide)
        obtain ⟨hname, rfl⟩ := pieces_tableDraft hd htable
        exact ⟨hname, set ++ assignments ++ filter, rs, hrs, by simp [targetPieces]⟩
      · simp [Draft.pieces] at hp
  | delete q =>
    have htable : (q.table.drafted cat d.engine).built = tableDraft cat t := by
      rw [show q.table = .table t from ht]
      rfl
    rw [draftWith, htable] at hp
    obtain ⟨clauses, rs, hclauses, hrs, rfl⟩ := Draft.pieces_plus_eq_ok.1 hp
    obtain ⟨start, filter, hstart, -, rfl⟩ := Draft.pieces_extend_eq_ok.1 hclauses
    obtain ⟨keyword, table, hkeyword, htable, rfl⟩ := Draft.pieces_plus_eq_ok.1 hstart
    obtain rfl := Draft.eq_of_pieces_token hkeyword (by decide)
    obtain ⟨hname, rfl⟩ := pieces_tableDraft hd htable
    exact ⟨hname, filter, rs, hrs, by simp [targetPieces]⟩

/-- Whether what a change returns refers to the changed table: every bare column belongs to it, and
in every other field its columns stand behind the name that the change introduces. -/
structure RefersToTable (cat : Catalog) (t : TableId) (s : TableChange) (fields : List Value) :
    Prop where
  owned : ∀ a id, .expr (.column a id) ∈ fields → cat.owner id = some t
  introduced : ∀ x, .expr x ∈ fields → (∀ a id, x ≠ .column a id) → ∀ a id,
    (Expr.column a id).Within x → cat.owner id = some t → cat.qualifier id = s.introduces cat t

/-- Whether a field that is not a bare column reads a column of a table. -/
def ReadsWithin (cat : Catalog) (t : TableId) (v : Value) : Prop :=
  ∃ x, v = .expr x ∧ (∀ a id, x ≠ .column a id) ∧
    ∃ a id, (Expr.column a id).Within x ∧ cat.owner id = some t

theorem qualifier_of_owner {id : ColumnId} (ho : cat.owner id = some t) :
    cat.qualifier id = (cat.table t).nameInQuery := by
  rw [Catalog.qualifier, ho]

/-- What a change returns refers to its table if the bare columns do, unless the change is an INSERT
into a table with an alias: there the columns stand behind a name that is not introduced. -/
theorem refersToTable_iff : s.RefersToTable cat t fields ↔
    (∀ a id, .expr (.column a id) ∈ fields → cat.owner id = some t) ∧
      (s.introduces cat t = (cat.table t).nameInQuery ∨ ∀ v ∈ fields, ¬ReadsWithin cat t v) := by
  constructor
  · rintro ⟨howned, hintroduced⟩
    refine ⟨howned, ?_⟩
    by_contra hne
    push Not at hne
    obtain ⟨hne, v, hv, x, rfl, hx, a, id, hid, ho⟩ := hne
    exact hne (by rw [← hintroduced x hv hx a id hid ho, qualifier_of_owner ho])
  · rintro ⟨howned, hname | hnone⟩
    · exact ⟨howned, fun x _ _ a id _ ho => by rw [qualifier_of_owner ho, hname]⟩
    · exact ⟨howned, fun x hv hx a id hid ho =>
        absurd ⟨x, rfl, hx, a, id, hid, ho⟩ (hnone _ hv)⟩

/-- A compiled change names its table, with the alias unless it is an INSERT, and at its end what it
returns: bare columns by their names, and in all other fields columns behind the names of their
tables. This refers to the changed table if the bare columns belong to it and the columns of the
table stand behind the name that the change introduces. Columns of the same names in place of the
bare ones compile to the same, whichever tables they belong to. -/
theorem returning_compiles_as (hd : d.WritesText) (ht : s.table = .table t)
    (hr : s.returning = .tuple fields) (hv : s.statement.WellFormed) {c : Compiled}
    (hc : compile cat d s.statement = .ok c) :
    (∃ front body rows marks, s.targetPieces cat d t
        = front ++ [.word (quoteName d.identifierQuote (s.introduces cat t))] ∧
      marks.length = (Piece.values (s.targetPieces cat d t ++ body ++ Piece.returning rows)).length ∧
      c.sql = .text ((Template.ofPieces (s.targetPieces cat d t ++ body
        ++ Piece.returning rows)).spelled marks) ∧
      List.Forall₂ (Value.ReturnedAs cat d) fields rows) ∧
    (∀ id ps, (columnDraft cat id).pieces cat d = .ok ps →
      ps = Piece.qualified d (cat.qualifier id) (cat.column id).name) ∧
    (s.RefersToTable cat t fields ↔
      (∀ a id, .expr (.column a id) ∈ fields → cat.owner id = some t) ∧
        (s.introduces cat t = (cat.table t).nameInQuery ∨ ∀ v ∈ fields, ¬ReadsWithin cat t v)) ∧
    ∀ others, List.Forall₂ (Value.SameReturned cat) fields others →
      compile cat d (s.withReturning (.tuple others)).statement = .ok c := by
  have hx := lookup_build_of_wellFormed hv
  refine ⟨?_, fun id ps => pieces_columnDraft hd, refersToTable_iff, fun others hothers => ?_⟩
  · obtain ⟨ps, marks, hps, hlength, hsql⟩ := exists_pieces_of_compile hd hv hc
    rw [built_eq_draftWith hx, hr] at hps
    obtain ⟨-, body, rs, hreturned, rfl⟩ := exists_pieces_draftWith hd ht hps
    obtain ⟨rows, hrows, rfl⟩ := pieces_returningDraft hreturned
    obtain ⟨front, hfront⟩ := @exists_targetPieces_eq cat d t s
    have hfields : ∀ v ∈ fields, v.WellFormed :=
      Value.wellFormed_tuple.1 (hr ▸ (wellFormed_clauses hv).2.2)
    exact ⟨front, body, rows, marks, hfront, hlength, hsql,
      ((List.forall₂_and_left _ _).2 ⟨hfields, hrows⟩).imp
        fun v row hrow => Value.returnedAs_of_pieces hd hrow.1 hrow.2⟩
  · rw [compile, ← built_withReturning_eq hx hothers, ← hr, withReturning_returning]
    exact hc

end TableChange

/-- A table under an alias and another one, with one column each. -/
def Catalog.ofAliased : Catalog where
  columns := #[{ name := "a", owner := some ⟨0⟩ }, { name := "b", owner := some ⟨1⟩ }]
  tables := #[{ name := "t", asName := some "x", columns := [{ id := ⟨0⟩ }] },
    { name := "u", columns := [{ id := ⟨1⟩ }] }]

/-- A row for the table under an alias, which returns a sum of its column and a column of the other
table. -/
def Insert.ofAliased : Insert where
  table := .table ⟨0⟩
  columns := .tuple []
  rows := .tuple [.tuple [.int 1]]
  query := .none
  returning := .tuple [.expr (.apply .none .binary "+" [.column .none ⟨0⟩,
    .literal .none (.int 1) none]), .expr (.column .none ⟨1⟩)]

/-- Both fields compile, and neither of them refers to the table of the INSERT. -/
theorem returning_compiles_as_aliased : ∃ c : Compiled,
    compile .ofAliased default (.insert .ofAliased) = .ok c ∧
    c.sql.text? = some "INSERT INTO t VALUES (?) RETURNING x.a + ?, b" ∧
    ¬(TableChange.insert .ofAliased).RefersToTable .ofAliased ⟨0⟩
      [.expr (.apply .none .binary "+" [.column .none ⟨0⟩, .literal .none (.int 1) none]),
        .expr (.column .none ⟨1⟩)] := by
  have hv : (TableChange.insert .ofAliased).statement.WellFormed := by
    refine .insert Value.unhooked_nil (.plain rfl) (.sequence _ ?_) rfl (.plain rfl)
      (.sequence _ ?_) rfl
    · have hone : (Value.int 1).WellFormed := .plain rfl
      have hrow : (Value.tuple [.int 1]).WellFormed := .sequence _ (by simpa using hone)
      simpa using hrow
    · simp
  have hcompiled : (compile .ofAliased default (.insert .ofAliased)).toOption.map (·.sql.text?)
      = some (some "INSERT INTO t VALUES (?) RETURNING x.a + ?, b") := by decide +kernel
  obtain ⟨c, hc, hsql⟩ := Compiled.exists_of_map_sql hcompiled
  obtain ⟨-, -, hrefers, -⟩ := @TableChange.returning_compiles_as .ofAliased default ⟨0⟩ _
    (.insert .ofAliased) ⟨rfl, rfl⟩ rfl rfl hv c hc
  refine ⟨c, hc, hsql, fun h => ?_⟩
  have howned := (hrefers.1 h).1 .none ⟨1⟩ (by simp)
  cases howned

end SqlCompose
