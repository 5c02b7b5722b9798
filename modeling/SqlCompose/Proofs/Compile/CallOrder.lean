import SqlCompose.Proofs.Compile.Retargeting
import SqlCompose.Proofs.Compile.Union
import SqlCompose.Proofs.Statement.Calls

/-!
# The order of the calls that build a SELECT

A call reads and changes a single clause. So what a sequence of calls makes of a clause is what the
calls on this clause make of it, and sequences in which these come in the same order build the same
SELECT, however the calls on different clauses are interleaved.
-/
namespace SqlCompose

/-- The clauses of a SELECT. -/
inductive SelectClause
  | fields
  | sources
  | joins
  | filter
  | groupBy
  | having
  | orderBy
  | limit
  | offset
  | distinct
  | unions
deriving DecidableEq

namespace SelectCall

/-- The clause that a call adds to. -/
def clause : SelectCall → SelectClause
  | select _ => .fields
  | addSources _ => .sources
  | join .. => .joins
  | addConditions .. => .filter
  | addGroups _ => .groupBy
  | addHaving _ => .having
  | addOrders _ => .orderBy
  | setLimit _ => .limit
  | setOffset _ => .offset
  | setDistinct => .distinct
  | addUnion .. => .unions

/-- Whether a call has no keywords. Keywords are looked up in the sources that there are so far. -/
def IsPositional : SelectCall → Prop
  | addConditions _ keywords => keywords = []
  | _ => True

/-- The calls on a clause, in their order. -/
def on (c : SelectClause) (calls : List (Catalog × SelectCall)) : List (Catalog × SelectCall) :=
  calls.filter fun call => call.2.clause = c

variable {c : SelectClause} {call : Catalog × SelectCall} {calls : List (Catalog × SelectCall)}

theorem on_cons_self : on call.2.clause (call :: calls) = call :: on call.2.clause calls :=
  List.filter_cons_of_pos (by simp)

theorem on_cons_of_ne (h : call.2.clause ≠ c) : on c (call :: calls) = on c calls :=
  List.filter_cons_of_neg (by simpa using h)

theorem clause_of_mem_on (h : call ∈ on c calls) : call.2.clause = c := by
  simpa using (List.mem_filter.1 h).2

theorem mem_of_mem_on (h : call ∈ on c calls) : call ∈ calls := (List.mem_filter.1 h).1

end SelectCall

namespace Select

/-- What a SELECT has at a clause. -/
def clause (q : Select) : SelectClause → Value
  | .fields => q.fields
  | .sources => q.sources
  | .joins => q.joins
  | .filter => q.filter
  | .groupBy => q.groupBy
  | .having => q.having
  | .orderBy => q.orderBy
  | .limit => q.limit
  | .offset => q.offset
  | .distinct => q.distinct
  | .unions => q.unions

/-- A SELECT with something else at a clause. -/
def setClause (q : Select) (c : SelectClause) (v : Value) : Select :=
  match c with
  | .fields => { q with fields := v }
  | .sources => { q with sources := v }
  | .joins => { q with joins := v }
  | .filter => { q with filter := v }
  | .groupBy => { q with groupBy := v }
  | .having => { q with having := v }
  | .orderBy => { q with orderBy := v }
  | .limit => { q with limit := v }
  | .offset => { q with offset := v }
  | .distinct => { q with distinct := v }
  | .unions => { q with unions := v }

variable {cat : Catalog} {q r later : Select} {c k : SelectClause}
  {calls calls' : List (Catalog × SelectCall)}

@[simp] theorem clause_setClause (q : Select) (c : SelectClause) (v : Value) :
    (q.setClause c v).clause c = v := by
  cases c <;> rfl

theorem clause_setClause_of_ne (h : k ≠ c) : (q.setClause k v).clause c = q.clause c := by
  cases k <;> cases c <;> first | rfl | exact absurd rfl h

@[simp] theorem extras_setClause (q : Select) (c : SelectClause) (v : Value) :
    (q.setClause c v).extras = q.extras := by
  cases c <;> rfl

@[simp] theorem setClause_clause (q : Select) (c : SelectClause) :
    q.setClause c (q.clause c) = q := by
  cases q
  cases c <;> rfl

@[simp] theorem setClause_setClause (q : Select) (c : SelectClause) (v w : Value) :
    (q.setClause c v).setClause c w = q.setClause c w := by
  cases c <;> rfl

/-- A SELECT is what it has at its clauses. -/
theorem eq_of_clause_eq (hx : q.extras = r.extras) (h : ∀ c, q.clause c = r.clause c) : q = r := by
  cases q
  cases r
  rw [mk.injEq]
  exact ⟨h .filter, h .fields, h .sources, h .joins, h .groupBy, h .having, h .orderBy, h .unions,
    h .limit, h .offset, h .distinct, hx⟩

/-- Whether two SELECTs have the same at a clause. -/
structure SameAt (c : SelectClause) (q r : Select) : Prop where
  extras : r.extras = q.extras
  clause : r.clause c = q.clause c

theorem SameAt.symm (h : SameAt c q r) : SameAt c r q := ⟨h.extras.symm, h.clause.symm⟩

theorem SameAt.setClause (h : SameAt c q r) (k : SelectClause) (v : Value) :
    SameAt c (q.setClause k v) (r.setClause k v) := by
  refine ⟨by simpa using h.extras, ?_⟩
  by_cases hk : k = c
  · subst hk
    simp
  · rw [clause_setClause_of_ne hk, clause_setClause_of_ne hk, h.clause]

theorem sameAt_setClause (h : k ≠ c) (q : Select) (v : Value) :
    SameAt c (q.setClause k v) q :=
  ⟨(extras_setClause q k v).symm, (clause_setClause_of_ne h).symm⟩

theorem map_bind {α : Type} (x : Except Error α) (f : α → Except Error Select)
    (g : Select → Select) : (x >>= f).map g = x >>= fun a => (f a).map g := by
  cases x <;> rfl

/-- Conditions without keywords do not depend on the table for keywords. -/
theorem filtered_nil (extras : List (String × Value)) (table other : Except Error Value)
    (existing : Value) (given : List Value) : filtered cat extras table existing given []
      = filtered cat extras other existing given [] := by
  unfold filtered keywordConditions
  cases extras.lookup "_where_kwargs_to_expressions" <;> rfl

/-- A call makes of its clause the same in all SELECTs that have the same there, and leaves the
other clauses as they are. -/
theorem run_eq_map {call : SelectCall} (hpos : call.IsPositional) (h : SameAt call.clause q r) :
    call.run cat r
      = (call.run cat q).map fun later => r.setClause call.clause (later.clause call.clause) := by
  obtain ⟨hx, hc⟩ := h
  cases call with
  | select given =>
    change r.fields = q.fields at hc
    have hadded : r.added cat given = q.added cat given := by rw [added, added, hx]
    simp only [SelectCall.run, Select.select, hadded, hc, map_bind]
    rfl
  | addSources given =>
    change r.sources = q.sources at hc
    simp only [SelectCall.run, addSources, hc]
    cases given.find? fun v => !v.isSource with
    | some v => rfl
    | none =>
      simp only [map_bind]
      rfl
  | join kind source on shared =>
    change r.joins = q.joins at hc
    simp only [SelectCall.run, join, hc]
    cases source.isSource with
    | false => rfl
    | true =>
      simp only [Bool.not_true, Bool.false_eq_true, if_false, map_bind]
      rfl
  | addConditions given keywords =>
    change r.filter = q.filter at hc
    obtain rfl : keywords = [] := hpos
    have hfiltered : filtered cat r.extras (r.lookupTable cat) r.filter given []
        = filtered cat q.extras (q.lookupTable cat) q.filter given [] := by
      rw [hx, hc]
      exact filtered_nil ..
    simp only [SelectCall.run, addConditions, hfiltered, map_bind]
    rfl
  | addGroups given =>
    change r.groupBy = q.groupBy at hc
    simp only [SelectCall.run, addGroups, hc, map_bind]
    rfl
  | addHaving given =>
    change r.having = q.having at hc
    simp only [SelectCall.run, addHaving, hc]
    cases given with
    | nil => rfl
    | cons v vs =>
      simp only [List.isEmpty_cons, Bool.false_eq_true, if_false, map_bind]
      rfl
  | addOrders given =>
    change r.orderBy = q.orderBy at hc
    simp only [SelectCall.run, addOrders, hc, map_bind]
    rfl
  | setLimit v =>
    simp only [SelectCall.run, setLimit, map_bind]
    rfl
  | setOffset v =>
    simp only [SelectCall.run, setOffset, map_bind]
    rfl
  | setDistinct => rfl
  | addUnion op v =>
    change r.unions = q.unions at hc
    cases v with
    | select member =>
      simp only [SelectCall.run, addUnion, hc, map_bind]
      rfl
    | _ => rfl

theorem run_of_sameAt {call : SelectCall} (hpos : call.IsPositional)
    (h : SameAt call.clause q r) (hq : call.run cat q = .ok later) :
    call.run cat r = .ok (r.setClause call.clause (later.clause call.clause)) := by
  rw [run_eq_map hpos h, hq]
  rfl

/-- A call changes no clause but its own. -/
theorem eq_setClause_of_run {call : SelectCall} (hpos : call.IsPositional)
    (hq : call.run cat q = .ok later) :
    later = q.setClause call.clause (later.clause call.clause) :=
  Except.ok.inj (hq.symm.trans (run_of_sameAt hpos ⟨rfl, rfl⟩ hq))

/-- The SELECT that further calls make of one, each with the tables that there are at its time. -/
def continued? (q : Select) (calls : List (Catalog × SelectCall)) : Except Error Select :=
  calls.foldlM (fun q (cat, call) => call.run cat q) q

theorem continued?_cons_eq_ok {call : Catalog × SelectCall} :
    q.continued? (call :: calls) = .ok later ↔
      ∃ next, call.2.run call.1 q = .ok next ∧ next.continued? calls = .ok later := by
  rw [continued?, List.foldlM_cons, Except.bind_eq_ok_iff]
  rfl

/-- Calls on one clause make the same of it in all SELECTs that have the same there. -/
theorem continued?_of_sameAt (hpos : ∀ call ∈ calls, call.2.IsPositional)
    (hc : ∀ call ∈ calls, call.2.clause = c) (h : SameAt c q r)
    (hq : q.continued? calls = .ok later) :
    r.continued? calls = .ok (r.setClause c (later.clause c)) := by
  induction calls generalizing q r with
  | nil =>
    obtain rfl := Except.ok.inj hq
    rw [← h.clause, setClause_clause]
    rfl
  | cons call calls ih =>
    obtain ⟨hcall, hcalls⟩ := List.forall_mem_cons.1 hc
    obtain ⟨hfirst, hrest⟩ := List.forall_mem_cons.1 hpos
    obtain ⟨next, hnext, hlater⟩ := continued?_cons_eq_ok.1 hq
    subst hcall
    have hrun := run_of_sameAt hfirst h hnext
    have hsame : SameAt call.2.clause next (r.setClause call.2.clause (next.clause call.2.clause)) := by
      rw [eq_setClause_of_run hfirst hnext]
      simpa using h.setClause call.2.clause (next.clause call.2.clause)
    have hcontinued := ih hrest hcalls hsame hlater
    rw [setClause_setClause] at hcontinued
    exact continued?_cons_eq_ok.2 ⟨_, hrun, hcontinued⟩

/-- Calls make of each clause what the calls on it make of it, and are accepted if these are. -/
theorem continued?_eq_ok_iff (hpos : ∀ call ∈ calls, call.2.IsPositional) :
    q.continued? calls = .ok later ↔ later.extras = q.extras ∧
      ∀ c, q.continued? (SelectCall.on c calls) = .ok (q.setClause c (later.clause c)) := by
  induction calls generalizing q with
  | nil =>
    constructor
    · intro hq
      obtain rfl := Except.ok.inj hq
      exact ⟨rfl, fun c => by rw [setClause_clause]; rfl⟩
    · rintro ⟨hx, hq⟩
      refine congrArg Except.ok (eq_of_clause_eq hx.symm fun c => ?_)
      exact (congrArg (clause · c) (Except.ok.inj (hq c))).trans (clause_setClause q c _)
  | cons call calls ih =>
    obtain ⟨hfirst, hrest⟩ := List.forall_mem_cons.1 hpos
    have hon : ∀ c, (∀ call ∈ SelectCall.on c calls, call.2.IsPositional) ∧
        ∀ call ∈ SelectCall.on c calls, call.2.clause = c := fun c =>
      ⟨fun call hmem => hrest call (SelectCall.mem_of_mem_on hmem),
        fun call hmem => SelectCall.clause_of_mem_on hmem⟩
    -- The first call leaves the clauses of the other calls as they are.
    have hframe : ∀ {next}, call.2.run call.1 q = .ok next → next.extras = q.extras ∧
        (∀ v, next.setClause call.2.clause v = q.setClause call.2.clause v) ∧
        ∀ c, call.2.clause ≠ c → SameAt c next q := by
      intro next hnext
      rw [eq_setClause_of_run hfirst hnext]
      exact ⟨extras_setClause .., setClause_setClause _ _ _, fun c hc => sameAt_setClause hc ..⟩
    constructor
    · intro hq
      obtain ⟨next, hnext, hlater⟩ := continued?_cons_eq_ok.1 hq
      obtain ⟨hx, hself, hother⟩ := hframe hnext
      obtain ⟨hextras, hcalls⟩ := (ih hrest).1 hlater
      refine ⟨hextras.trans hx, fun c => ?_⟩
      by_cases hc : call.2.clause = c
      · subst hc
        rw [SelectCall.on_cons_self, ← hself]
        exact continued?_cons_eq_ok.2 ⟨next, hnext, hcalls _⟩
      · rw [SelectCall.on_cons_of_ne hc]
        have hcall := continued?_of_sameAt (hon c).1 (hon c).2 (hother c hc) (hcalls c)
        rwa [clause_setClause] at hcall
    · rintro ⟨hx, hcalls⟩
      have hself := hcalls call.2.clause
      rw [SelectCall.on_cons_self] at hself
      obtain ⟨next, hnext, hown⟩ := continued?_cons_eq_ok.1 hself
      obtain ⟨hextras, hwith, hother⟩ := hframe hnext
      refine continued?_cons_eq_ok.2 ⟨next, hnext, (ih hrest).2 ⟨hx.trans hextras.symm, fun c => ?_⟩⟩
      by_cases hc : call.2.clause = c
      · subst hc
        rw [hwith, hown]
      · have hrun := hcalls c
        rw [SelectCall.on_cons_of_ne hc] at hrun
        have hcall := continued?_of_sameAt (hon c).1 (hon c).2 (hother c hc).symm hrun
        rwa [clause_setClause] at hcall

/-- Dropping duplicates several times is dropping them once. -/
theorem continued?_distinct (h : ∀ call ∈ calls, call.2.clause = .distinct) :
    q.continued? calls = .ok (if calls = [] then q else q.setDistinct) := by
  induction calls generalizing q with
  | nil => rfl
  | cons call calls ih =>
    obtain ⟨hcall, hcalls⟩ := List.forall_mem_cons.1 h
    obtain ⟨cat, call⟩ := call
    have hrun : call.run cat q = .ok q.setDistinct := by
      cases call with
      | setDistinct => rfl
      | _ => cases hcall
    refine continued?_cons_eq_ok.2 ⟨_, hrun, (ih hcalls).trans ?_⟩
    rw [if_neg (List.cons_ne_nil _ _)]
    split <;> rfl

/-- Sequences of the same calls in which the calls on each clause have the same order make the same
of a SELECT. Dropping duplicates has no order. -/
theorem continued?_of_perm (hperm : calls.Perm calls')
    (horder : ∀ c, c ≠ .distinct → SelectCall.on c calls = SelectCall.on c calls')
    (hpos : ∀ call ∈ calls, call.2.IsPositional) (hq : q.continued? calls = .ok later) :
    q.continued? calls' = .ok later := by
  have hpos' : ∀ call ∈ calls', call.2.IsPositional := fun call hmem =>
    hpos call (hperm.mem_iff.2 hmem)
  obtain ⟨hx, hcalls⟩ := (continued?_eq_ok_iff hpos).1 hq
  refine (continued?_eq_ok_iff hpos').2 ⟨hx, fun c => ?_⟩
  rw [← hcalls c]
  by_cases hc : c = .distinct
  · subst hc
    have hon : (SelectCall.on .distinct calls).Perm (SelectCall.on .distinct calls') :=
      hperm.filter _
    have hnil : SelectCall.on .distinct calls' = [] ↔ SelectCall.on .distinct calls = [] :=
      ⟨fun h => List.perm_nil.1 (h ▸ hon), fun h => List.perm_nil.1 (h ▸ hon.symm)⟩
    simp only [continued?_distinct fun _ => SelectCall.clause_of_mem_on, hnil]
  · rw [horder c hc]

/-- However the calls that build a SELECT are put in order, as long as the calls on each clause keep
theirs, they are accepted, and every dialect writes what they build with the same text and the same
parameters or refuses it with the same error. -/
theorem compile_eq_of_call_order (hperm : calls.Perm calls')
    (horder : ∀ c, c ≠ .distinct → SelectCall.on c calls = SelectCall.on c calls')
    (hpos : ∀ call ∈ calls, call.2.IsPositional) (hq : q.continued? calls = .ok later) :
    ∃ later', q.continued? calls' = .ok later' ∧
      ∀ cat d, compile cat d (.select later') = compile cat d (.select later) :=
  ⟨later, continued?_of_perm hperm horder hpos hq, fun _ _ => rfl⟩

end Select

/-- Calls on the SELECT list and the conditions. -/
def SelectCall.choosing : List SelectCall :=
  [.addConditions [.expr (.isNull (.column .none ⟨0⟩))] [], .select [.table ⟨1⟩],
    .addConditions [.expr (.isNotNull (.column .none ⟨1⟩))] [], .select [.text "x"]]

/-- Calls on the sources, the order and the bounds. -/
def SelectCall.arranging : List SelectCall :=
  [.setDistinct, .setLimit (.int 3), .addOrders [.expr (.column .none ⟨1⟩)],
    .addSources [.table ⟨0⟩], .setLimit (.int 2), .addSources [.table ⟨1⟩]]

theorem compile_eq_of_call_order_swapped :
    ∃ q q' c, Select.built? ((SelectCall.choosing ++ SelectCall.arranging).map (.threeTables, ·))
        = .ok q ∧
      Select.built? ((SelectCall.arranging ++ SelectCall.choosing).map (.threeTables, ·)) = .ok q' ∧
      (∀ cat d, compile cat d (.select q') = compile cat d (.select q)) ∧
      compile .threeTables default (.select q) = .ok c ∧
      c.sql.text? = some ("SELECT DISTINCT b.x, ? FROM a, b " ++
        "WHERE a.x IS NULL AND b.x IS NOT NULL ORDER BY b.x ASC LIMIT 2") := by
  have hbuilt : ∃ q,
      Select.built? ((SelectCall.choosing ++ SelectCall.arranging).map (.threeTables, ·)) = .ok q ∧
      (compile .threeTables default (.select q)).toOption.map (·.sql.text?)
        = some (some ("SELECT DISTINCT b.x, ? FROM a, b " ++
          "WHERE a.x IS NULL AND b.x IS NOT NULL ORDER BY b.x ASC LIMIT 2")) :=
    ⟨_, rfl, by decide +kernel⟩
  obtain ⟨q, hq, hcompiled⟩ := hbuilt
  obtain ⟨c, hc, hsql⟩ := Compiled.exists_of_map_sql hcompiled
  have hpos : ∀ call ∈ (SelectCall.choosing ++ SelectCall.arranging).map (Catalog.threeTables, ·),
      call.2.IsPositional := by
    simp [SelectCall.choosing, SelectCall.arranging, SelectCall.IsPositional]
  have horder : ∀ c, c ≠ .distinct →
      SelectCall.on c ((SelectCall.choosing ++ SelectCall.arranging).map (.threeTables, ·))
        = SelectCall.on c ((SelectCall.arranging ++ SelectCall.choosing).map (.threeTables, ·)) := by
    intro c _
    cases c <;> rfl
  obtain ⟨q', hq', hsame⟩ :=
    Select.compile_eq_of_call_order (List.perm_append_comm.map _) horder hpos hq
  exact ⟨q, q', c, hq, hq', hsame, hc, hsql⟩

end SqlCompose
