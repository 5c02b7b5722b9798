import SqlCompose.Proofs.Compile.CallOrder
import SqlCompose.Proofs.Render.Source
import SqlCompose.Proofs.Statement.Keywords

/-!
# Keywords before and after a join

A SELECT that names no sources looks keywords up in the first table of its fields that it does not
join. A JOIN clause takes at most its own table out of these. So keywords mean the same before and
after the clause, unless it joins the very table in which they would be looked up.
-/
namespace SqlCompose

variable {cat : Catalog} {extras : List (String × Value)}

variable (cat) in
/-- A clause with more parts at its end has them behind those that it had. -/
theorem Value.items_more {v w : Value} {added : List Value} (h : v.more added = .ok w) :
    (∃ a b, w = .expr (.binary "+" a b)) ∨
      ∃ vs, v.items cat = .ok vs ∧ w.items cat = .ok (vs ++ added) := by
  cases v with
  | expr e => exact .inl ⟨_, _, (Except.ok.inj h).symm⟩
  | sequence form items =>
    cases form with
    | tuple | compiled => exact .inr ⟨items, rfl, Except.ok.inj h ▸ rfl⟩
    | _ => cases h
  | scalar s => cases s <;> cases h
  | _ => cases h

/-- The sources of the JOIN clauses after another one. -/
theorem joinedSources_more {joins joins' joined : Value} {j : Join}
    (hx : extras.lookup "_joined_sources" = none) (hm : joins.more [.join j] = .ok joins')
    (h : joinedSources cat extras joins' = .ok joined) :
    ∃ sources, joinedSources cat extras joins = .ok (.list sources) ∧
      joined = .list (sources ++ [j.source]) := by
  rw [joinedSources, hx] at h
  rcases Value.items_more cat hm with ⟨a, b, rfl⟩ | ⟨vs, hvs, hitems⟩
  · cases h
  · have hlast : [Value.join j].mapM (fun v => v.get cat "table") = .ok [j.source] := rfl
    simp only [hitems, bind, Except.bind, List.mapM_append, hlast] at h
    rw [joinedSources, hx]
    simp only [hvs, bind, Except.bind]
    cases hall : vs.mapM (fun v => v.get cat "table") with
    | error e =>
      rw [hall] at h
      cases h
    | ok sources =>
      rw [hall] at h
      exact ⟨sources, rfl, (Except.ok.inj h).symm⟩

/-- A JOIN clause takes at most its own table out of the implied sources. -/
theorem inferredTables_more {fields joins joins' : Value} {j : Join} {tables' : List TableId}
    (hm : joins.more [.join j] = .ok joins')
    (h : inferredTables cat extras fields joins' = .ok tables') :
    ∃ tables, inferredTables cat extras fields joins = .ok tables ∧
      ((extras.lookup "_joined_sources").isSome ∧ tables' = tables ∨
        tables' = tables.filter fun t => j.source.table? ≠ some t) := by
  cases hx : extras.lookup "_joined_sources" with
  | some f =>
    refine ⟨tables', ?_, .inl ⟨rfl, rfl⟩⟩
    rw [← h]
    simp only [inferredTables, joinedSources, hx]
  | none =>
    obtain ⟨joined, hjoined, hrest⟩ := Except.bind_eq_ok_iff.1 h
    obtain ⟨sources, hsources, rfl⟩ := joinedSources_more hx hm hjoined
    obtain ⟨implied, himplied, hrest⟩ := Except.bind_eq_ok_iff.1 hrest
    have hitems : ∀ vs : List Value, (Value.list vs).items cat = .ok vs := fun _ => rfl
    simp only [inferredTables, hsources, himplied, hitems, bind, Except.bind] at hrest ⊢
    split at hrest
    · rename_i hempty
      rw [if_pos hempty]
      exact ⟨[], rfl, .inr (Except.ok.inj hrest).symm⟩
    · rename_i hempty
      rw [if_neg hempty]
      refine ⟨_, rfl, .inr ?_⟩
      rw [← Except.ok.inj hrest, List.filter_filter]
      refine List.filter_congr fun t _ => ?_
      cases hj : j.source.table? with
      | none => simp [hj]
      | some u => simp [hj, Bool.and_comm, eq_comm]

theorem nodup_of_inferredTables {fields joins : Value} {tables : List TableId}
    (h : inferredTables cat extras fields joins = .ok tables) : tables.Nodup := by
  obtain ⟨joined, -, hrest⟩ := Except.bind_eq_ok_iff.1 h
  obtain ⟨implied, -, hrest⟩ := Except.bind_eq_ok_iff.1 hrest
  simp only at hrest
  split at hrest
  · exact Except.ok.inj hrest ▸ List.nodup_nil
  · obtain ⟨sources, -, htables⟩ := Except.bind_eq_ok_iff.1 hrest
    rw [← Except.ok.inj htables, collectTables_eq_eraseDups]
    exact (nodup_eraseDups _).filter _

/-- A call that is accepted is accepted alike wherever the table for keywords is found if it is
found in the same place. -/
theorem Lookup.conditions_congr {table other : Except Error Value}
    (h : ∀ v, table = .ok v → other = .ok v) {keywords : List (String × Value)} {tests : List Value}
    (ht : conditions cat table keywords = .ok tests) :
    conditions cat other keywords = .ok tests := by
  cases keywords with
  | nil => exact ht
  | cons keyword keywords =>
    obtain ⟨v, hv, -⟩ := Except.bind_eq_ok_iff.1 ht
    rwa [h v hv, ← hv]

theorem filtered_congr {table other : Except Error Value}
    (h : ∀ v, lookupTable cat extras table = .ok v → lookupTable cat extras other = .ok v)
    {existing : Value} {given : List Value} {keywords : List (String × Value)} {x : Expr}
    (hx : filtered cat extras table existing given keywords = .ok x) :
    filtered cat extras other existing given keywords = .ok x := by
  obtain ⟨positional, hpositional, hrest⟩ := Except.bind_eq_ok_iff.1 hx
  obtain ⟨named, hnamed, hjoined⟩ := Except.bind_eq_ok_iff.1 hrest
  have hother : keywordConditions cat extras (lookupTable cat extras other) keywords
      = .ok named := by
    unfold keywordConditions at hnamed ⊢
    split at hnamed
    · exact hnamed
    · exact Lookup.conditions_congr h hnamed
  rw [filtered, hpositional, hother]
  exact hjoined

namespace Select

variable {q a b x y : Select} {given : List Value} {keywords : List (String × Value)}
  {kind : String} {source on shared : Value}

/-- What a JOIN clause is added to keeps its fields and sources. -/
theorem exists_of_join (h : q.join cat kind source on shared = .ok b) :
    ∃ j : Join, j.source = source ∧ q.joins.more [.join j] = .ok b.joins ∧
      b.extras = q.extras ∧ b.fields = q.fields ∧ b.sources = q.sources := by
  unfold join at h
  cases hsource : source.isSource with
  | false =>
    rw [hsource] at h
    cases h
  | true =>
    rw [hsource] at h
    obtain ⟨names, -, hrest⟩ := Except.bind_eq_ok_iff.1 h
    obtain ⟨joins, hjoins, hb⟩ := Except.bind_eq_ok_iff.1 hrest
    obtain rfl := Except.ok.inj hb
    exact ⟨_, rfl, hjoins, rfl, rfl, rfl⟩

/-- Keywords are looked up in the first of the implied tables. -/
theorem lookupTable_of_inferred {tables : List TableId} (hs : q.sources.truthy = false)
    (hx : q.extras.lookup "_from_sources" = none)
    (h : inferredTables cat q.extras q.fields q.joins = .ok tables) :
    q.effectiveSources cat = .ok (.list (tables.map .table)) ∧
      q.lookupTable cat = tables.head?.elim (.error .noLookupTable) fun t => .ok (.table t) := by
  have hsources : q.effectiveSources cat = .ok (.list (tables.map .table)) := by
    rw [effectiveSources, hx]
    simp only [hs, h]
    rfl
  refine ⟨hsources, ?_⟩
  rw [lookupTable, hsources]
  cases tables with
  | nil => rfl
  | cons t tables => rfl

/-- The implied sources after a JOIN clause, and those before it. -/
theorem exists_inferred_of_join (hb : q.join cat kind source on shared = .ok b)
    {tables' : List TableId} (h : inferredTables cat b.extras b.fields b.joins = .ok tables') :
    ∃ tables, inferredTables cat q.extras q.fields q.joins = .ok tables ∧
      ((q.extras.lookup "_joined_sources").isSome ∧ tables' = tables ∨
        tables' = tables.filter fun t => source.table? ≠ some t) := by
  obtain ⟨j, rfl, hm, hextras, hfields, -⟩ := exists_of_join hb
  rw [hextras, hfields] at h
  exact inferredTables_more hm h

/-- A SELECT whose keywords are looked up somewhere has implied sources. -/
theorem exists_inferred_of_lookupTable (hs : q.sources.truthy = false)
    (hx : q.extras.lookup "_from_sources" = none) {v : Value} (h : q.lookupTable cat = .ok v) :
    ∃ tables, inferredTables cat q.extras q.fields q.joins = .ok tables := by
  obtain ⟨sources, hsources, -⟩ := Except.bind_eq_ok_iff.1 h
  rw [effectiveSources, hx] at hsources
  simp only [hs] at hsources
  obtain ⟨tables, htables, -⟩ := Except.bind_eq_ok_iff.1 hsources
  exact ⟨tables, htables⟩

/-- Where keywords are looked up after a JOIN clause they are looked up before it, unless they are
looked up there in what is joined. -/
theorem lookupTable_of_join (hs : q.sources.truthy = false)
    (hb : q.join cat kind source on shared = .ok b) (hne : q.lookupTable cat ≠ .ok source)
    {v : Value} (h : b.lookupTable cat = .ok v) : q.lookupTable cat = .ok v := by
  obtain ⟨-, -, -, hextras, -, hsources⟩ := exists_of_join hb
  cases hfrom : q.extras.lookup "_from_sources" with
  | some f =>
    simp only [lookupTable, effectiveSources, hextras, hfrom] at h ⊢
    exact h
  | none =>
    have hsb : b.sources.truthy = false := hsources ▸ hs
    have hxb : b.extras.lookup "_from_sources" = none := hextras ▸ hfrom
    obtain ⟨tables', htables'⟩ := exists_inferred_of_lookupTable hsb hxb h
    obtain ⟨tables, htables, hjoined⟩ := exists_inferred_of_join hb htables'
    rw [(lookupTable_of_inferred hsb hxb htables').2] at h
    rw [(lookupTable_of_inferred hs hfrom htables).2] at hne ⊢
    obtain ⟨-, rfl⟩ | rfl := hjoined
    · exact h
    · cases tables with
      | nil => cases h
      | cons t tables =>
        have hkept : source.table? ≠ some t := fun ht =>
          hne (congrArg Except.ok (Value.table?_eq_some_iff.1 ht).symm)
        rwa [List.filter_cons_of_pos (by simpa using hkept)] at h

/-- Keywords are read alike before and after a JOIN clause, unless they are looked up in what is
joined. -/
theorem addConditions_of_join (hs : q.sources.truthy = false)
    (hb : q.join cat kind source on shared = .ok b)
    (hy : b.addConditions cat given keywords = .ok y)
    (hne : SqlCompose.lookupTable cat q.extras (q.lookupTable cat) ≠ .ok source) :
    ∃ a, q.addConditions cat given keywords = .ok a ∧ a.join cat kind source on shared = .ok y := by
  have hpos : (SelectCall.join kind source on shared).IsPositional := trivial
  have hframe : b = q.setClause .joins b.joins := eq_setClause_of_run hpos hb
  obtain ⟨f, hf, hy⟩ := Except.bind_eq_ok_iff.1 hy
  obtain rfl := Except.ok.inj hy
  have htable : ∀ v, SqlCompose.lookupTable cat q.extras (b.lookupTable cat) = .ok v →
      SqlCompose.lookupTable cat q.extras (q.lookupTable cat) = .ok v := by
    intro v hv
    unfold SqlCompose.lookupTable at hv hne ⊢
    cases hown : q.extras.lookup "_lookup_table" with
    | some f => rwa [hown] at hv
    | none =>
      rw [hown] at hv hne
      exact lookupTable_of_join hs hb hne hv
  have hfilter : filtered cat q.extras (q.lookupTable cat) q.filter given keywords = .ok f := by
    rw [hframe] at hf
    exact filtered_congr htable (by rw [hframe]; exact hf)
  refine ⟨{ q with filter := .expr f }, ?_, ?_⟩
  · rw [addConditions, hfilter]
    rfl
  · have hsame : SameAt .joins q { q with filter := .expr f } := ⟨rfl, rfl⟩
    refine (run_of_sameAt hpos hsame hb).trans (congrArg Except.ok ?_)
    rw [hframe]
    rfl

/-- Without the table of the keywords they are looked up in the next one. -/
theorem exists_next_of_join (hs : q.sources.truthy = false) (hx : q.extras = []) {t : TableId}
    (ht : q.lookupTable cat = .ok (.table t)) (hb : q.join cat kind (.table t) on shared = .ok b)
    {v : Value} (h : b.lookupTable cat = .ok v) :
    ∃ u rest, v = .table u ∧ q.effectiveSources cat = .ok (.list ((t :: u :: rest).map .table)) ∧
      b.effectiveSources cat = .ok (.list ((u :: rest).map .table)) := by
  obtain ⟨-, -, -, hextras, -, hsources⟩ := exists_of_join hb
  have hsb : b.sources.truthy = false := hsources ▸ hs
  have hfrom : q.extras.lookup "_from_sources" = none := by rw [hx]; rfl
  have hxb : b.extras.lookup "_from_sources" = none := hextras ▸ hfrom
  obtain ⟨tables', htables'⟩ := exists_inferred_of_lookupTable hsb hxb h
  obtain ⟨tables, htables, hjoined⟩ := exists_inferred_of_join hb htables'
  obtain ⟨heffective, hlookup⟩ := lookupTable_of_inferred hs hfrom htables
  obtain ⟨heffective', hlookup'⟩ := lookupTable_of_inferred hsb hxb htables'
  have hnodup := nodup_of_inferredTables htables
  have hfilter : tables' = tables.filter fun s => (Value.table t).table? ≠ some s := by
    refine hjoined.resolve_left fun ⟨hsome, _⟩ => ?_
    rw [hx] at hsome
    cases hsome
  cases tables with
  | nil =>
    rw [hlookup] at ht
    cases ht
  | cons s rest =>
    obtain rfl : s = t := Value.table.inj (Except.ok.inj (hlookup.symm.trans ht))
    have hrest : tables' = rest := by
      rw [hfilter, List.filter_cons_of_neg (by simp [Value.table?])]
      refine List.filter_eq_self.2 fun u hu => ?_
      have hne : s ≠ u := fun heq => (List.nodup_cons.1 hnodup).1 (heq ▸ hu)
      simpa [Value.table?] using hne
    subst hrest
    cases tables' with
    | nil =>
      rw [hlookup'] at h
      cases h
    | cons u rest =>
      exact ⟨u, rest, Except.ok.inj (h.symm.trans hlookup'), heffective, heffective'⟩

/-- A call with keywords that is accepted finds a table for them. -/
theorem exists_lookupTable_of_addConditions (hx : q.extras = []) (hne : keywords ≠ [])
    (h : q.addConditions cat given keywords = .ok a) : ∃ v, q.lookupTable cat = .ok v := by
  obtain ⟨x, hfiltered, -⟩ := Except.bind_eq_ok_iff.1 h
  obtain ⟨positional, -, hrest⟩ := Except.bind_eq_ok_iff.1 hfiltered
  obtain ⟨named, hnamed, -⟩ := Except.bind_eq_ok_iff.1 hrest
  rw [hx] at hnamed
  cases keywords with
  | nil => exact absurd rfl hne
  | cons keyword keywords =>
    obtain ⟨v, hv, -⟩ := Except.bind_eq_ok_iff.1 hnamed
    exact ⟨v, hv⟩

/-- What a call that looks keywords up in a table makes of the condition. -/
theorem exists_tests_of_addConditions (hx : q.extras = []) {t : TableId}
    (ht : q.lookupTable cat = .ok (.table t)) (h : q.addConditions cat given keywords = .ok a) :
    ∃ predicates tests f, given = predicates.map .expr ∧
      List.Forall₂ (Lookup.Asks cat t) keywords tests ∧
      joinConditions q.filter ((predicates ++ tests).map .expr) = .ok f ∧
      a = { q with filter := .expr f } := by
  obtain ⟨f, hf, ha⟩ := Except.bind_eq_ok_iff.1 h
  have hu : q.extras.lookup "_where_kwargs_to_expressions" = none := by rw [hx]; rfl
  have htable : SqlCompose.lookupTable cat q.extras (q.lookupTable cat) = .ok (.table t) := by
    rw [hx]
    exact ht
  obtain ⟨predicates, tests, hgiven, htests, hjoined⟩ := exists_tests_of_filtered hu htable hf
  exact ⟨predicates, tests, f, hgiven, htests, hjoined, (Except.ok.inj ha).symm⟩

/-- Keywords mean the same before and after a JOIN clause in a SELECT that names no sources, unless
what is joined is the table in which they are looked up before it. If it is, they are looked up in
the next one of the implied tables after it. -/
theorem keywords_before_or_after_join (hs : q.sources.truthy = false)
    (ha : q.addConditions cat given keywords = .ok a)
    (hx : a.join cat kind source on shared = .ok x)
    (hb : q.join cat kind source on shared = .ok b)
    (hy : b.addConditions cat given keywords = .ok y) :
    (SqlCompose.lookupTable cat q.extras (q.lookupTable cat) ≠ .ok source →
      ∀ cat d, compile cat d (.select y) = compile cat d (.select x)) ∧
    ∀ t, source = .table t → q.lookupTable cat = .ok source → q.extras = [] → keywords ≠ [] →
      ∃ u rest predicates tests tests' f f',
        q.effectiveSources cat = .ok (.list ((t :: u :: rest).map .table)) ∧
        b.effectiveSources cat = .ok (.list ((u :: rest).map .table)) ∧
        given = predicates.map .expr ∧ List.Forall₂ (Lookup.Asks cat t) keywords tests ∧
        List.Forall₂ (Lookup.Asks cat u) keywords tests' ∧
        joinConditions q.filter ((predicates ++ tests).map .expr) = .ok f ∧
        joinConditions q.filter ((predicates ++ tests').map .expr) = .ok f' ∧
        x.filter = .expr f ∧ y = { x with filter := .expr f' } := by
  refine ⟨fun hne => ?_, ?_⟩
  · obtain ⟨a', ha', hx'⟩ := addConditions_of_join hs hb hy hne
    obtain rfl := Except.ok.inj (ha.symm.trans ha')
    obtain rfl := Except.ok.inj (hx.symm.trans hx')
    exact fun _ _ => rfl
  · rintro t rfl ht hextras hkeywords
    have hpos : (SelectCall.join kind (.table t) on shared).IsPositional := trivial
    have hframe : b = q.setClause .joins b.joins := eq_setClause_of_run hpos hb
    have hbx : b.extras = [] := by rw [hframe, extras_setClause, hextras]
    obtain ⟨v, hv⟩ := exists_lookupTable_of_addConditions hbx hkeywords hy
    obtain ⟨u, rest, rfl, heffective, heffective'⟩ := exists_next_of_join hs hextras ht hb hv
    obtain ⟨predicates, tests, f, rfl, htests, hf, rfl⟩ :=
      exists_tests_of_addConditions hextras ht ha
    obtain ⟨others, tests', f', hgiven, htests', hf', rfl⟩ :=
      exists_tests_of_addConditions hbx hv hy
    obtain rfl := List.map_injective_iff.2 (fun _ _ => Value.expr.inj) hgiven
    have hsame : SameAt .joins q { q with filter := .expr f } := ⟨rfl, rfl⟩
    have hrun := run_of_sameAt hpos hsame hb
    obtain rfl := Except.ok.inj (hx.symm.trans hrun)
    have hfilter : b.filter = q.filter := by
      rw [hframe]
      rfl
    refine ⟨u, rest, predicates, tests, tests', f, f', heffective, heffective', rfl, htests,
      htests', hf, hfilter ▸ hf', rfl, ?_⟩
    rw [hframe]
    rfl

end Select

/-- A SELECT of the columns of two tables. -/
def Select.ofTwo : Select :=
  { Select.empty with fields := .tuple [.expr (.column .none ⟨0⟩), .expr (.column .none ⟨1⟩)] }

/-- A table that is joined last is not the one in which keywords are looked up. -/
theorem Select.keywords_before_or_after_join_last : ∃ a b x y,
    Select.ofTwo.addConditions .threeTables [] [("x", .int 1)] = .ok a ∧
    a.join .threeTables "INNER" (.table ⟨1⟩) .none (.tuple []) = .ok x ∧
    Select.ofTwo.join .threeTables "INNER" (.table ⟨1⟩) .none (.tuple []) = .ok b ∧
    b.addConditions .threeTables [] [("x", .int 1)] = .ok y ∧
    (∀ cat d, compile cat d (.select y) = compile cat d (.select x)) ∧
    compile .threeTables default (.select x)
      = .ok ⟨.text "SELECT a.x, b.x FROM a INNER JOIN b WHERE a.x = ?", [.int 1]⟩ := by
  have hcalls : ∃ a b x y, Select.ofTwo.addConditions .threeTables [] [("x", .int 1)] = .ok a ∧
      a.join .threeTables "INNER" (.table ⟨1⟩) .none (.tuple []) = .ok x ∧
      Select.ofTwo.join .threeTables "INNER" (.table ⟨1⟩) .none (.tuple []) = .ok b ∧
      b.addConditions .threeTables [] [("x", .int 1)] = .ok y ∧
      compile .threeTables default (.select x)
        = .ok ⟨.text "SELECT a.x, b.x FROM a INNER JOIN b WHERE a.x = ?", [.int 1]⟩ :=
    ⟨_, _, _, _, rfl, rfl, rfl, rfl, rfl⟩
  obtain ⟨a, b, x, y, ha, hx, hb, hy, hc⟩ := hcalls
  have hne : SqlCompose.lookupTable .threeTables ofTwo.extras (ofTwo.lookupTable .threeTables)
      ≠ .ok (.table ⟨1⟩) := by
    have htable : SqlCompose.lookupTable .threeTables ofTwo.extras (ofTwo.lookupTable .threeTables)
        = .ok (.table ⟨0⟩) := rfl
    rw [htable]
    exact fun h => absurd (Value.table.inj (Except.ok.inj h)) (by decide)
  exact ⟨a, b, x, y, ha, hx, hb, hy, (keywords_before_or_after_join rfl ha hx hb hy).1 hne, hc⟩

/-- After a JOIN clause with the table of the keywords they filter the column of another one. -/
theorem Select.keywords_move_with_join : ∃ a b x y,
    Select.ofTwo.addConditions .threeTables [] [("x", .int 1)] = .ok a ∧
    a.join .threeTables "INNER" (.table ⟨0⟩) .none (.tuple []) = .ok x ∧
    Select.ofTwo.join .threeTables "INNER" (.table ⟨0⟩) .none (.tuple []) = .ok b ∧
    b.addConditions .threeTables [] [("x", .int 1)] = .ok y ∧
    compile .threeTables default (.select x)
      = .ok ⟨.text "SELECT a.x, b.x FROM b INNER JOIN a WHERE a.x = ?", [.int 1]⟩ ∧
    compile .threeTables default (.select y)
      = .ok ⟨.text "SELECT a.x, b.x FROM b INNER JOIN a WHERE b.x = ?", [.int 1]⟩ :=
  ⟨_, _, _, _, rfl, rfl, rfl, rfl, rfl, rfl⟩

end SqlCompose
