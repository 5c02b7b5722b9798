import SqlCompose.Proofs.Compile.Alias
import SqlCompose.Proofs.Compile.Parameter
import SqlCompose.Proofs.Expr.Occurrence
import SqlCompose.Proofs.Statement.Restriction

/-!
# Conditions that are joined in groups

Predicates may be combined by one call or group by group, and they may be added to a statement at
once or bit by bit: they compile to the same text with the same parameters. There is one exception,
which is due to a combination being taken apart once in every call. A single predicate that is a
combination of nothing but a combination of nothing but one operand loses its parentheses in a second
call.
-/
namespace SqlCompose

variable {cat : Catalog} {d : Dialect} {symbol : String} {x y : Expr}

/-! ## What compiles -/

/-- Values that are written alike compile to the same text with the same parameters, or neither of
them compiles. -/
theorem compile_iff_of_sameRuns {v w : Value}
    (h : Draft.SameRuns cat (v.built cat d.engine) (w.built cat d.engine)) (c : Compiled) :
    compile cat d v = .ok c ↔ compile cat d w = .ok c := by
  rw [compile_eq_ok_iff_outcome, compile_eq_ok_iff_outcome]
  exact h.outcome d

namespace Expr

/-- An expression that is no column stands on its own as it stands anywhere. -/
theorem built_eq_reference (h : x.columnRef? = none) (e : Engine) :
    (Value.expr x).built cat e = x.reference cat e := by
  rw [Value.built, Value.drafted_expr, Drafted.built, Expr.value_drafted]
  cases x <;> simp_all [columnRef?] <;> rfl

theorem Combines.columnRef?_eq (h : x.Combines symbol) : x.columnRef? = none := by
  obtain ⟨a, arguments, -, rfl⟩ := h
  rfl

/-- What compiles can be written without its alias. -/
theorem exists_run_reference {c : Compiled} (hc : compile cat d (.expr x) = .ok c) : ∃ v rest,
    ((x.reference cat d.engine).assemble cat (.context d 0)).run #[] = (.ok v, rest) := by
  rw [compile_eq_ok_iff_outcome, Draft.outcome_eq_iff] at hc
  cases hx : x.columnRef? with
  | none => exact ⟨_, _, built_eq_reference hx d.engine ▸ hc⟩
  | some r =>
    obtain rfl := columnRef?_eq_some_iff.1 hx
    change (((Expr.column r.asName r.id).reference cat d.engine).named r.asName |>.assemble cat
      (.context d 0)).run #[] = _ at hc
    unfold Draft.named at hc
    split at hc
    · change ((Draft.extend _ _).assemble cat _).run _ = _ at hc
      rw [Draft.assemble] at hc
      obtain ⟨v, rest, hown, -⟩ := Assembly.run_bind_eq_ok hc
      exact ⟨v, rest, hown⟩
    · exact ⟨_, _, hc⟩

/-- What compiles can be combined. -/
theorem filled_of_compile (hs : IsConnective symbol) {c : Compiled}
    (hc : compile cat d (.expr x) = .ok c) : x.Filled symbol := by
  obtain ⟨v, rest, hrun⟩ := exists_run_reference hc
  exact filled_of_run hs hrun

/-- A well-formed expression that compiles is written as a text wherever it stands. -/
theorem exists_writes_reference (hd : d.WritesText) (hw : (Value.expr x).WellFormed)
    {v : Value} {bound rest : Array Value} (hrun : ((x.reference cat d.engine).assemble cat
      (.context d 0)).run bound = (.ok v, rest)) (other : Array Value) :
    ∃ s behind, Draft.Writes cat (.context d 0) (x.reference cat d.engine) other s behind := by
  have hsettled : (x.reference cat d.engine).Settled cat true := by
    have h := (hw.settled cat d.engine).whole
    rwa [Value.drafted_expr] at h
  exact hsettled.exists_writes hd hrun other

/-- Behind what can be written an alias can be written, too. -/
theorem exists_writes_named (hd : d.WritesText) {draft : Draft} {a : Value} (ha : a.IsAlias)
    {s : String} {number : Nat} {bound rest : Array Value}
    (h : Draft.Writes cat (.context d number) draft bound s rest) :
    ∃ t, Draft.Writes cat (.context d number) (draft.named a) bound t rest := by
  unfold Draft.named
  split
  · rename_i ht
    obtain ⟨name, rfl⟩ := ha ht
    have hquote : (Host.context d number).quote cat (.text name)
        = .ok (.text (quoteName d.identifierQuote name)) := Dialect.quote_eq_text cat hd name
    have hbehind : (Draft.keyword .between "AS" + .name (.text name)).assemble cat (.context d number)
        = pure (.text (" AS " ++ quoteName d.identifierQuote name)) := by
      change (Draft.plus (.token (.keyword .between "AS")) (.name (.text name))).assemble cat _ = _
      rw [Draft.assemble, Draft.assemble, Draft.assemble, hquote]
      rfl
    refine ⟨s ++ (" AS " ++ quoteName d.identifierQuote name), ?_⟩
    change ((Draft.extend draft (Draft.keyword .between "AS" + .name (.text name))).assemble cat
      _).run bound = _
    rw [Draft.assemble, Assembly.run_bind_of_ok h, hbehind]
    rfl
  · exact ⟨s, h⟩

/-- An expression compiles if it is written as a text. -/
theorem exists_compile (hd : d.WritesText) (ha : ∀ r, x.columnRef? = some r → r.asName.IsAlias)
    {s : String} {rest : Array Value}
    (h : Draft.Writes cat (.context d 0) (x.reference cat d.engine) #[] s rest) :
    ∃ c, compile cat d (.expr x) = .ok c := by
  suffices hbuilt : ∃ t, Draft.Writes cat (.context d 0) ((Value.expr x).built cat d.engine) #[] t
      rest by
    obtain ⟨t, ht⟩ := hbuilt
    exact ⟨⟨.text t, rest.toList⟩, compile_eq_ok_iff_outcome.2 (Draft.outcome_eq_iff.2 ht)⟩
  cases hx : x.columnRef? with
  | none => exact ⟨s, built_eq_reference hx d.engine ▸ h⟩
  | some r =>
    have hr := ha r hx
    obtain rfl := columnRef?_eq_some_iff.1 hx
    exact exists_writes_named hd hr h

/-- The row of the terms of what compiles is written as a text wherever it stands. -/
theorem exists_writes_termsDraft (hs : IsConnective symbol) (hd : d.WritesText)
    (hw : (Value.expr x).WellFormed) {c : Compiled} (hc : compile cat d (.expr x) = .ok c)
    (bound : Array Value) : ∃ s rest, Draft.Writes cat (.context d 0)
      (termsDraft cat d.engine symbol (x.terms symbol)) bound s rest := by
  obtain ⟨v, rest, hrun⟩ := exists_run_reference hc
  obtain ⟨s, behind, hs'⟩ := exists_writes_reference hd hw hrun bound
  have hterms : Draft.SameTexts cat ((x.operand cat d.engine).under _ _ .left) _ :=
    sameTexts_terms hs x .left
  unfold Operand.under at hterms
  split at hterms
  · exact ⟨_, behind, (hterms d 0 _ _ _).1 hs'.parenthesized⟩
  · exact ⟨s, behind, (hterms d 0 _ _ _).1 hs'⟩

/-- What has the terms of predicates that compile compiles, too. -/
theorem exists_compile_of_terms (hs : IsConnective symbol) (hd : d.WritesText) {xs : List Expr}
    (hw : ∀ x ∈ xs, (Value.expr x).WellFormed)
    (hc : ∀ x ∈ xs, ∃ c, compile cat d (.expr x) = .ok c)
    (hy : y.terms symbol = xs.flatMap (terms symbol)) : ∃ c, compile cat d (.expr y) = .ok c := by
  have hitems : ∀ draft ∈ xs.map fun x => termsDraft cat d.engine symbol (x.terms symbol),
      ∀ bound, ∃ s rest, Draft.Writes cat (.context d 0) draft bound s rest := by
    intro draft hdraft
    obtain ⟨x, hx, rfl⟩ := List.mem_map.1 hdraft
    obtain ⟨c, hxc⟩ := hc x hx
    exact exists_writes_termsDraft hs hd (hw x hx) hxc
  obtain ⟨texts, rest, htexts⟩ := Draft.exists_writesAll hitems #[]
  have hrun := (sameRuns_row_terms xs d 0 _ _ _).1 (Draft.run_row.2 ⟨texts, htexts, rfl⟩)
  rw [← hy] at hrun
  by_cases hcombines : y.Combines symbol
  · have hreference := (sameRuns_termsDraft hs hcombines d 0 _ _ _).2 hrun
    exact exists_compile hd (by simp [hcombines.columnRef?_eq]) hreference
  · have hmem : y ∈ xs.flatMap (terms symbol) := by
      rw [← hy, terms_of_not_combines hcombines]
      exact List.mem_singleton_self y
    obtain ⟨x, hx, hyx⟩ := List.mem_flatMap.1 hmem
    have hwy := wellFormed_of_mem_terms (hw x hx) hyx
    rw [terms_of_not_combines hcombines] at hrun
    have hterm := (Draft.SameTexts.singleton _ _ d 0 _ _ _).1 hrun
    obtain ⟨v, between, hown⟩ : ∃ v between, ((y.reference cat d.engine).assemble cat
        (.context d 0)).run #[] = (.ok v, between) := by
      unfold termDraft Operand.under at hterm
      split at hterm
      · exact Draft.exists_run_of_parenthesized hterm
      · exact ⟨_, _, hterm⟩
    obtain ⟨s, behind, hwrites⟩ := exists_writes_reference hd hwy hown #[]
    refine exists_compile hd ?_ hwrites
    intro r hr
    have ha := (hwy.settled cat d.engine).steady.asName y (Value.value_drafted ..)
    obtain rfl := columnRef?_eq_some_iff.1 hr
    exact ha

/-! ## One predicate -/

/-- Whether an expression is a combination of nothing but a combination of nothing but one operand,
both without an alias. -/
def WrapsTwice (symbol : String) (x : Expr) : Prop :=
  ∃ a b y, a.truthy = false ∧ b.truthy = false ∧
    x = .apply a .boolean symbol [.apply b .boolean symbol [y]]

/-- An expression either stays whole in a combination or is taken apart. -/
theorem flattened_cases (symbol : String) (x : Expr) : x.flattened symbol = [x] ∨
    ∃ a arguments, a.truthy = false ∧ x = .apply a .boolean symbol arguments ∧
      x.flattened symbol = arguments := by
  unfold flattened
  split
  · rename_i a own arguments
    by_cases h : own = symbol ∧ !a.truthy
    · obtain ⟨rfl, ha⟩ := h
      exact .inr ⟨a, arguments, by simpa using ha, rfl, by rw [if_pos ⟨rfl, ha⟩]⟩
    · exact .inl (by rw [if_neg h])
  · exact .inl rfl

/-- What has a single term is taken apart into a single expression. -/
theorem Filled.exists_flattened (h : x.Filled symbol) (hone : (x.terms symbol).length = 1) :
    ∃ y, x.flattened symbol = [y] ∧ y.terms symbol = x.terms symbol := by
  have hlaid : (x.flattened symbol).flatMap (terms symbol) = x.terms symbol := h.laid_eq
  have hlength := length_le_flatMap_terms symbol (x.flattened symbol)
  rw [hlaid, hone] at hlength
  cases hx : x.flattened symbol with
  | nil => simp [← hlaid, hx] at hone
  | cons y rest =>
    obtain rfl : rest = [] := by simpa [hx] using hlength
    exact ⟨y, rfl, by simpa [hx] using hlaid⟩

/-- What does not wrap twice is taken apart no further than once. -/
theorem flattened_of_not_wrapsTwice (hfilled : x.Filled symbol) (hone : (x.terms symbol).length = 1)
    (hw : ¬x.WrapsTwice symbol) : ∃ y, x.flattened symbol = [y] ∧ y.flattened symbol = [y] := by
  obtain ⟨y, hy, hterms⟩ := hfilled.exists_flattened hone
  have hfilledy : y.Filled symbol := fun z hz => hfilled z (hterms ▸ hz)
  obtain ⟨z, hz, -⟩ := hfilledy.exists_flattened (hterms ▸ hone)
  refine ⟨y, hy, ?_⟩
  rcases flattened_cases symbol x with hx | ⟨a, arguments, ha, hxa, hx⟩
  · obtain rfl := List.singleton_inj.1 (hx.symm.trans hy)
    exact hx
  · rcases flattened_cases symbol y with hself | ⟨b, others, hb, hyb, hothers⟩
    · exact hself
    · obtain rfl := hx.symm.trans hy
      obtain rfl := hothers.symm.trans hz
      exact absurd ⟨a, b, z, ha, hb, hxa.trans (by rw [hyb])⟩ hw

/-- What binds more weakly than a combination stands in it in parentheses. -/
theorem compile_wrapped (hs : IsConnective symbol)
    (hlow : x.level.rank < (Operator.boolean.level symbol).rank) (a : Value) {s : String}
    {parameters : List Value} (hc : compile cat d (.expr x) = .ok ⟨.text s, parameters⟩) :
    compile cat d (.expr (.apply a .boolean symbol [x])) = .ok ⟨.text ("(" ++ s ++ ")"), parameters⟩ := by
  have hcolumn : x.columnRef? = none := by
    cases x with
    | column b id =>
      change Level.atom.rank < _ at hlow
      rcases hs with rfl | rfl <;> exact absurd hlow (by decide)
    | _ => rfl
  have hcombines : ¬x.Combines symbol := by
    rintro ⟨b, arguments, -, rfl⟩
    exact Nat.lt_irrefl _ hlow
  have hwrapped : (Expr.apply a .boolean symbol [x]).Combines symbol :=
    ⟨a, [x], List.cons_ne_nil _ _, rfl⟩
  have hterms : (Expr.apply a .boolean symbol [x]).terms symbol = [x] := by
    rw [terms_apply a (List.cons_ne_nil _ _), List.flatMap_singleton, terms_of_not_combines hcombines]
  have hunder : termDraft cat d.engine symbol x = (x.reference cat d.engine).parenthesized :=
    if_pos (needsParentheses_of_weaker _ _ _ hlow)
  rw [compile_eq_ok_iff_outcome, Draft.outcome_eq_iff, built_eq_reference hcolumn] at hc
  rw [compile_eq_ok_iff_outcome, Draft.outcome_eq_iff, built_eq_reference hwrapped.columnRef?_eq]
  refine (sameRuns_termsDraft hs hwrapped d 0 _ _ _).2 ?_
  rw [hterms]
  refine (Draft.SameTexts.singleton _ _ d 0 _ _ _).2 ?_
  rw [hunder]
  exact Draft.Writes.parenthesized hc

end Expr

/-! ## Groups of predicates -/

/-- Combinations of the same terms are written alike on their own. -/
theorem Expr.sameRuns_built (hs : IsConnective symbol) (hx : x.Combines symbol)
    (hy : y.Combines symbol) (h : x.terms symbol = y.terms symbol) (e : Engine) :
    Draft.SameRuns cat ((Value.expr x).built cat e) ((Value.expr y).built cat e) := by
  rw [built_eq_reference hx.columnRef?_eq, built_eq_reference hy.columnRef?_eq]
  exact sameRuns_of_terms hs hx hy h

/-- Nested calls compile like one call with all predicates. -/
theorem Nesting.compile_build_iff (hs : Expr.IsConnective symbol) {first : Nesting}
    {others : List Nesting} (hfilled : ∀ p ∈ (call first others).predicates, p.Filled symbol)
    (hw : ∀ p, (call first others).predicates = [p] → ¬p.WrapsTwice symbol)
    (hx : (call first others).build symbol = .ok x)
    (hy : Expr.combine symbol ((call first others).predicates.map .expr) = .ok y) (c : Compiled) :
    compile cat d (.expr x) = .ok c ↔ compile cat d (.expr y) = .ok c := by
  have hne := predicates_ne_nil (call first others)
  obtain ⟨x', hx', hxterms⟩ := exists_build (call first others) hfilled
  obtain rfl := Except.ok.inj (hx.symm.trans hx')
  obtain ⟨y', hy', hyterms⟩ := Expr.exists_combine_of_filled hne hfilled
  obtain rfl := Except.ok.inj (hy.symm.trans hy')
  by_cases hlen : 2 ≤ ((call first others).predicates.flatMap (Expr.terms symbol)).length
  · have hcx := Expr.combines_of_terms (hxterms ▸ hlen)
    have hcy := Expr.combines_of_terms (hyterms ▸ hlen)
    exact compile_iff_of_sameRuns (Expr.sameRuns_built hs hcx hcy (hxterms.trans hyterms.symm) _) c
  · -- each predicate has a term, so that there is only one predicate here
    have hshort := Expr.length_le_flatMap_terms symbol (call first others).predicates
    obtain ⟨p, rest, hp⟩ := List.exists_cons_of_ne_nil hne
    obtain rfl : rest = [] := by
      rw [hp, List.length_cons] at hshort
      exact List.eq_nil_of_length_eq_zero (by rw [hp] at hlen; omega)
    have hone : (p.terms symbol).length = 1 := by
      have hpos := List.length_pos_of_ne_nil (Expr.terms_ne_nil symbol p)
      rw [hp, List.flatMap_singleton] at hlen
      omega
    obtain ⟨z, hz, hself⟩ := Expr.flattened_of_not_wrapsTwice
      (hfilled p (hp ▸ List.mem_singleton_self p)) hone (hw p hp)
    obtain rfl := Except.ok.inj (hx.symm.trans (build_of_predicates_eq hz hself first others hp))
    rw [hp] at hy
    obtain rfl := Except.ok.inj (hy.symm.trans (Expr.combine_singleton hz))
    rfl

/-- A statement to which predicates are added by several calls compiles like the one to which they are
added at once. -/
theorem Restriction.compile_addAll_iff {r : Restriction} {parts : List (List Expr)} (hr : r.IsUsual)
    (hne : parts ≠ []) (hparts : ∀ part ∈ parts, part ≠ [] ∧ ∀ p ∈ part, p.Filled "AND") :
    ∃ s t, r.addAll cat parts = .ok s ∧ r.add cat (parts.flatten.map .expr) = .ok t ∧
      ∀ c, compile cat d s.statement = .ok c ↔ compile cat d t.statement = .ok c := by
  have hlen := length_le_length_flatten fun part hpart => (hparts part hpart).1
  have hflatne : parts.flatten ≠ [] := by
    intro hnil
    rw [hnil, List.length_nil, Nat.le_zero] at hlen
    exact hne (List.eq_nil_of_length_eq_zero hlen)
  have hflat : ∀ p ∈ parts.flatten, p.Filled "AND" := by
    intro p hp
    obtain ⟨part, hpart, hp⟩ := List.mem_flatten.1 hp
    exact (hparts part hpart).2 p hp
  obtain ⟨x, hx, hxterms⟩ : ∃ x, r.addAll cat parts = .ok (r.withCondition (.expr x)) ∧ _ :=
    exists_addAll hne hparts hr
  obtain ⟨y, hy, hyterms, -⟩ := exists_joinConditions r.condition hflatne hflat
  have hadd : r.add cat (parts.flatten.map .expr) = .ok (r.withCondition (.expr y)) :=
    add_eq hr hflatne hy
  refine ⟨_, _, hx, hadd, fun c => ?_⟩
  by_cases htwo : 2 ≤ parts.length
  · have hterms := Expr.length_le_flatMap_terms "AND" parts.flatten
    have hcx : x.Combines "AND" := Expr.combines_of_terms (by rw [hxterms, List.length_append]; omega)
    have hcy : y.Combines "AND" := Expr.combines_of_terms (by rw [hyterms, List.length_append]; omega)
    have hbuilt : Draft.SameRuns cat ((Value.expr x).built cat d.engine)
        ((Value.expr y).built cat d.engine) :=
      Expr.sameRuns_built (.inl rfl) hcx hcy (hxterms.trans hyterms.symm) _
    have hclause : ((Value.expr x).drafted cat d.engine).ClauseRelated (Draft.SameRuns cat)
        ((Value.expr y).drafted cat d.engine) := ⟨by simp [Value.isNone], hbuilt⟩
    exact compile_iff_of_sameRuns (sameRuns_withCondition r hclause) c
  · -- a single part is added by the same call
    obtain ⟨part, rest, rfl⟩ := List.exists_cons_of_ne_nil hne
    obtain rfl : rest = [] := List.eq_nil_of_length_eq_zero (by rw [List.length_cons] at htwo; omega)
    have hone : r.addAll cat [part] = r.add cat (part.map .expr) := bind_pure _
    rw [List.flatten_cons, List.flatten_nil, List.append_nil] at hadd
    rw [Except.ok.inj (hx.symm.trans (hone.trans hadd))]

/-- A second layer around an expression changes nothing. -/
theorem Expr.compile_wrapped_iff (hs : IsConnective symbol) (a b : Value) (x : Expr) (c : Compiled) :
    compile cat d (.expr (.apply a .boolean symbol [.apply b .boolean symbol [x]])) = .ok c ↔
      compile cat d (.expr (.apply b .boolean symbol [x])) = .ok c := by
  have hcombines : ∀ (a : Value) (y : Expr), (Expr.apply a .boolean symbol [y]).Combines symbol :=
    fun a y => ⟨a, [y], List.cons_ne_nil _ _, rfl⟩
  have hterms : (Expr.apply a .boolean symbol [.apply b .boolean symbol [x]]).terms symbol
      = (Expr.apply b .boolean symbol [x]).terms symbol := by
    rw [terms_apply a (List.cons_ne_nil _ _), List.flatMap_singleton]
  exact compile_iff_of_sameRuns (sameRuns_built hs (hcombines a _) (hcombines b x) hterms _) c

/-- One call takes one layer from an expression in two layers, and two calls take both. -/
theorem Nesting.build_wrapped {a b : Value} (ha : a.truthy = false) (hb : b.truthy = false)
    (x : Expr) :
    let p := Expr.apply a .boolean symbol [.apply b .boolean symbol [x]]
    Expr.combine symbol [.expr p] = .ok (.apply b .boolean symbol [x]) ∧
      (call (.call (.predicate p) []) []).build symbol = .ok x := by
  intro p
  have hfirst : (call (.predicate p) []).build symbol = .ok (.apply b .boolean symbol [x]) :=
    Expr.combine_singleton (by simp [p, Expr.flattened, ha])
  refine ⟨hfirst, ?_⟩
  rw [build, hfirst]
  exact Expr.combine_singleton (by simp [Expr.flattened, hb])

/-- However calls of AND or OR are nested over predicates that compile, and however such predicates
are split over calls that add them to a statement, the outcome compiles like that of one call. The
exception is a single predicate that wraps another one twice: one call leaves it in parentheses, and
a further call takes them away. -/
theorem grouped_conditions_compile_alike (cat : Catalog) (d : Dialect) {symbol : String}
    (hs : Expr.IsConnective symbol) :
    (∀ (first : Nesting) (others : List Nesting),
      (∀ p ∈ (Nesting.call first others).predicates, ∃ c, compile cat d (.expr p) = .ok c) →
      (∀ p, (Nesting.call first others).predicates = [p] → ¬p.WrapsTwice symbol) →
      ∃ x y, (Nesting.call first others).build symbol = .ok x ∧
        Expr.combine symbol ((Nesting.call first others).predicates.map .expr) = .ok y ∧
        (∀ c, compile cat d (.expr x) = .ok c ↔ compile cat d (.expr y) = .ok c) ∧
        (d.WritesText →
          (∀ p ∈ (Nesting.call first others).predicates, (Value.expr p).WellFormed) →
          ∃ c, compile cat d (.expr y) = .ok c)) ∧
    (∀ (a b : Value) (x : Expr) (s : String) (parameters : List Value), a.truthy = false →
      b.truthy = false → x.level.rank < (Operator.boolean.level symbol).rank →
      compile cat d (.expr x) = .ok ⟨.text s, parameters⟩ →
      ∃ p y, p = .apply a .boolean symbol [y] ∧ y = .apply b .boolean symbol [x] ∧
        compile cat d (.expr p) = .ok ⟨.text ("(" ++ s ++ ")"), parameters⟩ ∧
        Expr.combine symbol [.expr p] = .ok y ∧
        compile cat d (.expr y) = .ok ⟨.text ("(" ++ s ++ ")"), parameters⟩ ∧
        (Nesting.call (.call (.predicate p) []) []).build symbol = .ok x) ∧
    (∀ (r : Restriction) (parts : List (List Expr)), r.IsUsual → parts ≠ [] →
      (∀ part ∈ parts, part ≠ [] ∧ ∀ p ∈ part, ∃ c, compile cat d (.expr p) = .ok c) →
      ∃ s t, r.addAll cat parts = .ok s ∧ r.add cat (parts.flatten.map .expr) = .ok t ∧
        ∀ c, compile cat d s.statement = .ok c ↔ compile cat d t.statement = .ok c) := by
  refine ⟨?_, ?_, ?_⟩
  · intro first others hc hw
    have hfilled : ∀ p ∈ (Nesting.call first others).predicates, p.Filled symbol := by
      intro p hp
      obtain ⟨c, hpc⟩ := hc p hp
      exact Expr.filled_of_compile hs hpc
    obtain ⟨x, hx, -⟩ := Nesting.exists_build (.call first others) hfilled
    obtain ⟨y, hy, hterms⟩ :=
      Expr.exists_combine_of_filled (Nesting.predicates_ne_nil (.call first others)) hfilled
    refine ⟨x, y, hx, hy, Nesting.compile_build_iff hs hfilled hw hx hy, ?_⟩
    intro hd hwell
    exact Expr.exists_compile_of_terms hs hd hwell hc hterms
  · intro a b x s parameters ha hb hlow hx
    have hinner := Expr.compile_wrapped hs hlow b hx
    obtain ⟨hone, htwo⟩ := @Nesting.build_wrapped symbol _ _ ha hb x
    exact ⟨_, _, rfl, rfl, (Expr.compile_wrapped_iff hs a b x _).2 hinner, hone, hinner, htwo⟩
  · intro r parts hr hne hparts
    refine Restriction.compile_addAll_iff hr hne fun part hpart => ?_
    refine ⟨(hparts part hpart).1, fun p hp => ?_⟩
    obtain ⟨c, hpc⟩ := (hparts part hpart).2 p hp
    exact Expr.filled_of_compile (.inl rfl) hpc

/-- The test whether two numbers are equal. -/
def Expr.ofNumbers (m n : Int) : Expr :=
  .apply .none .binary "=" [.literal .none (.int m) none, .literal .none (.int n) none]

theorem Expr.compile_ofNumbers (m n : Int) : compile default default (.expr (.ofNumbers m n))
    = .ok ⟨.text "? = ?", [.int m, .int n]⟩ := rfl

/-- Three tests in two groups, an alternative that is wrapped twice, and three tests in a WHERE
clause. -/
theorem grouped_conditions_compile_alike_numbers :
    (∃ x y c, (Nesting.call (.predicate (.ofNumbers 1 2))
        [.call (.predicate (.ofNumbers 3 4)) [.predicate (.ofNumbers 5 6)]]).build "AND" = .ok x ∧
      Expr.combine "AND" ([.ofNumbers 1 2, .ofNumbers 3 4, .ofNumbers 5 6].map .expr) = .ok y ∧
      compile default default (.expr x) = .ok c ∧ compile default default (.expr y) = .ok c) ∧
    (∃ x p y, x = .apply .none .boolean "OR" [.ofNumbers 1 2, .ofNumbers 3 4] ∧
      p = .apply .none .boolean "AND" [y] ∧ Expr.combine "AND" [.expr p] = .ok y ∧
      compile default default (.expr y)
        = .ok ⟨.text "(? = ? OR ? = ?)", [.int 1, .int 2, .int 3, .int 4]⟩ ∧
      (Nesting.call (.call (.predicate p) []) []).build "AND" = .ok x ∧
      compile default default (.expr x)
        = .ok ⟨.text "? = ? OR ? = ?", [.int 1, .int 2, .int 3, .int 4]⟩) ∧
    (∃ s t, (Restriction.deleteWhere (.from (.table ⟨0⟩))).addAll default
        [[.ofNumbers 1 2], [.ofNumbers 3 4, .ofNumbers 5 6]] = .ok s ∧
      (Restriction.deleteWhere (.from (.table ⟨0⟩))).add default
        ([.ofNumbers 1 2, .ofNumbers 3 4, .ofNumbers 5 6].map .expr) = .ok t ∧
      ∀ c, compile default default s.statement = .ok c ↔
        compile default default t.statement = .ok c) := by
  obtain ⟨hnest, hwrap, hsplit⟩ :=
    @grouped_conditions_compile_alike default default "AND" (.inl rfl)
  refine ⟨?_, ?_, ?_⟩
  · obtain ⟨x, y, hx, hy, hsame, hcompiles⟩ := hnest (.predicate (.ofNumbers 1 2))
      [.call (.predicate (.ofNumbers 3 4)) [.predicate (.ofNumbers 5 6)]] (by
        intro p hp
        simp [Nesting.predicates, Nesting.predicatesAll] at hp
        rcases hp with rfl | rfl | rfl <;> exact ⟨_, Expr.compile_ofNumbers _ _⟩) (by
        intro p hp
        simp [Nesting.predicates, Nesting.predicatesAll] at hp)
    obtain ⟨c, hc⟩ := hcompiles ⟨rfl, rfl⟩ (by
      intro p hp
      simp [Nesting.predicates, Nesting.predicatesAll] at hp
      rcases hp with rfl | rfl | rfl <;> simp [Expr.ofNumbers])
    exact ⟨x, y, c, hx, hy, (hsame c).2 hc, hc⟩
  · have hx : compile default default (.expr (.apply .none .boolean "OR"
        [.ofNumbers 1 2, .ofNumbers 3 4]))
        = .ok ⟨.text "? = ? OR ? = ?", [.int 1, .int 2, .int 3, .int 4]⟩ := rfl
    obtain ⟨p, y, rfl, -, -, hy, hcy, hnested⟩ := hwrap .none .none _ _ _ rfl rfl (by decide) hx
    exact ⟨_, _, y, rfl, rfl, hy, hcy, hnested, hx⟩
  · refine hsplit _ _ rfl (by simp) ?_
    intro part hpart
    simp at hpart
    rcases hpart with rfl | rfl
    · simp [Expr.compile_ofNumbers]
    · simp [Expr.compile_ofNumbers]

end SqlCompose
