import SqlCompose.Proofs.Statement.Restriction

/-!
# Keywords of WHERE calls

A key that ends with two underscores and a lookup denotes the name before them, whatever underscores
this name has itself: no lookup has any, so the last two of the key are the ones in between. All
other keys denote themselves. A call makes a test of each keyword on the column of that name and
joins the tests to the condition in order.
-/
namespace SqlCompose

namespace Lookup

/-- What a key denotes: a name and the lookup of its ending if it has both, and otherwise the key
itself, which has to equal the value. -/
inductive Denotes : String → String → Lookup → Prop
  | ending {name ending : String} {lookup : Lookup} (hname : name ≠ "")
    (h : (ending, lookup) ∈ names) : Denotes (name ++ "__" ++ ending) name lookup
  | whole {key : String} (h : ∀ name ending lookup, name ≠ "" → (ending, lookup) ∈ names →
    key ≠ name ++ "__" ++ ending) : Denotes key key exact

theorem ofName?_eq_some_iff {s : String} {lookup : Lookup} :
    ofName? s = some lookup ↔ (s, lookup) ∈ names := by
  constructor
  · intro h
    obtain ⟨before, after, hsplit, -⟩ := List.lookup_eq_some_iff.1 h
    rw [hsplit]
    simp
  · have hall : ∀ entry ∈ names, ofName? entry.1 = some entry.2 := by decide
    exact fun h => hall (s, lookup) h

/-- No ending of a lookup has an underscore. -/
theorem notMem_ending {s : String} {lookup : Lookup} (h : (s, lookup) ∈ names) :
    '_' ∉ s.toList := by
  have hall : ∀ entry ∈ names, '_' ∉ entry.1.toList := by decide
  exact hall (s, lookup) h

theorem eq_append_of_splitLast {cs before after : List Char}
    (h : splitLast cs = some (before, after)) : cs = before ++ '_' :: '_' :: after := by
  induction cs generalizing before with
  | nil => cases h
  | cons c cs ih =>
    unfold splitLast at h
    cases hrest : splitLast cs with
    | some parts =>
      rw [hrest] at h
      obtain ⟨rfl, rfl⟩ := Prod.mk.inj (Option.some.inj h)
      rw [List.cons_append, ← ih hrest]
    | none =>
      rw [hrest] at h
      simp only at h
      split at h
      · rename_i hpair
        obtain ⟨rfl, rfl⟩ := Prod.mk.inj (Option.some.inj h)
        obtain ⟨rfl, hhead⟩ := hpair
        rw [List.nil_append, List.cons_head?_tail hhead]
      · cases h

theorem splitLast_ending {name s : String} {lookup : Lookup} (h : (s, lookup) ∈ names) :
    splitLast (name ++ "__" ++ s).toList = some (name.toList, s.toList) := by
  have hkey : (name ++ "__" ++ s).toList = name.toList ++ '_' :: '_' :: s.toList := by
    rw [String.toList_append, String.toList_append, List.append_assoc]
    rfl
  rw [hkey]
  exact splitLast_append (notMem_ending h) _

theorem parse_ending {name s : String} {lookup : Lookup} (hname : name ≠ "")
    (h : (s, lookup) ∈ names) : parse (name ++ "__" ++ s) = (name, lookup) := by
  have hbefore : name.toList ≠ [] := by simpa using hname
  rw [parse, splitLast_ending h]
  simp only [String.ofList_toList, ofName?_eq_some_iff.2 h, if_neg hbefore]

theorem parse_whole {key : String} (h : ∀ name ending lookup, name ≠ "" →
    (ending, lookup) ∈ names → key ≠ name ++ "__" ++ ending) : parse key = (key, exact) := by
  unfold parse
  split
  · rename_i before after hsplit
    split
    · rename_i lookup hlookup
      split
      · rfl
      · rename_i hbefore
        have hkey : key = String.ofList before ++ "__" ++ String.ofList after := by
          rw [← String.toList_inj, eq_append_of_splitLast hsplit]
          simp
        have hname : String.ofList before ≠ "" := by simpa using hbefore
        exact absurd hkey (h _ _ lookup hname (ofName?_eq_some_iff.1 hlookup))
    · rfl
  · rfl

/-- A key is read as what it denotes. -/
theorem parse_eq_iff {key name : String} {lookup : Lookup} :
    parse key = (name, lookup) ↔ Denotes key name lookup := by
  constructor
  · intro h
    by_cases hending : ∃ name ending lookup, name ≠ "" ∧ (ending, lookup) ∈ names ∧
        key = name ++ "__" ++ ending
    · obtain ⟨name', ending, lookup', hname, hmem, rfl⟩ := hending
      rw [parse_ending hname hmem] at h
      obtain ⟨rfl, rfl⟩ := Prod.mk.inj h
      exact .ending hname hmem
    · have hwhole : ∀ name ending lookup, name ≠ "" → (ending, lookup) ∈ names →
          key ≠ name ++ "__" ++ ending :=
        fun name ending lookup hname hmem heq => hending ⟨name, ending, lookup, hname, hmem, heq⟩
      rw [parse_whole hwhole] at h
      obtain ⟨rfl, rfl⟩ := Prod.mk.inj h
      exact .whole hwhole
  · rintro (⟨hname, hmem⟩ | hwhole)
    · exact parse_ending hname hmem
    · exact parse_whole hwhole

/-! ## Keywords on the columns of a table -/

variable {cat : Catalog} {id : TableId} {key name : String} {lookup : Lookup}
  {keywords : List (String × Value)}

/-- Whether a key denotes the name of a column of a table. -/
def Finds (cat : Catalog) (id : TableId) (key : String) : Prop :=
  ∃ name lookup, Denotes key name lookup ∧ name ∈ cat.columnNames id

/-- Whether a keyword asks for a test: the one that its lookup makes of the column of its name. -/
def Asks (cat : Catalog) (id : TableId) (keyword : String × Value) (x : Expr) : Prop :=
  ∃ name lookup r, Denotes keyword.1 name lookup ∧ cat.find? id name = some r ∧
    lookup.apply r.expr keyword.2 = .ok x

/-- Whether the lookup of a keyword takes its value, if there is a column of its name. -/
def Takes (cat : Catalog) (id : TableId) (keyword : String × Value) : Prop :=
  ∀ name lookup r, Denotes keyword.1 name lookup → cat.find? id name = some r →
    ∃ x, lookup.apply r.expr keyword.2 = .ok x

/-- What goes wrong when a table has no column of the name that a key denotes. -/
def missing (cat : Catalog) (id : TableId) (key name : String) : Error :=
  .unknownLookupColumn (Text.display key) (Text.display (cat.table id).name) (Text.display name)

theorem Denotes.unique {name' : String} {lookup' : Lookup} (h : Denotes key name lookup)
    (h' : Denotes key name' lookup') : name = name' ∧ lookup = lookup' :=
  Prod.mk.inj ((parse_eq_iff.2 h).symm.trans (parse_eq_iff.2 h'))

theorem exists_denotes (key : String) : ∃ name lookup, Denotes key name lookup :=
  ⟨_, _, parse_eq_iff.1 rfl⟩

theorem exists_find?_iff : (∃ r, cat.find? id name = some r) ↔ name ∈ cat.columnNames id := by
  rw [← Option.isSome_iff_exists, Catalog.find?, List.find?_isSome, Catalog.columnNames]
  simp

theorem find?_eq_none_iff : cat.find? id name = none ↔ name ∉ cat.columnNames id := by
  rw [← exists_find?_iff, ← Option.isSome_iff_exists, Bool.not_eq_true, Option.isSome_eq_false_iff,
    Option.isNone_iff_eq_none]

theorem condition_of_find {r : ColumnRef} {v : Value} (h : Denotes key name lookup)
    (hr : cat.find? id name = some r) :
    condition cat (.table id) key v = (lookup.apply r.expr v).map .expr := by
  have hat : (Value.table id).at? cat (.text name) = .ok (some (.expr r.expr)) := by
    have hfound : (Value.table id).at? cat (.text name)
        = .ok ((cat.find? id name).map fun r => .expr r.expr) := rfl
    rw [hfound, hr]
    rfl
  rw [condition, parse_eq_iff.2 h]
  simp only [hat]
  rfl

theorem condition_of_missing {v : Value} (h : Denotes key name lookup)
    (hname : name ∉ cat.columnNames id) :
    condition cat (.table id) key v = .error (missing cat id key name) := by
  have hat : (Value.table id).at? cat (.text name) = .ok none := by
    have hfound : (Value.table id).at? cat (.text name)
        = .ok ((cat.find? id name).map fun r => .expr r.expr) := rfl
    rw [hfound, find?_eq_none_iff.2 hname]
    rfl
  rw [condition, parse_eq_iff.2 h]
  simp only [hat]
  rfl

/-- The test of a keyword whose column is there. -/
theorem condition_eq_ok_iff {v w : Value} : condition cat (.table id) key v = .ok w ↔
    ∃ x, w = .expr x ∧ Asks cat id (key, v) x := by
  obtain ⟨name, lookup, h⟩ := exists_denotes key
  by_cases hname : name ∈ cat.columnNames id
  · obtain ⟨r, hr⟩ := exists_find?_iff.2 hname
    rw [condition_of_find h hr]
    constructor
    · intro hw
      cases hx : lookup.apply r.expr v with
      | error e =>
        rw [hx] at hw
        cases hw
      | ok x =>
        rw [hx] at hw
        exact ⟨x, (Except.ok.inj hw).symm, name, lookup, r, h, hr, hx⟩
    · rintro ⟨x, rfl, name', lookup', r', h', hr', hx⟩
      obtain ⟨rfl, rfl⟩ := h.unique h'
      obtain rfl := Option.some.inj (hr.symm.trans hr')
      rw [hx]
      rfl
  · rw [condition_of_missing h hname]
    refine ⟨nofun, ?_⟩
    rintro ⟨x, rfl, name', lookup', r, h', hr, hx⟩
    obtain ⟨rfl, rfl⟩ := h.unique h'
    exact absurd (exists_find?_iff.1 ⟨r, hr⟩) hname

/-- Keywords make a condition each, in order. -/
theorem conditions_eq_ok_iff {vs : List Value} :
    conditions cat (.ok (.table id)) keywords = .ok vs ↔
      ∃ tests, vs = tests.map .expr ∧ List.Forall₂ (Asks cat id) keywords tests := by
  induction keywords generalizing vs with
  | nil =>
    constructor
    · intro h
      exact ⟨[], (Except.ok.inj h).symm, .nil⟩
    · rintro ⟨tests, rfl, ⟨⟩⟩
      rfl
  | cons keyword keywords ih =>
    obtain ⟨key, v⟩ := keyword
    have hcons : conditions cat (.ok (.table id)) ((key, v) :: keywords) = .ok vs ↔
        ∃ w, condition cat (.table id) key v = .ok w ∧
          ∃ ws, conditions cat (.ok (.table id)) keywords = .ok ws ∧ w :: ws = vs := by
      simp only [conditions, Except.bind_eq_ok_iff, pure, Except.pure, Except.ok.injEq,
        exists_eq_left']
    rw [hcons]
    constructor
    · rintro ⟨w, hw, ws, hws, rfl⟩
      obtain ⟨x, rfl, hx⟩ := condition_eq_ok_iff.1 hw
      obtain ⟨tests, rfl, htests⟩ := ih.1 hws
      exact ⟨x :: tests, rfl, .cons hx htests⟩
    · rintro ⟨_, rfl, hall⟩
      obtain ⟨x, tests, hx, htests, rfl⟩ := List.forall₂_cons_left_iff.1 hall
      exact ⟨_, condition_eq_ok_iff.2 ⟨x, rfl, hx⟩, _, ih.2 ⟨tests, rfl, htests⟩, rfl⟩

end Lookup

/-- Whether an expression is no combination, not even one of nothing. -/
def Expr.IsTerm (symbol : String) (x : Expr) : Prop :=
  ∀ a arguments, x ≠ .apply a .boolean symbol arguments

theorem Expr.IsTerm.terms_eq {symbol : String} {x : Expr} (h : x.IsTerm symbol) :
    x.terms symbol = [x] :=
  terms_of_not_combines fun ⟨a, arguments, _, heq⟩ => h a arguments heq

theorem Expr.IsTerm.filled {symbol : String} {x : Expr} (h : x.IsTerm symbol) :
    x.Filled symbol := by
  intro y hy
  rw [h.terms_eq, List.mem_singleton] at hy
  subst hy
  exact fun ⟨a, heq⟩ => h a [] heq

/-- The condition after a call whose keywords are looked up in a table in the usual way. -/
theorem filtered_eq {cat : Catalog} {id : TableId} {extras : List (String × Value)}
    {table : Except Error Value} (hu : extras.lookup "_where_kwargs_to_expressions" = none)
    (ht : lookupTable cat extras table = .ok (.table id)) (existing : Value) (given : List Expr)
    (keywords : List (String × Value)) :
    filtered cat extras table existing (given.map .expr) keywords = (do
      let tests ← Lookup.conditions cat (.ok (.table id)) keywords
      if (given.map Expr.value ++ tests).isEmpty then throw .emptyWhere
      joinConditions existing (given.map .expr ++ tests)) := by
  rw [filtered, Restriction.predicates_map_expr, keywordConditions, hu, ht]
  rfl

/-- Predicates are expressions. -/
theorem exists_of_predicates {cat : Catalog} {clause : String} {given : List Value} {xs : List Expr}
    (h : predicates cat clause given = .ok xs) : given = xs.map .expr := by
  induction given generalizing xs with
  | nil => exact Except.ok.inj h ▸ rfl
  | cons v given ih =>
    cases v with
    | expr x =>
      obtain ⟨rest, hrest, hxs⟩ := Except.bind_eq_ok_iff.1 h
      rw [← Except.ok.inj hxs, ih hrest]
      rfl
    | _ =>
      obtain ⟨shown, -, hthrow⟩ := Except.bind_eq_ok_iff.1 h
      cases hthrow

/-- What a call that is accepted joins to the condition. -/
theorem exists_tests_of_filtered {cat : Catalog} {id : TableId} {extras : List (String × Value)}
    {table : Except Error Value} (hu : extras.lookup "_where_kwargs_to_expressions" = none)
    (ht : lookupTable cat extras table = .ok (.table id)) {existing : Value} {given : List Value}
    {keywords : List (String × Value)} {x : Expr}
    (h : filtered cat extras table existing given keywords = .ok x) :
    ∃ predicates tests, given = predicates.map .expr ∧
      List.Forall₂ (Lookup.Asks cat id) keywords tests ∧
      joinConditions existing ((predicates ++ tests).map .expr) = .ok x := by
  obtain ⟨xs, hxs, -⟩ := Except.bind_eq_ok_iff.1 h
  obtain rfl := exists_of_predicates hxs
  rw [filtered_eq hu ht] at h
  obtain ⟨vs, hvs, hjoined⟩ := Except.bind_eq_ok_iff.1 h
  obtain ⟨tests, rfl, htests⟩ := Lookup.conditions_eq_ok_iff.1 hvs
  refine ⟨xs, tests, rfl, htests, ?_⟩
  rw [List.map_append]
  split at hjoined
  · cases hjoined
  · exact hjoined

section

variable {cat : Catalog} {id : TableId} {extras : List (String × Value)}
  {table : Except Error Value} {keywords : List (String × Value)}
  (hu : extras.lookup "_where_kwargs_to_expressions" = none)
  (ht : lookupTable cat extras table = .ok (.table id)) (existing : Value) (given : List Expr)
include hu ht

end

/-! ## Statements with a WHERE clause -/

/-- A statement with a WHERE clause. -/
inductive Filterable
  | select (q : Select)
  | update (q : Update)
  | delete (q : Delete)

namespace Filterable

/-- The condition that the clause has so far. -/
def condition : Filterable → Value
  | select q => q.filter
  | update q => q.filter
  | delete q => q.filter

/-- The statement with another condition. -/
def withCondition (v : Value) : Filterable → Filterable
  | select q => select { q with filter := v }
  | update q => update { q with filter := v }
  | delete q => delete { q with filter := v }

/-- What a copy of the statement was given beside its clauses. -/
def extras : Filterable → List (String × Value)
  | select q => q.extras
  | update q => q.extras
  | delete q => q.extras

/-- The table of the statement itself; a SELECT has its first source that is a table. -/
def table (cat : Catalog) : Filterable → Except Error Value
  | select q => q.lookupTable cat
  | update q => .ok q.table
  | delete q => .ok q.table

/-- A call that adds conditions, given as predicates and as keywords. -/
def addConditions (cat : Catalog) (given : List Value) (keywords : List (String × Value)) :
    Filterable → Except Error Filterable
  | select q => (q.addConditions cat given keywords).map select
  | update q => (q.addConditions cat given keywords).map update
  | delete q => (q.addConditions cat given keywords).map delete

variable {cat : Catalog} {id : TableId} {s : Filterable} {given : List Expr}
  {keywords : List (String × Value)}

section

variable (hu : s.extras.lookup "_where_kwargs_to_expressions" = none)
  (ht : lookupTable cat s.extras (s.table cat) = .ok (.table id))
include hu ht

end

end Filterable

end SqlCompose
