import SqlCompose.Object.Equality
import SqlCompose.Registry.Basic

/-!
# What a changed setting leaves

A setting that is changed reads as what it was given as, in whatever way it is kept. The other
settings, and the engine, stay as they are.
-/
namespace SqlCompose

namespace Value

variable {v : Value}

theorem eq_texts_of_quotes? {quotes : String × String} (h : v.quotes? = some quotes) :
    v = .texts [quotes.1, quotes.2] := by
  unfold quotes? at h
  split at h
  · obtain rfl := Option.some.inj h
    rfl
  · cases h

theorem eq_of_bool? {b : Bool} (h : v.bool? = some b) : v = .bool b := by
  unfold bool? at h
  split at h
  · obtain rfl := Option.some.inj h
    rfl
  · cases h

theorem eq_of_isRule (h : v.isRule = true) : v = .ofOption .rule v.ruleEffect := by
  unfold isRule at h
  split at h
  · rfl
  · rfl
  · cases h

theorem eq_of_typeKeyword? {entry : Value × Value} {k : DataKind} {s : String}
    (h : typeKeyword? entry = some (k, s)) : entry = (.kind k, .text s) := by
  unfold typeKeyword? at h
  split at h
  · obtain ⟨rfl, rfl⟩ := Prod.mk.inj (Option.some.inj h)
    rfl
  · cases h

theorem eq_of_respelling? {entry : Value × Value} {k s : String}
    (h : respelling? entry = some (k, s)) : entry = (.text k, .text s) := by
  unfold respelling? at h
  split at h
  · obtain ⟨rfl, rfl⟩ := Prod.mk.inj (Option.some.inj h)
    rfl
  · cases h

/-- Entries that are read one by one are those from which they were read. -/
theorem eq_of_entriesOf? {α : Type} {read? : Value × Value → Option α} {entry : α → Value × Value}
    (hread : ∀ e a, read? e = some a → e = entry a) {as : List α}
    (h : v.entriesOf? read? = some as) : v = .dict (as.map entry) := by
  unfold entriesOf? at h
  split at h
  case h_1 entries =>
    congr 1
    induction entries generalizing as with
    | nil =>
      obtain rfl := Option.some.inj h
      rfl
    | cons e entries ih =>
      simp only [List.mapM_cons, Option.bind_eq_bind, Option.bind_eq_some_iff] at h
      obtain ⟨a, ha, rest, hrest, hall⟩ := h
      obtain rfl := Option.some.inj hall
      rw [List.map_cons, ← hread e a ha, ← ih hrest]
  case h_2 => cases h

end Value

namespace Dialect

variable {base d e : Dialect} {field other : String} {v : Value}
  {changes more : List (String × Value)}

/-- A setting reads as it was given, and as what it holds if it was not given as something else. -/
theorem lookup_namedFields (d : Dialect) (h : field ∈ fieldNames) :
    d.namedFields.lookup field = some ((d.given.lookup field).getD (d.setting field)) := by
  simp only [fieldNames, List.mem_cons, List.not_mem_nil, or_false] at h
  rcases h with rfl | rfl | rfl | rfl | rfl | rfl <;> rfl

theorem lookup_filter_self (entries : List (String × Value)) (field : String) :
    (entries.filter (·.1 ≠ field)).lookup field = none := by
  rw [List.lookup_eq_none_iff]
  intro entry hmem
  simpa using Ne.symm (by simpa using (List.mem_filter.1 hmem).2)

theorem lookup_keep_self (d : Dialect) (field : String) (v : Value) :
    (d.given.filter (·.1 ≠ field) ++ [(field, v)]).lookup field = some v := by
  rw [List.lookup_append, lookup_filter_self]
  simp

/-- A setting that is changed reads as it was given. -/
theorem lookup_namedFields_set (d : Dialect) (h : field ∈ fieldNames) (v : Value) :
    (d.set field v).namedFields.lookup field = some v := by
  have hkept : (d.set field v).given = d.given.filter (·.1 ≠ field) ++ [(field, v)] ∨
      (d.set field v).given = d.given.filter (·.1 ≠ field) ∧ (d.set field v).setting field = v := by
    simp only [fieldNames, List.mem_cons, List.not_mem_nil, or_false] at h
    rcases h with rfl | rfl | rfl | rfl | rfl | rfl
    · simp only [set]
      split
      case h_1 quotes hv => exact .inr ⟨rfl, (Value.eq_texts_of_quotes? hv).symm⟩
      case h_2 => exact .inl rfl
    · exact .inl rfl
    · simp only [set]
      split
      case h_1 b hv => exact .inr ⟨rfl, (Value.eq_of_bool? hv).symm⟩
      case h_2 => exact .inl rfl
    · simp only [set]
      split
      case isTrue hv => exact .inr ⟨rfl, (Value.eq_of_isRule hv).symm⟩
      case isFalse => exact .inl rfl
    · simp only [set]
      split
      case h_1 names hv =>
        exact .inr ⟨rfl, (Value.eq_of_entriesOf? (fun _ _ => Value.eq_of_typeKeyword?) hv).symm⟩
      case h_2 => exact .inl rfl
    · simp only [set]
      split
      case h_1 spellings hv =>
        exact .inr ⟨rfl, (Value.eq_of_entriesOf? (fun _ _ => Value.eq_of_respelling?) hv).symm⟩
      case h_2 => exact .inl rfl
  rw [lookup_namedFields _ h]
  rcases hkept with hgiven | ⟨hgiven, hsetting⟩
  · rw [hgiven, lookup_keep_self]
    rfl
  · rw [hgiven, lookup_filter_self, hsetting]
    rfl

/-- A change of a setting leaves the engine and the other settings as they are, and of what was given
everything but that setting. -/
theorem set_frame (d : Dialect) (field : String) (v : Value) :
    (d.set field v).engine = d.engine ∧
      ((d.set field v).given = d.given.filter (·.1 ≠ field) ∨
        (d.set field v).given = d.given.filter (·.1 ≠ field) ++ [(field, v)]) ∧
      ∀ other ≠ field, (d.set field v).setting other = d.setting other := by
  unfold set
  split <;> (try split)
  all_goals
    refine ⟨rfl, by first | exact .inl rfl | exact .inr rfl, fun other h => ?_⟩
    simp [setting, namedFields, keep, List.lookup_cons, beq_eq_false_iff_ne.2 h]

theorem lookup_given_set_of_ne (d : Dialect) (v : Value) (h : other ≠ field) :
    (d.set field v).given.lookup other = d.given.lookup other := by
  have hlast : ([(field, v)] : List (String × Value)).lookup other = none := by
    rw [List.lookup_cons, beq_eq_false_iff_ne.2 h]
    rfl
  rcases (d.set_frame field v).2.1 with hgiven | hgiven
  · rw [hgiven, Registry.lookup_filter_ne _ h]
  · rw [hgiven, List.lookup_append, hlast, Option.or_none, Registry.lookup_filter_ne _ h]

/-- Whether a dialect is another one with exactly some settings changed. Of several changes of one
setting the last one counts. -/
structure Overrides (changes : List (String × Value)) (base d : Dialect) : Prop where
  engine : d.engine = base.engine
  changed : ∀ field ∈ fieldNames, ∀ v, changes.reverse.lookup field = some v →
    d.namedFields.lookup field = some v
  kept : ∀ field ∈ fieldNames, changes.reverse.lookup field = none →
    d.setting field = base.setting field ∧ d.given.lookup field = base.given.lookup field

namespace Overrides

theorem refl (d : Dialect) : Overrides [] d d :=
  ⟨rfl, fun _ _ _ h => (by cases h), fun _ _ _ => ⟨rfl, rfl⟩⟩

theorem set (h : Overrides changes base d) (field : String) (v : Value) :
    Overrides (changes ++ [(field, v)]) base (d.set field v) := by
  refine ⟨(d.set_frame field v).1.trans h.engine, fun other hother w hw => ?_, fun other hother hw => ?_⟩
  all_goals
    rw [List.reverse_append, List.reverse_singleton, List.singleton_append, List.lookup_cons] at hw
    by_cases heq : other = field
  · subst heq
    rw [beq_self_eq_true] at hw
    obtain rfl := Option.some.inj hw
    exact lookup_namedFields_set d hother v
  · rw [beq_eq_false_iff_ne.2 heq] at hw
    rw [lookup_namedFields _ hother, (d.set_frame field v).2.2 _ heq, lookup_given_set_of_ne _ _ heq,
      ← lookup_namedFields _ hother]
    exact h.changed other hother w hw
  · subst heq
    rw [beq_self_eq_true] at hw
    cases hw
  · rw [beq_eq_false_iff_ne.2 heq] at hw
    rw [(d.set_frame field v).2.2 _ heq, lookup_given_set_of_ne _ _ heq]
    exact h.kept other hother hw

theorem setAll (h : Overrides changes base d) (more : List (String × Value)) :
    Overrides (changes ++ more) base (d.setAll more) := by
  induction more generalizing changes d with
  | nil => rwa [List.append_nil]
  | cons change more ih =>
    obtain ⟨field, v⟩ := change
    rw [List.append_cons]
    exact ih (h.set field v)

end Overrides

/-- Settings that are changed one after the other are those that read otherwise afterwards. -/
theorem overrides_setAll (d : Dialect) (changes : List (String × Value)) :
    Overrides changes d (d.setAll changes) := (Overrides.refl d).setAll changes

end Dialect

end SqlCompose
