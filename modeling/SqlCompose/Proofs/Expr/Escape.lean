import SqlCompose.Proofs.Expr.Search
import SqlCompose.Proofs.Text.PatternSet

/-!
# What escapes do not reach

The text that a LIKE test looks for is escaped with backslashes, which takes the meaning from the
wildcards of the standard where the backslash is the escape character. A test may name another one.
Under that the backslashes that were added stand for themselves, and a text that has the escape
character in it loses it. And SQL Server reads brackets as sets of characters, which are not escaped.
In both cases it is said for which texts the pattern still matches literally.
-/
namespace SqlCompose

open Text (IsPatternMark PatternMark)

/-! ## Where a form finds a text -/

namespace LikeForm

variable {form : LikeForm} {s t : List Char}

/-- A text is found in itself. -/
theorem finds_self : form.Finds s s := by
  unfold Finds
  cases form.fuzzyStart <;> cases form.fuzzyEnd
  · rfl
  · exact List.prefix_refl s
  · exact List.suffix_refl s
  · exact List.infix_refl s

/-- A text is a part of every text that it is found in. -/
theorem Finds.isInfix (h : form.Finds s t) : s <:+: t := by
  unfold Finds at h
  cases hstart : form.fuzzyStart <;> cases hend : form.fuzzyEnd <;> rw [hstart, hend] at h
  · exact h ▸ List.infix_refl s
  · exact List.IsPrefix.isInfix h
  · exact List.IsSuffix.isInfix h
  · exact h

theorem finds_cons (h : form.fuzzyStart = true) (c : Char) : form.Finds s (c :: s) := by
  unfold Finds
  cases form.fuzzyEnd <;> rw [h]
  · exact List.suffix_cons c s
  · exact (List.suffix_cons c s).isInfix

theorem finds_concat (h : form.fuzzyEnd = true) (c : Char) : form.Finds s (s ++ [c]) := by
  unfold Finds
  cases form.fuzzyStart <;> rw [h]
  · exact List.prefix_append s [c]
  · exact (List.prefix_append s [c]).isInfix

/-- Marks that stand for the texts in which another one is found have that one as their shortest
text. -/
theorem narrow_eq_of_covers {marks : List PatternMark}
    (h : ∀ t, PatternMark.covers marks t = true ↔ form.Finds s t) (filler : Char) :
    PatternMark.narrow filler marks = s :=
  PatternMark.narrow_eq_of_infix ((h s).2 finds_self) fun t ht => ((h t).1 ht).isInfix

/-- A form that finds a text only in texts of its own length has no runs around it. -/
theorem exact_of_length (h : ∀ t, form.Finds s t → t.length = s.length) :
    form.fuzzyStart = false ∧ form.fuzzyEnd = false := by
  refine ⟨Bool.eq_false_iff.2 fun hstart => ?_, Bool.eq_false_iff.2 fun hend => ?_⟩
  · have hlength := h _ (finds_cons hstart 'x')
    simp at hlength
  · have hlength := h _ (finds_concat hend 'x')
    simp at hlength

end LikeForm

/-! ## Counting the characters of an escaped text -/

/-- An escaped text has one backslash more for each of its marks. -/
theorem Text.count_flatMap_escapeLikeChar (s : List Char) :
    (s.flatMap escapeLikeChar).count '\\' = s.count '\\' + s.countP (IsPatternMark ·) := by
  induction s with
  | nil => rfl
  | cons c s ih =>
    have hc : (escapeLikeChar c).count '\\' = [c].count '\\' + [c].countP (IsPatternMark ·) := by
      by_cases h : IsPatternMark c
      · rw [escapeLikeChar_mark h, List.count_cons_self, List.countP_singleton,
          if_pos (decide_eq_true h)]
      · rw [escapeLikeChar_plain h, List.countP_singleton, if_neg (by simpa using h), Nat.add_zero]
    have hs : c :: s = [c] ++ s := rfl
    rw [List.flatMap_cons, List.count_append, hc, ih, hs, List.count_append, List.countP_append]
    omega

/-- All other characters are as often in an escaped text as in the text. -/
theorem Text.count_flatMap_escapeLikeChar_of_ne {c : Char} (hc : c ≠ '\\') (s : List Char) :
    (s.flatMap escapeLikeChar).count c = s.count c := by
  induction s with
  | nil => rfl
  | cons c' s ih =>
    rw [List.flatMap_cons, List.count_append, ih]
    by_cases h : IsPatternMark c'
    · rw [escapeLikeChar_mark h, List.count_cons_of_ne hc.symm, ← List.count_append]
      rfl
    · rw [escapeLikeChar_plain h, ← List.count_append]
      rfl

namespace LikeForm

variable (form : LikeForm) {e : Char} {s : List Char}

/-- The wildcards around a pattern add no other characters to it. -/
theorem count_framed {c : Char} (hc : c ≠ '%') (body : List Char) :
    (form.framed body).count c = body.count c := by
  unfold framed
  cases form.fuzzyStart <;> cases form.fuzzyEnd <;>
    simp [List.count_append, List.count_cons_of_ne hc.symm]

/-! ## Escapes under another escape character -/

/-- Whether a text is its own pattern under an escape character, and the runs that a form puts
around it are runs still. -/
def NeedsNoEscape (e : Char) (s : List Char) : Prop :=
  (∀ c ∈ s, ¬IsPatternMark c ∧ c ≠ e) ∧ (e = '%' → form.fuzzyStart = false ∧ form.fuzzyEnd = false)

variable {form}

/-- A text that needs no escape is read as itself. -/
theorem NeedsNoEscape.read (h : form.NeedsNoEscape e s) :
    PatternMark.read (some e) (form.framed (s.flatMap escapeLikeChar)) = some (form.marks s) := by
  rw [Text.flatMap_escapeLikeChar fun c hc => (h.1 c hc).1]
  refine form.read_framed (PatternMark.read_plain_append fun c hc => ?_) fun hruns he => ?_
  · obtain ⟨hmark, hne⟩ := h.1 c hc
    simp only [IsPatternMark, not_or] at hmark
    exact ⟨fun he => hne (Option.some.inj he).symm, hmark.2⟩
  · simp [(h.2 he).1, (h.2 he).2] at hruns

/-- A text whose escaped form stands for the texts in which it is found needs no escape: a backslash
that escaping adds would be one more in the shortest of them, and so would an escape character be
one less. -/
theorem needsNoEscape_of_covers (he : e ≠ '\\') {marks : List PatternMark}
    (hread : PatternMark.read (some e) (form.framed (s.flatMap escapeLikeChar)) = some marks)
    (hmarks : ∀ t, PatternMark.covers marks t = true ↔ form.Finds s t) :
    form.NeedsNoEscape e s := by
  have hnarrow (filler : Char) := narrow_eq_of_covers hmarks filler
  -- the backslashes of the pattern are no escapes, so the shortest text has all of them
  have hplain : ∀ c ∈ s, ¬IsPatternMark c := by
    have hcount : (PatternMark.narrow 'x' marks).count '\\' = _ :=
      PatternMark.count_narrow hread he (by decide) (by decide)
    rw [hnarrow, form.count_framed (by decide), Text.count_flatMap_escapeLikeChar] at hcount
    have hnone : s.countP (IsPatternMark ·) = 0 := by omega
    simpa [List.countP_eq_zero] using hnone
  refine ⟨fun c hc => ⟨hplain c hc, ?_⟩, ?_⟩
  · -- the pattern is the text itself, and has two escape characters for each that it stands for
    rintro rfl
    have hpercent : c ≠ '%' := fun h => hplain c hc (.inr (.inl h))
    have hcount := PatternMark.two_mul_count_narrow_le hread he.symm
    rw [hnarrow, form.count_framed hpercent, Text.flatMap_escapeLikeChar hplain] at hcount
    have hpos : 0 < s.count c := List.count_pos_iff.2 hc
    omega
  · rintro rfl
    have hlength {t : List Char} (ht : form.Finds s t) : t.length = marks.length :=
      PatternMark.length_eq_of_covers (PatternMark.run_notMem_of_read hread) ((hmarks t).2 ht)
    exact exact_of_length fun t ht => (hlength ht).trans (hlength finds_self).symm

/-- Under an escape character the pattern of a form matches the texts in which its text is found if
and only if it is the backslash, or the text needs no escape. -/
theorem matchesLike_pattern_iff (hn : form.escapeNeedle = true) (e : Char) (s : String) :
    (∀ t : String, Text.matchesLike (some e) (form.pattern s) t = true ↔
      form.Finds (Search.needle form.caseInsensitive s).toList t.toList) ↔
      e = '\\' ∨ form.NeedsNoEscape e (Search.needle form.caseInsensitive s).toList := by
  constructor
  · intro h
    obtain ⟨marks, hread, -⟩ := Text.matchesLike_iff.1 ((h _).2 finds_self)
    have hmarks (t : List Char) : PatternMark.covers marks t = true ↔
        form.Finds (Search.needle form.caseInsensitive s).toList t := by
      have ht := h (String.ofList t)
      rwa [Text.matchesLike, hread, String.toList_ofList] at ht
    rw [form.toList_pattern hn] at hread
    exact or_iff_not_imp_left.2 fun he => needsNoEscape_of_covers he hread hmarks
  · intro h t
    have hread : PatternMark.read (some e) (form.pattern s).toList =
        some (form.marks (Search.needle form.caseInsensitive s).toList) := by
      obtain rfl | hs := h
      · exact form.read_pattern hn s
      · rw [form.toList_pattern hn, hs.read]
    rw [Text.matchesLike, hread]
    exact form.covers_marks

/-- The escape character that a test names is the one that holds for it. -/
theorem effectiveEscape_clause (d : Dialect) (he : form.escape = some (String.singleton e)) :
    d.engine.effectiveEscape (form.clause d).toList = some e := by
  have hexplicit : form.explicitEscape = some (String.singleton e) := by
    rw [explicitEscape, he]
    simp [Option.filter]
  have hread : d.engine.readText ((d.packText (String.singleton e)).toList ++ []) =
      some ((String.singleton e).toList, []) := d.readText_packText _ (by simp)
  rw [List.append_nil, String.toList_singleton] at hread
  have hclause : (form.clause d).toList =
      " ESCAPE ".toList ++ (d.packText (String.singleton e)).toList := by
    rw [clause, hexplicit, String.toList_append]
  have hmark : " ESCAPE ".toList.isPrefixOf? (form.clause d).toList =
      some (d.packText (String.singleton e)).toList := by
    rw [hclause]
    simp [List.isPrefixOf?]
  simp only [Engine.effectiveEscape, hmark, hread]

/-! ## Escapes and character sets -/

/-- Each opening bracket of a text makes the marks of its pattern at least one character narrower. -/
theorem width_add_count_le {marks : List Text.SetMark}
    (h : Text.SetMark.read (some '\\') none (form.framed (s.flatMap escapeLikeChar)) = some marks) :
    Text.SetMark.width marks + s.count '[' ≤ s.length := by
  have hlast : ∀ opened marks, Text.SetMark.read (some '\\') opened
      (if form.fuzzyEnd then ['%'] else []) = some marks → Text.SetMark.width marks = 0 := by
    cases form.fuzzyEnd with
    | false => exact fun _ _ => Text.SetMark.width_of_read_nil
    | true => exact fun _ _ => Text.SetMark.width_of_read_percent
  rw [framed] at h
  cases hstart : form.fuzzyStart with
  | false =>
    rw [hstart, if_neg Bool.false_ne_true, List.nil_append] at h
    exact Text.SetMark.width_add_count_le hlast h
  | true =>
    rw [hstart, if_pos rfl, List.singleton_append,
      Text.SetMark.read_unescaped (by decide) (by decide)] at h
    obtain ⟨tail, htail, rfl⟩ := Option.map_eq_some_iff.1 h
    have hrun : PatternMark.ofChar '%' = .run := rfl
    rw [hrun, Text.SetMark.width_cons, if_pos rfl, Nat.add_zero]
    exact Text.SetMark.width_add_count_le hlast htail

/-- Where brackets are read as sets, whatever the sets have in them, the pattern of a form matches
the texts in which its text is found if and only if that has no opening bracket. -/
theorem matchesSets_pattern_iff (hn : form.escapeNeedle = true)
    (member : List Char → Char → Prop) (s : String) :
    (∀ t : String, Text.MatchesSets member (some '\\') (form.pattern s) t ↔
      form.Finds (Search.needle form.caseInsensitive s).toList t.toList) ↔
      '[' ∉ (Search.needle form.caseInsensitive s).toList := by
  constructor
  · intro h
    obtain ⟨marks, plain, hread, hplain, -⟩ := (h _).2 finds_self
    have hshortest : form.Finds (Search.needle form.caseInsensitive s).toList
        (PatternMark.narrow 'x' plain) := by
      have hmatch := (h (String.ofList (PatternMark.narrow 'x' plain))).1
        ⟨marks, plain, hread, hplain, by rw [String.toList_ofList]; exact PatternMark.covers_narrow⟩
      rwa [String.toList_ofList] at hmatch
    have hlength := hshortest.isInfix.length_le
    rw [Text.SetMark.length_narrow hplain] at hlength
    rw [form.toList_pattern hn] at hread
    have hwidth := width_add_count_le hread
    exact List.count_eq_zero.1 (by omega)
  · intro h t
    have hpattern : '[' ∉ (form.pattern s).toList := by
      rw [← List.count_eq_zero, form.toList_pattern hn, form.count_framed (by decide),
        Text.count_flatMap_escapeLikeChar_of_ne (by decide), List.count_eq_zero]
      exact h
    rw [Text.matchesSets_iff_of_notMem hpattern, Text.matchesLike, form.read_pattern hn]
    exact form.covers_marks

end LikeForm

/-! ## The tests -/

section Test

variable {cat : Catalog} {d : Dialect}

/-- A LIKE test that names an escape character binds a pattern that is escaped with backslashes, and
the character that it names holds for it. The pattern matches the texts in which the text is found
if and only if that character is the backslash, or the text has no wildcard, no backslash and no such
character in it, and the runs around it are runs still. -/
theorem explicit_escape_matches_iff (hb : d.bindLiterals = true) (form : LikeForm)
    (hn : form.escapeNeedle = true) (e : Char) (he : form.escape = some (String.singleton e))
    (a b : Value) (symbol : String) (x : Expr) (s : String) (k : Option DataKind) :
    ∃ pattern clause : String,
      (∀ c, compile cat d (.expr (.apply a (.like form) symbol [x, .literal b (.text s) k])) = .ok c ↔
        ∃ front parameters, (x.searched cat d.engine form).outcome cat (.context d 0) [] =
            (.ok (.text front), parameters) ∧
          c = ⟨.text (front ++ form.keyword ++ d.placeholder ((parameters.length + 1 : Nat))
              ++ clause), parameters ++ [.text pattern]⟩) ∧
      d.engine.effectiveEscape clause.toList = some e ∧
      ((∀ t : String, Text.matchesLike (some e) pattern t = true ↔
          form.Finds (Search.needle form.caseInsensitive s).toList t.toList) ↔
        e = '\\' ∨ form.NeedsNoEscape e (Search.needle form.caseInsensitive s).toList) :=
  ⟨form.pattern s, form.clause d, compile_like hb form a b symbol x s k,
    LikeForm.effectiveEscape_clause d he, LikeForm.matchesLike_pattern_iff hn e s⟩

/-- A percent sign is not found where the exclamation mark is named. -/
theorem explicit_escape_matches_iff_exclamation :
    (Dialect.standard .sqlite).bindLiterals = true ∧ ∃ pattern clause : String,
      compile default (.standard .sqlite) (.expr (.apply .none
          (.like { fuzzyStart := false, escape := some "!", negated := true }) ""
          [Expr.ofText "50%", .literal .none (.text "%") none])) =
        .ok ⟨.text ("? NOT LIKE ?" ++ clause), [.text "50%", .text pattern]⟩ ∧
      Engine.sqlite.effectiveEscape clause.toList = some '!' ∧
      ¬∀ t : String, Text.matchesLike (some '!') pattern t = true ↔ "%".toList <+: t.toList := by
  obtain ⟨pattern, clause, hcompile, hescape, hmatch⟩ := @explicit_escape_matches_iff default
    (.standard .sqlite) rfl { fuzzyStart := false, escape := some "!", negated := true } rfl '!' rfl
    .none .none "" (Expr.ofText "50%") "%" none
  refine ⟨rfl, pattern, clause, (hcompile _).2 ⟨"?", _, rfl, rfl⟩, hescape, fun h => ?_⟩
  obtain hbackslash | ⟨hplain, -⟩ := hmatch.1 h
  · exact absurd hbackslash (by decide)
  · exact (hplain '%' (by decide)).1 (by decide)

/-- On SQL Server, where brackets are read as sets, a search means literal matching if and only if
the text that is looked for has no opening bracket. -/
theorem search_among_sets_iff (hb : d.bindLiterals = true) (hd : d.engine = .sqlserver)
    (search : Search) (folding : Bool) (x : Expr) (s : String) :
    (∀ o : Object, Method.test? o x (search.method folding) =
      some (Method.likeNamed o x search.argument (search.form folding))) ∧
    ∃ pattern clause : String,
      (∀ c, compile cat d (.expr (x.like (.text s) (search.form folding))) = .ok c ↔
        ∃ front parameters, (x.searched cat d.engine (search.form folding)).outcome cat
            (.context d 0) [] = (.ok (.text front), parameters) ∧
          c = ⟨.text (front ++ " LIKE " ++ d.placeholder ((parameters.length + 1 : Nat)) ++ clause),
            parameters ++ [.text pattern]⟩) ∧
      ∀ member : List Char → Char → Prop,
        (∀ t : String, Text.MatchesSets member (Engine.sqlserver.effectiveEscape clause.toList)
            pattern t ↔ search.Finds (Search.needle folding s).toList t.toList) ↔
          '[' ∉ (Search.needle folding s).toList := by
  refine ⟨fun o => search.test?_method folding o x, (search.form folding).pattern s,
    d.engine.searchClause, compile_search hb search folding x s, fun member => ?_⟩
  have hescape : (search.form folding).escapeNeedle = true := by cases search <;> rfl
  have hfolding : (search.form folding).caseInsensitive = folding := by cases search <;> rfl
  have hiff := LikeForm.matchesSets_pattern_iff hescape member s
  rw [hfolding] at hiff
  rw [hd, Engine.effectiveEscape_searchClause]
  simpa only [search.finds_iff folding] using hiff

/-- A text in brackets is not found in itself alone. -/
theorem search_among_sets_iff_bracketed :
    ((Dialect.standard .sqlserver).bindLiterals = true ∧
      (Dialect.standard .sqlserver).engine = .sqlserver) ∧ ∃ pattern clause : String,
      compile default (.standard .sqlserver)
          (.expr ((Expr.ofText "[a]").like (.text "[a]") (Search.contains.form false))) =
        .ok ⟨.text ("? LIKE ?" ++ clause), [.text "[a]", .text pattern]⟩ ∧
      ¬∀ t : String, Text.MatchesSets (fun body c => c ∈ body)
        (Engine.sqlserver.effectiveEscape clause.toList) pattern t ↔
          "[a]".toList <:+: t.toList := by
  obtain ⟨-, pattern, clause, hcompile, hmatch⟩ := @search_among_sets_iff default
    (.standard .sqlserver) rfl rfl .contains false (Expr.ofText "[a]") "[a]"
  refine ⟨⟨rfl, rfl⟩, pattern, clause, (hcompile _).2 ⟨"?", _, rfl, rfl⟩, fun h => ?_⟩
  exact (hmatch fun body c => c ∈ body).1 h (by decide)

end Test

end SqlCompose
