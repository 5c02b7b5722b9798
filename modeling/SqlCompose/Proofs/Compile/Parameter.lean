import SqlCompose.Compile
import SqlCompose.Proofs.Draft.Template
import SqlCompose.Proofs.Render.Settled

/-!
# Parameters and their placeholders

What is rendered from a well-formed value has one template, which fixes both its text and its
parameters. The n-th placeholder stands in the place of the n-th parameter, wherever the count
starts and however placeholders are spelled; with literals in the same places it is the text in
which nothing is bound.
-/
namespace SqlCompose

variable (cat : Catalog)

theorem Value.WellFormed.settled_built {v : Value} (h : v.WellFormed) (e : Engine) :
    (v.built cat e).Settled cat true := (h.settled cat e).built

/-! ## Names of placeholders -/

/-- The name of the placeholder of a parameter. -/
def parameterName (number : Nat) : String := "p" ++ toString number

theorem parameterName_injective {m n : Nat} (h : parameterName m = parameterName n) : m = n := by
  have hr : m.repr = n.repr := String.append_right_inj "p" |>.1 h
  have hd := congrArg (fun s => Nat.ofDigitChars 10 s.toList 0) hr
  simpa [Nat.toList_repr] using hd

theorem placeholder_named (d : Dialect) (binding : Bool) (number : Nat) :
    (d.marking .named binding).placeholder number = ":" ++ parameterName number := by
  rw [parameterName, ← String.append_assoc]
  rfl

theorem lookup_zipIdx {parameters : List Value} {i : Nat} (hi : i < parameters.length)
    (first : Nat) : ((parameters.zipIdx first).map fun (v, j) => (parameterName (j + 1), v)).lookup
      (parameterName (first + i + 1)) = some parameters[i] := by
  induction parameters generalizing i first with
  | nil => simp at hi
  | cons v parameters ih =>
    cases i with
    | zero => simp
    | succ i =>
      have hne : (parameterName (first + (i + 1) + 1) == parameterName (first + 1)) = false := by
        rw [beq_eq_false_iff_ne]
        intro heq
        have := parameterName_injective heq
        omega
      have hrec := ih (by simpa using hi) (first + 1)
      rw [show first + 1 + i + 1 = first + (i + 1) + 1 by omega] at hrec
      rw [List.zipIdx_cons, List.map_cons, List.lookup_cons, hne]
      exact hrec

/-- Under the name of each placeholder stands the parameter in its place. -/
theorem Compiled.lookup_named {parameters : List Value} {i : Nat} (hi : i < parameters.length) :
    (Compiled.named parameters).lookup (parameterName (i + 1)) = some parameters[i] := by
  have h := lookup_zipIdx hi 0
  rwa [Nat.zero_add] at h

/-! ## Bound values -/

/-- Whether a value is written by a template: after any other parameters its own are bound, and the
next placeholders stand in their places. -/
def WrittenAs (cat : Catalog) (d : Dialect) (v : Value) (t : Template) : Prop :=
  ∀ (style : PlaceholderStyle) (number : Nat) (bound : List Value),
    (v.built cat d.engine).outcome cat (.context (d.marking style true) number) bound
      = (.ok (.text (t.spelled ((d.marking style true).placeholders bound.length t.values.length))),
        bound ++ t.values)

/-- Whether a value cannot be written. What was bound before stays bound. -/
def Refused (cat : Catalog) (d : Dialect) (v : Value) : Prop :=
  ∀ (style : PlaceholderStyle) (number : Nat) (bound : List Value), ∃ e more,
    (v.built cat d.engine).outcome cat (.context (d.marking style true) number) bound
      = (.error e, bound ++ more)

variable {cat} {d : Dialect}

/-- A value compiles to what it is written as after nothing. -/
theorem compile_eq_ok_iff {v : Value} {style : PlaceholderStyle} {binding : Bool} {c : Compiled} :
    compile cat (d.marking style binding) v = .ok c ↔
      (v.built cat d.engine).outcome cat (.context (d.marking style binding) 0) []
        = (.ok c.sql, c.parameters) := compile_eq_ok_iff_outcome

/-- What compiles is written as the template of its pieces with marks. -/
theorem exists_pieces_of_compile (hd : d.WritesText) {v : Value} (hv : v.WellFormed) {c : Compiled}
    (hc : compile cat d v = .ok c) : ∃ (ps : List Piece) (marks : List String),
      (v.built cat d.engine).pieces cat d = .ok ps ∧ marks.length = (Piece.values ps).length ∧
        c.sql = .text ((Template.ofPieces ps).spelled marks) := by
  rw [← d.marking_self, compile_eq_ok_iff] at hc
  exact Draft.exists_pieces_of_outcome hd (hv.settled_built cat d.engine) hc

/-- A SELECT of a text, where a second text is like a third one. -/
def Select.ofTexts (field haystack needle : String) : Select :=
  let literal := fun (s : String) => Expr.literal .none (.text s) none
  { Select.empty with
    fields := .tuple [.expr (literal field)]
    filter := .expr (.apply .none (.like {}) "LIKE" [literal haystack, literal needle]) }

theorem Select.wellFormed_ofTexts (field haystack needle : String) :
    (Value.select (.ofTexts field haystack needle)).WellFormed := by
  have hliteral : ∀ s, (Value.expr (.literal .none (.text s) none)).WellFormed :=
    fun s => .literal _ _ Value.isAlias_none
  refine .select Value.unhooked_nil (.apply _ _ Value.isAlias_none ?_) (.sequence _ ?_) rfl
    (.sequence _ (by simp)) rfl (.sequence _ (by simp)) rfl (.sequence _ (by simp)) rfl (.plain rfl)
    (.sequence _ (by simp)) rfl (.sequence _ (by simp)) rfl
  · intro x hx
    simp only [List.mem_cons, List.not_mem_nil, or_false] at hx
    rcases hx with rfl | rfl <;> exact hliteral _
  · intro w hw
    obtain rfl := List.mem_singleton.1 hw
    exact hliteral _

variable (hd : d.WritesText) {v : Value} (hv : v.WellFormed)
include hd

/-- Pieces with a value that is no scalar cannot be written where values are bound. -/
theorem fails_of_not_scalar {draft : Draft} (h : draft.Settled cat true) {ps : List Piece}
    (hp : draft.pieces cat d = .ok ps)
    (hscalar : ¬∀ w ∈ Piece.values ps, ∃ s, w.toScalar cat = .ok s) (style : PlaceholderStyle)
    (number : Nat) :
    (draft.assemble cat (.context (d.marking style true) number)).Fails := by
  obtain ⟨w, hw, hne⟩ : ∃ w ∈ Piece.values ps, ∀ s, w.toScalar cat ≠ .ok s := by
    simpa using hscalar
  cases he : w.toScalar cat with
  | ok s => exact absurd he (hne s)
  | error e =>
    rw [Draft.assemble_of_pieces style true number hd h hp, map_eq_pure_bind]
    exact (Assembly.fails_write_of_binding rfl hw he).bind _

include hv

/-- A well-formed value either has a template by which it is always written, and its parameters are
found under the names of their placeholders, or it can never be written. -/
theorem placeholders_aligned :
    (∃ t : Template, WrittenAs cat d v t ∧
      ∃ c, compile cat (d.marking .named true) v = .ok c ∧ c.parameters = t.values ∧
        ∀ i (hi : i < c.parameters.length), ∃ name,
          (d.marking .named true).placeholder ((i + 1 : Nat)) = ":" ++ name ∧
            (Compiled.named c.parameters).lookup name = some c.parameters[i]) ∨
    Refused cat d v := by
  have hs := hv.settled_built cat d.engine
  cases hp : (v.built cat d.engine).pieces cat d with
  | error e =>
    right
    intro style number bound
    exact Draft.outcome_of_fails (Draft.fails_of_pieces style true number hd hs hp) bound
  | ok ps =>
    by_cases hscalar : ∀ w ∈ Piece.values ps, ∃ s, w.toScalar cat = .ok s
    · left
      have hout := fun style number bound =>
        Draft.outcome_of_binding hd hs hp style number hscalar bound
      refine ⟨.ofPieces ps, by simpa [WrittenAs] using hout, ?_⟩
      have hcompile := compile_eq_ok_iff (c := ⟨_, Piece.values ps⟩).2 (hout .named 0 [])
      refine ⟨_, hcompile, (Template.values_ofPieces ps).symm, fun i hi => ?_⟩
      exact ⟨parameterName (i + 1), placeholder_named d true (i + 1), Compiled.lookup_named hi⟩
    · right
      intro style number bound
      exact Draft.outcome_of_fails (fails_of_not_scalar hd hs hp hscalar style number) bound

omit hd hv in
theorem placeholders_aligned_texts : (default : Dialect).WritesText ∧
    (Value.select (.ofTexts "x" "it" "a%b")).WellFormed ∧
    ∃ t : Template, WrittenAs default default (.select (.ofTexts "x" "it" "a%b")) t ∧
      t.values = [.text "x", .text "it", .text "%a\\%b%"] := by
  have hd : (default : Dialect).WritesText := ⟨rfl, rfl⟩
  have hv := Select.wellFormed_ofTexts "x" "it" "a%b"
  refine ⟨hd, hv, ?_⟩
  rcases @placeholders_aligned default _ hd _ hv with ⟨t, ht, c, hc, hvalues, -⟩ | hrefused
  · refine ⟨t, ht, hvalues.symm.trans ?_⟩
    have hcompile : compile default ((default : Dialect).marking .named true)
        (.select (.ofTexts "x" "it" "a%b"))
        = .ok ⟨.text "SELECT :p1 WHERE :p2 LIKE :p3 ESCAPE '\\'",
          [.text "x", .text "it", .text "%a\\%b%"]⟩ := rfl
    exact congrArg Compiled.parameters (Except.ok.inj (hc.symm.trans hcompile))
  · obtain ⟨e, more, he⟩ := hrefused .qmark 0 []
    cases he

/-! ## Values that are written out -/

omit hv in
/-- The literals of values are texts. -/
theorem mapM_pack_of_literalText {vs : List Value} {texts : List String}
    (h : vs.mapM (d.literalText cat) = .ok texts) :
    vs.mapM (d.pack cat) = .ok (texts.map .text) := by
  induction vs generalizing texts with
  | nil =>
    obtain rfl := Except.ok.inj h
    rfl
  | cons w vs ih =>
    obtain ⟨s, rest, hw, hrest, rfl⟩ := Except.mapM_cons_eq_ok_iff.1 h
    rw [List.mapM_cons, Dialect.pack_eq_text cat hd, hw, ih hrest]
    rfl

omit hd hv in
/-- What compiles can be written. -/
theorem not_fails_of_compile {style : PlaceholderStyle} {binding : Bool} {c : Compiled}
    (hc : compile cat (d.marking style binding) v = .ok c) :
    ¬((v.built cat d.engine).assemble cat (.context (d.marking style binding) 0)).Fails := by
  intro hf
  obtain ⟨e, more, he⟩ := Draft.outcome_of_fails hf []
  rw [compile_eq_ok_iff, he] at hc
  simp at hc

/-- How a well-formed value compiles where its values are bound: if it has pieces, and literals for
the values in them, then to the text of the pieces and to these values. -/
theorem compile_binding_eq_ok_iff (style : PlaceholderStyle) (c : Compiled) :
    compile cat (d.marking style true) v = .ok c ↔
      ∃ ps, (v.built cat d.engine).pieces cat d = .ok ps ∧
        (∀ w ∈ Piece.values ps, ∃ s, w.toScalar cat = .ok s) ∧
        c = ⟨.text ((Template.ofPieces ps).spelled
          ((d.marking style true).placeholders 0 (Piece.values ps).length)), Piece.values ps⟩ := by
  have hs := hv.settled_built cat d.engine
  constructor
  · intro hc
    cases hp : (v.built cat d.engine).pieces cat d with
    | error e =>
      exact absurd (Draft.fails_of_pieces style true 0 hd hs hp) (not_fails_of_compile hc)
    | ok ps =>
      by_cases hscalar : ∀ w ∈ Piece.values ps, ∃ s, w.toScalar cat = .ok s
      · refine ⟨ps, rfl, hscalar, ?_⟩
        have hout := Draft.outcome_of_binding hd hs hp style 0 hscalar []
        rw [compile_eq_ok_iff, hout] at hc
        obtain ⟨sql, parameters⟩ := c
        simp only [List.nil_append, Prod.mk.injEq, Except.ok.injEq] at hc
        obtain ⟨rfl, rfl⟩ := hc
        rfl
      · exact absurd (fails_of_not_scalar hd hs hp hscalar style 0) (not_fails_of_compile hc)
  · rintro ⟨ps, hp, hscalar, rfl⟩
    rw [compile_eq_ok_iff, Draft.outcome_of_binding hd hs hp style 0 hscalar []]
    rfl

/-- How a well-formed value compiles where its values are written out: if it has pieces, and literals
for the values in them, then to the text of the pieces with these literals. -/
theorem compile_inlining_eq_ok_iff (style : PlaceholderStyle) (c : Compiled) :
    compile cat (d.marking style false) v = .ok c ↔
      ∃ ps texts, (v.built cat d.engine).pieces cat d = .ok ps ∧
        (Piece.values ps).mapM (d.literalText cat) = .ok texts ∧
        c = ⟨.text ((Template.ofPieces ps).spelled texts), []⟩ := by
  have hs := hv.settled_built cat d.engine
  constructor
  · intro hc
    cases hp : (v.built cat d.engine).pieces cat d with
    | error e =>
      exact absurd (Draft.fails_of_pieces style false 0 hd hs hp) (not_fails_of_compile hc)
    | ok ps =>
      cases ht : (Piece.values ps).mapM (d.literalText cat) with
      | error e =>
        have hw := Assembly.fails_write_of_inlining (d := d.marking style false) rfl
          (by rwa [Dialect.literalText_marking])
        refine absurd ?_ (not_fails_of_compile hc)
        rw [Draft.assemble_of_pieces style false 0 hd hs hp, map_eq_pure_bind]
        exact hw.bind _
      | ok texts =>
        have hout := Draft.outcome_of_inlining hd hs hp style 0 ht []
        rw [compile_eq_ok_iff, hout] at hc
        obtain ⟨sql, parameters⟩ := c
        simp only [Prod.mk.injEq, Except.ok.injEq] at hc
        obtain ⟨rfl, rfl⟩ := hc
        exact ⟨ps, texts, rfl, ht, rfl⟩
  · rintro ⟨ps, texts, hp, ht, rfl⟩
    rw [compile_eq_ok_iff, Draft.outcome_of_inlining hd hs hp style 0 ht []]

/-- A value that compiles both with its values bound and with its values written out has the same
text in both ways but for the literals in the places of the parameters. -/
theorem inlined_eq_bound (style : PlaceholderStyle) {bound inlined : Compiled}
    (hb : compile cat (d.marking style true) v = .ok bound)
    (hi : compile cat (d.marking style false) v = .ok inlined) :
    ∃ (t : Template) (texts : List String), bound.parameters = t.values ∧
      bound.sql = .text (t.spelled ((d.marking style true).placeholders 0 t.values.length)) ∧
      t.values.mapM (d.pack cat) = .ok (texts.map .text) ∧
      inlined.sql = .text (t.spelled texts) ∧ inlined.parameters = [] := by
  have hs := hv.settled_built cat d.engine
  cases hp : (v.built cat d.engine).pieces cat d with
  | error e =>
    exact absurd (Draft.fails_of_pieces style true 0 hd hs hp) (not_fails_of_compile hb)
  | ok ps =>
    by_cases hscalar : ∀ w ∈ Piece.values ps, ∃ s, w.toScalar cat = .ok s
    case neg =>
      exact absurd (fails_of_not_scalar hd hs hp hscalar style 0) (not_fails_of_compile hb)
    cases ht : (Piece.values ps).mapM (d.literalText cat) with
    | error e =>
      have hw := Assembly.fails_write_of_inlining (d := d.marking style false) rfl
        (by rwa [Dialect.literalText_marking])
      refine absurd ?_ (not_fails_of_compile hi)
      rw [Draft.assemble_of_pieces style false 0 hd hs hp, map_eq_pure_bind]
      exact hw.bind _
    | ok texts =>
      have hbound := Draft.outcome_of_binding hd hs hp style 0 hscalar []
      have hinlined := Draft.outcome_of_inlining hd hs hp style 0 ht []
      rw [compile_eq_ok_iff, hbound] at hb
      rw [compile_eq_ok_iff, hinlined] at hi
      simp only [List.nil_append, Prod.mk.injEq, Except.ok.injEq] at hb hi
      refine ⟨.ofPieces ps, texts, ?_, ?_, ?_, hi.1.symm, hi.2.symm⟩
      · rw [← hb.2, Template.values_ofPieces]
      · rw [← hb.1, Template.values_ofPieces]
        rfl
      · rw [Template.values_ofPieces]
        exact mapM_pack_of_literalText hd ht

omit hd hv in
theorem inlined_eq_bound_texts : (default : Dialect).WritesText ∧
    (Value.select (.ofTexts "x" "it" "a%b")).WellFormed ∧
    ∃ (t : Template) (texts : List String),
      Value.text "SELECT $1 WHERE $2 LIKE $3 ESCAPE '\\'"
        = .text (t.spelled
          (((default : Dialect).marking .numeric true).placeholders 0 t.values.length)) ∧
      Value.text "SELECT 'x' WHERE 'it' LIKE '%a\\%b%' ESCAPE '\\'" = .text (t.spelled texts) := by
  have hd : (default : Dialect).WritesText := ⟨rfl, rfl⟩
  have hv := Select.wellFormed_ofTexts "x" "it" "a%b"
  have hb : compile default ((default : Dialect).marking .numeric true)
      (.select (.ofTexts "x" "it" "a%b")) = .ok ⟨.text "SELECT $1 WHERE $2 LIKE $3 ESCAPE '\\'",
        [.text "x", .text "it", .text "%a\\%b%"]⟩ := rfl
  have hi : compile default ((default : Dialect).marking .numeric false)
      (.select (.ofTexts "x" "it" "a%b"))
      = .ok ⟨.text "SELECT 'x' WHERE 'it' LIKE '%a\\%b%' ESCAPE '\\'", []⟩ := rfl
  obtain ⟨t, texts, -, hsql, -, hinlined, -⟩ := inlined_eq_bound hd hv .numeric hb hi
  exact ⟨hd, hv, t, texts, hsql, hinlined⟩

end SqlCompose
