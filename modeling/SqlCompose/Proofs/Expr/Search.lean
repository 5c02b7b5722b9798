import SqlCompose.Object.Method.Expression
import SqlCompose.Proofs.Compile.Parameter
import SqlCompose.Proofs.Dialect.Literal
import SqlCompose.Proofs.Draft.Spelled
import SqlCompose.Proofs.Expr.Comparison
import SqlCompose.Proofs.Text.LowerCase
import SqlCompose.Proofs.Text.Pattern

/-!
# Searching for a text

A search for a text in an expression is a LIKE test with a pattern that is bound. By the rules of
the standard, with the escape character that holds for the test, the pattern matches exactly the
texts that the searched one is a part, the start or the end of, whatever wildcards and backslashes
it has.
-/
namespace SqlCompose

/-! ## Drafts written one after the other -/

namespace Draft

variable {cat : Catalog} {host : Host} {x y : Draft} {bound between rest : Array Value}
  {v w u : Value}

theorem run_plus (hx : (x.assemble cat host).run bound = (.ok v, between))
    (hy : (y.assemble cat host).run between = (.ok w, rest)) (hu : v.plus w = .ok u) :
    ((x + y).assemble cat host).run bound = (.ok u, rest) := by
  change ((plus x y).assemble cat host).run bound = _
  rw [assemble, Assembly.run_bind_of_ok hx, Assembly.run_bind_of_ok hy, hu]
  rfl

theorem run_plus_of_error {e : Error} (hx : (x.assemble cat host).run bound = (.error e, rest)) :
    ((x + y).assemble cat host).run bound = (.error e, rest) := by
  change ((plus x y).assemble cat host).run bound = _
  rw [assemble, Assembly.run_bind_of_error hx]

theorem run_token (t : Token) :
    ((token t).assemble cat host).run bound = (.ok (.text t.spelling), bound) := by
  rw [assemble]
  rfl

/-- What is shown is a text. -/
theorem exists_text_of_run_shown (h : ((shown x).assemble cat host).run bound = (.ok v, rest)) :
    ∃ s, v = .text s := by
  rw [assemble] at h
  obtain ⟨w, between, -, hw⟩ := Assembly.run_bind_eq_ok h
  obtain ⟨s, between', -, hs⟩ := Assembly.run_bind_eq_ok hw
  exact ⟨s, (Except.ok.inj (Prod.mk.inj hs).1).symm⟩

/-- A dialect has every part it is asked for. -/
theorem assemble_asking (d : Dialect) (number : Nat) (part : String) (x : Draft) :
    (asking part x).assemble cat (.context d number) = x.assemble cat (.context d number) := by
  change (before (ask part) x).assemble cat (.context d number) = _
  rw [assemble, assemble]
  rfl

theorem assemble_askingAll (d : Dialect) (number : Nat) (parts : List String) (x : Draft) :
    (parts.foldr asking x).assemble cat (.context d number) = x.assemble cat (.context d number) := by
  induction parts with
  | nil => rfl
  | cons part parts ih => rw [List.foldr_cons, assemble_asking, ih]

/-- A text that is written out is written as its literal. -/
theorem spells_packed (d : Dialect) (number : Nat) (s : String) :
    (packed (.text s)).Spells cat (.context d number) (d.packText s) := by
  rw [Spells, assemble]
  rfl

/-- A text that is written out for its failures alone does not fail. -/
theorem assemble_before_packed (d : Dialect) (number : Nat) (s : String) (x : Draft) :
    (before (packed (.text s)) x).assemble cat (.context d number) =
      x.assemble cat (.context d number) := by
  rw [assemble, spells_packed]
  rfl

theorem Spells.run {s : String} (h : x.Spells cat host s) :
    (x.assemble cat host).run bound = (.ok (.text s), bound) := by
  rw [h]
  rfl

/-- A text in its place is bound. -/
theorem run_literal_text {d : Dialect} (hb : d.bindLiterals = true) (number : Nat) (s : String)
    (bound : Array Value) :
    ((literal (.text s)).shown.assemble cat (.context d number)).run bound =
      (.ok (.text (d.placeholder ((bound.size + 1 : Nat)))), bound.push (.text s)) := by
  have hsize : (bound.push (.text s)).size = bound.size + 1 := Array.size_push ..
  rw [assemble, assemble, Assembly.literal, if_pos hb, ← hsize]
  rfl

end Draft

/-! ## The text of a search -/

/-- A search for a text in another one. -/
inductive Search
  | contains
  | startswith
  | endswith
deriving DecidableEq

namespace Search

/-- The form of the LIKE test of a search, with or without regard to letter case. -/
def form (search : Search) (folding : Bool) : LikeForm :=
  match search with
  | contains => { caseInsensitive := folding }
  | startswith => { fuzzyStart := false, caseInsensitive := folding }
  | endswith => { fuzzyEnd := false, caseInsensitive := folding }

/-- The method of a search. -/
def method (search : Search) (folding : Bool) : String :=
  (if folding then "i" else "") ++
    match search with
    | contains => "contains"
    | startswith => "startswith"
    | endswith => "endswith"

/-- What the method calls the text that is searched for. -/
def argument : Search → String
  | contains => "substring"
  | startswith => "prefix"
  | endswith => "suffix"

/-- Whether a search for `s` in `t` succeeds. -/
def Finds (search : Search) (s t : List Char) : Prop :=
  match search with
  | contains => s <:+: t
  | startswith => s <+: t
  | endswith => s <:+ t

theorem test?_method (search : Search) (folding : Bool) (o : Object) (x : Expr) :
    Method.test? o x (search.method folding) =
      some (Method.likeNamed o x search.argument (search.form folding)) := by
  cases search <;> cases folding <;> rfl

end Search

/-! ## The escape character -/

namespace Engine

/-- What follows the pattern of a search. -/
def searchClause (e : Engine) : String :=
  match e.likeEscape? with
  | some mark => " ESCAPE " ++ mark
  | none => ""

/-- The escape character that holds for a LIKE test with some text after its pattern: the one that
the text names in a literal, and without a name the one that the engine has from the start. -/
def effectiveEscape (e : Engine) (clause : List Char) : Option Char :=
  match " ESCAPE ".toList.isPrefixOf? clause with
  | some mark =>
    match e.readText mark with
    | some ([c], []) => some c
    | _ => none
  | none => if e = mysql then some '\\' else none

/-- A backslash escapes the pattern of a search on every engine. -/
theorem effectiveEscape_searchClause (e : Engine) :
    e.effectiveEscape e.searchClause.toList = some '\\' := by
  cases e <;> decide

end Engine

/-- The text that a search looks for: in lower case, when letter case is ignored. -/
def Search.needle (folding : Bool) (s : String) : String := if folding then Text.lower s else s

/-! ## Patterns -/

namespace LikeForm

open Text (PatternMark)

variable (form : LikeForm) {s t : List Char}

/-- Whether a text has another one where a form looks for it. -/
def Finds (s t : List Char) : Prop :=
  match form.fuzzyStart, form.fuzzyEnd with
  | true, true => s <:+: t
  | true, false => s <:+ t
  | false, true => s <+: t
  | false, false => t = s

/-- The marks of a text that stands for itself, with the runs around it that a form asks for. -/
def marks (s : List Char) : List PatternMark :=
  (if form.fuzzyStart then [.run] else []) ++ (s.map .char ++ if form.fuzzyEnd then [.run] else [])

theorem covers_marks : PatternMark.covers (form.marks s) t = true ↔ form.Finds s t := by
  unfold marks Finds
  cases form.fuzzyStart <;> cases form.fuzzyEnd
  · simpa using PatternMark.covers_chars
  · exact PatternMark.covers_starting
  · simpa using PatternMark.covers_ending
  · exact PatternMark.covers_within

/-- A pattern with the wildcards around it that a form asks for. -/
def framed (body : List Char) : List Char :=
  (if form.fuzzyStart then ['%'] else []) ++ (body ++ if form.fuzzyEnd then ['%'] else [])

/-- The pattern of a form that escapes the text it is made for. -/
theorem toList_pattern (hn : form.escapeNeedle = true) (s : String) : (form.pattern s).toList =
    form.framed ((Search.needle form.caseInsensitive s).toList.flatMap escapeLikeChar) := by
  have hlist (u : String) : (escapeLike u).toList = u.toList.flatMap escapeLikeChar := by
    rw [escapeLike, String.toList_ofList]
  have hescaped : (if form.caseInsensitive then Text.lower (escapeLike s) else escapeLike s) =
      escapeLike (Search.needle form.caseInsensitive s) := by
    cases form.caseInsensitive with
    | false => rfl
    | true => exact Text.lower_escapeLike s
  simp only [pattern, framed, hn, if_true, hescaped, String.toList_append, hlist,
    List.append_assoc]
  cases form.fuzzyStart <;> cases form.fuzzyEnd <;> rfl

/-- Runs around characters that are read as a text. -/
theorem read_framed {escape : Char} {body : List Char}
    (hbody : ∀ rest, PatternMark.read (some escape) (body ++ rest) =
      (PatternMark.read (some escape) rest).map (s.map .char ++ ·))
    (he : form.fuzzyStart = true ∨ form.fuzzyEnd = true → escape ≠ '%') :
    PatternMark.read (some escape) (form.framed body) = some (form.marks s) := by
  have hlast : PatternMark.read (some escape) (if form.fuzzyEnd then ['%'] else []) =
      some (if form.fuzzyEnd then [.run] else []) := by
    cases hend : form.fuzzyEnd with
    | false => rfl
    | true => simpa [PatternMark.read, PatternMark.ofChar] using he (.inr hend)
  unfold framed marks
  cases hstart : form.fuzzyStart with
  | false =>
    rw [if_neg Bool.false_ne_true, List.nil_append, hbody, hlast]
    rfl
  | true =>
    have hplain : some escape ≠ some '%' := fun heq => he (.inl hstart) (Option.some.inj heq)
    rw [if_pos rfl, List.singleton_append, PatternMark.read_unescaped hplain, hbody, hlast]
    rfl

/-- The pattern of a form, read with the backslash that its escapes have. -/
theorem read_pattern (hn : form.escapeNeedle = true) (s : String) :
    PatternMark.read (some '\\') (form.pattern s).toList =
      some (form.marks (Search.needle form.caseInsensitive s).toList) := by
  rw [form.toList_pattern hn]
  exact form.read_framed (PatternMark.read_escaped_append _) fun _ => by decide

end LikeForm

namespace Search

variable (search : Search) (folding : Bool) (s : String)

/-- What a search looks for is what its form does. -/
theorem finds_iff (t : List Char) :
    search.Finds s.toList t ↔ (search.form folding).Finds s.toList t := by
  cases search <;> rfl

/-- The pattern of a search matches the texts in which the search succeeds. -/
theorem matchesLike_pattern (t : String) :
    Text.matchesLike (some '\\') ((search.form folding).pattern s) t = true ↔
      search.Finds (needle folding s).toList t.toList := by
  have hescape : (search.form folding).escapeNeedle = true := by cases search <;> rfl
  have hfolding : (search.form folding).caseInsensitive = folding := by cases search <;> rfl
  have hread := (search.form folding).read_pattern hescape s
  rw [hfolding] at hread
  rw [finds_iff search folding, Text.matchesLike, hread]
  exact (search.form folding).covers_marks

end Search

/-! ## The test -/

section Test

variable {cat : Catalog} {d : Dialect}

/-- What stands before LIKE in a search. -/
def Expr.searched (cat : Catalog) (e : Engine) (form : LikeForm) (x : Expr) : Draft :=
  (((form.foldedExpr x).operand cat e).under .comparison "" .left).shown

/-- A comparison puts its operands in parentheses by their own strength, whatever its symbol is. -/
theorem Operand.under_comparison (o : Operand) (symbol : String) (side : Side) :
    o.under .comparison symbol side = o.under .comparison "" side := by
  simp [under, needsParentheses]

namespace LikeForm

variable (form : LikeForm)

/-- The keyword of a LIKE test between its operands. -/
def keyword : String := if form.negated then " NOT LIKE " else " LIKE "

/-- What follows the pattern of a LIKE test with a text: the clause that names an escape character.
-/
def clause (d : Dialect) : String :=
  match form.explicitEscape with
  | some mark => " ESCAPE " ++ d.packText mark
  | none => if form.escapeNeedle then d.engine.searchClause else ""

/-- The escape clause is written without binding anything. -/
theorem spells_escapeClause (d : Dialect) (number : Nat) :
    (escapeClause (form.escapeLiteral? d.engine form.escapeNeedle)).Spells cat (.context d number)
      (form.clause d) := by
  unfold escapeLiteral? clause
  cases form.explicitEscape with
  | some mark => exact (Draft.spells_token _).plus (Draft.spells_packed d number mark).shown
  | none =>
    cases form.escapeNeedle with
    | false => exact Draft.spells_text ""
    | true =>
      unfold Engine.searchClause
      cases d.engine.likeEscape? with
      | none => exact Draft.spells_text ""
      | some mark => exact (Draft.spells_token _).plus (Draft.spells_text mark)

/-- A LIKE test asks the dialect for nothing that it lacks, and the pattern for a text is a literal.
-/
theorem assemble_draft (symbol : String) (o : Operand) (s : String) (number : Nat) :
    (form.draft d.engine symbol o (.ofText s)).assemble cat (.context d number) =
      (((form.fold d.engine o).under .comparison "" .left).shown
        + .token (.operator .between (if form.negated then "NOT LIKE" else "LIKE"))
        + (Draft.literal (.text (form.pattern s))).shown
        + escapeClause (form.escapeLiteral? d.engine form.escapeNeedle)).assemble cat
          (.context d number) := by
  have htest : (((form.asked (.ofText s)).foldr Draft.asking
      (form.test d.engine symbol o (.ofText s)))).assemble cat (.context d number) =
        (form.test d.engine symbol o (.ofText s)).assemble cat (.context d number) :=
    Draft.assemble_askingAll ..
  have hdraft : (form.draft d.engine symbol o (.ofText s)).assemble cat (.context d number) =
      (form.test d.engine symbol o (.ofText s)).assemble cat (.context d number) := by
    rw [draft, Draft.assemble_asking]
    cases form.explicitEscape with
    | some mark => exact (Draft.assemble_before_packed d number mark _).trans htest
    | none => exact htest
  rw [hdraft, test, Operand.under_comparison]
  rfl

end LikeForm

/-- A literal of a text as an operand, under any name. -/
theorem operand_literal_text (a : Value) (s : String) (k : Option DataKind) :
    (Expr.literal a (.text s) k).operand cat d.engine = .ofText s := by
  rw [Expr.operand, Expr.reference, Expr.drafted]
  rfl

/-- A LIKE test with a text is rendered as its operand, the pattern in its place and the escape
clause. -/
theorem assemble_like (form : LikeForm) (a b : Value) (symbol : String) (x : Expr) (s : String)
    (k : Option DataKind) (number : Nat) :
    ((Value.expr (.apply a (.like form) symbol [x, .literal b (.text s) k])).built cat
        d.engine).assemble cat (.context d number) =
      (x.searched cat d.engine form
        + .token (.operator .between (if form.negated then "NOT LIKE" else "LIKE"))
        + (Draft.literal (.text (form.pattern s))).shown
        + LikeForm.escapeClause (form.escapeLiteral? d.engine form.escapeNeedle)).assemble cat
          (.context d number) := by
  have hbuilt : (Value.expr (.apply a (.like form) symbol [x, .literal b (.text s) k])).built cat
      d.engine = form.draft d.engine symbol (x.operand cat d.engine) (.ofText s) := by
    have hreference := reference_apply cat d.engine a (.like form) symbol
      [x, .literal b (.text s) k]
    rw [List.map_cons, List.map_cons, List.map_nil, operand_literal_text] at hreference
    rw [Value.built, Value.drafted, Drafted.built, Expr.value_drafted]
    exact hreference
  rw [hbuilt, form.assemble_draft, ← LikeForm.operand_foldedExpr]
  rfl

/-- A LIKE test with a text compiles if its operand can be written. The pattern is bound last, behind
the parameters of the operand. -/
theorem compile_like (hb : d.bindLiterals = true) (form : LikeForm) (a b : Value) (symbol : String)
    (x : Expr) (s : String) (k : Option DataKind) (c : Compiled) :
    compile cat d (.expr (.apply a (.like form) symbol [x, .literal b (.text s) k])) = .ok c ↔
      ∃ front parameters, (x.searched cat d.engine form).outcome cat (.context d 0) [] =
          (.ok (.text front), parameters) ∧
        c = ⟨.text (front ++ form.keyword ++ d.placeholder ((parameters.length + 1 : Nat))
            ++ form.clause d), parameters ++ [.text (form.pattern s)]⟩ := by
  rw [compile_eq_ok_iff_outcome]
  cases hrun : ((x.searched cat d.engine form).assemble cat (.context d 0)).run
      ([] : List Value).toArray with
  | mk r between =>
    rw [Draft.outcome_of_run hrun]
    cases r with
    | error e =>
      have hall : (((Value.expr (.apply a (.like form) symbol [x, .literal b (.text s) k])).built cat
          d.engine).assemble cat (.context d 0)).run [].toArray = (.error e, between) := by
        rw [assemble_like]
        exact Draft.run_plus_of_error (Draft.run_plus_of_error (Draft.run_plus_of_error hrun))
      rw [Draft.outcome_of_run hall]
      simp
    | ok v =>
      obtain ⟨front, rfl⟩ := Draft.exists_text_of_run_shown hrun
      have hpattern := @Draft.run_literal_text cat d hb 0 (form.pattern s) between
      have hlike : (Value.text front).plus (.text (Token.operator .between
          (if form.negated then "NOT LIKE" else "LIKE")).spelling) =
            .ok (.text (front ++ form.keyword)) := by
        unfold LikeForm.keyword
        cases form.negated <;> rfl
      have htest := Draft.run_plus (Draft.run_plus hrun (Draft.run_token _) hlike) hpattern rfl
      have hall := Draft.run_plus htest (form.spells_escapeClause d 0).run rfl
      rw [← assemble_like] at hall
      rw [Draft.outcome_of_run hall]
      have hlength : between.toList.length = between.size := Array.length_toList
      obtain ⟨sql, parameters⟩ := c
      simp only [Prod.mk.injEq, Except.ok.injEq, Compiled.mk.injEq, Array.toList_push]
      constructor
      · rintro ⟨rfl, rfl⟩
        exact ⟨front, between.toList, ⟨rfl, rfl⟩, by rw [hlength], rfl⟩
      · rintro ⟨front', -, ⟨hfront, rfl⟩, rfl, rfl⟩
        obtain rfl : front = front' := by simpa [Value.text] using hfront
        exact ⟨by rw [hlength], rfl⟩

/-- A search compiles if its operand can be written. -/
theorem compile_search (hb : d.bindLiterals = true) (search : Search) (folding : Bool) (x : Expr)
    (s : String) (c : Compiled) :
    compile cat d (.expr (x.like (.text s) (search.form folding))) = .ok c ↔
      ∃ front parameters, (x.searched cat d.engine (search.form folding)).outcome cat
          (.context d 0) [] = (.ok (.text front), parameters) ∧
        c = ⟨.text (front ++ " LIKE " ++ d.placeholder ((parameters.length + 1 : Nat))
            ++ d.engine.searchClause),
          parameters ++ [.text ((search.form folding).pattern s)]⟩ := by
  have hkeyword : (search.form folding).keyword = " LIKE " := by cases search <;> rfl
  have hclause : (search.form folding).clause d = d.engine.searchClause := by cases search <;> rfl
  rw [← hkeyword, ← hclause]
  exact compile_like hb (search.form folding) .none .none "" x s (Value.text s).dataKind? c

/-- A search means literal matching: whatever the text that is searched for, the pattern that is
bound for it matches, by the rules of the standard with the escape character that holds for the
test, exactly the texts in which the text is found. When letter case is ignored, the operand is in
lower case and so is the text that is looked for in it. -/
theorem search_matches_literally (hb : d.bindLiterals = true) (search : Search) (folding : Bool)
    (x : Expr) (s : String) :
    (∀ o : Object, Method.test? o x (search.method folding) =
      some (Method.likeNamed o x search.argument (search.form folding))) ∧
    ∃ pattern clause : String,
      (∀ c, compile cat d (.expr (x.like (.text s) (search.form folding))) = .ok c ↔
        ∃ front parameters, (x.searched cat d.engine (search.form folding)).outcome cat
            (.context d 0) [] = (.ok (.text front), parameters) ∧
          c = ⟨.text (front ++ " LIKE " ++ d.placeholder ((parameters.length + 1 : Nat)) ++ clause),
            parameters ++ [.text pattern]⟩) ∧
      ∀ t : String, Text.matchesLike (d.engine.effectiveEscape clause.toList) pattern t = true ↔
        search.Finds (Search.needle folding s).toList t.toList := by
  refine ⟨fun o => search.test?_method folding o x, (search.form folding).pattern s,
    d.engine.searchClause, compile_search hb search folding x s, fun t => ?_⟩
  rw [Engine.effectiveEscape_searchClause]
  exact search.matchesLike_pattern folding s t

/-- A text with a wildcard in it is looked for in a text that is bound before it. -/
theorem search_matches_literally_percent : (Dialect.standard .sqlite).bindLiterals = true ∧
    ∃ pattern clause : String,
      compile default (.standard .sqlite)
          (.expr ((Expr.ofText "Up To 50%").like (.text "O 50%") (Search.endswith.form true))) =
        .ok ⟨.text ("LOWER(?) LIKE ?" ++ clause), [.text "Up To 50%", .text pattern]⟩ ∧
      ∀ t : String, Text.matchesLike (Engine.sqlite.effectiveEscape clause.toList) pattern t = true ↔
        "o 50%".toList <:+ t.toList := by
  obtain ⟨-, pattern, clause, hcompile, hmatch⟩ := @search_matches_literally default
    (.standard .sqlite) rfl .endswith true (Expr.ofText "Up To 50%") "O 50%"
  have hneedle : Search.needle true "O 50%" = "o 50%" := by decide
  rw [hneedle] at hmatch
  exact ⟨rfl, pattern, clause, (hcompile _).2 ⟨"LOWER(?)", _, rfl, rfl⟩, hmatch⟩

end Test

end SqlCompose
