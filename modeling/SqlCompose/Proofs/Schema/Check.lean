import SqlCompose.Dialect.Standard
import SqlCompose.Proofs.Draft.Outcome
import SqlCompose.Proofs.Text.Matching
import SqlCompose.Schema.Definition

/-!
# CHECK texts

The text of a CHECK clause is taken as it is if its parentheses match, which is decided by a count of
those that are open. The count takes a quote for the start or the end of a literal in any case. That
is how most engines read literals; one in which a backslash can escape the quote reads other
literals, and may find the end of the clause within the text.
-/
namespace SqlCompose

open Text (IsQuotable Matched Closes IsEnclosed)

/-! ## The count of open parentheses -/

section Balanced

variable {depth : Nat} {inString : Bool} {c : Char} {body cs rest : List Char}

theorem balancedFrom_quote :
    balancedFrom depth inString ('\'' :: cs) = balancedFrom depth (!inString) cs := rfl

theorem balancedFrom_inString (hquote : c ≠ '\'') :
    balancedFrom depth true (c :: cs) = balancedFrom depth true cs := by
  rw [balancedFrom.eq_def]
  simp only [hquote, ↓reduceIte]

theorem balancedFrom_opening :
    balancedFrom depth false ('(' :: cs) = balancedFrom (depth + 1) false cs := rfl

theorem balancedFrom_closing :
    balancedFrom (depth + 1) false (')' :: cs) = balancedFrom depth false cs := rfl

theorem balancedFrom_plain (hquote : c ≠ '\'') (hopening : c ≠ '(') (hclosing : c ≠ ')') :
    balancedFrom depth false (c :: cs) = balancedFrom depth false cs := by
  rw [balancedFrom.eq_def]
  simp only [hquote, hopening, hclosing, Bool.false_eq_true, ↓reduceIte]

/-- In a literal, all that counts is the quote that ends it. -/
theorem balancedFrom_body (h : '\'' ∉ body) :
    balancedFrom depth true (body ++ rest) = balancedFrom depth true rest := by
  induction body with
  | nil => rfl
  | cons c body ih =>
    obtain ⟨hc, hbody⟩ := List.ne_and_not_mem_of_not_mem_cons h
    rw [List.cons_append, balancedFrom_inString hc.symm, ih hbody]

/-- A text with matching parentheses leaves the count as it was. -/
theorem balancedFrom_append (h : Matched ('\'' ∉ ·) cs) :
    balancedFrom depth false (cs ++ rest) = balancedFrom depth false rest := by
  induction h generalizing depth rest with
  | nil => rfl
  | plain hquote hopening hclosing _ ih =>
    rw [List.cons_append, balancedFrom_plain hquote hopening hclosing, ih]
  | literal hbody _ ih =>
    rw [List.cons_append, List.append_assoc, List.cons_append, balancedFrom_quote,
      Bool.not_false, balancedFrom_body hbody, balancedFrom_quote, Bool.not_true, ih]
  | group _ _ ihinner ih =>
    rw [List.cons_append, List.append_assoc, List.cons_append, balancedFrom_opening, ihinner,
      balancedFrom_closing, ih]

/-- What a text has to be for the count to come out even: the rest of a literal, if it starts in one,
and then a text that closes the parentheses that are open. -/
def Completes (depth : Nat) (inString : Bool) (cs : List Char) : Prop :=
  if inString then
    ∃ body rest, cs = body ++ '\'' :: rest ∧ '\'' ∉ body ∧ Closes ('\'' ∉ ·) depth rest
  else Closes ('\'' ∉ ·) depth cs

theorem completes_of_balancedFrom (h : balancedFrom depth inString cs = true) :
    Completes depth inString cs := by
  induction depth, inString, cs using balancedFrom.induct with
  | case1 depth inString =>
    obtain ⟨rfl, rfl⟩ : depth = 0 ∧ inString = false := by simpa [balancedFrom] using h
    exact .nil
  | case2 depth inString cs ih =>
    have hrest := ih h
    cases inString with
    | false =>
      obtain ⟨body, rest, rfl, hbody, hclosed⟩ := hrest
      exact hclosed.literal hbody
    | true => exact ⟨[], cs, rfl, List.not_mem_nil, hrest⟩
  | case3 depth c cs hquote ih =>
    rw [balancedFrom_inString hquote] at h
    obtain ⟨body, rest, rfl, hbody, hclosed⟩ := ih h
    exact ⟨c :: body, rest, rfl, List.not_mem_cons_of_ne_of_not_mem (Ne.symm hquote) hbody, hclosed⟩
  | case4 depth inString cs houtside _ ih =>
    obtain rfl := Bool.eq_false_iff.2 houtside
    exact Closes.opening (ih h)
  | case5 inString cs houtside =>
    obtain rfl := Bool.eq_false_iff.2 houtside
    cases h
  | case6 inString cs houtside depth _ _ ih =>
    obtain rfl := Bool.eq_false_iff.2 houtside
    exact Closes.closing (ih h)
  | case7 depth inString c cs hquote houtside hopening hclosing ih =>
    obtain rfl := Bool.eq_false_iff.2 houtside
    rw [balancedFrom_plain hquote hopening hclosing] at h
    exact Closes.plain hquote hopening hclosing (ih h)

/-- The count comes out even exactly for the texts with matching parentheses. -/
theorem balancedFrom_zero_iff : balancedFrom 0 false cs = true ↔ Matched ('\'' ∉ ·) cs := by
  refine ⟨fun h => completes_of_balancedFrom h, fun h => ?_⟩
  rw [← List.append_nil cs, balancedFrom_append h]
  rfl

end Balanced

/-- The texts whose parentheses match outside of their literals are those made of plain characters,
of literals without a quote in them, and of such texts in parentheses. They are the texts that can be
put in parentheses where nothing escapes a quote. -/
theorem isBalanced_iff_matched (s : String) :
    (isBalanced s = true ↔ Matched ('\'' ∉ ·) s.toList) ∧
    (isBalanced s = true ↔ IsEnclosed false s) := by
  have hbalanced : isBalanced s = true ↔ Matched ('\'' ∉ ·) s.toList := balancedFrom_zero_iff
  have hquotable : IsQuotable false = ('\'' ∉ ·) :=
    funext fun _ => propext Text.isQuotable_false_iff
  refine ⟨hbalanced, ?_⟩
  rw [hbalanced, Text.isEnclosed_iff, hquotable]

/-- A parenthesis in a literal does not count, and one that closes nothing is found at once. -/
example : isBalanced "a <> ')'" = true ∧ isBalanced "a) OR (b" = false := by decide

/-! ## The clause -/

namespace Column

variable {cat : Catalog} {e : Engine} {host : Host} {c : Column} {s sql : String}

/-- A column with a CHECK text has the text, which is a valid one, in its definition. -/
theorem exists_of_yields_definition (hcheck : c.check = some s)
    (h : (c.definition cat e).Yields cat host (.text sql)) :
    isCheck s = true ∧ ∃ front back, sql = front ++ " CHECK (" ++ s ++ ")" ++ back := by
  unfold definition at h
  cases hkind : c.kind with
  | none =>
    rw [hkind] at h
    exact absurd h (Draft.not_yields_fail _)
  | some kind =>
    rw [hkind] at h
    have hclause : c.checkClause = [if isCheck s then .text (" CHECK (" ++ s ++ ")")
        else .fail (.invalidCheck c.name)] := by
      simp only [checkClause, hcheck]
      split <;> rfl
    obtain ⟨-, hwritten⟩ := Draft.Yields.before h
    rw [hclause, List.append_assoc, List.singleton_append] at hwritten
    obtain ⟨front, t, back, ht, rfl⟩ := hwritten.continued_item
    split at ht
    case isTrue hvalid =>
      obtain rfl := Value.text_inj ht.token
      exact ⟨hvalid, front, back, by simp [Token.spelling, String.append_assoc]⟩
    case isFalse => exact absurd ht (Draft.not_yields_fail _)

end Column

/-- A column with a CHECK text is defined only with its text as it is in parentheses behind CHECK.
The closing one is the partner of the opening one if and only if the parentheses of the text match as
the engine reads its literals. In an engine in which nothing escapes a quote that is so for each text
that is accepted. In MySQL it is so as long as no literal in the text has a backslash in it. -/
theorem check_isEnclosed_iff {cat : Catalog} {d : Dialect} {c : Column} {s sql : String}
    {number : Nat} {bound after : List Value}
    (hcheck : c.check = some s)
    (h : (c.definition cat d.engine).outcome cat (.context d number) bound
      = (.ok (.text sql), after)) :
    (∃ front back, sql = front ++ " CHECK " ++ ("(" ++ s ++ ")") ++ back) ∧
    (IsEnclosed d.engine.backslashEscapes s ↔
      Matched (IsQuotable d.engine.backslashEscapes) s.toList) ∧
    ((d.engine = .mysql → Matched (fun body => '\'' ∉ body ∧ '\\' ∉ body) s.toList) →
      IsEnclosed d.engine.backslashEscapes s) := by
  obtain ⟨hvalid, front, back, rfl⟩ :=
    Column.exists_of_yields_definition hcheck ⟨_, _, Draft.outcome_eq_iff.1 h⟩
  refine ⟨⟨front, back, ?_⟩, Text.isEnclosed_iff, fun hplain => ?_⟩
  · simp only [String.append_assoc]
    rfl
  · cases he : d.engine with
    | mysql =>
      refine Text.isEnclosed_iff.2 ((hplain he).imp fun body hbody => ?_)
      exact Text.isQuotable_of_forall fun ch hch =>
        ⟨ne_of_mem_of_not_mem hch hbody.1, fun _ => ne_of_mem_of_not_mem hch hbody.2⟩
    | generic | sqlite | postgresql | sqlserver =>
      have hbalanced : isBalanced s = true := (Bool.and_eq_true_iff.1 hvalid).2
      exact (isBalanced_iff_matched s).2.1 hbalanced

/-- A column whose CHECK text has a literal with an escaped quote in it, in a MySQL table. -/
def Column.escapedQuote : Column :=
  { name := "a", kind := some .text, check := some "'\\'') OR ('\\''" }

/-- A text that is accepted and closes its own CHECK in MySQL: the first literal ends behind the
second quote after the backslash, and the parenthesis after it is the partner of the first one. -/
theorem check_isEnclosed_iff_escapedQuote :
    (Column.escapedQuote.definition default .mysql).outcome default
        (.context (.standard .mysql) 0) []
      = (.ok (.text "\x60a\x60 TEXT CHECK ('\\'') OR ('\\'')"), []) ∧
    ¬IsEnclosed true "'\\'') OR ('\\''" ∧
    ¬Matched (IsQuotable true) "'\\'') OR ('\\''".toList := by
  have hsql : (Column.escapedQuote.definition default .mysql).outcome default
        (.context (.standard .mysql) 0) []
      = (.ok (.text "\x60a\x60 TEXT CHECK ('\\'') OR ('\\'')"), []) := by rfl
  have hclosed : Text.afterGroup true (("(" ++ "'\\'') OR ('\\''" ++ ")").toList ++ [])
      = some " OR ('\\'')".toList := by
    simp [Text.afterGroup, Text.afterClosing_quote, Text.afterQuoted, Text.readQuoted,
      Text.afterClosing_closing_zero]
  have hopen : ¬IsEnclosed true "'\\'') OR ('\\''" := fun h => by
    rw [h []] at hclosed
    cases hclosed
  exact ⟨hsql, hopen, fun hmatched => hopen ((check_isEnclosed_iff rfl hsql).2.1.2 hmatched)⟩

end SqlCompose
