import SqlCompose.Proofs.Dialect.Literal

/-!
# Matching parentheses

A text whose parentheses match is a sequence of plain characters, of literals and of such texts in
parentheses. A reader that looks for the parenthesis that closes a group passes over such a text and
over no other, so the parenthesis written behind a text closes the one written before it just when
the parentheses of the text match.
-/
namespace SqlCompose.Text

/-! ## Literals -/

/-- The texts that stand between the quotes of one literal. A quote would end it, and where
backslashes escape, each of them takes the character after it along. -/
inductive IsQuotable (escaping : Bool) : List Char → Prop
  | nil : IsQuotable escaping []
  | plain {c : Char} {cs : List Char} (hquote : c ≠ '\'') (hescape : escaping = true → c ≠ '\\')
      (hcs : IsQuotable escaping cs) : IsQuotable escaping (c :: cs)
  | escaped {cs : List Char} (c : Char) (hescaping : escaping = true)
      (hcs : IsQuotable escaping cs) : IsQuotable escaping ('\\' :: c :: cs)

theorem isQuotable_of_forall {escaping : Bool} {cs : List Char}
    (h : ∀ c ∈ cs, c ≠ '\'' ∧ (escaping = true → c ≠ '\\')) : IsQuotable escaping cs := by
  induction cs with
  | nil => exact .nil
  | cons c cs ih =>
    obtain ⟨hquote, hescape⟩ := h c List.mem_cons_self
    exact .plain hquote hescape (ih fun c' hc' => h c' (List.mem_cons_of_mem c hc'))

/-- Where nothing escapes, a literal holds all texts but those with a quote. -/
theorem isQuotable_false_iff {cs : List Char} : IsQuotable false cs ↔ '\'' ∉ cs := by
  constructor
  · intro h
    induction h with
    | nil => exact List.not_mem_nil
    | plain hquote _ _ ih => exact List.not_mem_cons_of_ne_of_not_mem hquote.symm ih
    | escaped _ hescaping => exact absurd hescaping (by decide)
  · intro h
    refine isQuotable_of_forall fun c hc => ⟨?_, fun he => absurd he (by decide)⟩
    rintro rfl
    exact h hc

/-- What follows a text literal, read from behind its opening quote. -/
def afterQuoted (escaping : Bool) (cs : List Char) : Option (List Char) :=
  (readQuoted escaping cs).map Prod.snd

section AfterQuoted

variable {escaping : Bool} {c : Char} {cs rest : List Char}

theorem afterQuoted_nil : afterQuoted escaping [] = none := rfl

theorem afterQuoted_closing (h : rest.head? ≠ some '\'') :
    afterQuoted escaping ('\'' :: rest) = some rest := by
  rw [afterQuoted, readQuoted_closing h]
  rfl

theorem afterQuoted_quote :
    afterQuoted escaping ('\'' :: '\'' :: cs) = afterQuoted escaping cs := by
  rw [afterQuoted, readQuoted_quote, Option.map_map]
  rfl

theorem afterQuoted_backslash : afterQuoted true ('\\' :: c :: cs) = afterQuoted true cs := by
  rw [afterQuoted, readQuoted_backslash, Option.map_map]
  rfl

theorem afterQuoted_plain (hquote : c ≠ '\'') (hescape : escaping = true → c ≠ '\\') :
    afterQuoted escaping (c :: cs) = afterQuoted escaping cs := by
  rw [afterQuoted, readQuoted_plain hquote hescape, Option.map_map]
  rfl

/-- What stands between the quotes of a literal does not end it. -/
theorem afterQuoted_append (h : IsQuotable escaping cs) :
    afterQuoted escaping (cs ++ rest) = afterQuoted escaping rest := by
  induction h with
  | nil => rfl
  | plain hquote hescape _ ih => rw [List.cons_append, afterQuoted_plain hquote hescape, ih]
  | escaped c hescaping _ ih =>
    subst hescaping
    rw [List.cons_append, List.cons_append, afterQuoted_backslash, ih]

end AfterQuoted

/-! ## Texts with matching parentheses -/

/-- The texts whose parentheses match: sequences of plain characters, of literals with a quotable
text between their quotes, and of such texts in parentheses. -/
inductive Matched (quotable : List Char → Prop) : List Char → Prop
  | nil : Matched quotable []
  | plain {c : Char} {cs : List Char} (hquote : c ≠ '\'') (hopening : c ≠ '(')
      (hclosing : c ≠ ')') (hcs : Matched quotable cs) : Matched quotable (c :: cs)
  | literal {body cs : List Char} (hbody : quotable body) (hcs : Matched quotable cs) :
      Matched quotable ('\'' :: (body ++ '\'' :: cs))
  | group {inner cs : List Char} (hinner : Matched quotable inner) (hcs : Matched quotable cs) :
      Matched quotable ('(' :: (inner ++ ')' :: cs))

/-- The texts that close `depth` parentheses opened before them and have no others without a
partner. -/
def Closes (quotable : List Char → Prop) : Nat → List Char → Prop
  | 0, cs => Matched quotable cs
  | depth + 1, cs =>
    ∃ inner rest, cs = inner ++ ')' :: rest ∧ Matched quotable inner ∧ Closes quotable depth rest

section Closes

variable {quotable : List Char → Prop} {depth : Nat} {xs ys : List Char}

theorem Matched.append (hxs : Matched quotable xs) (hys : Matched quotable ys) :
    Matched quotable (xs ++ ys) := by
  induction hxs with
  | nil => exact hys
  | plain hquote hopening hclosing _ ih => exact .plain hquote hopening hclosing ih
  | literal hbody _ ih => simpa using Matched.literal hbody ih
  | group hinner _ _ ih => simpa using Matched.group hinner ih

theorem Matched.imp {quotable' : List Char → Prop} (h : ∀ body, quotable body → quotable' body)
    (hxs : Matched quotable xs) : Matched quotable' xs := by
  induction hxs with
  | nil => exact .nil
  | plain hquote hopening hclosing _ ih => exact .plain hquote hopening hclosing ih
  | literal hbody _ ih => exact .literal (h _ hbody) ih
  | group _ _ ihinner ih => exact .group ihinner ih

theorem Closes.append (hxs : Matched quotable xs) (hys : Closes quotable depth ys) :
    Closes quotable depth (xs ++ ys) := by
  cases depth with
  | zero => exact Matched.append hxs hys
  | succ depth =>
    obtain ⟨inner, rest, rfl, hinner, hrest⟩ := hys
    exact ⟨xs ++ inner, rest, (List.append_assoc ..).symm, hxs.append hinner, hrest⟩

theorem Closes.opening (h : Closes quotable (depth + 1) xs) : Closes quotable depth ('(' :: xs) := by
  obtain ⟨inner, rest, rfl, hinner, hrest⟩ := h
  have hgroup : Matched quotable ('(' :: (inner ++ ')' :: [])) := .group hinner .nil
  simpa using Closes.append hgroup hrest

theorem Closes.closing (h : Closes quotable depth xs) : Closes quotable (depth + 1) (')' :: xs) :=
  ⟨[], xs, rfl, .nil, h⟩

theorem Closes.plain {c : Char} (hquote : c ≠ '\'') (hopening : c ≠ '(') (hclosing : c ≠ ')')
    (h : Closes quotable depth xs) : Closes quotable depth (c :: xs) :=
  Closes.append (.plain hquote hopening hclosing .nil) h

theorem Closes.literal {body : List Char} (hbody : quotable body)
    (h : Closes quotable depth xs) : Closes quotable depth ('\'' :: (body ++ '\'' :: xs)) := by
  have hliteral : Matched quotable ('\'' :: (body ++ '\'' :: [])) := .literal hbody .nil
  simpa using Closes.append hliteral h

end Closes

/-! ## The parenthesis that closes a group -/

section Reading

variable {escaping : Bool} {depth : Nat} {c : Char} {cs rest : List Char}

/-- A literal that is read up to its end is quotable texts between quotes. Where a quote is written
twice, one of them ends a text and the other one starts the next. -/
theorem exists_of_afterQuoted (h : afterQuoted escaping cs = some rest) :
    ∃ body more, cs = body ++ '\'' :: (more ++ rest) ∧ IsQuotable escaping body ∧
      Matched (IsQuotable escaping) more := by
  induction cs using readQuoted.induct escaping with
  | case1 => cases h
  | case2 =>
    rw [afterQuoted_closing (by simp)] at h
    cases h
    exact ⟨[], [], rfl, .nil, .nil⟩
  | case3 c hquote =>
    simp [afterQuoted, readQuoted, hquote] at h
  | case4 cs ih =>
    rw [afterQuoted_quote] at h
    obtain ⟨body, more, rfl, hbody, hmore⟩ := ih h
    exact ⟨[], '\'' :: (body ++ '\'' :: more), by simp, .nil, .literal hbody hmore⟩
  | case5 next cs hnext =>
    rw [afterQuoted_closing (by simpa using hnext)] at h
    cases h
    exact ⟨[], [], rfl, .nil, .nil⟩
  | case6 c next cs hquote hescape ih =>
    obtain ⟨rfl, rfl⟩ := hescape
    rw [afterQuoted_backslash] at h
    obtain ⟨body, more, rfl, hbody, hmore⟩ := ih h
    exact ⟨'\\' :: next :: body, more, rfl, .escaped next rfl hbody, hmore⟩
  | case7 c next cs hquote hescape ih =>
    have hplain : escaping = true → c ≠ '\\' := fun he hc => hescape ⟨he, hc⟩
    rw [afterQuoted_plain hquote hplain] at h
    obtain ⟨body, more, hcs, hbody, hmore⟩ := ih h
    exact ⟨c :: body, more, congrArg (c :: ·) hcs, .plain hquote hplain hbody, hmore⟩

theorem length_lt_of_afterQuoted (h : afterQuoted escaping cs = some rest) :
    rest.length < cs.length := by
  obtain ⟨body, more, rfl, -, -⟩ := exists_of_afterQuoted h
  simp only [List.length_append, List.length_cons]
  omega

/-- What follows the parenthesis that closes the outermost one of `depth + 1` open ones. Parentheses
in literals do not count. -/
def afterClosing (escaping : Bool) (depth : Nat) : List Char → Option (List Char)
  | [] => none
  | c :: cs =>
    if c = '\'' then
      match _ : afterQuoted escaping cs with
      | none => none
      | some rest => afterClosing escaping depth rest
    else if c = '(' then afterClosing escaping (depth + 1) cs
    else if c = ')' then
      match depth with
      | 0 => some cs
      | depth + 1 => afterClosing escaping depth cs
    else afterClosing escaping depth cs
termination_by cs => cs.length
decreasing_by
  · have := length_lt_of_afterQuoted ‹_›
    simp only [List.length_cons]
    omega
  all_goals simp

/-- What follows a group in parentheses. -/
def afterGroup (escaping : Bool) : List Char → Option (List Char)
  | '(' :: cs => afterClosing escaping 0 cs
  | _ => none

theorem afterClosing_nil : afterClosing escaping depth [] = none := by
  rw [afterClosing]

theorem afterClosing_quote :
    afterClosing escaping depth ('\'' :: cs) =
      (afterQuoted escaping cs).bind (afterClosing escaping depth) := by
  rw [afterClosing.eq_def]
  simp only [↓reduceIte]
  split
  case h_1 hnone => rw [hnone]; rfl
  case h_2 hrest => rw [hrest]; rfl

theorem afterClosing_opening :
    afterClosing escaping depth ('(' :: cs) = afterClosing escaping (depth + 1) cs := by
  rw [afterClosing.eq_def]
  simp only [Char.reduceEq, ↓reduceIte]

theorem afterClosing_closing_zero : afterClosing escaping 0 (')' :: cs) = some cs := by
  rw [afterClosing, if_neg (by decide), if_neg (by decide), if_pos rfl]

theorem afterClosing_closing_succ :
    afterClosing escaping (depth + 1) (')' :: cs) = afterClosing escaping depth cs := by
  rw [afterClosing, if_neg (by decide), if_neg (by decide), if_pos rfl]

theorem afterClosing_plain (hquote : c ≠ '\'') (hopening : c ≠ '(') (hclosing : c ≠ ')') :
    afterClosing escaping depth (c :: cs) = afterClosing escaping depth cs := by
  rw [afterClosing.eq_def]
  simp only [hquote, hopening, hclosing, ↓reduceIte]

/-- A quotable text between quotes is passed over. If another quote follows, the reader takes both
quotes for one in a longer literal, and ends up at the same place. -/
theorem afterClosing_literal {body : List Char} (hbody : IsQuotable escaping body) :
    afterClosing escaping depth ('\'' :: (body ++ '\'' :: cs)) = afterClosing escaping depth cs := by
  rw [afterClosing_quote, afterQuoted_append hbody]
  by_cases hcs : cs.head? = some '\''
  · obtain ⟨cs, rfl⟩ := List.head?_eq_some_iff.1 hcs
    rw [afterQuoted_quote, afterClosing_quote]
  · rw [afterQuoted_closing hcs]
    rfl

/-- A text with matching parentheses is passed over at every depth. -/
theorem afterClosing_append (h : Matched (IsQuotable escaping) cs) :
    afterClosing escaping depth (cs ++ rest) = afterClosing escaping depth rest := by
  induction h generalizing depth rest with
  | nil => rfl
  | plain hquote hopening hclosing _ ih =>
    rw [List.cons_append, afterClosing_plain hquote hopening hclosing, ih]
  | literal hbody _ ih =>
    rw [List.cons_append, List.append_assoc, List.cons_append, afterClosing_literal hbody, ih]
  | group _ _ ihinner ih =>
    rw [List.cons_append, List.append_assoc, List.cons_append, afterClosing_opening, ihinner,
      afterClosing_closing_succ, ih]

/-- What is read up to the closing parenthesis closes all parentheses that were opened after it. -/
theorem exists_of_afterClosing (h : afterClosing escaping depth cs = some rest) :
    ∃ front, cs = front ++ ')' :: rest ∧ Closes (IsQuotable escaping) depth front := by
  induction depth, cs using afterClosing.induct escaping with
  | case1 depth => simp [afterClosing_nil] at h
  | case2 depth cs hnone => simp [afterClosing_quote, hnone] at h
  | case3 depth cs after hafter ih =>
    rw [afterClosing_quote, hafter, Option.bind_some] at h
    obtain ⟨front, rfl, hfront⟩ := ih h
    obtain ⟨body, more, rfl, hbody, hmore⟩ := exists_of_afterQuoted hafter
    refine ⟨'\'' :: (body ++ '\'' :: (more ++ front)), by simp, ?_⟩
    exact Closes.literal hbody (Closes.append hmore hfront)
  | case4 depth cs _ ih =>
    rw [afterClosing_opening] at h
    obtain ⟨front, rfl, hfront⟩ := ih h
    exact ⟨'(' :: front, rfl, hfront.opening⟩
  | case5 cs =>
    rw [afterClosing_closing_zero] at h
    cases h
    exact ⟨[], rfl, .nil⟩
  | case6 cs _ _ depth ih =>
    rw [afterClosing_closing_succ] at h
    obtain ⟨front, rfl, hfront⟩ := ih h
    exact ⟨')' :: front, rfl, hfront.closing⟩
  | case7 depth c cs hquote hopening hclosing ih =>
    rw [afterClosing_plain hquote hopening hclosing] at h
    obtain ⟨front, rfl, hfront⟩ := ih h
    exact ⟨c :: front, rfl, hfront.plain hquote hopening hclosing⟩

/-- The parenthesis behind a text closes the one before it if and only if the parentheses of the
text match. -/
theorem afterGroup_eq_some_iff :
    afterGroup escaping ('(' :: (cs ++ ')' :: rest)) = some rest ↔
      Matched (IsQuotable escaping) cs := by
  constructor
  · intro h
    obtain ⟨front, hcs, hfront⟩ := exists_of_afterClosing h
    rw [List.append_cancel_right hcs]
    exact hfront
  · intro h
    exact (afterClosing_append h).trans afterClosing_closing_zero

end Reading

/-- Whether a text can be put in parentheses: the closing one is the partner of the opening one,
whatever follows it. -/
def IsEnclosed (escaping : Bool) (s : String) : Prop :=
  ∀ rest, afterGroup escaping (("(" ++ s ++ ")").toList ++ rest) = some rest

theorem isEnclosed_iff {escaping : Bool} {s : String} :
    IsEnclosed escaping s ↔ Matched (IsQuotable escaping) s.toList := by
  have hlist : ∀ rest, ("(" ++ s ++ ")").toList ++ rest = '(' :: (s.toList ++ ')' :: rest) := by
    simp
  simp only [IsEnclosed, hlist, afterGroup_eq_some_iff, forall_const]

end SqlCompose.Text
