import SqlCompose.Proofs.Dialect.Literal

/-!
# The outline of SQL text

A scanner that goes by the rules of an engine for literals and quoted names tells which parentheses
of a text are open. What stands outside of parentheses, literals and names is the outline of the
text, and the words that start the clauses of a SELECT are looked for there.
-/
namespace SqlCompose

/-- Where a scanner stands. -/
inductive Zone
  | code
  | literal
  /-- Behind a backslash in a literal. -/
  | escaped
  /-- Behind a quote that ends a literal, unless another one follows. -/
  | literalEnd
  | name
  /-- Behind a quote that ends a name, unless another one follows. -/
  | nameEnd
deriving DecidableEq

/-- Whether a zone is none of a literal or a name. -/
def Zone.isOutside : Zone → Bool
  | code | literalEnd | nameEnd => true
  | literal | escaped | name => false

/-- Whether a scanner stands outside of parentheses, literals and names. -/
def Zone.isOuter (s : Zone × Nat) : Bool := s.1.isOutside && s.2 == 0

/-! ## Words -/

namespace Text

/-- Whether a character is part of a word. -/
def isWordChar (c : Char) : Bool := c.isAlphanum || c == '_'

/-- The words that start the clauses of a SELECT, in the order of SQL. GROUP BY and ORDER BY start
with their first words. -/
def clauseWords : List String := ["SELECT", "FROM", "WHERE", "GROUP", "HAVING", "ORDER"]

/-- The words of a text that start clauses, in any letter case. -/
def clausesOf (cs : List Char) : List String :=
  ((cs.splitOnP fun c => !isWordChar c).map fun w => String.ofList (w.map Char.toUpper)).filter
    (· ∈ clauseWords)

variable {cs ds : List Char} {c : Char}

@[simp] theorem clausesOf_nil : clausesOf [] = [] := by decide

/-- Words end at a character that is none of a word. -/
theorem clausesOf_append_cons (cs ds : List Char) (hc : isWordChar c = false) :
    clausesOf (cs ++ c :: ds) = clausesOf cs ++ clausesOf ds := by
  simp only [clausesOf]
  rw [List.splitOnP_append_cons cs ds (by simp [hc]), List.map_append, List.filter_append]

theorem clausesOf_cons (ds : List Char) (hc : isWordChar c = false) :
    clausesOf (c :: ds) = clausesOf ds := by
  simpa using clausesOf_append_cons [] ds hc

theorem mem_of_mem_splitOnP {p : Char → Bool} {w : List Char} (hw : w ∈ cs.splitOnP p)
    (hc : c ∈ w) : c ∈ cs := by
  induction cs generalizing w with
  | nil => simp_all [List.splitOnP_nil]
  | cons d cs ih =>
    rw [List.splitOnP_cons_eq_if_modifyHead] at hw
    split at hw
    · rcases List.mem_cons.1 hw with rfl | hw
      · cases hc
      · exact List.mem_cons_of_mem _ (ih hw hc)
    · obtain ⟨first, others, hsplit⟩ := List.exists_cons_of_ne_nil (List.splitOnP_ne_nil p cs)
      rw [hsplit, List.modifyHead_cons] at hw
      rcases List.mem_cons.1 hw with rfl | hw
      · rcases List.mem_cons.1 hc with rfl | hc
        · exact List.mem_cons_self
        · exact List.mem_cons_of_mem _ (ih (hsplit ▸ List.mem_cons_self) hc)
      · exact List.mem_cons_of_mem _ (ih (hsplit ▸ List.mem_cons_of_mem _ hw) hc)

/-- Each of these letters stands in some of the words that start clauses, and each of the words has
one of them. -/
def clauseLetters : List Char := ['L', 'R', 'V']

theorem clausesOf_eq_nil (h : ∀ c ∈ cs, c.toUpper ∉ clauseLetters) : clausesOf cs = [] := by
  rw [clausesOf, List.filter_eq_nil_iff]
  intro s hs hmem
  obtain ⟨w, hw, rfl⟩ := List.mem_map.1 hs
  have hletter : ∀ s ∈ clauseWords, s.toList.any (· ∈ clauseLetters) = true := by decide
  obtain ⟨c, hc, hletter⟩ := List.any_eq_true.1 (hletter _ (by simpa using hmem))
  rw [String.toList_ofList] at hc
  obtain ⟨c, hcw, rfl⟩ := List.mem_map.1 hc
  exact h c (mem_of_mem_splitOnP hw hcw) (of_decide_eq_true hletter)

/-- Whether a text starts with a character that is none of a word. -/
def startsApart (cs : List Char) : Bool := cs.head?.any (!isWordChar ·)

/-- Whether a text ends with a character that is none of a word. -/
def endsApart (cs : List Char) : Bool := cs.getLast?.any (!isWordChar ·)

theorem ne_nil_of_startsApart (h : startsApart cs = true) : cs ≠ [] := by
  rintro rfl
  cases h

theorem ne_nil_of_endsApart (h : endsApart cs = true) : cs ≠ [] := by
  rintro rfl
  cases h

theorem startsApart_append (h : startsApart cs = true) : startsApart (cs ++ ds) = true := by
  cases cs with
  | nil => cases h
  | cons c cs => exact h

/-- No word goes on from one text to the next one. -/
theorem clausesOf_append (h : (endsApart cs || startsApart ds) = true) :
    clausesOf (cs ++ ds) = clausesOf cs ++ clausesOf ds := by
  rcases Bool.or_eq_true_iff.1 h with hends | hstarts
  · obtain ⟨c, hlast, hc⟩ := (Option.any_eq_true _ _).1 hends
    obtain ⟨front, rfl⟩ := List.getLast?_eq_some_iff.1 hlast
    have hc : isWordChar c = false := by simpa using hc
    rw [List.append_assoc, List.singleton_append, clausesOf_append_cons _ _ hc,
      clausesOf_append_cons front [] hc]
    simp
  · obtain ⟨c, hhead, hc⟩ := (Option.any_eq_true _ _).1 hstarts
    obtain ⟨rest, rfl⟩ := List.head?_eq_some_iff.1 hhead
    have hc : isWordChar c = false := by simpa using hc
    rw [clausesOf_append_cons _ _ hc, clausesOf_cons _ hc]

/-- Whether a character is neither a quote nor a parenthesis. -/
def isPlain (c : Char) : Bool := c ∉ ['\'', '"', '`', '[', ']', '(', ')']

end Text

/-! ## The scanner -/

namespace Engine

/-- The quotes around a name. -/
def nameQuotes : Engine → Char × Char
  | mysql => ('`', '`')
  | sqlserver => ('[', ']')
  | _ => ('"', '"')

/-- A step of the scanner outside of literals and names, with the number of open parentheses. There
is none at a parenthesis that closes nothing. -/
def advanceCode (e : Engine) (depth : Nat) (c : Char) : Option (Zone × Nat) :=
  if c = '\'' then some (.literal, depth)
  else if c = e.nameQuotes.1 then some (.name, depth)
  else if c = '(' then some (.code, depth + 1)
  else if c = ')' then
    match depth with
    | 0 => none
    | depth + 1 => some (.code, depth)
  else some (.code, depth)

/-- A step of the scanner. -/
def advance (e : Engine) : Zone × Nat → Char → Option (Zone × Nat)
  | (.code, depth), c => e.advanceCode depth c
  | (.literal, depth), c =>
    some (if c = '\'' then .literalEnd else if e.backslashEscapes && c == '\\' then .escaped
      else .literal, depth)
  | (.escaped, depth), _ => some (.literal, depth)
  | (.literalEnd, depth), c => if c = '\'' then some (.literal, depth) else e.advanceCode depth c
  | (.name, depth), c => some (if c = e.nameQuotes.2 then .nameEnd else .name, depth)
  | (.nameEnd, depth), c =>
    if c = e.nameQuotes.2 then some (.name, depth) else e.advanceCode depth c

/-- Where the scanner stands behind a text. -/
def scan (e : Engine) (s : Zone × Nat) (cs : List Char) : Option (Zone × Nat) :=
  cs.foldlM e.advance s

/-- What a text has outside of parentheses, literals and names, with the parentheses and quotes around
what is left out. -/
def outline (e : Engine) : Zone × Nat → List Char → List Char
  | _, [] => []
  | s, c :: cs =>
    match e.advance s c with
    | none => []
    | some t => if Zone.isOuter s || Zone.isOuter t then c :: e.outline t cs else e.outline t cs

/-- Whether all parentheses of a text close one another, and no literal and no name is left open. -/
def IsBalanced (e : Engine) (cs : List Char) : Prop :=
  ∃ z : Zone, z.isOutside = true ∧ e.scan (.code, 0) cs = some (z, 0)

variable {e : Engine} {s t : Zone × Nat} {z : Zone} {k : Nat} {c : Char} {cs ds : List Char}

theorem scan_cons (ht : e.advance s c = some t) : e.scan s (c :: cs) = e.scan t cs := by
  rw [scan, List.foldlM_cons, ht]
  rfl

theorem scan_append (ht : e.scan s cs = some t) : e.scan s (cs ++ ds) = e.scan t ds := by
  rw [scan, List.foldlM_append, ← scan, ht]
  rfl

theorem outline_cons (ht : e.advance s c = some t) : e.outline s (c :: cs)
    = (if Zone.isOuter s || Zone.isOuter t then [c] else []) ++ e.outline t cs := by
  rw [outline, ht]
  dsimp only
  split <;> rfl

theorem exists_of_scan_cons (ht : e.scan s (c :: cs) = some t) :
    ∃ u, e.advance s c = some u ∧ e.scan u cs = some t := by
  rw [scan, List.foldlM_cons] at ht
  exact Option.bind_eq_some_iff.1 ht

theorem outline_append (ht : e.scan s cs = some t) :
    e.outline s (cs ++ ds) = e.outline s cs ++ e.outline t ds := by
  induction cs generalizing s with
  | nil =>
    obtain rfl : s = t := Option.some.inj ht
    rfl
  | cons c cs ih =>
    obtain ⟨u, hu, hrest⟩ := exists_of_scan_cons ht
    rw [List.cons_append, outline_cons hu, outline_cons hu, ih hrest, List.append_assoc]

/-! ## Depth -/

theorem advanceCode_succ (ht : e.advanceCode k c = some t) :
    e.advanceCode (k + 1) c = some (t.1, t.2 + 1) := by
  unfold advanceCode at ht ⊢
  by_cases hquote : c = '\''
  · simp_all [Prod.ext_iff]
  by_cases hname : c = e.nameQuotes.1
  · simp_all [Prod.ext_iff]
  by_cases hopening : c = '('
  · simp_all [Prod.ext_iff]
  by_cases hclosing : c = ')'
  · cases k <;> simp_all [Prod.ext_iff]
  · simp_all [Prod.ext_iff]

theorem advance_succ (ht : e.advance (z, k) c = some t) :
    e.advance (z, k + 1) c = some (t.1, t.2 + 1) := by
  cases z with
  | code => exact advanceCode_succ ht
  | literal | escaped | name =>
    obtain rfl := Option.some.inj ht
    rfl
  | literalEnd | nameEnd =>
    simp only [advance] at ht ⊢
    split at ht
    · rename_i hc
      obtain rfl := Option.some.inj ht
      rw [if_pos hc]
    · rename_i hc
      rw [if_neg hc]
      exact advanceCode_succ ht

/-- Within further parentheses a text is scanned as it is outside of them, and its outline is empty.
-/
theorem scan_succ (ht : e.scan (z, k) cs = some t) :
    e.scan (z, k + 1) cs = some (t.1, t.2 + 1) ∧ e.outline (z, k + 1) cs = [] := by
  induction cs generalizing z k with
  | nil =>
    obtain rfl : (z, k) = t := Option.some.inj ht
    exact ⟨rfl, rfl⟩
  | cons c cs ih =>
    obtain ⟨u, hu, hrest⟩ := exists_of_scan_cons ht
    obtain ⟨hscan, houtline⟩ := ih hrest
    have hstep := advance_succ hu
    refine ⟨(scan_cons hstep).trans hscan, ?_⟩
    rw [outline_cons hstep]
    simp [Zone.isOuter, houtline]

/-! ## Plain texts -/

theorem advance_of_isPlain (hz : z.isOutside = true) (hc : Text.isPlain c = true) :
    e.advance (z, k) c = some (.code, k) := by
  have hcode : e.advanceCode k c = some (.code, k) := by
    cases e <;> simp_all [Text.isPlain, advanceCode, nameQuotes]
  have hquotes : c ≠ '\'' ∧ c ≠ e.nameQuotes.2 := by
    cases e <;> simp_all [Text.isPlain, nameQuotes]
  cases z with
  | code => exact hcode
  | literalEnd => rw [advance, if_neg hquotes.1, hcode]
  | nameEnd => rw [advance, if_neg hquotes.2, hcode]
  | _ => cases hz

/-- A text without quotes and parentheses is all in the outline. -/
theorem scan_of_isPlain (hz : z.isOutside = true) (hn : cs ≠ []) (h : cs.all Text.isPlain = true) :
    e.scan (z, k) cs = some (.code, k) ∧ e.outline (z, 0) cs = cs := by
  induction cs generalizing z with
  | nil => exact absurd rfl hn
  | cons c cs ih =>
    obtain ⟨hc, h⟩ := Bool.and_eq_true_iff.1 h
    have houtline : e.outline (z, 0) (c :: cs) = c :: e.outline (.code, 0) cs := by
      rw [outline_cons (advance_of_isPlain hz hc)]
      simp [Zone.isOuter, hz]
    rw [scan_cons (advance_of_isPlain hz hc), houtline]
    by_cases hcs : cs = []
    · subst hcs
      exact ⟨rfl, rfl⟩
    · obtain ⟨hscan, hrest⟩ := ih (z := .code) rfl hcs h
      exact ⟨hscan, by rw [hrest]⟩

/-! ## Texts outside of everything -/

/-- Whether a text leads from outside of everything to outside of everything, with an outline. -/
def Parts (e : Engine) (shown cs : List Char) : Prop :=
  ∀ z : Zone, z.isOutside = true → e.scan (z, 0) cs = some (.code, 0) ∧ e.outline (z, 0) cs = shown

/-- Whether a text that stands outside of everything leaves nothing open, and has words that start
clauses outside of parentheses, literals and names. -/
def Shows (e : Engine) (ws : List String) (cs : List Char) : Prop :=
  ∃ z : Zone, z.isOutside = true ∧ e.scan (.code, 0) cs = some (z, 0) ∧
    Text.clausesOf (e.outline (.code, 0) cs) = ws

variable {as bs shown shown' : List Char} {us ws : List String}

namespace Parts

theorem ofPlain (hn : cs ≠ []) (h : cs.all Text.isPlain = true) : e.Parts cs cs :=
  fun _ hz => scan_of_isPlain hz hn h

theorem append (h : e.Parts shown as) (h' : e.Parts shown' bs) :
    e.Parts (shown ++ shown') (as ++ bs) := by
  intro z hz
  obtain ⟨hscan, houtline⟩ := h z hz
  obtain ⟨hscan', houtline'⟩ := h' .code rfl
  exact ⟨(scan_append hscan).trans hscan', by rw [outline_append hscan, houtline, houtline']⟩

/-- What stands in parentheses is not in the outline. -/
theorem bracketed (h : e.IsBalanced cs) : e.Parts ['(', ')'] ('(' :: cs ++ [')']) := by
  intro z hz
  obtain ⟨y, hy, hscan⟩ := h
  have hopened : e.advance (z, 0) '(' = some (.code, 1) := by
    cases e <;> cases z <;> first | rfl | cases hz
  have hclosed : e.advance (y, 1) ')' = some (.code, 0) := by
    cases e <;> cases y <;> first | rfl | cases hy
  obtain ⟨hinner, hnone⟩ := scan_succ hscan
  rw [Nat.zero_add] at hinner hnone
  rw [List.cons_append]
  refine ⟨?_, ?_⟩
  · rw [scan_cons hopened, scan_append hinner, scan_cons hclosed]
    rfl
  · rw [outline_cons hopened, outline_append hinner, hnone, outline_cons hclosed]
    simp [Zone.isOuter, hz, outline, show Zone.isOutside .code = true from rfl]

end Parts

/-- Whether a text leads from outside of everything to outside of everything. -/
def Continues (e : Engine) (cs : List Char) : Prop :=
  ∀ z : Zone, z.isOutside = true → ∃ y : Zone, y.isOutside = true ∧ e.scan (z, 0) cs = some (y, 0)

namespace Continues

theorem nil : e.Continues [] := fun z hz => ⟨z, hz, rfl⟩

theorem append (h : e.Continues as) (h' : e.Continues bs) : e.Continues (as ++ bs) := by
  intro z hz
  obtain ⟨y, hy, hscan⟩ := h z hz
  obtain ⟨x, hx, hscan'⟩ := h' y hy
  exact ⟨x, hx, (scan_append hscan).trans hscan'⟩

theorem isBalanced (h : e.Continues cs) : e.IsBalanced cs := h .code rfl

end Continues

theorem Parts.continues (h : e.Parts shown cs) : e.Continues cs :=
  fun z hz => ⟨.code, rfl, (h z hz).1⟩

/-- A text that may stand outside of everything stands behind one that leads there. -/
theorem Parts.led (h : e.Parts shown as) (h' : e.IsBalanced bs) : e.Continues (as ++ bs) := by
  intro z hz
  obtain ⟨y, hy, hscan⟩ := h'
  exact ⟨y, hy, (scan_append (h z hz).1).trans hscan⟩

theorem IsBalanced.append (h : e.IsBalanced as) (h' : e.Continues bs) : e.IsBalanced (as ++ bs) := by
  obtain ⟨z, hz, hscan⟩ := h
  obtain ⟨y, hy, hscan'⟩ := h' z hz
  exact ⟨y, hy, (scan_append hscan).trans hscan'⟩

namespace Shows

theorem isBalanced (h : e.Shows ws cs) : e.IsBalanced cs := by
  obtain ⟨z, hz, hscan, -⟩ := h
  exact ⟨z, hz, hscan⟩

theorem nil : e.Shows [] [] := ⟨.code, rfl, rfl, by simp [outline]⟩

theorem ofPlain (h : cs.all Text.isPlain = true) : e.Shows (Text.clausesOf cs) cs := by
  by_cases hn : cs = []
  · subst hn
    simpa using nil
  · obtain ⟨hscan, houtline⟩ := scan_of_isPlain (e := e) (z := .code) (k := 0) rfl hn h
    exact ⟨.code, rfl, hscan, by rw [houtline]⟩

/-- A text behind which no word goes on. -/
theorem before (ht : e.Parts shown as) (hl : Text.endsApart shown = true) (h : e.Shows ws bs) :
    e.Shows (Text.clausesOf shown ++ ws) (as ++ bs) := by
  obtain ⟨z, hz, hscan, rfl⟩ := h
  obtain ⟨hpart, houtline⟩ := ht .code rfl
  refine ⟨z, hz, (scan_append hpart).trans hscan, ?_⟩
  rw [outline_append hpart, houtline, Text.clausesOf_append (by rw [hl, Bool.true_or])]

/-- A text that goes on with no word. -/
theorem behind (h : e.Shows ws as) (ht : e.Parts shown bs) (hs : Text.startsApart shown = true) :
    e.Shows (ws ++ Text.clausesOf shown) (as ++ bs) := by
  obtain ⟨z, hz, hscan, rfl⟩ := h
  obtain ⟨hpart, houtline⟩ := ht z hz
  refine ⟨.code, rfl, (scan_append hscan).trans hpart, ?_⟩
  rw [outline_append hscan, houtline, Text.clausesOf_append (by rw [hs, Bool.or_true])]

/-- A text between two other ones that is apart from the words in them. -/
theorem between (h : e.Shows ws as) (ht : e.Parts shown cs) (hs : Text.startsApart shown = true)
    (hl : Text.endsApart shown = true) (h' : e.Shows us bs) :
    e.Shows (ws ++ (Text.clausesOf shown ++ us)) (as ++ (cs ++ bs)) := by
  obtain ⟨z, hz, hscan, rfl⟩ := h
  obtain ⟨y, hy, hscan', rfl⟩ := h'
  obtain ⟨hpart, houtline⟩ := ht z hz
  refine ⟨y, hy, (scan_append hscan).trans ((scan_append hpart).trans hscan'), ?_⟩
  rw [outline_append hscan, outline_append hpart, houtline, Text.clausesOf_append,
    Text.clausesOf_append (by rw [hl, Bool.true_or])]
  rw [Text.startsApart_append hs, Bool.or_true]

theorem bracketed (h : e.IsBalanced cs) : e.Shows [] ('(' :: cs ++ [')']) :=
  nil.behind (.bracketed h) rfl

/-- A word right before a quote or parentheses. -/
theorem led (as : List Char) (hw : as.all Text.isPlain = true) (hs : Text.startsApart bs = true)
    (h : e.Shows ws bs) : e.Shows (Text.clausesOf as ++ ws) (as ++ bs) := by
  obtain ⟨z, hz, hscan, rfl⟩ := h
  have hword : e.scan (.code, 0) as = some (.code, 0) ∧ e.outline (.code, 0) as = as := by
    by_cases hn : as = []
    · subst hn
      exact ⟨rfl, rfl⟩
    · exact scan_of_isPlain rfl hn hw
  have hstarts : Text.startsApart (e.outline (.code, 0) bs) = true := by
    cases bs with
    | nil => cases hs
    | cons c bs =>
      obtain ⟨t, ht, -⟩ := exists_of_scan_cons hscan
      rw [outline_cons ht]
      exact hs
  refine ⟨z, hz, (scan_append hword.1).trans hscan, ?_⟩
  rw [outline_append hword.1, hword.2, Text.clausesOf_append (by rw [hstarts, Bool.or_true])]

end Shows

end Engine

end SqlCompose
