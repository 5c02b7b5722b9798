import Mathlib.Data.List.Infix
import SqlCompose.Dialect.Literal

/-!
# LIKE patterns

What a LIKE pattern matches by the rules of the standard: a percent sign any run of characters, an
underscore any one character, a character after the escape character that character, and any other
character itself. A text with its wildcards escaped matches itself alone, and with a percent sign
before or behind it the texts that it ends, starts or is a part of.
-/
namespace SqlCompose.Text

/-- A part of a LIKE pattern. -/
inductive PatternMark
  /-- Any run of characters. -/
  | run
  /-- Any one character. -/
  | one
  | char (c : Char)
deriving DecidableEq

namespace PatternMark

/-- What a character stands for that is not escaped. -/
def ofChar (c : Char) : PatternMark := if c = '%' then run else if c = '_' then one else char c

/-- The marks of a pattern with an escape character, if there is one. A pattern does not end with
its escape character. -/
def read (escape : Option Char) : List Char → Option (List PatternMark)
  | [] => some []
  | [c] => if escape = some c then none else some [ofChar c]
  | c :: next :: cs =>
    if escape = some c then (read escape cs).map (char next :: ·)
    else (read escape (next :: cs)).map (ofChar c :: ·)

/-- Whether marks stand for a text. A run is tried at every length. -/
def covers : List PatternMark → List Char → Bool
  | [], t => t.isEmpty
  | run :: marks, t => t.tails.any (covers marks)
  | one :: marks, _ :: t => covers marks t
  | char c :: marks, c' :: t => c == c' && covers marks t
  | _ :: _, [] => false

section Reading

variable {escape : Option Char} {c next : Char} {cs : List Char}

theorem read_unescaped (h : escape ≠ some c) :
    read escape (c :: cs) = (read escape cs).map (ofChar c :: ·) := by
  cases cs <;> simp [read, h]

theorem read_escaped : read (some c) (c :: next :: cs) = (read (some c) cs).map (char next :: ·) := by
  simp [read]

theorem ofChar_plain (h : c ≠ '%' ∧ c ≠ '_') : ofChar c = char c := by
  simp [ofChar, h.1, h.2]

/-- A character as it is escaped stands for itself. -/
theorem read_escapeLikeChar (c : Char) (rest : List Char) :
    read (some '\\') (escapeLikeChar c ++ rest) = (read (some '\\') rest).map (char c :: ·) := by
  unfold escapeLikeChar
  split
  case isTrue => exact read_escaped
  case isFalse h =>
    simp only [not_or] at h
    have hescape : some '\\' ≠ some c := fun he => h.1 (Option.some.inj he).symm
    rw [List.singleton_append, read_unescaped hescape, ofChar_plain h.2]

/-- A text as it is escaped stands for itself, whatever follows it in a pattern. -/
theorem read_escaped_append (cs rest : List Char) :
    read (some '\\') (cs.flatMap escapeLikeChar ++ rest) =
      (read (some '\\') rest).map (cs.map char ++ ·) := by
  induction cs with
  | nil => simp
  | cons c cs ih =>
    rw [List.flatMap_cons, List.append_assoc, read_escapeLikeChar, ih, Option.map_map]
    rfl

/-- Characters that are neither wildcards nor escape characters stand for themselves. -/
theorem read_plain_append (h : ∀ c ∈ cs, escape ≠ some c ∧ c ≠ '%' ∧ c ≠ '_') (rest : List Char) :
    read escape (cs ++ rest) = (read escape rest).map (cs.map char ++ ·) := by
  induction cs with
  | nil => simp
  | cons c cs ih =>
    obtain ⟨⟨hescape, hplain⟩, hrest⟩ := List.forall_mem_cons.1 h
    rw [List.cons_append, read_unescaped hescape, ofChar_plain hplain, ih hrest, Option.map_map]
    rfl

end Reading

section Covering

variable {marks : List PatternMark} {s t : List Char}

theorem covers_run : covers (run :: marks) t = true ↔ ∃ u, u <:+ t ∧ covers marks u = true := by
  simp [covers, List.any_eq_true, List.mem_tails]

theorem covers_only_run (t : List Char) : covers [run] t = true :=
  covers_run.2 ⟨[], List.nil_suffix, rfl⟩

/-- Characters that stand for themselves are the start of a text, and the other marks stand for the
rest of it. -/
theorem covers_chars_append :
    covers (s.map char ++ marks) t = true ↔ ∃ u, t = s ++ u ∧ covers marks u = true := by
  induction s generalizing t with
  | nil => simp
  | cons c s ih =>
    cases t with
    | nil => simp [covers]
    | cons c' t =>
      simp only [List.map_cons, List.cons_append, covers, Bool.and_eq_true, beq_iff_eq, ih,
        List.cons.injEq]
      constructor
      · rintro ⟨rfl, u, rfl, hu⟩
        exact ⟨u, ⟨rfl, rfl⟩, hu⟩
      · rintro ⟨u, ⟨rfl, rfl⟩, hu⟩
        exact ⟨rfl, u, rfl, hu⟩

theorem covers_chars : covers (s.map char) t = true ↔ t = s := by
  have h : covers (s.map char ++ []) t = true ↔ ∃ u, t = s ++ u ∧ covers [] u = true :=
    covers_chars_append
  simpa [covers] using h

theorem covers_starting : covers (s.map char ++ [run]) t = true ↔ s <+: t := by
  rw [covers_chars_append]
  constructor
  · rintro ⟨u, rfl, -⟩
    exact List.prefix_append s u
  · rintro ⟨u, rfl⟩
    exact ⟨u, rfl, covers_only_run u⟩

theorem covers_ending : covers (run :: s.map char) t = true ↔ s <:+ t := by
  simp [covers_run, covers_chars]

theorem covers_within : covers (run :: (s.map char ++ [run])) t = true ↔ s <:+: t := by
  rw [covers_run, List.infix_iff_prefix_suffix]
  simp only [covers_starting, and_comm]

end Covering

/-! ## The shortest text that marks stand for -/

/-- The text that marks stand for when runs are empty, with the same character at each place where
any one will do. -/
def narrow (filler : Char) : List PatternMark → List Char
  | [] => []
  | run :: marks => narrow filler marks
  | one :: marks => filler :: narrow filler marks
  | char c :: marks => c :: narrow filler marks

section Narrow

variable {escape filler c : Char} {marks : List PatternMark} {cs s t : List Char}

theorem covers_narrow : covers marks (narrow filler marks) = true := by
  fun_induction narrow filler marks with
  | case1 => rfl
  | case2 marks ih => exact covers_run.2 ⟨_, List.suffix_refl _, ih⟩
  | case3 marks ih => simpa [covers] using ih
  | case4 c marks ih => simpa [covers] using ih

/-- No text that marks stand for is shorter. -/
theorem length_narrow_le (h : covers marks t = true) : (narrow filler marks).length ≤ t.length := by
  induction marks generalizing t with
  | nil => exact Nat.zero_le _
  | cons mark marks ih =>
    cases mark with
    | run =>
      obtain ⟨u, hu, hcovers⟩ := covers_run.1 h
      exact (ih hcovers).trans hu.length_le
    | one =>
      cases t with
      | nil => cases h
      | cons _ t => exact Nat.succ_le_succ (ih h)
    | char c =>
      cases t with
      | nil => cases h
      | cons _ t => exact Nat.succ_le_succ (ih (Bool.and_eq_true_iff.1 h).2)

/-- Marks that stand for a text and only for texts that have it as a part stand for nothing shorter,
so it is the shortest one. -/
theorem narrow_eq_of_infix (h : covers marks s = true)
    (hs : ∀ t, covers marks t = true → s <:+: t) : narrow filler marks = s :=
  ((hs _ covers_narrow).eq_of_length_le (length_narrow_le h)).symm

/-- A pattern is read from characters that are not escaped and from escaped ones. -/
theorem read_induction {motive : List Char → List PatternMark → Prop} (nil : motive [] [])
    (plain : ∀ c cs marks, c ≠ escape → motive cs marks → motive (c :: cs) (ofChar c :: marks))
    (escaped : ∀ next cs marks, motive cs marks → motive (escape :: next :: cs) (char next :: marks))
    (h : read (some escape) cs = some marks) : motive cs marks := by
  fun_induction read (some escape) cs generalizing marks with
  | case1 =>
    obtain rfl := Option.some.inj h
    exact nil
  | case2 => cases h
  | case3 c hc =>
    obtain rfl := Option.some.inj h
    exact plain c [] [] (fun heq => hc (heq ▸ rfl)) nil
  | case4 c next cs hc ih =>
    obtain ⟨rest, hrest, rfl⟩ := Option.map_eq_some_iff.1 h
    obtain rfl := Option.some.inj hc
    exact escaped next cs rest (ih hrest)
  | case5 c next cs hc ih =>
    obtain ⟨rest, hrest, rfl⟩ := Option.map_eq_some_iff.1 h
    exact plain c (next :: cs) rest (fun heq => hc (heq ▸ rfl)) (ih hrest)

theorem count_narrow_ofChar (hf : filler ≠ c) (a : Char) (marks : List PatternMark) :
    (narrow filler (ofChar a :: marks)).count c =
      (narrow filler marks).count c + if a = c ∧ a ≠ '%' ∧ a ≠ '_' then 1 else 0 := by
  by_cases ha : a = '%'
  · simp [ofChar, narrow, ha]
  by_cases ha' : a = '_'
  · simp [ofChar, narrow, ha', hf]
  · simp [ofChar, narrow, ha, ha', List.count_cons]

/-- A character that is neither a wildcard nor the escape character is as often in the shortest text
of a pattern as in the pattern. -/
theorem count_narrow (h : read (some escape) cs = some marks) (he : escape ≠ c)
    (hc : c ≠ '%' ∧ c ≠ '_') (hf : filler ≠ c) : (narrow filler marks).count c = cs.count c := by
  refine read_induction (motive := fun cs marks => (narrow filler marks).count c = cs.count c)
    rfl (fun a cs marks _ ih => ?_) (fun next cs marks ih => ?_) h
  · have ha : (a = c ∧ a ≠ '%' ∧ a ≠ '_') ↔ a = c := and_iff_left_of_imp fun h => h ▸ hc
    rw [count_narrow_ofChar hf, ih, List.count_cons]
    simp only [ha, beq_iff_eq]
  · rw [narrow, List.count_cons, ih, List.count_cons_of_ne he, List.count_cons]

/-- An escape character in the shortest text of a pattern takes two in the pattern. -/
theorem two_mul_count_narrow_le (h : read (some escape) cs = some marks) (hf : filler ≠ escape) :
    2 * (narrow filler marks).count escape ≤ cs.count escape := by
  refine read_induction
    (motive := fun cs marks => 2 * (narrow filler marks).count escape ≤ cs.count escape)
    (Nat.zero_le _) (fun a cs marks ha ih => ?_) (fun next cs marks ih => ?_) h
  · rwa [count_narrow_ofChar hf, if_neg (fun h => ha h.1), List.count_cons_of_ne ha]
  · rw [narrow, List.count_cons, List.count_cons_self, List.count_cons]
    split_ifs <;> omega

/-- There are no runs where the percent sign is the escape character. -/
theorem run_notMem_of_read (h : read (some '%') cs = some marks) : run ∉ marks := by
  refine read_induction (motive := fun _ marks => run ∉ marks) (List.not_mem_nil)
    (fun a cs marks ha ih => ?_) (fun next cs marks ih => ?_) h
  · have hmark : run ≠ ofChar a := by
      rw [ofChar, if_neg ha]
      split_ifs <;> simp
    simp [hmark, ih]
  · simp [ih]

/-- Without runs all texts that marks stand for are of one length. -/
theorem length_eq_of_covers (hr : run ∉ marks) (h : covers marks t = true) :
    t.length = marks.length := by
  fun_induction covers marks t with
  | case1 t => simpa using h
  | case2 marks t => simp at hr
  | case3 marks c t ih => simpa using ih (fun hmem => hr (List.mem_cons_of_mem _ hmem)) h
  | case4 c marks c' t ih =>
    have hrest := ih (fun hmem => hr (List.mem_cons_of_mem _ hmem)) (Bool.and_eq_true_iff.1 h).2
    simpa using hrest
  | case5 => cases h

end Narrow

end PatternMark

/-- Whether a text matches a LIKE pattern with an escape character, if there is one. -/
def matchesLike (escape : Option Char) (pattern t : String) : Bool :=
  match PatternMark.read escape pattern.toList with
  | some marks => PatternMark.covers marks t.toList
  | none => false

theorem matchesLike_iff {escape : Option Char} {pattern t : String} :
    matchesLike escape pattern t = true ↔
      ∃ marks, PatternMark.read escape pattern.toList = some marks ∧
        PatternMark.covers marks t.toList = true := by
  unfold matchesLike
  cases PatternMark.read escape pattern.toList <;> simp

example : matchesLike (some '\\') "%50\\%_" "at 50% off" = false := by decide

example : matchesLike (some '\\') "%50\\%%" "at 50% off" = true := by decide

end SqlCompose.Text
