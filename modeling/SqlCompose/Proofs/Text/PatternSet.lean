import Mathlib.Data.List.Forall2
import SqlCompose.Proofs.Text.Pattern

/-!
# LIKE patterns with character sets

SQL Server reads more into a LIKE pattern than the standard does: a bracket that is not escaped opens
a set of characters, the next closing bracket ends it, and it stands for one character. The escapes
of a text leave its brackets as they are. So without a bracket the pattern is the one of the
standard, and with one it stands for texts that are shorter than its own.
-/
namespace SqlCompose.Text

open PatternMark (covers narrow)

/-- A part of a LIKE pattern with character sets. -/
inductive SetMark
  | mark (m : PatternMark)
  /-- Any one character of a set, which is written between brackets. -/
  | among (body : List Char)
deriving DecidableEq

namespace SetMark

/-- The marks of a pattern, from outside of a set or from what is read of one. A pattern ends neither
with its escape character nor within a set. -/
def read (escape : Option Char) : Option (List Char) → List Char → Option (List SetMark)
  | none, [] => some []
  | some _, [] => none
  | some body, c :: cs =>
    if c = ']' then (read escape none cs).map (among body :: ·)
    else read escape (some (body ++ [c])) cs
  | none, [c] => if escape = some c ∨ c = '[' then none else some [mark (.ofChar c)]
  | none, c :: next :: cs =>
    if escape = some c then (read escape none cs).map (mark (.char next) :: ·)
    else if c = '[' then read escape (some []) (next :: cs)
    else (read escape none (next :: cs)).map (mark (.ofChar c) :: ·)

/-- Whether a mark may stand for what another one does, which is no set. Which characters a set has
is up to `member`. -/
def Allows (member : List Char → Char → Prop) : SetMark → PatternMark → Prop
  | mark m, m' => m = m'
  | among body, m' => ∃ c, member body c ∧ m' = .char c

/-- How many characters marks stand for at least. -/
def width (marks : List SetMark) : Nat := marks.countP (· ≠ mark .run)

@[simp] theorem width_cons (a : SetMark) (marks : List SetMark) :
    width (a :: marks) = width marks + if a = mark .run then 0 else 1 := by
  by_cases h : a = mark .run <;> simp [width, h]

section Reading

variable {escape : Option Char} {opened : Option (List Char)} {body : List Char} {c : Char}
  {cs : List Char}

attribute [local simp] read

theorem width_of_read_nil {marks : List SetMark} (h : read escape opened [] = some marks) :
    width marks = 0 := by
  cases opened with
  | none => exact Option.some.inj h ▸ rfl
  | some body => cases h

/-- A run has no width, and within a set there is none. -/
theorem width_of_read_percent {marks : List SetMark}
    (h : read (some '\\') opened ['%'] = some marks) : width marks = 0 := by
  cases opened with
  | none => exact Option.some.inj h ▸ rfl
  | some body => cases h

theorem read_unescaped (he : escape ≠ some c) (hc : c ≠ '[') :
    read escape none (c :: cs) = (read escape none cs).map (mark (.ofChar c) :: ·) := by
  cases cs <;> simp [he, hc]

theorem read_opened (he : escape ≠ some '[') :
    read escape none ('[' :: cs) = read escape (some []) cs := by
  cases cs <;> simp [he]

theorem read_closed :
    read escape (some body) (']' :: cs) = (read escape none cs).map (among body :: ·) := by
  simp

theorem read_within (hc : c ≠ ']') :
    read escape (some body) (c :: cs) = read escape (some (body ++ [c])) cs := by
  simp [hc]

/-- A pattern without an opening bracket has no sets. -/
theorem read_of_notMem (h : '[' ∉ cs) :
    read escape none cs = (PatternMark.read escape cs).map (·.map mark) := by
  fun_induction PatternMark.read escape cs with
  | case1 => rfl
  | case2 c hc => simp [hc]
  | case3 c hc =>
    have hbracket : c ≠ '[' := fun heq => h (heq ▸ List.mem_cons_self)
    simp [hc, hbracket]
  | case4 c next cs hc ih =>
    have hrest : '[' ∉ cs := fun hmem => h (List.mem_cons_of_mem _ (List.mem_cons_of_mem _ hmem))
    rw [read, if_pos hc, ih hrest, Option.map_map, Option.map_map]
    rfl
  | case5 c next cs hc ih =>
    have hbracket : c ≠ '[' := fun heq => h (heq ▸ List.mem_cons_self)
    have hrest : '[' ∉ next :: cs := fun hmem => h (List.mem_cons_of_mem _ hmem)
    rw [read_unescaped hc hbracket, ih hrest, Option.map_map, Option.map_map]
    rfl

example : read (some '\\') none "a[^b%]\\[_".toList =
    some [mark (.char 'a'), among ['^', 'b', '%'], mark (.char '['), mark .one] := by decide

/-- Outside of a set a character as it is escaped stands for itself, unless it opens a set. -/
theorem read_escapeLikeChar (hc : c ≠ '[') (rest : List Char) :
    read (some '\\') none (escapeLikeChar c ++ rest) =
      (read (some '\\') none rest).map (mark (.char c) :: ·) := by
  unfold escapeLikeChar
  split
  case isTrue => simp
  case isFalse h =>
    simp only [not_or] at h
    have hescape : some '\\' ≠ some c := fun he => h.1 (Option.some.inj he).symm
    rw [List.singleton_append, read_unescaped hescape hc, PatternMark.ofChar_plain h.2]

/-- Within a set a character is a part of it with its escape, unless it ends the set. -/
theorem read_escapeLikeChar_within (hc : c ≠ ']') (rest : List Char) :
    read escape (some body) (escapeLikeChar c ++ rest) =
      read escape (some (body ++ escapeLikeChar c)) rest := by
  unfold escapeLikeChar
  split
  case isTrue =>
    rw [List.cons_append, List.singleton_append, read_within (by decide), read_within hc,
      List.append_assoc]
    rfl
  case isFalse => rw [List.singleton_append, read_within hc]

/-- Each opening bracket of an escaped text makes its marks at least one character narrower: a set is
as wide as its closing bracket, and what it is made of has no width. The induction goes from outside
of a set and from within one. -/
theorem width_add_count_le {s rest : List Char} {marks : List SetMark}
    (hrest : ∀ opened marks, read (some '\\') opened rest = some marks → width marks = 0)
    (h : read (some '\\') opened (s.flatMap escapeLikeChar ++ rest) = some marks) :
    width marks + s.count '[' ≤ s.length := by
  induction s generalizing opened marks with
  | nil => simp [hrest opened marks h]
  | cons c s ih =>
    rw [List.flatMap_cons, List.append_assoc] at h
    cases opened with
    | none =>
      by_cases hc : c = '['
      · subst hc
        rw [escapeLikeChar, if_neg (by decide), List.singleton_append, read_opened (by decide)] at h
        have hle := ih h
        rw [List.count_cons_self, List.length_cons]
        omega
      · rw [read_escapeLikeChar hc] at h
        obtain ⟨tail, htail, rfl⟩ := Option.map_eq_some_iff.1 h
        have hle := ih htail
        rw [width_cons, if_neg (by simp), List.count_cons_of_ne hc, List.length_cons]
        omega
    | some body =>
      by_cases hc : c = ']'
      · subst hc
        rw [escapeLikeChar, if_neg (by decide), List.singleton_append, read_closed] at h
        obtain ⟨tail, htail, rfl⟩ := Option.map_eq_some_iff.1 h
        have hle := ih htail
        rw [width_cons, if_neg (by simp), List.count_cons_of_ne (by decide), List.length_cons]
        omega
      · rw [read_escapeLikeChar_within hc] at h
        have hle := ih h
        have hcount : (c :: s).count '[' ≤ s.count '[' + 1 := by
          rw [List.count_cons]
          split_ifs <;> omega
        rw [List.length_cons]
        omega

end Reading

section Allowing

variable {member : List Char → Char → Prop} {marks : List SetMark} {plain plain' : List PatternMark}

/-- Marks that are no sets stand for what they do without sets. -/
theorem forall₂_allows_map :
    List.Forall₂ (Allows member) (plain.map mark) plain' ↔ plain = plain' := by
  rw [List.forall₂_map_left_iff]
  exact iff_of_eq (congrFun (congrFun List.forall₂_eq_eq_eq plain) plain')

/-- The shortest text of marks is as long as they are wide, whatever their sets stand for. -/
theorem length_narrow (h : List.Forall₂ (Allows member) marks plain) (filler : Char) :
    (narrow filler plain).length = width marks := by
  induction h with
  | nil => rfl
  | @cons a m marks plain ha _ ih =>
    cases a with
    | among body =>
      obtain ⟨c, -, rfl⟩ := ha
      simp [narrow, ih]
    | mark m' =>
      obtain rfl : m' = m := ha
      cases m' <;> simp [narrow, ih]

end Allowing

end SetMark

/-- Whether a text matches a LIKE pattern with character sets: it matches one that has a character of
the set in the place of each set. -/
def MatchesSets (member : List Char → Char → Prop) (escape : Option Char) (pattern t : String) :
    Prop :=
  ∃ marks plain, SetMark.read escape none pattern.toList = some marks ∧
    List.Forall₂ (SetMark.Allows member) marks plain ∧ covers plain t.toList = true

theorem matchesSets_iff_of_notMem {member : List Char → Char → Prop} {escape : Option Char}
    {pattern t : String} (h : '[' ∉ pattern.toList) :
    MatchesSets member escape pattern t ↔ matchesLike escape pattern t = true := by
  rw [matchesLike_iff, MatchesSets, SetMark.read_of_notMem h]
  constructor
  · rintro ⟨marks, plain, hread, hplain, hcovers⟩
    obtain ⟨marks', hread', rfl⟩ := Option.map_eq_some_iff.1 hread
    obtain rfl := SetMark.forall₂_allows_map.1 hplain
    exact ⟨_, hread', hcovers⟩
  · rintro ⟨marks, hread, hcovers⟩
    exact ⟨_, marks, by rw [hread]; rfl, SetMark.forall₂_allows_map.2 rfl, hcovers⟩

end SqlCompose.Text
