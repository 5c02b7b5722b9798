import SqlCompose.Dialect.Literal
import SqlCompose.Text.Casing

/-!
# Lower case and LIKE patterns

Lower-casing leaves the marks of a LIKE pattern as they are and makes none out of other characters,
and the rule of the final sigma sees through the backslashes of escapes. So a text may be escaped
first and lower-cased then, or the other way round.
-/
namespace SqlCompose.Text

/-- Whether a character has to be escaped in a LIKE pattern to stand for itself. -/
def IsPatternMark (c : Char) : Prop := c = '\\' ∨ c = '%' ∨ c = '_'

instance (c : Char) : Decidable (IsPatternMark c) :=
  inferInstanceAs (Decidable (c = '\\' ∨ c = '%' ∨ c = '_'))

variable {c : Char}

theorem escapeLikeChar_mark (h : IsPatternMark c) : escapeLikeChar c = ['\\', c] := if_pos h

theorem escapeLikeChar_plain (h : ¬IsPatternMark c) : escapeLikeChar c = [c] := if_neg h

/-- Characters that are no marks need no escape. -/
theorem flatMap_escapeLikeChar {cs : List Char} (h : ∀ c ∈ cs, ¬IsPatternMark c) :
    cs.flatMap escapeLikeChar = cs := by
  induction cs with
  | nil => rfl
  | cons c cs ih =>
    have hc := escapeLikeChar_plain (h c List.mem_cons_self)
    have hcs := ih fun c' hc' => h c' (List.mem_cons_of_mem c hc')
    rw [List.flatMap_cons, hc, hcs, List.singleton_append]

/-! ## Single characters -/

theorem lowerChar_mark (h : IsPatternMark c) : lowerChar c = [c] := by
  rcases h with rfl | rfl | rfl <;> decide

theorem isCased_mark (h : IsPatternMark c) : isCased c = false := by
  rcases h with rfl | rfl | rfl <;> decide

theorem isSkipped_mark (h : IsPatternMark c) : isSkipped c = false := by
  rcases h with rfl | rfl | rfl <;> decide +kernel

/-- The marks come before the small letters in the table of characters. -/
theorem not_isPatternMark_of_le (h : 0x60 ≤ c.toNat) : ¬IsPatternMark c := by
  rintro (rfl | rfl | rfl) <;> exact absurd h (by decide)

theorem not_isPatternMark_ofNat {n : Nat} (h : 0x60 ≤ n) : ¬IsPatternMark (Char.ofNat n) := by
  by_cases hn : n.isValidChar
  · have hle : 0x60 ≤ (Char.ofNatAux n hn).toNat := h
    rw [Char.ofNat, dif_pos hn]
    exact not_isPatternMark_of_le hle
  · rw [Char.ofNat, dif_neg hn]
    decide

/-- Every lower-case form outside ASCII comes after the marks in the table of characters. -/
theorem le_first_add_shift : ∀ run ∈ lowerRuns, (0x60 : Int) ≤ run.first + run.shift := by
  decide +kernel

theorem not_isPatternMark_toLower (h : ¬IsPatternMark c) : ¬IsPatternMark c.toLower := by
  unfold Char.toLower
  split
  case isTrue hcapital =>
    have hlow : 65 ≤ c.val.toNat := UInt32.le_iff_toNat_le.1 hcapital.1
    have hhigh : c.val.toNat ≤ 90 := UInt32.le_iff_toNat_le.1 hcapital.2
    refine not_isPatternMark_of_le ?_
    change 0x60 ≤ (c.val.toNat + 32) % 4294967296
    omega
  case isFalse => exact h

/-- No other character has a mark in its lower-case form. -/
theorem lowerChar_plain (h : ¬IsPatternMark c) : ∀ c' ∈ lowerChar c, ¬IsPatternMark c' := by
  unfold lowerChar
  split
  · simpa using not_isPatternMark_toLower h
  split
  · simp [IsPatternMark]
  split
  case h_1 run hrun =>
    have hmem : run ∈ lowerRuns := List.mem_of_find?_eq_some hrun
    have hcovers : run.first ≤ c.toNat := by
      have hfound := List.find?_some hrun
      simp only [CaseRun.covers, decide_eq_true_eq] at hfound
      exact hfound.1
    have hshift := le_first_add_shift run hmem
    have hle : 0x60 ≤ Int.toNat (c.toNat + run.shift) := by omega
    simpa using not_isPatternMark_ofNat hle
  case h_2 => simpa using h

/-! ## The rule of the final sigma -/

theorem meetsCased_cons (c : Char) (cs : List Char) :
    meetsCased (c :: cs) = if isSkipped c then meetsCased cs else isCased c := by
  by_cases h : isSkipped c = true
  · simp [meetsCased, h]
  · simp [meetsCased, h]

theorem meetsCased_mark (h : IsPatternMark c) (cs : List Char) : meetsCased (c :: cs) = false := by
  simp [meetsCased_cons, isSkipped_mark h, isCased_mark h]

/-- A backslash before a mark is as little cased as the mark. -/
theorem meetsCased_flatMap (cs : List Char) :
    meetsCased (cs.flatMap escapeLikeChar) = meetsCased cs := by
  induction cs with
  | nil => rfl
  | cons c cs ih =>
    by_cases h : IsPatternMark c
    · rw [List.flatMap_cons, escapeLikeChar_mark h, meetsCased_mark h]
      exact meetsCased_mark (.inl rfl) _
    · rw [List.flatMap_cons, escapeLikeChar_plain h, List.singleton_append, meetsCased_cons,
        meetsCased_cons, ih]

theorem capitalSigma_plain : ¬IsPatternMark capitalSigma := by decide

theorem ne_capitalSigma_of_mark (h : IsPatternMark c) : c ≠ capitalSigma := by
  rintro rfl
  exact capitalSigma_plain h

theorem lowerFrom_mark (h : IsPatternMark c) (before cs : List Char) :
    lowerFrom before (c :: cs) = c :: lowerFrom (c :: before) cs := by
  rw [lowerFrom, if_neg (ne_capitalSigma_of_mark h), lowerChar_mark h, List.singleton_append]

/-- Escaping goes through lower-casing, by induction on the text. Of the characters passed it only
matters whether the nearest one that counts is cased. -/
theorem lowerFrom_flatMap (cs : List Char) : ∀ {before before' : List Char},
    meetsCased before = meetsCased before' →
      lowerFrom before (cs.flatMap escapeLikeChar) =
        (lowerFrom before' cs).flatMap escapeLikeChar := by
  induction cs with
  | nil => exact fun _ => rfl
  | cons c cs ih =>
    intro before before' hbefore
    have hnext : meetsCased (c :: before) = meetsCased (c :: before') := by
      rw [meetsCased_cons, meetsCased_cons, hbefore]
    by_cases h : IsPatternMark c
    · have hescaped : meetsCased (c :: '\\' :: before) = meetsCased (c :: before') := by
        rw [meetsCased_mark h, meetsCased_mark h]
      have hbackslash : IsPatternMark '\\' := .inl rfl
      rw [List.flatMap_cons, escapeLikeChar_mark h, lowerFrom_mark h, List.flatMap_cons,
        escapeLikeChar_mark h, ← ih hescaped]
      simp only [List.cons_append, List.nil_append, lowerFrom_mark hbackslash, lowerFrom_mark h]
    · rw [List.flatMap_cons, escapeLikeChar_plain h, List.singleton_append, lowerFrom, lowerFrom,
        ih hnext, meetsCased_flatMap, hbefore]
      by_cases hsigma : c = capitalSigma
      · have hform : ∀ n, 0x60 ≤ n → escapeLikeChar (Char.ofNat n) = [Char.ofNat n] :=
          fun n hn => escapeLikeChar_plain (not_isPatternMark_ofNat hn)
        have hfinal : 0x60 ≤ if meetsCased before' && !meetsCased cs then 0x3c2 else 0x3c3 := by
          split <;> decide
        rw [if_pos hsigma, if_pos hsigma, List.flatMap_cons, hform _ hfinal, List.singleton_append]
      · rw [if_neg hsigma, if_neg hsigma, List.flatMap_append,
          flatMap_escapeLikeChar (lowerChar_plain h)]

/-- A text may be escaped first and lower-cased then, or the other way round. -/
theorem lower_escapeLike (s : String) : lower (escapeLike s) = escapeLike (lower s) := by
  have h : lowerFrom [] (s.toList.flatMap escapeLikeChar) =
      (lowerFrom [] s.toList).flatMap escapeLikeChar := lowerFrom_flatMap s.toList rfl
  simp only [lower, escapeLike, String.toList_ofList, h]

end SqlCompose.Text
