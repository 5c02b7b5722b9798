/-!
# Replacement in text

Replacing every occurrence of a pattern, from the left and without overlaps, and the case that
identifiers and literals need: a mark written twice.
-/
namespace SqlCompose.Text

/-- Replaces `pattern` by `replacement` after passing over the first `skip` characters, which belong
to an occurrence already replaced. -/
def replaceFrom (pattern replacement : List Char) : Nat → List Char → List Char
  | _, [] => []
  | skip + 1, _ :: cs => replaceFrom pattern replacement skip cs
  | 0, c :: cs =>
    if pattern.isPrefixOf (c :: cs) then
      replacement ++ replaceFrom pattern replacement (pattern.length - 1) cs
    else c :: replaceFrom pattern replacement 0 cs

/-- Replaces every occurrence of `pattern`; an empty pattern occurs nowhere. -/
def replaceAll (pattern replacement cs : List Char) : List Char :=
  if pattern.isEmpty then cs else replaceFrom pattern replacement 0 cs

/-- Writes every occurrence of `mark` twice. -/
def doubled (mark cs : List Char) : List Char :=
  replaceAll mark (mark ++ mark) cs

/-- A single character written twice wherever it occurs. -/
theorem doubled_singleton (q : Char) (cs : List Char) :
    doubled [q] cs = cs.flatMap fun c => if c = q then [q, q] else [c] := by
  simp only [doubled, replaceAll, List.isEmpty_cons, Bool.false_eq_true, if_false,
    List.singleton_append]
  induction cs with
  | nil => rfl
  | cons c cs ih =>
    by_cases h : c = q
    · simp [replaceFrom, List.isPrefixOf, h, ih]
    · have hq : (q == c) = false := by simp [Ne.symm h]
      simp [replaceFrom, List.isPrefixOf, h, hq, ih]

@[simp] theorem doubled_nil (cs : List Char) : doubled [] cs = cs := rfl

end SqlCompose.Text
