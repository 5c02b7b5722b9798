import SqlCompose.Proofs.Dialect.Outline
import SqlCompose.Proofs.Draft.Outcome
import SqlCompose.Proofs.Draft.Written

/-!
# Literals, names and numbers in SQL text

What a standard dialect writes for a value, a name or a word leaves nothing open behind it and shows
no word that starts a clause, whatever text stands in it.
-/
namespace SqlCompose

open Text (isPlain clausesOf)

/-! ## Between quotes -/

namespace Engine

variable {e : Engine} {z : Zone} {q : Char} {cs : List Char}

/-- Whether a text keeps the scanner in a zone and shows nothing but a quote. -/
def Holds (e : Engine) (z : Zone) (q : Char) (cs : List Char) : Prop :=
  e.scan (z, 0) cs = some (z, 0) ∧ ∀ c ∈ e.outline (z, 0) cs, c = q

theorem Holds.flatMap {f : Char → List Char} (h : ∀ c, e.Holds z q (f c)) (cs : List Char) :
    e.Holds z q (cs.flatMap f) := by
  induction cs with
  | nil => exact ⟨rfl, by simp [outline]⟩
  | cons c cs ih =>
    obtain ⟨hscan, hshown⟩ := h c
    rw [List.flatMap_cons]
    refine ⟨(scan_append hscan).trans ih.1, ?_⟩
    rw [outline_append hscan]
    exact List.forall_mem_append.2 ⟨hshown, ih.2⟩

/-- What is kept between two quotes shows no words. -/
theorem Holds.quoted {opening closing : Char} {last : Zone} (h : e.Holds z closing cs)
    (ho : e.advance (.code, 0) opening = some (z, 0)) (hc : e.advance (z, 0) closing = some (last, 0))
    (hl : last.isOutside = true)
    (hq : [opening, closing].all (·.toUpper ∉ Text.clauseLetters) = true) :
    e.Shows [] (opening :: (cs ++ [closing])) := by
  refine ⟨last, hl, ?_, Text.clausesOf_eq_nil fun c hmem => ?_⟩
  · rw [scan_cons ho, scan_append h.1, scan_cons hc]
    rfl
  · rw [outline_cons ho, outline_append h.1, outline_cons hc] at hmem
    have hall : ∀ c ∈ e.outline (z, 0) cs, c ∈ [opening, closing] := fun c hc => by simp [h.2 c hc]
    refine of_decide_eq_true (List.all_eq_true.1 hq c ?_)
    simp only [List.mem_append] at hmem
    rcases hmem with hmem | hmem | hmem | hmem
    · split at hmem <;> simp_all
    · exact hall c hmem
    · split at hmem <;> simp_all
    · cases hmem

theorem holds_writtenChar (c : Char) : e.Holds .literal '\'' (e.writtenChar c) := by
  unfold writtenChar
  split
  · exact ⟨rfl, by simp [outline, advance, Zone.isOuter, Zone.isOutside]⟩
  · split
    · rename_i hquote hescaped
      obtain ⟨hescapes, rfl⟩ := hescaped
      simp [Holds, scan, outline, advance, hescapes, Zone.isOuter, Zone.isOutside]
    · rename_i hquote hplain
      have hstep : e.advance (.literal, 0) c = some (.literal, 0) := by
        rw [advance, if_neg hquote, if_neg (by simpa using hplain)]
      refine ⟨scan_cons hstep, ?_⟩
      rw [outline_cons hstep]
      simp [Zone.isOuter, Zone.isOutside, outline]

/-- A text literal. -/
theorem shows_literal (cs : List Char) :
    e.Shows [] ('\'' :: (Dialect.escapeText e cs ++ ['\''])) := by
  have hopening : e.advance (.code, 0) '\'' = some (.literal, 0) := by cases e <;> rfl
  have hclosing : e.advance (.literal, 0) '\'' = some (.literalEnd, 0) := rfl
  rw [Dialect.escapeText_eq_flatMap]
  exact (Holds.flatMap holds_writtenChar cs).quoted hopening hclosing rfl (by decide)

theorem holds_doubled (c : Char) : e.Holds .name e.nameQuotes.2
    (if c = e.nameQuotes.2 then [e.nameQuotes.2, e.nameQuotes.2] else [c]) := by
  split
  · simp [Holds, scan, outline, advance, Zone.isOuter, Zone.isOutside]
  · rename_i hc
    simp [Holds, scan, outline, advance, hc, Zone.isOuter, Zone.isOutside]

/-- A name in quotes. -/
theorem shows_quoted (cs : List Char) : e.Shows []
    (e.nameQuotes.1 :: (Text.doubled [e.nameQuotes.2] cs ++ [e.nameQuotes.2])) := by
  have hopening : e.advance (.code, 0) e.nameQuotes.1 = some (.name, 0) := by cases e <;> rfl
  have hclosing : e.advance (.name, 0) e.nameQuotes.2 = some (.nameEnd, 0) := by cases e <;> rfl
  rw [Text.doubled_singleton]
  exact (Holds.flatMap holds_doubled cs).quoted hopening hclosing rfl (by cases e <;> decide)

end Engine

/-! ## Numbers -/

namespace Text

/-- Whether a character is neither a quote nor a parenthesis, and in no word that starts a clause. -/
def isCalm (c : Char) : Bool := isPlain c && c.toUpper ∉ clauseLetters

variable {cs : List Char}

theorem all_isPlain_of_isCalm (h : cs.all isCalm = true) : cs.all isPlain = true := by
  rw [List.all_eq_true] at h ⊢
  exact fun c hc => (Bool.and_eq_true_iff.1 (h c hc)).1

theorem clausesOf_of_isCalm (h : cs.all isCalm = true) : clausesOf cs = [] :=
  clausesOf_eq_nil fun c hc => by
    simpa using (Bool.and_eq_true_iff.1 (List.all_eq_true.1 h c hc)).2

theorem isCalm_of_isDigit {c : Char} (h : c.isDigit = true) : isCalm c = true := by
  have hdigits : ∀ n : Fin 10, isCalm (Char.ofNat (48 + n)) = true := by decide
  obtain ⟨hlow, hhigh⟩ : 48 ≤ c.toNat ∧ c.toNat ≤ 57 := by
    simpa [Char.isDigit, UInt32.le_iff_toNat_le] using h
  have hc : c = Char.ofNat (48 + (c.toNat - 48)) := by
    rw [Nat.add_sub_cancel' hlow, Char.ofNat_toNat]
  rw [hc]
  exact hdigits ⟨c.toNat - 48, by omega⟩

theorem all_isCalm_nat (n : Nat) : (toString n).toList.all isCalm = true := by
  rw [List.all_eq_true]
  intro c hc
  exact isCalm_of_isDigit
    (Nat.isDigit_of_mem_toDigits (b := 10) (by decide) (by decide) (by simpa using hc))

theorem all_isCalm_int (n : Int) : (toString n).toList.all isCalm = true := by
  cases n with
  | ofNat n => exact all_isCalm_nat n
  | negSucc n =>
    have htext : toString (Int.negSucc n) = "-" ++ toString (n + 1) := rfl
    rw [htext, String.toList_append, List.all_append, all_isCalm_nat]
    decide

end Text

namespace Number

open Text (isCalm)

variable {ds : List Char}

theorem all_isCalm_take (h : ds.all isCalm = true) (n : Nat) : (ds.take n).all isCalm = true := by
  rw [List.all_eq_true] at h ⊢
  exact fun c hc => h c (List.mem_of_mem_take hc)

theorem all_isCalm_drop (h : ds.all isCalm = true) (n : Nat) : (ds.drop n).all isCalm = true := by
  rw [List.all_eq_true] at h ⊢
  exact fun c hc => h c (List.mem_of_mem_drop hc)

theorem all_isCalm_zeros (n : Nat) : (List.replicate n '0').all isCalm = true := by
  simp [List.all_replicate, show isCalm '0' = true by decide]

theorem all_isCalm_trimZeros (count : Nat) (h : ds.all isCalm = true) :
    (trimZeros count ds).all isCalm = true := by
  induction count generalizing ds with
  | zero => exact h
  | succ count ih =>
    rw [trimZeros]
    split
    · refine ih ?_
      rw [List.all_eq_true] at h ⊢
      exact fun c hc => h c (List.dropLast_subset _ hc)
    · exact h

/-- A text of several ones is calm if they are. -/
theorem all_isCalm_append (s t : String) :
    (s ++ t).toList.all isCalm = (s.toList.all isCalm && t.toList.all isCalm) := by
  rw [String.toList_append, List.all_append]

theorem all_isCalm_exponentText (n : Int) : (exponentText n).toList.all isCalm = true := by
  have hsigns : "-".toList.all isCalm = true ∧ "+".toList.all isCalm = true ∧
      "0".toList.all isCalm = true := by decide
  rw [exponentText]
  split_ifs <;> simp only [all_isCalm_append, Text.all_isCalm_nat, hsigns, Bool.and_self]

theorem all_isCalm_layOut (h : ds.all isCalm = true) (point : Int) :
    (layOut ds point).toList.all isCalm = true := by
  have hmarks : "0.".toList.all isCalm = true ∧ ".".toList.all isCalm = true ∧
      "0".toList.all isCalm = true ∧ "e".toList.all isCalm = true ∧ "".toList.all isCalm = true := by
    decide
  simp only [layOut]
  split_ifs <;> simp only [all_isCalm_append, all_isCalm_exponentText, all_isCalm_take h,
    all_isCalm_drop h, all_isCalm_zeros, h, hmarks, String.toList_ofList, List.all_append,
    Bool.and_self]

theorem Binary64.all_isCalm_text (x : Binary64) : x.text.toList.all isCalm = true := by
  have hmarks : "-".toList.all isCalm = true ∧ "".toList.all isCalm = true ∧
      "0.0".toList.all isCalm = true ∧ "nan".toList.all isCalm = true ∧
      "inf".toList.all isCalm = true := by
    decide
  have hdigits := Text.all_isCalm_nat x.interval.shortest.digits
  simp only [text]
  split_ifs <;> simp only [all_isCalm_append, all_isCalm_layOut (all_isCalm_trimZeros _ hdigits),
    hmarks, Bool.and_self]

theorem Decimal.all_isCalm_layOut (h : ds.all isCalm = true) (exponent : Int) :
    (layOut ds exponent).toList.all isCalm = true := by
  have hmarks : "0.".toList.all isCalm = true ∧ ".".toList.all isCalm = true ∧
      "E".toList.all isCalm = true ∧ "+".toList.all isCalm = true ∧ "".toList.all isCalm = true := by
    decide
  rw [layOut]
  simp only [signed]
  split_ifs <;> simp only [all_isCalm_append, Text.all_isCalm_int, all_isCalm_take h,
    all_isCalm_drop h, all_isCalm_zeros, h, hmarks, String.toList_ofList, List.all_append,
    Bool.and_self]

theorem Decimal.all_isCalm_text (x : Decimal) : x.text.toList.all isCalm = true := by
  have hmarks : "-".toList.all isCalm = true ∧ "".toList.all isCalm = true ∧
      "Infinity".toList.all isCalm = true ∧ "NaN".toList.all isCalm = true ∧
      "sNaN".toList.all isCalm = true := by
    decide
  have hdigits := Text.all_isCalm_nat
  unfold text
  split <;> split_ifs <;>
    simp only [all_isCalm_append, all_isCalm_layOut (hdigits _), hdigits, hmarks, Bool.and_self]

end Number

/-! ## Inert words -/

namespace Text

/-- Whether a text has no quotes and parentheses, and no words that start clauses. -/
def IsInert (s : String) : Prop := s.toList.all isPlain = true ∧ clausesOf s.toList = []

instance : DecidablePred IsInert := fun _ => inferInstanceAs (Decidable (_ ∧ _))

variable {s t : String}

theorem isInert_of_isCalm (h : s.toList.all isCalm = true) : IsInert s :=
  ⟨all_isPlain_of_isCalm h, clausesOf_of_isCalm h⟩

theorem IsInert.append (h : IsInert s) (h' : IsInert t)
    (ha : (endsApart s.toList || startsApart t.toList) = true) : IsInert (s ++ t) := by
  refine ⟨?_, ?_⟩
  · rw [String.toList_append, List.all_append, h.1, h'.1, Bool.and_self]
  · rw [String.toList_append, clausesOf_append ha, h.2, h'.2, List.append_nil]

/-- A text behind words that end with a blank. -/
theorem IsInert.behind (h : IsInert t) (hs : IsInert s ∧ endsApart s.toList = true) :
    IsInert (s ++ t) := hs.1.append h (by rw [hs.2, Bool.true_or])

/-- A text before words that start with a blank. -/
theorem IsInert.before (h : IsInert s) (ht : IsInert t ∧ startsApart t.toList = true) :
    IsInert (s ++ t) := h.append ht.1 (by rw [ht.2, Bool.or_true])

theorem IsInert.shows (h : IsInert s) (e : Engine) : e.Shows [] s.toList := h.2 ▸ .ofPlain h.1

end Text

namespace Dialect

open Text (IsInert)

variable {cat : Catalog} {d : Dialect} {e : Engine} {s : String}

/-! ## Literals of a dialect -/

theorem shows_packText (d : Dialect) (s : String) : d.engine.Shows [] (d.packText s).toList := by
  rw [toList_packText]
  exact Engine.shows_literal _

theorem escapeText_of_plain {cs : List Char} (h : ∀ c ∈ cs, e.writtenChar c = [c]) :
    escapeText e cs = cs := by
  rw [escapeText_eq_flatMap]
  induction cs with
  | nil => rfl
  | cons c cs ih =>
    rw [List.forall_mem_cons] at h
    rw [List.flatMap_cons, h.1, ih h.2, List.singleton_append]

theorem writtenChar_of_isAlphanum {c : Char} (h : c.isAlphanum = true) : e.writtenChar c = [c] := by
  obtain ⟨hquote, hescape⟩ := plain_of_isAlphanum h
  rw [Engine.writtenChar, if_neg hquote, if_neg (fun hc => hescape hc.2)]

/-- Digits in quotes after the mark `X`. -/
theorem shows_marked {digits : List Char} (h : ∀ c ∈ digits, e.writtenChar c = [c]) :
    e.Shows [] ("X'".toList ++ (digits ++ "'".toList)) := by
  have hliteral := Engine.shows_literal (e := e) digits
  rw [escapeText_of_plain h] at hliteral
  exact hliteral.led ['X'] (by decide) rfl

theorem shows_packBytes (d : Dialect) (bytes : List UInt8) :
    d.engine.Shows [] (d.packBytes bytes).toList := by
  have hdigits : ∀ c ∈ writtenDigits d.engine bytes, d.engine.writtenChar c = [c] :=
    fun c hc => writtenChar_of_isAlphanum (isAlphanum_of_mem_writtenDigits hc)
  rw [toList_packBytes]
  cases he : d.engine with
  | postgresql =>
    rw [he] at hdigits
    have hescaped : ∀ c ∈ '\\' :: 'x' :: writtenDigits .postgresql bytes,
        Engine.postgresql.writtenChar c = [c] :=
      List.forall_mem_cons.2 ⟨rfl, List.forall_mem_cons.2 ⟨rfl, hdigits⟩⟩
    have hliteral := Engine.shows_literal (e := .postgresql)
      ('\\' :: 'x' :: writtenDigits .postgresql bytes)
    rw [escapeText_of_plain hescaped] at hliteral
    have hcast : Engine.postgresql.Parts "::bytea".toList "::bytea".toList :=
      .ofPlain (by decide) (by decide)
    have hshows := hliteral.behind hcast rfl
    rw [show Text.clausesOf "::bytea".toList = [] by decide] at hshows
    simpa [bytesForm] using hshows
  | sqlserver =>
    have hcalm : (writtenDigits .sqlserver bytes).all Text.isCalm = true :=
      List.all_eq_true.2 (Text.forall_mem_hexBytes (P := (Text.isCalm · = true)) (by decide) bytes)
    have hall : ("0x".toList ++ (writtenDigits .sqlserver bytes ++ "".toList)).all Text.isCalm
        = true := by
      rw [List.all_append, List.all_append, hcalm]
      decide
    have hshows := Engine.Shows.ofPlain (e := .sqlserver) (Text.all_isPlain_of_isCalm hall)
    rwa [Text.clausesOf_of_isCalm hall] at hshows
  | generic | sqlite | mysql =>
    rw [he] at hdigits
    exact shows_marked hdigits

/-! ## Words of a standard dialect -/

/-- What has a spelling of its own in a standard dialect is spelled without quotes, parentheses and
words that start clauses. -/
theorem isInert_of_mem_substitutions (e : Engine) :
    ∀ entry ∈ (standard e).substitutions, IsInert entry.2 := by
  cases e <;> decide

theorem isInert_spelled (h : IsInert s) : IsInert ((standard e).spelled s) := by
  unfold spelled
  cases hl : (standard e).substitutions.lookup s with
  | none => exact h
  | some t =>
    obtain ⟨before, after, hsplit, -⟩ := List.lookup_eq_some_iff.1 hl
    exact isInert_of_mem_substitutions e (s, t) (by simp [hsplit])

theorem writesText_standard (e : Engine) : (standard e).WritesText := ⟨rfl, rfl⟩

theorem shows_packScalar {x : Scalar} (h : (standard e).packScalar cat x = .ok (.text s)) :
    e.Shows [] s.toList := by
  have hword : ∀ w, IsInert w → (standard e).spelling cat (.text w) = .ok (.text s) →
      e.Shows [] s.toList := by
    intro w hw hs
    rw [spelling_eq_text cat (writesText_standard e)] at hs
    obtain rfl := Value.text_inj (Except.ok.inj hs)
    exact (isInert_spelled hw).shows e
  cases x with
  | null => exact hword "NULL" (by decide) h
  | bool b => exact hword _ (by cases b <;> decide) h
  | int n =>
    obtain ⟨t, ht, hs⟩ := Except.bind_eq_ok_iff.1 h
    obtain rfl := Value.text_inj (Except.ok.inj hs)
    unfold Scalar.wholeText at ht
    split at ht
    · obtain rfl := Except.ok.inj ht
      exact (Text.isInert_of_isCalm (Text.all_isCalm_int n)).shows e
    · cases ht
  | float x =>
    rw [packScalar] at h
    split at h
    · obtain rfl := Value.text_inj (Except.ok.inj h)
      exact (Text.isInert_of_isCalm x.all_isCalm_text).shows e
    · cases h
  | decimal x =>
    rw [packScalar] at h
    split at h
    · obtain rfl := Value.text_inj (Except.ok.inj h)
      exact (Text.isInert_of_isCalm x.all_isCalm_text).shows e
    · cases h
  | text t | date t | time t | timestamp t =>
    obtain rfl := Value.text_inj (Except.ok.inj h)
    exact shows_packText (standard e) _
  | binary buffer bytes =>
    obtain rfl := Value.text_inj (Except.ok.inj h)
    exact shows_packBytes (standard e) bytes

theorem isInert_placeholder (style : PlaceholderStyle) (n : Int) :
    IsInert (style.spell (toString n)) := by
  have hnumber := Text.all_isCalm_int n
  have hmarks : "?".toList.all Text.isCalm = true ∧ "$".toList.all Text.isCalm = true ∧
      ":p".toList.all Text.isCalm = true := by
    decide
  refine Text.isInert_of_isCalm ?_
  cases style <;>
    simp only [PlaceholderStyle.spell, Number.all_isCalm_append, hnumber, hmarks, Bool.and_self]

/-- What stands in the place of a value shows no words. -/
theorem shows_mark {v : Value} (h : (standard e).Marks cat v s) : e.Shows [] s.toList := by
  rcases h with ⟨style, n, rfl⟩ | h
  · exact (isInert_placeholder style n).shows e
  · obtain ⟨w, hw, hs⟩ := Except.bind_eq_ok_iff.1 h
    obtain ⟨x, -, hx⟩ := Except.bind_eq_ok_iff.1 hw
    obtain ⟨t, rfl⟩ := packScalar_eq_text cat (writesText_standard e) x w hx
    obtain rfl := Except.ok.inj hs
    exact shows_packScalar hx

/-- A name that does not start with the opening quote stands between quotes. -/
theorem shows_name (he : e ≠ .generic) (hs : ¬(standardQuote e).1.toList <+: s.toList) :
    e.Shows [] (quoteName (standardQuote e) s).toList := by
  have hquoted := Engine.shows_quoted (e := e) s.toList
  rw [quoteName]
  cases e with
  | generic => exact absurd rfl he
  | sqlite | mysql | postgresql | sqlserver =>
    rw [if_neg (by simpa [standardQuote] using hs)]
    simpa [standardQuote, Engine.nameQuotes] using hquoted

theorem shows_escape (h : e.likeEscape? = some s) : e.Shows [] s.toList := by
  have hliteral := Engine.shows_literal (e := e) ['\\']
  cases e with
  | mysql => cases h
  | generic | sqlite | postgresql | sqlserver =>
    obtain rfl := Option.some.inj h
    exact hliteral

theorem shows_clock : e.Shows [] clock.toList := by
  have hliteral := Engine.shows_literal (e := e) "now".toList
  rw [escapeText_of_plain fun c hc => writtenChar_of_isAlphanum
    (List.all_eq_true.1 (show "now".toList.all Char.isAlphanum = true by decide) c hc)] at hliteral
  exact (Engine.Shows.bracketed hliteral.isBalanced).led "DATETIME".toList (by decide) rfl

end Dialect

end SqlCompose
