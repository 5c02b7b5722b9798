import SqlCompose.Proofs.Dialect.Delimited
import SqlCompose.Proofs.Render.Clauses

/-!
# What paging clauses show

A paging clause leaves nothing open and starts no clause, but on SQL Server it brings the order that
it needs there, if the SELECT has none of its own.
-/
namespace SqlCompose

open Text (IsInert clausesOf startsApart endsApart)

theorem RowBound.IsCount.isInert {b : RowBound} (h : b.IsCount) : IsInert b.text := by
  obtain ⟨n, hn⟩ := h
  rw [hn]
  exact Text.isInert_of_isCalm (Text.all_isCalm_int n)

namespace Engine

variable {e : Engine} {limit offset : Option RowBound} (hl : ∀ b ∈ limit, b.IsCount)
  (ho : ∀ b ∈ offset, b.IsCount)
include ho

theorem isInert_skipped : IsInert (skipped offset) := by
  unfold skipped
  split
  · rename_i b
    split
    · exact (ho b rfl).isInert
    · decide
  · decide

include hl

/-- A paging clause starts no clause if there is an order to page by. -/
theorem isInert_limitClause {ordered : Bool} (h : e ≠ .sqlserver ∨ ordered = true) :
    IsInert (e.limitClause limit offset ordered) := by
  have hspaced : ∀ {s t : String}, IsInert s → IsInert t → IsInert (" ".intercalate [s, t]) := by
    intro s t hs ht
    have hblank : IsInert (" " ++ t) ∧ startsApart (" " ++ t).toList = true :=
      ⟨ht.behind (by decide), by simp [startsApart, Text.isWordChar]⟩
    have hall := hs.before hblank
    rwa [← String.append_assoc] at hall
  have hlimit : ∀ b ∈ limit, IsInert ("LIMIT " ++ b.text) :=
    fun b hb => (hl b hb).isInert.behind (by decide)
  have hoffset : ∀ b ∈ offset, IsInert ("OFFSET " ++ b.text) :=
    fun b hb => (ho b hb).isInert.behind (by decide)
  have hplain : IsInert (plainPaging limit offset) := by
    cases limit with
    | none =>
      cases offset with
      | none => decide
      | some o => exact hoffset o rfl
    | some l =>
      cases offset with
      | none => exact hlimit l rfl
      | some o => exact hspaced (hlimit l rfl) (hoffset o rfl)
  have hskipped : IsInert ("OFFSET " ++ skipped offset ++ " ROWS") :=
    ((isInert_skipped ho).behind (by decide)).before (by decide)
  unfold limitClause
  split
  · exact (ho _ rfl).isInert.behind (by decide)
  · exact (ho _ rfl).isInert.behind (by decide)
  · decide
  · rw [if_pos (by simpa using h)]
    cases limit with
    | none => exact hskipped
    | some l =>
      exact hspaced hskipped (((hl l rfl).isInert.behind (by decide)).before (by decide))
  · exact hplain

omit hl ho in
/-- SQL Server pages what has no order of its own by an order of nothing. -/
theorem limitClause_sqlserver (limit offset : Option RowBound) :
    sqlserver.limitClause limit offset false = "" ∨ sqlserver.limitClause limit offset false
      = "ORDER BY (SELECT NULL) " ++ sqlserver.limitClause limit offset true := by
  cases limit with
  | none =>
    cases offset with
    | none => exact .inl rfl
    | some o => exact .inr rfl
  | some l =>
    have hlead : "ORDER BY (SELECT NULL) " = "ORDER BY (SELECT NULL)" ++ " " := by decide
    have hall : sqlserver.limitClause (some l) offset false
        = "ORDER BY (SELECT NULL)" ++ " " ++ ("OFFSET " ++ skipped offset ++ " ROWS") ++ " "
          ++ ("FETCH NEXT " ++ l.text ++ " ROWS ONLY") := rfl
    have hpaged : sqlserver.limitClause (some l) offset true
        = ("OFFSET " ++ skipped offset ++ " ROWS") ++ " "
          ++ ("FETCH NEXT " ++ l.text ++ " ROWS ONLY") := rfl
    rw [hall, hpaged, ← hlead]
    exact .inr (by simp only [String.append_assoc])

/-- What a paging clause shows: nothing, or the order that SQL Server needs. -/
theorem exists_parts_paging (e : Engine) (ordered : Bool) : ∃ shown,
    e.Parts shown (" " ++ e.limitClause limit offset ordered).toList ∧ startsApart shown = true ∧
      (clausesOf shown).Sublist (if ordered then [] else ["ORDER"]) := by
  have hinert : ∀ s, IsInert s → e.Parts (" " ++ s).toList (" " ++ s).toList ∧
      startsApart (" " ++ s).toList = true ∧ clausesOf (" " ++ s).toList = [] := by
    intro s hs
    have hblank : IsInert (" " ++ s) := hs.behind (by decide)
    have hstarts : startsApart (" " ++ s).toList = true := by simp [startsApart, Text.isWordChar]
    exact ⟨.ofPlain (Text.ne_nil_of_startsApart hstarts) hblank.1, hstarts, hblank.2⟩
  by_cases h : e ≠ .sqlserver ∨ ordered = true
  · obtain ⟨hparts, hstarts, hnone⟩ := hinert _ (isInert_limitClause hl ho h)
    exact ⟨_, hparts, hstarts, by rw [hnone]; exact List.nil_sublist _⟩
  · obtain ⟨rfl, rfl⟩ : e = .sqlserver ∧ ordered = false := by simpa using h
    rcases limitClause_sqlserver limit offset with hnone | hall
    · obtain ⟨hparts, hstarts, hempty⟩ := hinert "" (by decide)
      rw [hnone]
      exact ⟨_, hparts, hstarts, by rw [hempty]; exact List.nil_sublist _⟩
    · obtain ⟨hparts, hstarts, hempty⟩ :=
        hinert _ (isInert_limitClause (e := .sqlserver) hl ho (.inr rfl))
      have hstart : startsApart " ORDER BY ".toList = true := by decide
      have hfront : sqlserver.Parts " ORDER BY ".toList " ORDER BY ".toList :=
        .ofPlain (by decide) (by decide)
      have hnull : sqlserver.IsBalanced "SELECT NULL".toList := (Shows.ofPlain (by decide)).isBalanced
      have hparts := (hfront.append (.bracketed hnull)).append hparts
      refine ⟨" ORDER BY ".toList ++ ['(', ')']
        ++ (" " ++ sqlserver.limitClause limit offset true).toList, ?_, ?_, ?_⟩
      · rw [hall]
        simpa using hparts
      · exact Text.startsApart_append (Text.startsApart_append hstart)
      · rw [Text.clausesOf_append (by rw [hstarts, Bool.or_true]), hempty]
        decide

end Engine

end SqlCompose
