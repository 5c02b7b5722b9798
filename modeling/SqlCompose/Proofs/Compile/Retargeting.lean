import SqlCompose.Compile
import SqlCompose.Dialect.Standard
import SqlCompose.Proofs.Draft.Binding
import SqlCompose.Proofs.Render.Retargeted

/-!
# Retargeting

Engines differ in how they spell a concatenation, a clock, an escape character and paging, but what
they spell binds the values of its parts in the order of the parts. What is compiled for two
dialects that bind literals has therefore the same parameters for both.
-/
namespace SqlCompose

open Draft (Agree AgreeOn together)

variable {cat : Catalog} {e e' : Engine}

/-! ## Operators -/

namespace Draft

attribute [local simp] bindings?

@[simp] theorem bindings?_plus (x y : Draft) :
    (x + y).bindings? = together x.bindings? y.bindings? := rfl

@[simp] theorem bindings?_extend (x y : Draft) :
    (x ++ y).bindings? = together x.bindings? y.bindings? := rfl

@[simp] theorem bindings?_text (s : String) : (text s).bindings? = some [] := rfl

@[simp] theorem bindings?_operator (fixity : Fixity) (symbol : String) :
    (operator fixity symbol).bindings? = some [] := rfl

@[simp] theorem bindings?_asking (part : String) (x : Draft) :
    (asking part x).bindings? = x.bindings? := together_nil_left

@[simp] theorem bindings?_parenthesized (x : Draft) : x.parenthesized.bindings? = x.bindings? := by
  simp [parenthesized]

@[simp] theorem bindings?_infixed (x : Draft) (symbol : String) (y : Draft) :
    (infixed x symbol y).bindings? = together x.bindings? y.bindings? := by
  simp [infixed]

@[simp] theorem bindings?_callWith (symbol : String) (lead : Option String) (items : List Draft) :
    (callWith symbol lead items).bindings? = bindingsAll? items := by
  simp [callWith]

@[simp] theorem bindings?_callDraft (e : Engine) (symbol : String) (items : List Draft) :
    (callDraft e symbol items).bindings? = bindingsAll? items := by
  unfold callDraft
  split
  · simp [bindingsAll?]
  · exact bindings?_callWith ..

end Draft

/-- Parentheses bind nothing. -/
@[simp] theorem Operand.bindings?_under (o : Operand) (parent : Level) (symbol : String)
    (side : Side) : (o.under parent symbol side).bindings? = o.draft.bindings? := by
  unfold Operand.under
  split <;> simp

@[simp] theorem bindings?_concatDraft (e : Engine) (left right : Operand) :
    (concatDraft e left right).bindings?
      = together left.draft.bindings? right.draft.bindings? := by
  unfold concatDraft
  cases e.concatenation with
  | called => simp [Draft.bindingsAll?]
  | infixed => simp [infixDraft]

/-- Concatenation binds the same, whether it is a call or an operator. -/
theorem bindings?_concatOperand (e : Engine) (left right : Operand) :
    (concatOperand e left right).draft.bindings?
      = together left.draft.bindings? right.draft.bindings? := by
  unfold concatOperand
  cases e.concatenation with
  | called => simp [callOperand, Draft.bindingsAll?]
  | infixed => simp

theorem text_concatOperand (e : Engine) (left right : Operand) :
    (concatOperand e left right).text = none := by
  unfold concatOperand
  cases e.concatenation <;> rfl

theorem bindings?_escapeClause (mark : Option String) :
    (LikeForm.escapeClause (mark.map Draft.text)).bindings? = some [] := by
  cases mark with
  | none => rfl
  | some s => simp [LikeForm.escapeClause]

/-- What two engines write for an operator binds the same. -/
theorem translation_agree (e e' : Engine) : Draft.Translation e e' Agree where
  toCongruence := Draft.congruence_agree
  clock symbol := by
    unfold Draft.Agree
    rw [Draft.bindings?_callDraft, Draft.bindings?_callDraft]
    exact .refl _
  concatDraft hl hr := by
    unfold Draft.Agree
    rw [bindings?_concatDraft, bindings?_concatDraft]
    exact AgreeOn.together hl.draft hr.draft
  concatOperand {left left' right right'} hl hr := by
    have hdraft : Agree (concatOperand e left right).draft (concatOperand e' left' right').draft := by
      unfold Draft.Agree
      rw [bindings?_concatOperand, bindings?_concatOperand]
      exact AgreeOn.together hl.draft hr.draft
    refine ⟨?_, fun form s s' hs => ?_, hdraft, fun parent symbol side => ?_⟩
    · rw [text_concatOperand, text_concatOperand]
    · simp [text_concatOperand] at hs
    · unfold Draft.Agree
      rw [Operand.bindings?_under, Operand.bindings?_under]
      exact hdraft
  escape := by
    unfold Draft.Agree
    rw [bindings?_escapeClause, bindings?_escapeClause]
    exact .refl _

/-! ## Statements -/

/-- A paging clause binds nothing. -/
theorem bindings?_paged {limit offset : Value} {ordered : Bool} {x : Draft} {vs : List Value}
    (h : (paged cat e limit offset ordered x).bindings? = some vs) : x.bindings? = some vs := by
  unfold paged at h
  split at h
  · simpa [Draft.bindings?] using h
  · simpa using h
  · simp [Draft.bindings?, together] at h

/-- What two engines write for a statement binds the same. -/
theorem statementTranslation_agree (cat : Catalog) (e e' : Engine) :
    Draft.StatementTranslation cat e e' Agree where
  toTranslation := translation_agree e e'
  paging _ _ _ _ _ h := fun _ _ hv hw => h _ _ (bindings?_paged hv) (bindings?_paged hw)
  returning h := by
    split
    · split
      · exact h
      · exact fun _ _ _ hw => by simp [Draft.bindings?] at hw
    · exact fun _ _ hv => by simp [Draft.bindings?] at hv
  emptyInsert := .refl _

/-! ## Parameters -/

/-- A SELECT of five rows that puts two texts together and looks in the first one for a third one,
with no regard to letter case. -/
def Select.ofSearch (left right needle : String) : Select :=
  { Select.empty with
    fields := .tuple [.expr (.binary "||" (.text left) (.text right))]
    filter := .expr (Expr.like (.ofText left) (.expr (.call "UPPER" [.text needle]))
      { caseInsensitive := true })
    limit := .int 5 }

/-- What compiles to some text. -/
theorem Compiled.exists_of_map_sql {r : Except Error Compiled} {s : Option String}
    (h : r.toOption.map (·.sql.text?) = some s) : ∃ c, r = .ok c ∧ c.sql.text? = s := by
  cases r with
  | error e => simp [Except.toOption] at h
  | ok c => exact ⟨c, rfl, by simpa [Except.toOption] using h⟩

/-- What compiles binds the values of its draft. -/
theorem bindings?_of_compile {d : Dialect} (hb : d.bindLiterals = true) {v : Value} {c : Compiled}
    (hc : compile cat d v = .ok c) : (v.built cat d.engine).bindings? = some c.parameters := by
  rw [compile_eq_ok_iff_outcome, Draft.outcome_eq_iff] at hc
  obtain ⟨vs, hvs, hbound⟩ := Draft.binds_assemble hb 0 _ _ _ _ hc
  have hparameters : c.parameters = vs := by simpa using hbound
  rw [hvs, hparameters]

variable {d d' : Dialect} (hb : d.bindLiterals = true) (hb' : d'.bindLiterals = true) {v : Value}
  {c c' : Compiled} (hc : compile cat d v = .ok c) (hc' : compile cat d' v = .ok c')
include hb hb' hc hc'

/-- What compiles for two dialects that bind literals has the same parameters for both. -/
theorem retargeting_keeps_parameters : c.parameters = c'.parameters := by
  have hagree : Agree (v.built cat d.engine) (v.built cat d'.engine) :=
    (v.retargeted (statementTranslation_agree cat d.engine d'.engine)).built Draft.congruence_agree
  exact hagree _ _ (bindings?_of_compile hb hc) (bindings?_of_compile hb' hc')

omit hb hb' hc hc' in
theorem retargeting_keeps_parameters_search :
    ∃ c c' : Compiled, (Dialect.standard .postgresql).bindLiterals = true ∧
      (Dialect.standard .sqlserver).bindLiterals = true ∧
      compile default (.standard .postgresql) (.select (.ofSearch "x" "y" "z")) = .ok c ∧
      compile default (.standard .sqlserver) (.select (.ofSearch "x" "y" "z")) = .ok c' ∧
      c.sql.text? =
        some "SELECT $1 || $2 WHERE LOWER($3) LIKE $4 || LOWER(UPPER($5)) || $6 LIMIT 5" ∧
      c'.sql.text? = some ("SELECT CONCAT(?, ?) "
        ++ "WHERE LOWER(?) LIKE CONCAT(CONCAT(?, LOWER(UPPER(?))), ?) "
        ++ "ORDER BY (SELECT NULL) OFFSET 0 ROWS FETCH NEXT 5 ROWS ONLY") ∧
      c.parameters = c'.parameters := by
  have hpostgres : (compile default (.standard .postgresql)
      (.select (.ofSearch "x" "y" "z"))).toOption.map (·.sql.text?) = some
        (some "SELECT $1 || $2 WHERE LOWER($3) LIKE $4 || LOWER(UPPER($5)) || $6 LIMIT 5") := by
    decide +kernel
  have hsqlserver : (compile default (.standard .sqlserver)
      (.select (.ofSearch "x" "y" "z"))).toOption.map (·.sql.text?) = some
        (some ("SELECT CONCAT(?, ?) "
          ++ "WHERE LOWER(?) LIKE CONCAT(CONCAT(?, LOWER(UPPER(?))), ?) "
          ++ "ORDER BY (SELECT NULL) OFFSET 0 ROWS FETCH NEXT 5 ROWS ONLY")) := by
    decide +kernel
  obtain ⟨c, hc, hsql⟩ := Compiled.exists_of_map_sql hpostgres
  obtain ⟨c', hc', hsql'⟩ := Compiled.exists_of_map_sql hsqlserver
  exact ⟨c, c', rfl, rfl, hc, hc', hsql, hsql', retargeting_keeps_parameters rfl rfl hc hc'⟩

end SqlCompose
