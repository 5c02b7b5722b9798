import SqlCompose.Proofs.Draft.Settled

/-!
# Templates

A template is text with places for values. A settled draft that can be written at all is written as
a template: where values are bound, the placeholders stand in its places and its values are bound in
the same order; where they are written out, their literals stand there.
-/
namespace SqlCompose

/-- Text with places for values: the text before the first place, and each value with the text that
follows its place. -/
structure Template where
  head : String
  rest : List (Value × String)

namespace Template

/-- The values of a template, in the order of their places. -/
def values (t : Template) : List Value := t.rest.map (·.1)

/-- A template with a mark in each place. -/
def spelled (t : Template) (marks : List String) : String :=
  t.head ++ String.join (t.rest.zipWith (fun part mark => mark ++ part.2) marks)

/-- A template with some text before it. -/
def after (s : String) (t : Template) : Template := { t with head := s ++ t.head }

/-- A template with a value before it. -/
def behind (v : Value) (t : Template) : Template := { head := "", rest := (v, t.head) :: t.rest }

@[simp] theorem values_after (s : String) (t : Template) : (t.after s).values = t.values := rfl

@[simp] theorem values_behind (v : Value) (t : Template) :
    (t.behind v).values = v :: t.values := rfl

@[simp] theorem spelled_after (s : String) (t : Template) (marks : List String) :
    (t.after s).spelled marks = s ++ t.spelled marks := by
  simp [spelled, after, String.append_assoc]

@[simp] theorem spelled_behind (v : Value) (t : Template) (mark : String) (marks : List String) :
    (t.behind v).spelled (mark :: marks) = mark ++ t.spelled marks := by
  simp [spelled, behind, String.join_cons, String.append_assoc]

/-- The template of pieces. -/
def ofPieces : List Piece → Template
  | [] => { head := "", rest := [] }
  | .token t :: ps => (ofPieces ps).after t.spelling
  | .word s :: ps => (ofPieces ps).after s
  | .value v :: ps => (ofPieces ps).behind v

@[simp] theorem values_ofPieces (ps : List Piece) : (ofPieces ps).values = Piece.values ps := by
  induction ps with
  | nil => rfl
  | cons p ps ih => cases p <;> simp [ofPieces, ih]

end Template

/-- The placeholders of some parameters that follow `first` others. -/
def Dialect.placeholders (d : Dialect) (first count : Nat) : List String :=
  (List.range count).map fun i => d.placeholder ((first + i + 1 : Nat))

theorem Dialect.placeholders_succ (d : Dialect) (first count : Nat) :
    d.placeholders first (count + 1)
      = d.placeholder ((first + 1 : Nat)) :: d.placeholders (first + 1) count := by
  simp only [placeholders, List.range_succ_eq_map, List.map_cons, List.map_map, Nat.add_zero]
  congr 1
  refine List.map_congr_left fun i _ => ?_
  simp only [Function.comp_apply, Nat.succ_eq_add_one]
  congr 2
  omega

namespace Assembly

variable {cat : Catalog} {d : Dialect}

/-! ## Values that are bound -/

/-- A value that is a scalar gets the next placeholder. -/
theorem run_mark_of_binding (hb : d.bindLiterals = true) {v : Value} {s : Scalar}
    (hv : v.toScalar cat = .ok s) (bound : Array Value) :
    (mark cat d v).run bound
      = (.ok (d.placeholder ((bound.size + 1 : Nat))), bound.push v) := by
  have hs : (bound.push v).size = bound.size + 1 := Array.size_push ..
  simp only [mark, hb, hv, if_true, ← hs]
  rfl

/-- Pieces are written as their template with placeholders, and their values are bound. -/
theorem run_write_of_binding (hb : d.bindLiterals = true) {ps : List Piece}
    (h : ∀ v ∈ Piece.values ps, ∃ s, v.toScalar cat = .ok s) (bound : Array Value) :
    (write cat d ps).run bound
      = (.ok ((Template.ofPieces ps).spelled (d.placeholders bound.size (Piece.values ps).length)),
        bound ++ (Piece.values ps).toArray) := by
  induction ps generalizing bound with
  | nil => rfl
  | cons p ps ih =>
    cases p with
    | token t =>
      rw [write, run_bind_of_ok (ih h bound), Template.ofPieces, Template.spelled_after]
      rfl
    | word s =>
      rw [write, run_bind_of_ok (ih h bound), Template.ofPieces, Template.spelled_after]
      rfl
    | value v =>
      obtain ⟨s, hs⟩ := h v (by simp)
      have hrest := ih (fun w hw => h w (by simp [hw])) (bound.push v)
      rw [write, run_bind_of_ok (run_mark_of_binding hb hs bound), run_bind_of_ok hrest]
      rw [Piece.values_value, List.length_cons, Dialect.placeholders_succ, Template.ofPieces,
        Template.spelled_behind, Array.size_push]
      simp
      rfl

/-- A value that is no scalar cannot be bound. -/
theorem fails_write_of_binding (hb : d.bindLiterals = true) {ps : List Piece} {v : Value}
    (hv : v ∈ Piece.values ps) {e : Error} (he : v.toScalar cat = .error e) :
    (write cat d ps).Fails := by
  induction ps with
  | nil => simp at hv
  | cons p ps ih =>
    cases p with
    | token t => exact (ih hv).bind _
    | word s => exact (ih hv).bind _
    | value w =>
      rw [write]
      rcases List.mem_cons.1 hv with rfl | hv
      · simp only [mark, hb, he, if_true]
        exact ((fails_throw e).discard.bind _).bind _
      · exact Fails.after _ fun _ => (ih hv).bind _

/-! ## Values that are written out -/

/-- Pieces are written as their template with the literals of its values. -/
theorem write_of_inlining (hb : d.bindLiterals = false) {ps : List Piece} {texts : List String}
    (h : (Piece.values ps).mapM (d.literalText cat) = .ok texts) :
    write cat d ps = pure ((Template.ofPieces ps).spelled texts) := by
  induction ps generalizing texts with
  | nil =>
    obtain rfl := Except.ok.inj h
    rfl
  | cons p ps ih =>
    cases p with
    | token t => simp [write, ih h, Template.ofPieces]
    | word s => simp [write, ih h, Template.ofPieces]
    | value v =>
      obtain ⟨s, rest, hs, hrest, rfl⟩ := Except.mapM_cons_eq_ok_iff.1 h
      simp [write, mark, hb, hs, ih hrest, Template.ofPieces, lift]

/-- A value without a literal cannot be written out. -/
theorem fails_write_of_inlining (hb : d.bindLiterals = false) {ps : List Piece} {e : Error}
    (h : (Piece.values ps).mapM (d.literalText cat) = .error e) : (write cat d ps).Fails := by
  induction ps generalizing e with
  | nil => simp [pure, Except.pure] at h
  | cons p ps ih =>
    cases p with
    | token t => exact (ih h).bind _
    | word s => exact (ih h).bind _
    | value v =>
      simp only [Piece.values_value, List.mapM_cons, Except.bind_eq_error_iff] at h
      rw [write]
      rcases h with hv | ⟨s, hv, hrest | ⟨rest, hrest, hr⟩⟩
      · simp only [mark, hb, hv]
        exact (fails_throw e).bind _
      · exact Fails.after _ fun _ => (ih hrest).bind _
      · simp [pure, Except.pure] at hr

/-- However values are marked, what is written is the template of the pieces with marks. -/
theorem exists_marks_of_run {ps : List Piece} {bound rest : Array Value} {s : String}
    (h : (write cat d ps).run bound = (.ok s, rest)) : ∃ marks : List String,
      marks.length = (Piece.values ps).length ∧ s = (Template.ofPieces ps).spelled marks := by
  induction ps generalizing bound rest s with
  | nil =>
    obtain ⟨hs, -⟩ := Prod.mk.inj h
    exact ⟨[], rfl, (Except.ok.inj hs).symm⟩
  | cons p ps ih =>
    cases p with
    | token t =>
      obtain ⟨behind, between, hbehind, hs⟩ := run_bind_eq_ok h
      obtain ⟨marks, hlength, rfl⟩ := ih hbehind
      obtain rfl := Except.ok.inj (Prod.mk.inj hs).1
      exact ⟨marks, hlength, by rw [Template.ofPieces, Template.spelled_after]⟩
    | word w =>
      obtain ⟨behind, between, hbehind, hs⟩ := run_bind_eq_ok h
      obtain ⟨marks, hlength, rfl⟩ := ih hbehind
      obtain rfl := Except.ok.inj (Prod.mk.inj hs).1
      exact ⟨marks, hlength, by rw [Template.ofPieces, Template.spelled_after]⟩
    | value v =>
      obtain ⟨written, between, -, hrest⟩ := run_bind_eq_ok h
      obtain ⟨behind, between', hbehind, hs⟩ := run_bind_eq_ok hrest
      obtain ⟨marks, hlength, rfl⟩ := ih hbehind
      obtain rfl := Except.ok.inj (Prod.mk.inj hs).1
      refine ⟨written :: marks, by simp [hlength], ?_⟩
      rw [Template.ofPieces, Template.spelled_behind]

end Assembly

namespace Draft

variable {cat : Catalog} {d : Dialect} {draft : Draft}

/-! ## Outcomes -/

/-- What a run gives is the outcome of a draft. -/
theorem outcome_of_run {host : Host} {bound : List Value} {r : Except Error Value}
    {rest : Array Value} (hrun : (draft.assemble cat host).run bound.toArray = (r, rest)) :
    draft.outcome cat host bound = (r, rest.toList) := by
  simp only [outcome, hrun]

/-- A draft that cannot be written leaves what was bound before in its place. -/
theorem outcome_of_fails {host : Host} (hf : (draft.assemble cat host).Fails)
    (bound : List Value) : ∃ e more, draft.outcome cat host bound = (.error e, bound ++ more) := by
  obtain ⟨e, rest, hrun⟩ := hf bound.toArray
  have hpre : bound <+: ((draft.assemble cat host).run bound.toArray).2.toList :=
    appends_assemble host draft bound.toArray
  rw [hrun] at hpre
  obtain ⟨more, hmore⟩ := hpre
  exact ⟨e, more, by rw [outcome_of_run hrun, ← hmore]⟩

/-- What comes out of a settled draft is written from its pieces. -/
theorem exists_run_of_outcome (hd : d.WritesText) (h : Settled cat true draft)
    {style : PlaceholderStyle} {binding : Bool} {number : Nat} {bound rest : List Value} {v : Value}
    (ho : draft.outcome cat (.context (d.marking style binding) number) bound = (.ok v, rest)) :
    ∃ ps s between, draft.pieces cat d = .ok ps ∧ v = .text s ∧
      (Assembly.write cat (d.marking style binding) ps).run bound.toArray = (.ok s, between) := by
  cases hp : draft.pieces cat d with
  | error e =>
    obtain ⟨error, more, hf⟩ := outcome_of_fails (fails_of_pieces style binding number hd h hp) bound
    rw [hf] at ho
    simp at ho
  | ok ps =>
    have ha := assemble_of_pieces style binding number hd h hp
    rw [map_eq_pure_bind] at ha
    cases hrun : (draft.assemble cat (.context (d.marking style binding) number)).run
        bound.toArray with
    | mk r between =>
      rw [outcome_of_run hrun] at ho
      obtain ⟨rfl, -⟩ := Prod.mk.inj ho
      rw [ha] at hrun
      obtain ⟨s, before, hs, hv⟩ := Assembly.run_bind_eq_ok hrun
      obtain rfl := Except.ok.inj (Prod.mk.inj hv).1
      exact ⟨ps, s, before, rfl, rfl, hs⟩

/-- What is written from a settled draft is the template of its pieces with marks. -/
theorem exists_pieces_of_outcome (hd : d.WritesText) (h : Settled cat true draft)
    {style : PlaceholderStyle} {binding : Bool} {number : Nat} {bound rest : List Value} {v : Value}
    (ho : draft.outcome cat (.context (d.marking style binding) number) bound = (.ok v, rest)) :
    ∃ (ps : List Piece) (marks : List String), draft.pieces cat d = .ok ps ∧
      marks.length = (Piece.values ps).length ∧
        v = .text ((Template.ofPieces ps).spelled marks) := by
  obtain ⟨ps, s, between, hp, rfl, hrun⟩ := exists_run_of_outcome hd h ho
  obtain ⟨marks, hlength, rfl⟩ := Assembly.exists_marks_of_run hrun
  exact ⟨ps, marks, hp, hlength, rfl⟩

variable (hd : d.WritesText) (h : Settled cat true draft) {ps : List Piece}
  (hp : draft.pieces cat d = .ok ps) (style : PlaceholderStyle) (number : Nat)
include hd h hp

/-- The outcome of a draft whose values are bound: its template with the placeholders that follow
those of the values that were bound before. -/
theorem outcome_of_binding (hv : ∀ v ∈ Piece.values ps, ∃ s, v.toScalar cat = .ok s)
    (bound : List Value) :
    draft.outcome cat (.context (d.marking style true) number) bound
      = (.ok (.text ((Template.ofPieces ps).spelled
          ((d.marking style true).placeholders bound.length (Piece.values ps).length))),
        bound ++ Piece.values ps) := by
  have hrun := Assembly.run_write_of_binding (d := d.marking style true) rfl hv bound.toArray
  have ha := assemble_of_pieces style true number hd h hp
  rw [map_eq_pure_bind] at ha
  have hall := (congrArg (·.run bound.toArray) ha).trans (Assembly.run_bind_of_ok hrun _)
  rw [outcome_of_run hall]
  simp

/-- The outcome of a draft whose values are written out: its template with their literals. -/
theorem outcome_of_inlining {texts : List String}
    (ht : (Piece.values ps).mapM (d.literalText cat) = .ok texts) (bound : List Value) :
    draft.outcome cat (.context (d.marking style false) number) bound
      = (.ok (.text ((Template.ofPieces ps).spelled texts)), bound) := by
  have hw : Assembly.write cat (d.marking style false) ps
      = pure ((Template.ofPieces ps).spelled texts) := by
    refine Assembly.write_of_inlining rfl ?_
    rwa [Dialect.literalText_marking]
  have ha := assemble_of_pieces style false number hd h hp
  rw [hw, map_pure] at ha
  have hrun : (draft.assemble cat (.context (d.marking style false) number)).run bound.toArray
      = (.ok (.text ((Template.ofPieces ps).spelled texts)), bound.toArray) := by
    rw [ha]
    rfl
  rw [outcome_of_run hrun]

end Draft

end SqlCompose
