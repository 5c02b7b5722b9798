import SqlCompose.Proofs.Draft.SameRuns

/-!
# Rows of texts

A row is written if each of its items is written as a text. So an item of a row matters only as far
as it is a text, and a row among the items of a row with the same separator may be taken apart.
-/
namespace SqlCompose

namespace Value

theorem textsFrom_eq_ok {items : List Value} {place : Nat} {texts : List String}
    (h : textsFrom place items = .ok texts) : items = texts.map text := by
  induction items generalizing place texts with
  | nil =>
    obtain rfl := Except.ok.inj h
    rfl
  | cons v items ih =>
    rw [textsFrom] at h
    cases hv : v.text? with
    | none => simp [hv] at h
    | some s =>
      cases hrest : textsFrom (place + 1) items with
      | error e => simp [hv, hrest, Except.map] at h
      | ok rest =>
        obtain rfl : s :: rest = texts := by simpa [hv, hrest, Except.map] using h
        rw [List.map_cons, ← ih hrest, eq_text_of_text? hv]

/-- Only texts can be joined. -/
theorem joined_eq_ok_iff {separator : String} {items : List Value} {v : Value} :
    joined separator items = .ok v ↔
      ∃ texts, items = texts.map text ∧ v = text (separator.intercalate texts) := by
  constructor
  · intro h
    cases hitems : textsFrom 0 items with
    | error e => simp [joined, hitems, Except.map] at h
    | ok texts =>
      obtain rfl : text (separator.intercalate texts) = v := by
        simpa [joined, hitems, Except.map] using h
      exact ⟨texts, textsFrom_eq_ok hitems, rfl⟩
  · rintro ⟨texts, rfl, rfl⟩
    exact joined_text separator texts

end Value

namespace Draft

variable {cat : Catalog} {host : Host} {bound rest : Array Value}

/-- Whether a draft is written as a text. -/
def Writes (cat : Catalog) (host : Host) (x : Draft) (bound : Array Value) (s : String)
    (rest : Array Value) : Prop :=
  (x.assemble cat host).run bound = (.ok (.text s), rest)

/-- Whether drafts are written as texts, one after the other. -/
def WritesAll (cat : Catalog) (host : Host) (items : List Draft) (bound : Array Value)
    (texts : List String) (rest : Array Value) : Prop :=
  (assembleAll cat host items).run bound = (.ok (texts.map .text), rest)

theorem writesAll_nil {texts : List String} :
    WritesAll cat host [] bound texts rest ↔ texts = [] ∧ rest = bound := by
  constructor
  · intro h
    obtain ⟨htexts, hrest⟩ := Prod.mk.inj h
    exact ⟨by simpa using (Except.ok.inj htexts).symm, hrest.symm⟩
  · rintro ⟨rfl, rfl⟩
    rfl

theorem writesAll_cons {x : Draft} {items : List Draft} {texts : List String} :
    WritesAll cat host (x :: items) bound texts rest ↔ ∃ s between others,
      Writes cat host x bound s between ∧ WritesAll cat host items between others rest ∧
        texts = s :: others := by
  constructor
  · intro h
    rw [WritesAll, assembleAll] at h
    obtain ⟨v, between, hx, hnext⟩ := Assembly.run_bind_eq_ok h
    obtain ⟨vs, last, hrest, hlast⟩ := Assembly.run_bind_eq_ok hnext
    obtain ⟨hvs, rfl⟩ := Prod.mk.inj hlast
    cases texts with
    | nil => simp at hvs
    | cons s others =>
      obtain ⟨rfl, rfl⟩ := List.cons.inj (Except.ok.inj hvs)
      exact ⟨s, between, others, hx, hrest, rfl⟩
  · rintro ⟨s, between, others, hx, hrest, rfl⟩
    rw [WritesAll, assembleAll, Assembly.run_bind_of_ok hx, Assembly.run_bind_of_ok hrest]
    rfl

theorem writesAll_append {items others : List Draft} {texts : List String} :
    WritesAll cat host (items ++ others) bound texts rest ↔ ∃ front between behind,
      WritesAll cat host items bound front between ∧
        WritesAll cat host others between behind rest ∧ texts = front ++ behind := by
  induction items generalizing bound texts with
  | nil =>
    simp only [List.nil_append, writesAll_nil]
    constructor
    · intro h
      exact ⟨[], bound, texts, ⟨rfl, rfl⟩, h, rfl⟩
    · rintro ⟨_, _, behind, ⟨rfl, rfl⟩, h, rfl⟩
      exact h
  | cons x items ih =>
    simp only [List.cons_append, writesAll_cons, ih]
    constructor
    · rintro ⟨s, first, -, hx, ⟨front, between, behind, hfront, hbehind, rfl⟩, rfl⟩
      exact ⟨s :: front, between, behind, ⟨s, first, front, hx, hfront, rfl⟩, hbehind, rfl⟩
    · rintro ⟨-, between, behind, ⟨s, first, front, hx, hfront, rfl⟩, hbehind, rfl⟩
      exact ⟨s, first, front ++ behind, hx, ⟨front, between, behind, hfront, hbehind, rfl⟩, rfl⟩

/-- Where several drafts are written, each of them is. -/
theorem WritesAll.exists_writes {x : Draft} {items : List Draft} {texts : List String}
    (h : WritesAll cat host items bound texts rest) (hx : x ∈ items) :
    ∃ before s behind, Writes cat host x before s behind := by
  induction items generalizing bound texts with
  | nil => cases hx
  | cons y items ih =>
    obtain ⟨s, between, others, hy, hrest, -⟩ := writesAll_cons.1 h
    rcases List.mem_cons.1 hx with rfl | hx
    · exact ⟨bound, s, between, hy⟩
    · exact ih hrest hx

/-- A row is written with the texts of its items. -/
theorem run_row {separator : Token} {items : List Draft} {v : Value} :
    ((row separator items).assemble cat host).run bound = (.ok v, rest) ↔ ∃ texts,
      WritesAll cat host items bound texts rest ∧
        v = .text (separator.spelling.intercalate texts) := by
  rw [assemble]
  constructor
  · intro h
    obtain ⟨vs, between, hvs, hjoined⟩ := Assembly.run_bind_eq_ok h
    cases hv : Value.joined separator.spelling vs with
    | error e =>
      rw [hv] at hjoined
      cases hjoined
    | ok w =>
      rw [hv] at hjoined
      cases hjoined
      obtain ⟨texts, rfl, rfl⟩ := Value.joined_eq_ok_iff.1 hv
      exact ⟨texts, hvs, rfl⟩
  · rintro ⟨texts, htexts, rfl⟩
    rw [Assembly.run_bind_of_ok htexts, Value.joined_text]
    rfl

theorem writes_row {separator : Token} {items : List Draft} {s : String} :
    Writes cat host (row separator items) bound s rest ↔ ∃ texts,
      WritesAll cat host items bound texts rest ∧ s = separator.spelling.intercalate texts := by
  simp [Writes, run_row, Value.text]

theorem exists_writesAll {items : List Draft}
    (h : ∀ x ∈ items, ∀ bound, ∃ s rest, Writes cat host x bound s rest) (bound : Array Value) :
    ∃ texts rest, WritesAll cat host items bound texts rest := by
  induction items generalizing bound with
  | nil => exact ⟨[], bound, writesAll_nil.2 ⟨rfl, rfl⟩⟩
  | cons x items ih =>
    obtain ⟨hx, hitems⟩ := List.forall_mem_cons.1 h
    obtain ⟨s, between, hs⟩ := hx bound
    obtain ⟨texts, rest, htexts⟩ := ih hitems between
    exact ⟨s :: texts, rest, writesAll_cons.2 ⟨s, between, texts, hs, htexts, rfl⟩⟩

theorem Writes.parenthesized {x : Draft} {s : String} (h : Writes cat host x bound s rest) :
    Writes cat host x.parenthesized bound ("(" ++ s ++ ")") rest := by
  change ((plus (plus (.token .opening) x) (.token .closing)).assemble cat host).run bound = _
  have hopened : ((plus (.token .opening) x).assemble cat host).run bound
      = (.ok (.text ("(" ++ s)), rest) := by
    rw [assemble]
    exact Assembly.run_bind_of_ok h _
  rw [assemble, Assembly.run_bind_of_ok hopened]
  rfl

/-- What can be written in parentheses can be written. -/
theorem exists_run_of_parenthesized {x : Draft} {v : Value}
    (h : (x.parenthesized.assemble cat host).run bound = (.ok v, rest)) :
    ∃ w between, (x.assemble cat host).run bound = (.ok w, between) := by
  change ((plus (plus (.token .opening) x) (.token .closing)).assemble cat host).run bound = _ at h
  rw [assemble] at h
  obtain ⟨opened, between, hopened, -⟩ := Assembly.run_bind_eq_ok h
  rw [assemble] at hopened
  obtain ⟨left, first, hleft, hnext⟩ := Assembly.run_bind_eq_ok hopened
  obtain ⟨w, last, hx, -⟩ := Assembly.run_bind_eq_ok hnext
  cases hleft
  exact ⟨w, last, hx⟩

/-! ## Drafts that are written as the same text -/

/-- Whether two drafts are written as the same text wherever one of them is written as a text. -/
def SameTexts (cat : Catalog) (x y : Draft) : Prop :=
  ∀ d number bound s rest, Writes cat (.context d number) x bound s rest ↔
    Writes cat (.context d number) y bound s rest

namespace SameTexts

variable {x y z : Draft}

theorem refl (x : Draft) : SameTexts cat x x := fun _ _ _ _ _ => Iff.rfl

theorem symm (h : SameTexts cat x y) : SameTexts cat y x :=
  fun d number bound s rest => (h d number bound s rest).symm

theorem trans (hx : SameTexts cat x y) (hy : SameTexts cat y z) : SameTexts cat x z :=
  fun d number bound s rest => (hx d number bound s rest).trans (hy d number bound s rest)

theorem of_sameRuns (h : SameRuns cat x y) : SameTexts cat x y :=
  fun d number bound s rest => h d number bound (.text s) rest

/-- A row of one item. -/
theorem singleton (separator : Token) (x : Draft) : SameTexts cat (row separator [x]) x := by
  intro d number bound s rest
  rw [writes_row]
  constructor
  · rintro ⟨texts, htexts, rfl⟩
    obtain ⟨s, between, others, hx, hrest, rfl⟩ := writesAll_cons.1 htexts
    obtain ⟨rfl, rfl⟩ := writesAll_nil.1 hrest
    simpa using hx
  · intro hx
    exact ⟨[s], writesAll_cons.2 ⟨s, rest, [], hx, writesAll_nil.2 ⟨rfl, rfl⟩, rfl⟩, by simp⟩

theorem writesAll {items others : List Draft} (h : List.Forall₂ (SameTexts cat) items others)
    {d : Dialect} {number : Nat} {texts : List String} :
    WritesAll cat (.context d number) items bound texts rest ↔
      WritesAll cat (.context d number) others bound texts rest := by
  induction h generalizing bound texts with
  | nil => rfl
  | cons hx _ ih => simp only [writesAll_cons, ih, hx d number]

/-- Rows of items that are written as the same texts. -/
theorem row (separator : Token) {items others : List Draft}
    (h : List.Forall₂ (SameTexts cat) items others) :
    SameRuns cat (.row separator items) (.row separator others) := by
  intro d number bound v rest
  simp only [run_row, writesAll h]

end SameTexts

/-! ## Rows of rows -/

theorem WritesAll.ne_nil {items : List Draft} {texts : List String} (hne : items ≠ [])
    (h : WritesAll cat host items bound texts rest) : texts ≠ [] := by
  cases items with
  | nil => exact absurd rfl hne
  | cons x items =>
    obtain ⟨s, between, others, -, -, rfl⟩ := writesAll_cons.1 h
    exact List.cons_ne_nil _ _

/-- A text that was put together with a separator can be put together with others by it. -/
theorem intercalate_splice (separator : String) {texts : List String} (hne : texts ≠ [])
    (front behind : List String) :
    separator.intercalate (front ++ separator.intercalate texts :: behind)
      = separator.intercalate (front ++ (texts ++ behind)) := by
  have hbehind : separator.intercalate (separator.intercalate texts :: behind)
      = separator.intercalate (texts ++ behind) := by
    cases behind with
    | nil => simp
    | cons s behind =>
      rw [String.intercalate_cons_cons, String.intercalate_append_of_ne_nil hne (by simp)]
  cases front with
  | nil => exact hbehind
  | cons s front =>
    rw [String.intercalate_append_of_ne_nil (by simp) (by simp), hbehind,
      ← String.intercalate_append_of_ne_nil (by simp) (by simp [hne])]

/-- A row among the items of a row with the same separator is taken apart. -/
theorem sameRuns_row_splice (separator : Token) {group : List Draft} (hne : group ≠ [])
    (front behind : List Draft) : SameRuns cat (.row separator (front ++ .row separator group :: behind))
      (.row separator (front ++ (group ++ behind))) := by
  intro d number bound v rest
  simp only [run_row, writesAll_append, writesAll_cons, writes_row]
  constructor
  · rintro ⟨-, ⟨first, between, -, hfront, ⟨-, next, last, ⟨texts, hgroup, rfl⟩, hbehind, rfl⟩, rfl⟩,
      rfl⟩
    refine ⟨_, ⟨first, between, _, hfront, ⟨texts, next, last, hgroup, hbehind, rfl⟩, rfl⟩, ?_⟩
    rw [intercalate_splice _ (hgroup.ne_nil hne)]
  · rintro ⟨-, ⟨first, between, -, hfront, ⟨texts, next, last, hgroup, hbehind, rfl⟩, rfl⟩, rfl⟩
    refine ⟨_, ⟨first, between, _, hfront, ⟨_, next, last, ⟨texts, hgroup, rfl⟩, hbehind, rfl⟩, rfl⟩,
      ?_⟩
    rw [intercalate_splice _ (hgroup.ne_nil hne)]

/-- A row of rows with the same separator is written like the row of all their items. -/
theorem sameRuns_row_flatten (separator : Token) {groups : List (List Draft)}
    (hne : ∀ group ∈ groups, group ≠ []) :
    SameRuns cat (.row separator (groups.map (.row separator))) (.row separator groups.flatten) := by
  suffices h : ∀ front, SameRuns cat (.row separator (front ++ groups.map (.row separator)))
      (.row separator (front ++ groups.flatten)) from h []
  induction groups with
  | nil => exact fun front => (congruence_sameRuns cat).refl _
  | cons group groups ih =>
    intro front
    have hrest := ih (fun g hg => hne g (List.mem_cons_of_mem _ hg)) (front ++ group)
    rw [List.append_assoc, List.append_assoc] at hrest
    exact (sameRuns_row_splice separator (hne group List.mem_cons_self) front _).trans hrest

end Draft

/-! ## Drafts that are written wherever they stand -/

namespace Assembly

variable {cat : Catalog} {d : Dialect} {bound rest : Array Value}

/-- Whether a value can be marked does not depend on what is bound already. -/
theorem exists_run_mark {v : Value} {s : String}
    (h : (mark cat d v).run bound = (.ok s, rest)) (other : Array Value) :
    ∃ t behind, (mark cat d v).run other = (.ok t, behind) := by
  unfold mark at h ⊢
  by_cases hb : d.bindLiterals = true
  · rw [if_pos hb] at h ⊢
    cases hs : v.toScalar cat with
    | error e =>
      rw [hs] at h
      cases h
    | ok u => exact ⟨_, _, rfl⟩
  · rw [if_neg hb] at h ⊢
    cases hs : d.literalText cat v with
    | error e =>
      rw [hs] at h
      cases h
    | ok t => exact ⟨t, other, rfl⟩

/-- Whether pieces can be written does not depend on what is bound already. -/
theorem exists_run_write {ps : List Piece} {s : String}
    (h : (write cat d ps).run bound = (.ok s, rest)) (other : Array Value) :
    ∃ t behind, (write cat d ps).run other = (.ok t, behind) := by
  induction ps generalizing bound rest s other with
  | nil => exact ⟨"", other, rfl⟩
  | cons p ps ih =>
    cases p with
    | token _ | word _ =>
      obtain ⟨text, between, hrest, -⟩ := run_bind_eq_ok h
      obtain ⟨t, behind, ht⟩ := ih hrest other
      rw [write, run_bind_of_ok ht]
      exact ⟨_, _, rfl⟩
    | value v =>
      obtain ⟨mark, between, hmark, hnext⟩ := run_bind_eq_ok h
      obtain ⟨text, last, hrest, -⟩ := run_bind_eq_ok hnext
      obtain ⟨u, next, hu⟩ := exists_run_mark hmark other
      obtain ⟨t, behind, ht⟩ := ih hrest next
      rw [write, run_bind_of_ok hu, run_bind_of_ok ht]
      exact ⟨_, _, rfl⟩

end Assembly

/-- A settled draft that is written after some values is written as a text after any values. -/
theorem Draft.Settled.exists_writes {cat : Catalog} {d : Dialect} (hd : d.WritesText) {b : Bool}
    {x : Draft} (h : x.Settled cat b) {number : Nat} {bound rest : Array Value} {v : Value}
    (hrun : (x.assemble cat (.context d number)).run bound = (.ok v, rest)) (other : Array Value) :
    ∃ s behind, Draft.Writes cat (.context d number) x other s behind := by
  rw [← d.marking_self] at hrun ⊢
  cases hp : x.pieces cat d with
  | error e =>
    obtain ⟨e', behind, he⟩ := fails_of_pieces _ _ _ hd h hp bound
    rw [hrun] at he
    cases he
  | ok ps =>
    have hassemble := assemble_of_pieces d.placeholderStyle d.bindLiterals number hd h hp
    rw [hassemble, map_eq_pure_bind] at hrun
    obtain ⟨s, between, hs, -⟩ := Assembly.run_bind_eq_ok hrun
    obtain ⟨t, behind, ht⟩ := Assembly.exists_run_write hs other
    refine ⟨t, behind, ?_⟩
    rw [Draft.Writes, hassemble, map_eq_pure_bind, Assembly.run_bind_of_ok ht]
    rfl

end SqlCompose
