import SqlCompose.Proofs.Draft.Settled

/-!
# Brackets

Reading pieces back starts with their brackets: a row of pieces is scanned from left to right, and
at each closing bracket what stands since the opening one is read and becomes one item. The brackets
of a settled draft come in pairs, so scanning gets through it and loses nothing.
-/
namespace SqlCompose

/-- A piece outside of brackets, or a pair of brackets with what is in it and what that reads as. -/
inductive Item (α : Type)
  | leaf (p : Piece)
  | group (content : List Piece) (reading : Option α)

namespace Item

variable {α : Type}

/-- The pieces of an item. -/
def pieces : Item α → List Piece
  | leaf p => [p]
  | group content _ => .token .opening :: content ++ [.token .closing]

/-- The symbol of an item that is an operator. -/
def operator? : Item α → Option String
  | leaf (.token (.operator _ symbol)) => some symbol
  | _ => none

/-- The pieces of several items. -/
def flatten (items : List (Item α)) : List Piece := items.flatMap pieces

/-- The operators among items, in order. -/
def operators (items : List (Item α)) : List String := items.filterMap operator?

@[simp] theorem flatten_nil : flatten ([] : List (Item α)) = [] := rfl

@[simp] theorem flatten_cons (item : Item α) (items : List (Item α)) :
    flatten (item :: items) = item.pieces ++ flatten items := rfl

@[simp] theorem flatten_append (items others : List (Item α)) :
    flatten (items ++ others) = flatten items ++ flatten others := List.flatMap_append

@[simp] theorem operators_nil : operators ([] : List (Item α)) = [] := rfl

@[simp] theorem operators_append (items others : List (Item α)) :
    operators (items ++ others) = operators items ++ operators others := List.filterMap_append

@[simp] theorem operators_operator (fixity : Fixity) (symbol : String) (items : List (Item α)) :
    operators (leaf (.token (.operator fixity symbol)) :: items) = symbol :: operators items := rfl

@[simp] theorem operators_group (content : List Piece) (reading : Option α)
    (items : List (Item α)) : operators (group content reading :: items) = operators items := rfl

@[simp] theorem operators_text (s : String) (items : List (Item α)) :
    operators (leaf (.token (.text s)) :: items) = operators items := rfl

@[simp] theorem operators_word (s : String) (items : List (Item α)) :
    operators (leaf (.word s) :: items) = operators items := rfl

@[simp] theorem operators_value (v : Value) (items : List (Item α)) :
    operators (leaf (.value v) :: items) = operators items := rfl

theorem mem_operators_cons {item : Item α} {items : List (Item α)} {word : String} :
    word ∈ operators (item :: items) ↔ item.operator? = some word ∨ word ∈ operators items := by
  cases h : item.operator? <;> simp [operators, h, eq_comm (a := word)]

end Item

variable {α : Type} (read : List (Item α) → Option α)

/-- Scans pieces behind a row of items. The rows before the brackets that are still open stand
aside. -/
def scan : List Piece → List (Item α) → List (List (Item α)) → Option (List (Item α))
  | [], row, [] => some row
  | [], _, _ :: _ => none
  | .token .opening :: ps, row, outer => scan ps [] (row :: outer)
  | .token .closing :: ps, row, before :: outer =>
    scan ps (before ++ [.group (Item.flatten row) (read row)]) outer
  | .token .closing :: _, _, [] => none
  | p :: ps, row, outer => scan ps (row ++ [.leaf p]) outer

/-- What pieces read as. -/
def readPieces (ps : List Piece) : Option α := (scan read ps [] []).bind read

/-- Whether pieces are scanned as items wherever they stand, without any loss. -/
structure ScannedAs (ps : List Piece) (items : List (Item α)) : Prop where
  scan_append : ∀ rest row outer,
    scan read (ps ++ rest) row outer = scan read rest (row ++ items) outer
  flatten_eq : Item.flatten items = ps

namespace ScannedAs

variable {read} {ps qs : List Piece} {items others : List (Item α)}

theorem readPieces_eq (h : ScannedAs read ps items) : readPieces read ps = read items := by
  have hs := h.scan_append [] [] []
  rw [List.append_nil, List.nil_append] at hs
  rw [readPieces, hs]
  rfl

theorem nil : ScannedAs read [] [] := ⟨by simp, rfl⟩

theorem append (h : ScannedAs read ps items) (h' : ScannedAs read qs others) :
    ScannedAs read (ps ++ qs) (items ++ others) := by
  refine ⟨fun rest row outer => ?_, by rw [Item.flatten_append, h.flatten_eq, h'.flatten_eq]⟩
  rw [List.append_assoc, h.scan_append, h'.scan_append, List.append_assoc]

theorem token {t : Token} (ht : t.isBracket = false) :
    ScannedAs read [.token t] [.leaf (.token t)] := by
  refine ⟨fun rest row outer => ?_, rfl⟩
  cases t <;> simp_all [Token.isBracket, scan]

theorem ofToken {t : Token} (ht : t.isBracket = false) :
    ∃ items, ScannedAs read (Piece.ofToken t) items := by
  rw [Piece.ofToken]
  split
  · exact ⟨_, nil⟩
  · exact ⟨_, token ht⟩

theorem word (s : String) : ScannedAs read [.word s] [.leaf (.word s)] := ⟨fun _ _ _ => rfl, rfl⟩

theorem value (v : Value) : ScannedAs read [.value v] [.leaf (.value v)] := ⟨fun _ _ _ => rfl, rfl⟩

theorem cons_token {t : Token} (ht : t.isBracket = false) (h : ScannedAs read ps items) :
    ScannedAs read (.token t :: ps) (.leaf (.token t) :: items) := (token ht).append h

theorem cons_word (s : String) (h : ScannedAs read ps items) :
    ScannedAs read (.word s :: ps) (.leaf (.word s) :: items) := (word s).append h

/-- What stands in brackets becomes one item. -/
theorem group (h : ScannedAs read ps items) :
    ScannedAs read (.token .opening :: ps ++ [.token .closing]) [.group ps (read items)] := by
  refine ⟨fun rest row outer => ?_, by simp [Item.pieces]⟩
  rw [List.append_assoc, List.cons_append]
  change scan read (ps ++ (.token .closing :: rest)) [] (row :: outer) = _
  rw [h.scan_append, List.nil_append]
  change scan read rest (row ++ [.group (Item.flatten items) (read items)]) outer = _
  rw [h.flatten_eq]

theorem separated {separator : Token} (ht : separator.isBracket = false) {rows : List (List Piece)}
    (h : ∀ ps ∈ rows, ∃ items, ScannedAs read ps items) :
    ∃ items, ScannedAs read (Piece.separated separator rows) items := by
  induction rows using Piece.separated.induct with
  | case1 => exact ⟨[], nil⟩
  | case2 ps => exact h ps (by simp)
  | case3 ps qs rows ih =>
    obtain ⟨items, hitems⟩ := h ps (by simp)
    obtain ⟨others, hothers⟩ := ih fun xs hxs => h xs (by simp [List.mem_cons.1 hxs])
    exact ⟨_, hitems.append ((token ht).append hothers)⟩

theorem led {lead : Option String} {rows : List (List Piece)}
    (h : ∀ ps ∈ rows, ∃ items, ScannedAs read ps items) :
    ∀ ps ∈ Piece.led lead rows, ∃ items, ScannedAs read ps items := by
  cases lead with
  | none => simpa [Piece.led] using h
  | some s =>
    cases rows with
    | nil => simp [Piece.led]
    | cons ps rows =>
      intro qs hqs
      rcases List.mem_cons.1 hqs with rfl | hqs
      · obtain ⟨items, hitems⟩ := h ps (by simp)
        exact ⟨_, (token rfl).append hitems⟩
      · exact h qs (by simp [hqs])

end ScannedAs

/-- A function call is scanned as its name and its arguments in brackets. -/
theorem Draft.scannedAs_callWith {cat : Catalog} {d : Dialect} (hd : d.WritesText)
    {symbol : String} {lead : Option String} {items : List Draft}
    (h : ∀ x ∈ items, ∀ ps, x.pieces cat d = .ok ps → ∃ row, ScannedAs read ps row)
    {ps : List Piece} (hp : (callWith symbol lead items).pieces cat d = .ok ps) :
    ∃ name content row, ps = .word name :: (.token .opening :: content ++ [.token .closing]) ∧
      ScannedAs read content row := by
  obtain ⟨rows, hrows, rfl⟩ := (pieces_callWith_eq_ok hd).1 hp
  have hrow : ∀ qs ∈ rows, ∃ items, ScannedAs read qs items := by
    intro qs hqs
    obtain ⟨x, hx, hpx⟩ := mem_piecesAll hrows hqs
    exact h x hx qs hpx
  obtain ⟨row, hcontent⟩ :
      ∃ items, ScannedAs read (Piece.separated (.text ", ") (Piece.led lead rows)) items :=
    ScannedAs.separated rfl (ScannedAs.led hrow)
  exact ⟨_, _, row, rfl, hcontent⟩

/-- The pieces of a settled draft are scanned without any loss. -/
theorem Draft.Settled.exists_scannedAs {cat : Catalog} {d : Dialect} (hd : d.WritesText) {b : Bool}
    {draft : Draft} (h : Settled cat b draft) {ps : List Piece}
    (hp : draft.pieces cat d = .ok ps) : ∃ items, ScannedAs read ps items := by
  induction h generalizing ps with
  | token ht =>
    simp only [pieces, Except.ok.injEq] at hp
    exact hp ▸ ScannedAs.ofToken ht
  | literal v =>
    simp only [pieces, Except.ok.injEq] at hp
    exact ⟨_, hp ▸ ScannedAs.value v⟩
  | packed v =>
    rw [pieces_packed hd] at hp
    cases hv : d.literalText cat v with
    | error e => simp [hv, Except.map] at hp
    | ok s =>
      obtain rfl : [Piece.word s] = ps := by simpa [hv, Except.map] using hp
      exact ⟨_, ScannedAs.word s⟩
  | name s =>
    obtain rfl := Except.ok.inj ((pieces_name hd s).symm.trans hp)
    exact ⟨_, ScannedAs.word _⟩
  | spelling keyword =>
    obtain rfl := Except.ok.inj ((pieces_spelling hd keyword).symm.trans hp)
    exact ⟨_, ScannedAs.word _⟩
  | ask part =>
    simp only [pieces, Except.ok.injEq] at hp
    exact ⟨_, hp ▸ ScannedAs.nil⟩
  | fail e => simp [pieces] at hp
  | member h => simp [pieces] at hp
  | before hf hr ihf ihr => exact ihr (pieces_before_eq_ok.1 hp).2
  | checked hd hl ihd ihl => exact ihd (pieces_checked_eq_ok.1 hp).1
  | plus hx hy ihx ihy =>
    obtain ⟨xs, ys, hxs, hys, rfl⟩ := pieces_plus_eq_ok.1 hp
    obtain ⟨items, hitems⟩ := ihx hxs
    obtain ⟨others, hothers⟩ := ihy hys
    exact ⟨_, hitems.append hothers⟩
  | extend hx hy ihx ihy =>
    obtain ⟨xs, ys, hxs, hys, rfl⟩ := pieces_plus_eq_ok.1 hp
    obtain ⟨items, hitems⟩ := ihx hxs
    obtain ⟨others, hothers⟩ := ihy hys
    exact ⟨_, hitems.append hothers⟩
  | shown hx ih => exact ih hp
  | row ht hi ih =>
    obtain ⟨rows, hrows, rfl⟩ := pieces_row_eq_ok.1 hp
    refine ScannedAs.separated ht fun qs hqs => ?_
    obtain ⟨x, hx, hpx⟩ := mem_piecesAll hrows hqs
    exact ih x hx hpx
  | parenthesized hx ih =>
    obtain ⟨xs, hxs, rfl⟩ := pieces_parenthesized_eq_ok.1 hp
    obtain ⟨items, hitems⟩ := ih hxs
    exact ⟨_, hitems.group⟩
  | call symbol lead hi ih =>
    obtain ⟨name, content, row, rfl, hrow⟩ := scannedAs_callWith read hd (fun x hx ps => ih x hx) hp
    exact ⟨_, (ScannedAs.word name).append hrow.group⟩

end SqlCompose
