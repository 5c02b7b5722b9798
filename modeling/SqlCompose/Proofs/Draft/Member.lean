import SqlCompose.Proofs.Draft.Bracket
import SqlCompose.Proofs.Expr.Compositional
import SqlCompose.Proofs.Statement.Combination

/-!
# Members between set operators

Pieces are parted at the set operators outside of their brackets. Members without such an operator
are found again when the pieces of a chain are read.
-/
namespace SqlCompose

/-- The set operator that has a keyword. -/
def SetOperator.ofKeyword? (word : String) : Option SetOperator :=
  [union, unionAll].find? (·.keyword == word)

theorem SetOperator.ofKeyword?_keyword (op : SetOperator) : ofKeyword? op.keyword = some op := by
  cases op <;> decide

/-- The set operator that an item is. -/
def Item.setOperator? {α : Type} : Item α → Option SetOperator
  | leaf (.token (.keyword _ word)) => SetOperator.ofKeyword? word
  | _ => none

namespace SetChain

/-- The pieces of members, each behind its operator. -/
def memberPieces (members : List (SetOperator × List Piece)) : List Piece :=
  members.flatMap fun m => .token (.keyword .between m.1.keyword) :: m.2

/-- The pieces of a chain. -/
def pieces (c : SetChain (List Piece)) : List Piece := c.first ++ memberPieces c.members

/-- The members that items are parted into at the set operators among them. -/
def ofItems : List (Item (SetChain (List Piece))) → SetChain (List Piece)
  | [] => ⟨[], []⟩
  | item :: items =>
    let c := ofItems items
    match item.setOperator? with
    | some op => ⟨[], (op, c.first) :: c.members⟩
    | none => ⟨item.pieces ++ c.first, c.members⟩

/-- The members that pieces are parted into. -/
def read (ps : List Piece) : Option (SetChain (List Piece)) :=
  readPieces (some ∘ ofItems) ps

theorem ofItems_append {items : List (Item (SetChain (List Piece)))}
    (h : ∀ item ∈ items, item.setOperator? = none) (others : List (Item (SetChain (List Piece)))) :
    ofItems (items ++ others)
      = ⟨Item.flatten items ++ (ofItems others).first, (ofItems others).members⟩ := by
  induction items with
  | nil => rfl
  | cons item items ih =>
    rw [List.forall_mem_cons] at h
    rw [List.cons_append, ofItems, ih h.2, h.1, Item.flatten_cons, List.append_assoc]

end SetChain

/-! ## Pieces of one member -/

namespace Piece

/-- Whether pieces are scanned without a set operator outside of brackets. -/
def Single (ps : List Piece) : Prop :=
  ∃ items, ScannedAs (some ∘ SetChain.ofItems) ps items ∧ ∀ item ∈ items, item.setOperator? = none

namespace Single

variable {ps qs : List Piece}

theorem nil : Single [] := ⟨[], .nil, by simp⟩

theorem append (hp : Single ps) (hq : Single qs) : Single (ps ++ qs) := by
  obtain ⟨items, hi, hs⟩ := hp
  obtain ⟨others, ho, hs'⟩ := hq
  exact ⟨items ++ others, hi.append ho, by simpa [or_imp, forall_and] using ⟨hs, hs'⟩⟩

theorem word (s : String) : Single [.word s] := ⟨_, .word s, by simp [Item.setOperator?]⟩

theorem value (v : Value) : Single [.value v] := ⟨_, .value v, by simp [Item.setOperator?]⟩

theorem text (s : String) : Single [.token (.text s)] :=
  ⟨_, .token rfl, by simp [Item.setOperator?]⟩

theorem operator (fixity : Fixity) (symbol : String) :
    Single [.token (.operator fixity symbol)] := ⟨_, .token rfl, by simp [Item.setOperator?]⟩

theorem keyword (fixity : Fixity) {word : String} (h : SetOperator.ofKeyword? word = none) :
    Single [.token (.keyword fixity word)] := ⟨_, .token rfl, by simpa [Item.setOperator?] using h⟩

/-- In brackets there may be anything. -/
theorem group {items : List (Item (SetChain (List Piece)))}
    (h : ScannedAs (some ∘ SetChain.ofItems) ps items) :
    Single (.token .opening :: ps ++ [.token .closing]) :=
  ⟨_, h.group, by simp [Item.setOperator?]⟩

theorem separated {separator : Token} (hs : Single [.token separator]) {rows : List (List Piece)}
    (h : ∀ ps ∈ rows, Single ps) : Single (Piece.separated separator rows) := by
  induction rows using Piece.separated.induct with
  | case1 => exact nil
  | case2 ps => exact h ps (by simp)
  | case3 ps qs rows ih =>
    rw [List.forall_mem_cons] at h
    exact h.1.append (hs.append (ih h.2))

end Single

end Piece

namespace SetChain

variable {c : SetChain (List Piece)}

theorem scanned_members {members : List (SetOperator × List Piece)}
    (h : ∀ m ∈ members, Piece.Single m.2) :
    ∃ items, ScannedAs (some ∘ ofItems) (memberPieces members) items ∧
      ofItems items = ⟨[], members⟩ := by
  induction members with
  | nil => exact ⟨[], .nil, rfl⟩
  | cons m members ih =>
    rw [List.forall_mem_cons] at h
    obtain ⟨items, hitems, hsingle⟩ := h.1
    obtain ⟨others, hothers, heq⟩ := ih h.2
    refine ⟨_, .cons_token rfl (hitems.append hothers), ?_⟩
    have hop : (Item.leaf (.token (.keyword .between m.1.keyword)) :
        Item (SetChain (List Piece))).setOperator? = some m.1 := m.1.ofKeyword?_keyword
    rw [ofItems, hop, ofItems_append hsingle, heq, hitems.flatten_eq]
    simp

/-- The members of a chain are found again in its pieces. -/
theorem read_pieces (h : ∀ ps ∈ c.leaves, Piece.Single ps) : read c.pieces = some c := by
  obtain ⟨items, hitems, hsingle⟩ := h c.first (by simp [leaves])
  have hmembers : ∀ m ∈ c.members, Piece.Single m.2 := by
    intro m hm
    exact h m.2 (List.mem_cons_of_mem _ (List.mem_map_of_mem hm))
  obtain ⟨others, hothers, heq⟩ := scanned_members hmembers
  rw [read, pieces, (hitems.append hothers).readPieces_eq, Function.comp_apply,
    ofItems_append hsingle, heq, hitems.flatten_eq]
  simp

end SetChain

/-! ## Drafts of one member -/

/-- Whether a draft is written without a set operator outside of brackets. -/
def Draft.Single (cat : Catalog) (d : Dialect) (x : Draft) : Prop :=
  ∀ ps, x.pieces cat d = .ok ps → Piece.Single ps

namespace Draft.Single

variable {cat : Catalog} {d : Dialect} {x y : Draft}

theorem fail (e : Error) : Single cat d (.fail e) := by
  intro ps hp
  simp [pieces] at hp

theorem token {t : Token} (ht : Piece.Single [.token t]) : Single cat d (.token t) := by
  intro ps hp
  obtain rfl := Except.ok.inj hp
  unfold Piece.ofToken
  split
  · exact .nil
  · exact ht

theorem piece_token {t : Token} (h : Single cat d (.token t)) : Piece.Single [.token t] := by
  by_cases ht : t = .text ""
  · exact ht ▸ .text ""
  · exact h _ (pieces_token ht)

theorem text (s : String) : Single cat d (.text s) := .token (.text s)

theorem keyword (fixity : Fixity) {word : String} (h : SetOperator.ofKeyword? word = none) :
    Single cat d (.keyword fixity word) := .token (.keyword fixity h)

theorem name (hd : d.WritesText) (s : String) : Single cat d (.name (.text s)) := by
  intro ps hp
  obtain rfl := Except.ok.inj ((pieces_name hd s).symm.trans hp)
  exact .word _

theorem plus (hx : Single cat d x) (hy : Single cat d y) : Single cat d (x + y) := by
  intro ps hp
  obtain ⟨xs, ys, hxs, hys, rfl⟩ := pieces_plus_eq_ok.1 hp
  exact (hx xs hxs).append (hy ys hys)

theorem extend (hx : Single cat d x) (hy : Single cat d y) : Single cat d (x ++ y) := by
  intro ps hp
  exact hx.plus hy ps ((pieces_extend x y).symm.trans hp)

theorem row {separator : Token} (hs : Piece.Single [.token separator]) {items : List Draft}
    (h : ∀ x ∈ items, Single cat d x) : Single cat d (.row separator items) := by
  intro ps hp
  obtain ⟨rows, hrows, rfl⟩ := pieces_row_eq_ok.1 hp
  refine .separated hs fun qs hqs => ?_
  obtain ⟨y, hy, hpy⟩ := mem_piecesAll hrows hqs
  exact h y hy qs hpy

theorem commaSeparated {items : List Draft} (h : ∀ x ∈ items, Single cat d x) :
    Single cat d (.commaSeparated items) := .row (.text ", ") h

theorem continued {items : List Draft} (hx : Single cat d x) (h : ∀ y ∈ items, Single cat d y) :
    Single cat d (x.continued items) := by
  induction items generalizing x with
  | nil => exact hx
  | cons y items ih =>
    rw [List.forall_mem_cons] at h
    exact ih (hx.extend h.1) h.2

theorem given {α : Type} {r : Except Error α} {f : α → Draft}
    (h : ∀ a, r = .ok a → Single cat d (f a)) : Single cat d (.given r f) := by
  cases r with
  | error e => exact .fail e
  | ok a => exact h a rfl

/-- In brackets there may be any settled draft. -/
theorem parenthesized (hd : d.WritesText) {b : Bool} (h : x.Settled cat b) :
    Single cat d x.parenthesized := by
  intro ps hp
  obtain ⟨own, hown, rfl⟩ := pieces_parenthesized_eq_ok.1 hp
  obtain ⟨items, hitems⟩ := h.exists_scannedAs (some ∘ SetChain.ofItems) hd hown
  exact .group hitems

/-- What is put together from drafts of one member is one of one member. -/
theorem compositional (hd : d.WritesText) : Draft.Compositional (Draft.Single cat d) where
  fail := .fail
  text := .text
  operator fixity symbol := .token (.operator fixity symbol)
  literal v := by
    intro ps hp
    rw [pieces] at hp
    exact Except.ok.inj hp ▸ .value v
  packed v := by
    intro ps hp
    rw [pieces_packed hd] at hp
    cases hv : d.literalText cat v with
    | error e => simp [hv, Except.map] at hp
    | ok s =>
      obtain rfl : [Piece.word s] = ps := by simpa [hv, Except.map] using hp
      exact .word s
  asking part x hx := fun ps hp => hx ps ((pieces_asking part x).symm.trans hp)
  packedBefore v x hx := fun ps hp => hx ps (pieces_before_eq_ok.1 hp).2
  plus := .plus
  shown hx := fun ps hp => hx ps (by rwa [pieces] at hp)
  row hs h := .row hs.piece_token h
  parenthesized hx := by
    intro ps hp
    obtain ⟨own, hown, rfl⟩ := pieces_parenthesized_eq_ok.1 hp
    obtain ⟨items, hitems, -⟩ := hx own hown
    exact .group hitems
  call symbol lead items h := by
    intro ps hp
    obtain ⟨name, content, row, rfl, hrow⟩ := scannedAs_callWith (some ∘ SetChain.ofItems) hd
      (fun x hx qs hqs => (h x hx qs hqs).imp fun _ => And.left) hp
    exact (Piece.Single.word name).append (.group hrow)

end Draft.Single

end SqlCompose
