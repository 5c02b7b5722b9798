import SqlCompose.Proofs.Compile.Parameter
import SqlCompose.Proofs.Render.Member

/-!
# The members of a compiled SELECT

SELECTs are combined to a tree, but each SELECT is written behind the members of the one that it is
added to, whatever members it has itself. So a compiled tree is read as the chain of its leaves.
-/
namespace SqlCompose

variable {cat : Catalog} {d : Dialect} {q : Select} {ps : List Piece}

namespace Select

/-- Whether a SELECT is written with given pieces, not counting its order and its bounds. -/
def WrittenAs (cat : Catalog) (d : Dialect) (q : Select) (own : List Piece) : Prop :=
  ∃ tail, ((q.parts cat d.engine).closing cat d.engine).pieces cat d = .ok tail ∧
    ((Value.select q).built cat d.engine).pieces cat d = .ok (own ++ tail)

/-- Without members a SELECT is written with its own clauses and what stands behind them. -/
theorem Shape.pieces_built_eq_ok (hs : q.Shape) :
    ((Value.select q).built cat d.engine).pieces cat d = .ok ps ↔ ∃ own tail,
      ((q.parts cat d.engine).core cat).pieces cat d = .ok own ∧
      ((q.parts cat d.engine).closing cat d.engine).pieces cat d = .ok tail ∧
      ps = own ++ tail := by
  rw [Select.pieces_built_eq_ok hs.extras, hs.unions, Drafted.each_tuple]
  simp [Draft.piecesAll]

theorem WrittenAs.core {own : List Piece} (h : q.WrittenAs cat d own) (hs : q.Shape) :
    ((q.parts cat d.engine).core cat).pieces cat d = .ok own := by
  obtain ⟨tail, htail, hp⟩ := h
  obtain ⟨core, tail', hcore, htail', heq⟩ := hs.pieces_built_eq_ok.1 hp
  obtain rfl := Except.ok.inj (htail.symm.trans htail')
  rwa [List.append_cancel_right heq]

/-- A SELECT with a further member. -/
theorem addUnion_eq {vs : List Value} (hu : q.unions = .tuple vs) (op : SetOperator)
    (member : Select) : q.addUnion op (.select member)
      = .ok { q with unions := .tuple (vs ++ [.tuple [.text op.keyword, .select member]]) } := by
  rw [addUnion, hu, Value.more_tuple]
  rfl

/-- A further member is written behind the other ones. -/
theorem pieces_addUnion (hx : q.extras = []) {vs : List Value} (hu : q.unions = .tuple vs)
    {op : SetOperator} {member later : Select} (hq : q.addUnion op (.select member) = .ok later)
    (hp : ((Value.select later).built cat d.engine).pieces cat d = .ok ps) :
    ∃ body own tail, ((q.parts cat d.engine).closing cat d.engine).pieces cat d = .ok tail ∧
      ((Value.select q).built cat d.engine).pieces cat d = .ok (body ++ tail) ∧
      (Value.select member).isPaged cat = .ok false ∧
      ((Value.select member).built cat d.engine).pieces cat d = .ok own ∧
      ps = body ++ .token (.keyword .between op.keyword) :: own ++ tail := by
  obtain rfl := Except.ok.inj ((addUnion_eq hu op member).symm.trans hq)
  obtain ⟨core, all, tail, hcore, hrows, htail, rfl⟩ := (pieces_built_eq_ok (by exact hx)).1 hp
  rw [Drafted.each_tuple, List.map_append, Draft.piecesAll_append_eq_ok] at hrows
  obtain ⟨rows, last, hrows, hlast, rfl⟩ := hrows
  obtain ⟨ps, hps, rfl⟩ := Draft.piecesAll_singleton_eq_ok.1 hlast
  obtain ⟨hpaged, own, hown, rfl⟩ := pieces_member_eq_ok.1 hps
  refine ⟨core ++ rows.flatten, own, tail, htail, ?_, hpaged, hown, by simp⟩
  refine (pieces_built_eq_ok hx).2 ⟨core, rows, tail, hcore, ?_, htail, rfl⟩
  rwa [hu, Drafted.each_tuple]

end Select

namespace SetTree

/-- The SELECT that a tree is combined to: each part on the right is added to the one on its left. -/
def build : SetTree Select → Except Error Select
  | leaf q => .ok q
  | node op left right => do
    let q ← left.build
    q.addUnion op (.select (← right.build))

variable {t left right : SetTree Select} {op : SetOperator}

theorem build_node (h : (node op left right).build = .ok q) : ∃ first member,
    left.build = .ok first ∧ right.build = .ok member ∧
      first.addUnion op (.select member) = .ok q := by
  obtain ⟨first, hfirst, hrest⟩ := Except.bind_eq_ok_iff.1 h
  obtain ⟨member, hmember, hq⟩ := Except.bind_eq_ok_iff.1 hrest
  exact ⟨first, member, hfirst, hmember, hq⟩

/-- Apart from its members a tree is its first leaf. -/
theorem exists_eq_of_build (hs : ∀ leaf ∈ t.chain.leaves, leaf.Shape) (h : t.build = .ok q) :
    ∃ vs, q = { t.chain.first with unions := .tuple vs } := by
  induction t generalizing q with
  | leaf a =>
    obtain rfl := Except.ok.inj h
    have ha := (hs _ List.mem_cons_self).unions
    exact ⟨[], by cases a; rw [← ha]; rfl⟩
  | node op left right ihl ihr =>
    rw [leaves_chain_node, List.forall_mem_append] at hs
    obtain ⟨first, member, hfirst, hmember, hq⟩ := build_node h
    obtain ⟨vs, rfl⟩ := ihl hs.1 hfirst
    exact ⟨_, (Except.ok.inj ((Select.addUnion_eq rfl op member).symm.trans hq)).symm⟩

/-- A tree of well-formed leaves is well-formed. -/
theorem wellFormed_of_build (hs : ∀ leaf ∈ t.chain.leaves, leaf.Shape)
    (hw : ∀ leaf ∈ t.chain.leaves, (Value.select leaf).WellFormed) (h : t.build = .ok q) :
    (Value.select q).WellFormed := by
  induction t generalizing q with
  | leaf a =>
    obtain rfl := Except.ok.inj h
    exact hw _ List.mem_cons_self
  | node op left right ihl ihr =>
    rw [leaves_chain_node, List.forall_mem_append] at hs hw
    obtain ⟨first, member, hfirst, hmember, hq⟩ := build_node h
    obtain ⟨vs, rfl⟩ := exists_eq_of_build hs.1 hfirst
    have hleft := ihl hs.1 hw.1 hfirst
    have hright := ihr hs.2 hw.2 hmember
    rw [Select.addUnion_eq rfl, Except.ok.injEq] at hq
    subst hq
    cases hleft with
    | plain h => cases h
    | select hx filter fields fieldRow sources sourceRow joins joinRow groupBy groupRow having orderBy
        orderRow unions unionRow =>
      refine .select hx filter fields fieldRow sources sourceRow joins joinRow groupBy groupRow having
        orderBy orderRow (Value.wellFormed_tuple.2 ?_) rfl
      rw [List.forall_mem_append]
      refine ⟨Value.wellFormed_tuple.1 unions, ?_⟩
      have hword : (Value.text op.keyword).WellFormed := .plain rfl
      simpa [Value.wellFormed_tuple] using ⟨hword, hright⟩

theorem pieces_chain_node {left right : SetTree (List Piece)} : (node op left right).chain.pieces
    = left.chain.pieces ++ .token (.keyword .between op.keyword) :: right.chain.pieces := by
  simp [chain, SetChain.pieces, SetChain.memberPieces]

/-- A tree is written as the chain of its leaves, of which only the first may have an order and
bounds. They stand behind the last one. -/
theorem exists_pieces_of_build (hs : ∀ leaf ∈ t.chain.leaves, leaf.Shape) (h : t.build = .ok q)
    (hp : ((Value.select q).built cat d.engine).pieces cat d = .ok ps) :
    (∀ m ∈ t.chain.members, (Value.select m.2).isPaged cat = .ok false) ∧
    ∃ (u : SetTree (List Piece)) (tail : List Piece), t.Forall₂ (Select.WrittenAs cat d) u ∧
      ((t.chain.first.parts cat d.engine).closing cat d.engine).pieces cat d = .ok tail ∧
      ps = u.chain.pieces ++ tail := by
  induction t generalizing q ps with
  | leaf a =>
    obtain rfl := Except.ok.inj h
    have ha := hs _ List.mem_cons_self
    obtain ⟨own, tail, -, htail, rfl⟩ := ha.pieces_built_eq_ok.1 hp
    have hown : (leaf own).chain.pieces = own := List.append_nil own
    exact ⟨by simp [chain], .leaf own, tail, .leaf ⟨tail, htail, hp⟩, htail, by rw [hown]⟩
  | node op left right ihl ihr =>
    rw [leaves_chain_node, List.forall_mem_append] at hs
    obtain ⟨first, member, hfirst, hmember, hq⟩ := build_node h
    obtain ⟨vs, rfl⟩ := exists_eq_of_build hs.1 hfirst
    have hx := (hs.1 _ List.mem_cons_self).extras
    obtain ⟨body, own, tail, htail, hbody, hpaged, hown, rfl⟩ :=
      Select.pieces_addUnion (by exact hx) rfl hq hp
    obtain ⟨hleft, u, tail', hu, htail', hps⟩ := ihl hs.1 hfirst hbody
    obtain rfl := Except.ok.inj (htail.symm.trans htail')
    obtain rfl := List.append_cancel_right hps
    obtain ⟨vs, rfl⟩ := exists_eq_of_build hs.2 hmember
    obtain ⟨hright, w, last, hw, hlast, rfl⟩ := ihr hs.2 hmember hown
    obtain rfl := Select.pieces_closing_of_unpaged hpaged hlast
    refine ⟨?_, .node op u w, tail, .node op hu hw, htail, ?_⟩
    · rw [Value.isPaged_select] at hpaged
      rw [chain, List.forall_mem_append, List.forall_mem_cons, Value.isPaged_select]
      exact ⟨hleft, hpaged, hright⟩
    · rw [pieces_chain_node, List.append_nil]

end SetTree

/-- SELECTs that are combined to a tree compile, if at all, to the leaves of the tree with the set
operators between them. Only the first leaf may have an order and bounds, which stand behind all
leaves. Read from left to right the leaves have the rows of the tree if the chain of the tree keeps
them; otherwise they have other rows for some rows of the leaves, if no two leaves are equal. -/
theorem unions_read_back {t : SetTree Select} (hd : d.WritesText)
    (ht : ∀ leaf ∈ t.chain.leaves, leaf.Stepwise cat ∧ (Value.select leaf).WellFormed)
    (hq : t.build = .ok q) {c : Compiled} (hc : compile cat d (.select q) = .ok c) :
    (∀ m ∈ t.chain.members, (Value.select m.2).isPaged cat = .ok false) ∧
    ∃ (u : SetTree (List Piece)) (tail : List Piece) (marks : List String),
      t.Forall₂ (Select.WrittenAs cat d) u ∧
      ((t.chain.first.parts cat d.engine).closing cat d.engine).pieces cat d = .ok tail ∧
      ((Value.select t.chain.first).isPaged cat = .ok false → tail = []) ∧
      marks.length = (Piece.values (u.chain.pieces ++ tail)).length ∧
      c.sql = .text ((Template.ofPieces (u.chain.pieces ++ tail)).spelled marks) ∧
      SetChain.read u.chain.pieces = some u.chain ∧
      ∀ (ρ : Type) [DecidableEq ρ] [Inhabited ρ],
        (t.keeps = true → ∀ rows : List Piece → Multiset ρ, u.chain.rows rows = u.rows rows) ∧
        (t.keeps = false → u.chain.leaves.Nodup →
          ∃ rows : List Piece → Multiset ρ, u.chain.rows rows ≠ u.rows rows) := by
  have hs : ∀ leaf ∈ t.chain.leaves, leaf.Shape := fun leaf hleaf => (ht leaf hleaf).1.shape
  have hw := SetTree.wellFormed_of_build hs (fun leaf hleaf => (ht leaf hleaf).2) hq
  obtain ⟨ps, marks, hps, hlength, hsql⟩ := exists_pieces_of_compile hd hw hc
  obtain ⟨hmembers, u, tail, hu, htail, rfl⟩ := SetTree.exists_pieces_of_build hs hq hps
  have hsingle : ∀ own ∈ u.chain.leaves, Piece.Single own := by
    intro own hown
    obtain ⟨leaf, hleaf, hwritten⟩ := hu.exists_of_mem_leaves hown
    have hshape := hs leaf hleaf
    exact Select.single_core hd hshape (ht leaf hleaf).2 own (hwritten.core hshape)
  refine ⟨hmembers, u, tail, marks, hu, htail,
    fun h => Select.pieces_closing_of_unpaged h htail, hlength, hsql,
    SetChain.read_pieces hsingle, fun ρ _ _ => ⟨fun hkeeps rows => ?_, fun hkeeps hn => ?_⟩⟩
  · exact SetTree.rows_chain_of_keeps (hu.keeps_eq.trans hkeeps)
  · exact SetTree.exists_rows_ne default (hu.keeps_eq.trans hkeeps) hn

/-- Three tables of one column each. -/
def Catalog.threeTables : Catalog where
  columns := #[{ name := "x", owner := some ⟨0⟩ }, { name := "x", owner := some ⟨1⟩ },
    { name := "x", owner := some ⟨2⟩ }]
  tables := #[{ name := "a", columns := [{ id := ⟨0⟩ }] }, { name := "b", columns := [{ id := ⟨1⟩ }] },
    { name := "c", columns := [{ id := ⟨2⟩ }] }]

/-- A SELECT of one column. -/
def Select.ofColumn (i : Nat) : Select :=
  { Select.empty with fields := .tuple [.expr (.column .none ⟨i⟩)] }

/-- The pieces of a SELECT of one column. -/
def Piece.ofColumn (table column : String) : List Piece :=
  [.token (.keyword .before "SELECT"), .word table, .token (.text "."), .word column,
    .token (.keyword .between "FROM"), .word table]

/-- A UNION of two SELECTs that is added to a third one with UNION ALL. -/
def SetTree.mixed : SetTree Select :=
  .node .unionAll (.leaf (.ofColumn 0)) (.node .union (.leaf (.ofColumn 1)) (.leaf (.ofColumn 2)))

def Select.mixed : Select :=
  { Select.ofColumn 0 with
    unions := .tuple [.tuple [.text "UNION ALL", .select { Select.ofColumn 1 with
      unions := .tuple [.tuple [.text "UNION", .select (.ofColumn 2)]] }]] }

/-- Without brackets the UNION drops duplicates of all three SELECTs. -/
theorem unions_read_back_mixed :
    SetTree.mixed.build = .ok .mixed ∧
    compile .threeTables default (.select .mixed) = .ok ⟨.text
      "SELECT a.x FROM a UNION ALL SELECT b.x FROM b UNION SELECT c.x FROM c", []⟩ ∧
    ∃ u : SetTree (List Piece), SetTree.mixed.Forall₂ (Select.WrittenAs .threeTables default) u ∧
      SetChain.read u.chain.pieces = some u.chain ∧
      ∃ rows : List Piece → Multiset ℕ, u.chain.rows rows ≠ u.rows rows := by
  have hstep : ∀ i < 3, (Select.ofColumn i).Stepwise .threeTables := fun i _ =>
    .select .empty [.expr (.column .none ⟨i⟩)] rfl
  have hwell : ∀ i, (Value.select (.ofColumn i)).WellFormed := by
    intro i
    have hempty : (Value.tuple []).WellFormed := Value.wellFormed_tuple.2 (by simp)
    exact .select Value.unhooked_nil (.plain rfl) (Value.wellFormed_tuple.2 (by simp)) rfl hempty rfl
      hempty rfl hempty rfl (.plain rfl) hempty rfl hempty rfl
  have ht : ∀ leaf ∈ SetTree.mixed.chain.leaves,
      leaf.Stepwise .threeTables ∧ (Value.select leaf).WellFormed := by
    simp [SetTree.mixed, SetTree.chain, SetChain.leaves, hstep, hwell]
  have hc : compile .threeTables default (.select .mixed) = .ok ⟨.text
      "SELECT a.x FROM a UNION ALL SELECT b.x FROM b UNION SELECT c.x FROM c", []⟩ := rfl
  obtain ⟨-, u, tail, marks, hu, -, -, -, -, hread, hrows⟩ :=
    unions_read_back (d := default) ⟨rfl, rfl⟩ ht rfl hc
  refine ⟨rfl, hc, u, hu, hread, (hrows ℕ).2 rfl ?_⟩
  have hown : ∀ i < 3, ∀ table own, (((Select.ofColumn i).parts .threeTables .generic).core
      .threeTables).pieces .threeTables default = .ok (Piece.ofColumn table "x") →
      (Select.ofColumn i).WrittenAs .threeTables default own → Piece.ofColumn table "x" = own := by
    intro i hi table own hcore hwritten
    exact Except.ok.inj (hcore.symm.trans (hwritten.core (hstep i hi).shape))
  obtain ⟨⟩ | ⟨-, ⟨hfirst⟩, ⟨⟩ | ⟨-, ⟨hsecond⟩, ⟨hthird⟩⟩⟩ := hu
  obtain rfl := hown 0 (by decide) "a" _ rfl hfirst
  obtain rfl := hown 1 (by decide) "b" _ rfl hsecond
  obtain rfl := hown 2 (by decide) "c" _ rfl hthird
  simp [SetTree.chain, SetChain.leaves, Piece.ofColumn]

end SqlCompose
