import Mathlib.Data.List.Forall2
import SqlCompose.Proofs.Draft.Row

/-!
# Outcomes of drafts

What a draft comes out as is made of what its parts come out as, whatever was bound before them. If
it is a text, so are the parts that stand in it, and they stand in it in their order. A draft that
comes out at all has passed the checks before it.
-/
namespace SqlCompose

namespace Value

theorem text_inj {s t : String} (h : Value.text s = .text t) : s = t :=
  Scalar.text.inj (Value.scalar.inj h)

/-- Whether a value is a text only if it is put together from two texts. -/
def Joins (u w v : Value) : Prop :=
  ∀ s, v = .text s → ∃ a b, u = .text a ∧ w = .text b ∧ s = a ++ b

namespace Joins

variable {u w v : Value} {a b s : String}

theorem before (h : Joins u (.text b) v) (hs : v = .text s) : ∃ t, u = .text t ∧ s = t ++ b := by
  obtain ⟨t, c, hu, hc, rfl⟩ := h s hs
  obtain rfl := text_inj hc
  exact ⟨t, hu, rfl⟩

theorem behind (h : Joins (.text a) w v) (hs : v = .text s) : ∃ t, w = .text t ∧ s = a ++ t := by
  obtain ⟨c, t, hc, hw, rfl⟩ := h s hs
  obtain rfl := text_inj hc
  exact ⟨t, hw, rfl⟩

end Joins

theorem joins_of_joinedTo {symbol : String} {u w v : Value} (h : joinedTo symbol u w = .ok v) :
    Joins u w v := by
  rintro s rfl
  unfold joinedTo at h
  split at h
  · cases h
  · split at h
    · obtain rfl := text_inj (Except.ok.inj h)
      exact ⟨_, _, rfl, rfl, rfl⟩
    · cases h
    · split at h <;> cases h

theorem joins_of_extend {cat : Catalog} {u w v : Value} (h : u.extend cat w = .ok v) :
    Joins u w v := by
  unfold extend at h
  split at h
  · obtain ⟨items, -, hlist⟩ := Except.bind_eq_ok_iff.1 h
    rintro s rfl
    cases hlist
  · exact joins_of_joinedTo h

end Value

namespace Draft

variable {cat : Catalog} {host : Host} {x y : Draft} {items : List Draft} {v : Value}

/-- Whether a draft can come out as a value. -/
def Yields (cat : Catalog) (host : Host) (x : Draft) (v : Value) : Prop :=
  ∃ bound rest, (x.assemble cat host).run bound = (.ok v, rest)

theorem not_yields_fail (e : Error) : ¬Yields cat host (.fail e) v := by
  rintro ⟨bound, rest, h⟩
  cases h

namespace Yields

theorem given {α : Type} {r : Except Error α} {f : α → Draft} (h : Yields cat host (.given r f) v) :
    ∃ a, r = .ok a ∧ Yields cat host (f a) v := by
  cases r with
  | ok a => exact ⟨a, rfl, h⟩
  | error e => exact absurd h (not_yields_fail e)

theorem guarded {check : Except Error Unit} (h : Yields cat host (.guarded check x) v) :
    check = .ok () ∧ Yields cat host x v := by
  cases check with
  | ok u => exact ⟨rfl, h⟩
  | error e => exact absurd h (not_yields_fail e)

theorem token {t : Token} (h : Yields cat host (.token t) v) : v = .text t.spelling := by
  obtain ⟨bound, rest, h⟩ := h
  cases h
  rfl

theorem of_lift {α : Type} {r : Except Error α} {a : α} {bound rest : Array Value}
    (h : (Assembly.lift r).run bound = (.ok a, rest)) : r = .ok a := by
  cases r with
  | ok b =>
    cases h
    rfl
  | error e => cases h

theorem name {u : Value} (h : Yields cat host (.name u) v) : host.quote cat u = .ok v := by
  obtain ⟨bound, rest, h⟩ := h
  rw [assemble] at h
  exact of_lift h

theorem member {u : Value} {word : String} (h : Yields cat host (.member u word) v) :
    ∃ f, u.get cat word = .ok f := by
  obtain ⟨bound, rest, h⟩ := h
  rw [assemble] at h
  obtain ⟨f, between, hf, -⟩ := Assembly.run_bind_eq_ok h
  exact ⟨f, of_lift hf⟩

theorem before (h : Yields cat host (.before x y) v) :
    (∃ u, Yields cat host x u) ∧ Yields cat host y v := by
  obtain ⟨bound, rest, h⟩ := h
  rw [assemble] at h
  obtain ⟨u, between, hx, hy⟩ := Assembly.run_bind_eq_ok h
  refine ⟨?_, between, rest, hy⟩
  change (Functor.mapConst PUnit.unit (x.assemble cat host)).run bound = _ at hx
  rw [map_const, Function.comp_apply, map_eq_pure_bind] at hx
  obtain ⟨w, last, hw, -⟩ := Assembly.run_bind_eq_ok hx
  exact ⟨w, bound, last, hw⟩

theorem plus (h : Yields cat host (.plus x y) v) :
    ∃ u w, Yields cat host x u ∧ Yields cat host y w ∧ Value.Joins u w v := by
  obtain ⟨bound, rest, h⟩ := h
  rw [assemble] at h
  obtain ⟨u, between, hx, hnext⟩ := Assembly.run_bind_eq_ok h
  obtain ⟨w, last, hy, hjoin⟩ := Assembly.run_bind_eq_ok hnext
  exact ⟨u, w, ⟨bound, between, hx⟩, ⟨between, last, hy⟩, Value.joins_of_joinedTo (of_lift hjoin)⟩

theorem extend (h : Yields cat host (.extend x y) v) :
    ∃ u w, Yields cat host x u ∧ Yields cat host y w ∧ Value.Joins u w v := by
  obtain ⟨bound, rest, h⟩ := h
  rw [assemble] at h
  obtain ⟨u, between, hx, hnext⟩ := Assembly.run_bind_eq_ok h
  obtain ⟨w, last, hy, hjoin⟩ := Assembly.run_bind_eq_ok hnext
  exact ⟨u, w, ⟨bound, between, hx⟩, ⟨between, last, hy⟩, Value.joins_of_extend (of_lift hjoin)⟩

theorem shown (h : Yields cat host (.shown x) v) :
    ∃ u s, Yields cat host x u ∧ u.label cat = .ok s ∧ v = .text s := by
  obtain ⟨bound, rest, h⟩ := h
  rw [assemble] at h
  obtain ⟨u, between, hx, hnext⟩ := Assembly.run_bind_eq_ok h
  cases hs : u.label cat with
  | error e =>
    rw [hs] at hnext
    cases hnext
  | ok s =>
    rw [hs] at hnext
    cases hnext
    exact ⟨u, s, ⟨bound, rest, hx⟩, hs, rfl⟩

/-- A draft between two fixed texts. -/
theorem between {a b : Token} (h : Yields cat host (.token a + x + .token b) v) :
    ∃ u, Yields cat host x u ∧
      ∀ s, v = .text s → ∃ t, u = .text t ∧ s = a.spelling ++ t ++ b.spelling := by
  obtain ⟨front, close, hfront, hclose, hjoin⟩ := Yields.plus h
  obtain ⟨lead, u, hlead, hu, hjoined⟩ := Yields.plus hfront
  obtain rfl := hlead.token
  obtain rfl := hclose.token
  refine ⟨u, hu, fun s hs => ?_⟩
  obtain ⟨t, ht, rfl⟩ := hjoin.before hs
  obtain ⟨r, hr, rfl⟩ := hjoined.behind ht
  exact ⟨r, hr, rfl⟩

/-- Drafts that are written one after the other come out one by one. -/
theorem of_writesAll {texts : List String} {bound rest : Array Value}
    (h : WritesAll cat host items bound texts rest) :
    List.Forall₂ (fun x s => Yields cat host x (.text s)) items texts := by
  induction items generalizing bound texts with
  | nil =>
    obtain ⟨rfl, -⟩ := writesAll_nil.1 h
    exact .nil
  | cons x items ih =>
    obtain ⟨s, between, others, hx, hrest, rfl⟩ := writesAll_cons.1 h
    exact .cons ⟨bound, between, hx⟩ (ih hrest)

/-- A row is made of texts. -/
theorem row {separator : Token} (h : Yields cat host (.row separator items) v) : ∃ texts,
    List.Forall₂ (fun x s => Yields cat host x (.text s)) items texts ∧
      v = .text (separator.spelling.intercalate texts) := by
  obtain ⟨bound, rest, h⟩ := h
  obtain ⟨texts, htexts, hv⟩ := run_row.1 h
  exact ⟨texts, of_writesAll htexts, hv⟩

/-- A row of which each item is drafted in the same way. -/
theorem commaSeparated {α : Type} {f : α → Draft} {xs : List α}
    (h : Yields cat host (.commaSeparated (xs.map f)) v) : ∃ texts,
    List.Forall₂ (fun a s => Yields cat host (f a) (.text s)) xs texts ∧
      v = .text (", ".intercalate texts) := by
  obtain ⟨texts, htexts, hv⟩ := h.row
  exact ⟨texts, List.forall₂_map_left_iff.1 htexts, hv⟩

/-- What a draft that goes on with others comes out as starts with the draft. -/
theorem continued (h : Yields cat host (x.continued items) v) :
    ∃ u, Yields cat host x u ∧ ∀ s, v = .text s → ∃ a b, u = .text a ∧ s = a ++ b := by
  induction items generalizing x with
  | nil => exact ⟨v, h, fun s hs => ⟨s, "", hs, by simp⟩⟩
  | cons y items ih =>
    obtain ⟨w, hw, hstart⟩ := ih h
    obtain ⟨u, t, hx, -, hjoin⟩ := Yields.extend hw
    refine ⟨u, hx, fun s hs => ?_⟩
    obtain ⟨front, last, hfront, rfl⟩ := hstart s hs
    obtain ⟨a, b, ha, -, rfl⟩ := hjoin front hfront
    exact ⟨a, b ++ last, ha, String.append_assoc⟩

/-- What goes on with several drafts has each of them in it. -/
theorem continued_item {before behind : List Draft} {s : String}
    (h : Yields cat host (x.continued (before ++ y :: behind)) (.text s)) :
    ∃ front t back, Yields cat host y (.text t) ∧ s = front ++ t ++ back := by
  have hsplit : x.continued (before ++ y :: behind)
      = (Draft.extend (x.continued before) y).continued behind := List.foldl_append
  rw [hsplit] at h
  obtain ⟨v, hv, hstart⟩ := h.continued
  obtain ⟨a, back, rfl, rfl⟩ := hstart s rfl
  obtain ⟨u, w, -, hw, hjoin⟩ := hv.extend
  obtain ⟨front, t, rfl, rfl, rfl⟩ := hjoin a rfl
  exact ⟨front, t, back, hw, rfl⟩

/-- A frame is written around texts. -/
theorem framed {opening closing : Draft}
    (h : Yields cat host (.framed none opening items closing) v) : ∃ texts u w,
    List.Forall₂ (fun x s => Yields cat host x (.text s)) items texts ∧
      Yields cat host opening u ∧ Yields cat host closing w ∧
      ∀ s, v = .text s → ∃ a b, u = .text a ∧ w = .text b ∧
        s = a ++ ", ".intercalate texts ++ b := by
  obtain ⟨bound, rest, h⟩ := h
  rw [assemble] at h
  obtain ⟨vs, first, hvs, hnext⟩ := Assembly.run_bind_eq_ok h
  obtain ⟨written, _, hled, hopen⟩ := Assembly.run_bind_eq_ok hnext
  obtain ⟨u, _, hu, hjoin⟩ := Assembly.run_bind_eq_ok hopen
  obtain ⟨list, _, hlist, hfill⟩ := Assembly.run_bind_eq_ok hjoin
  obtain ⟨filled, _, hfilled, hclose⟩ := Assembly.run_bind_eq_ok hfill
  obtain ⟨w, _, hw, hlast⟩ := Assembly.run_bind_eq_ok hclose
  obtain rfl := Except.ok.inj (of_lift hled)
  obtain ⟨texts, rfl, rfl⟩ := Value.joined_eq_ok_iff.1 (of_lift hlist)
  refine ⟨texts, u, w, of_writesAll hvs, ⟨_, _, hu⟩, ⟨_, _, hw⟩, fun s hs => ?_⟩
  obtain ⟨front, b, hfront, hb, rfl⟩ := Value.joins_of_joinedTo (of_lift hlast) s hs
  obtain ⟨a, t, ha, ht, rfl⟩ := Value.joins_of_joinedTo (of_lift hfilled) front hfront
  obtain rfl := Value.text_inj ht
  exact ⟨a, b, ha, hb, rfl⟩

end Yields

end Draft

end SqlCompose
