import SqlCompose.Proofs.Dialect.Quoting
import SqlCompose.Proofs.Draft.Piece

/-!
# Drafts of fixed texts

A draft that is put together from fixed texts and names is written as one text, whatever was bound
before it, and binds nothing.
-/
namespace SqlCompose

namespace Draft

variable {cat : Catalog} {host : Host} {x y : Draft} {s t : String}

/-- Whether a draft is always written as a given text and binds nothing. -/
def Spells (cat : Catalog) (host : Host) (x : Draft) (s : String) : Prop :=
  x.assemble cat host = pure (.text s)

theorem spells_token (t : Token) : (token t).Spells cat host t.spelling := by
  rw [Spells, assemble]

theorem spells_text (s : String) : (text s).Spells cat host s := spells_token _

namespace Spells

theorem plus (hx : x.Spells cat host s) (hy : y.Spells cat host t) :
    (x + y).Spells cat host (s ++ t) := by
  rw [Spells, show x + y = .plus x y from rfl, assemble, hx, hy]
  rfl

theorem extend (hx : x.Spells cat host s) (hy : y.Spells cat host t) :
    (x ++ y).Spells cat host (s ++ t) := by
  rw [Spells, show x ++ y = .extend x y from rfl, assemble, hx, hy]
  rfl

theorem shown (hx : x.Spells cat host s) : x.shown.Spells cat host s := by
  rw [Spells, assemble, hx]
  rfl

/-- Drafts that go on with one another. -/
theorem continued {items : List Draft} {texts : List String} (hx : x.Spells cat host s)
    (h : List.Forall₂ (Spells cat host) items texts) :
    (x.continued items).Spells cat host (s ++ String.join texts) := by
  induction h generalizing x s with
  | nil => simpa [Draft.continued] using hx
  | @cons y t items texts hy _ ih =>
    have hrest := ih (hx.extend hy)
    rwa [String.join_cons, ← String.append_assoc]

theorem assembleAll {items : List Draft} {texts : List String}
    (h : List.Forall₂ (Spells cat host) items texts) :
    Draft.assembleAll cat host items = pure (texts.map .text) := by
  induction h with
  | nil => rfl
  | cons hx _ ih =>
    rw [Draft.assembleAll, hx, ih]
    rfl

theorem commaSeparated {items : List Draft} {texts : List String}
    (h : List.Forall₂ (Spells cat host) items texts) :
    (commaSeparated items).Spells cat host (", ".intercalate texts) := by
  rw [Spells, Draft.commaSeparated, assemble, assembleAll h, pure_bind, Value.joined_text]
  rfl

/-- Drafts in a frame. -/
theorem framed {opening closing : Draft} {items : List Draft} {texts : List String}
    (ho : opening.Spells cat host s) (hi : List.Forall₂ (Spells cat host) items texts)
    (hc : closing.Spells cat host t) :
    (framed none opening items closing).Spells cat host (s ++ ", ".intercalate texts ++ t) := by
  rw [Spells, assemble, assembleAll hi, ho, hc]
  simp only [pure_bind, Assembly.led, Assembly.lift, Value.joined_text]
  rfl

/-- What a draft of a fixed text comes out as. -/
theorem eq_of_yields {v : Value} (h : x.Spells cat host s) (hv : x.Yields cat host v) :
    v = .text s := by
  obtain ⟨bound, rest, hrun⟩ := hv
  rw [h] at hrun
  cases hrun
  rfl

theorem yields (h : x.Spells cat host s) : x.Yields cat host (.text s) :=
  ⟨#[], #[], by rw [h]; rfl⟩

/-- The outcome of a draft of a fixed text. -/
theorem outcome (h : x.Spells cat host s) (bound : List Value) :
    x.outcome cat host bound = (.ok (.text s), bound) := by
  rw [Draft.outcome, h]
  rfl

end Spells

/-! ## Names -/

section Names

variable {d : Dialect} (hd : d.WritesText) (hq : host.QuotesAs cat d)
include hq

theorem spells_of_quotes {name word : String} (h : d.Quotes cat name word) :
    (nameDraft name).Spells cat host word := by
  rw [Spells, nameDraft, assemble, hq, h]
  rfl

include hd

theorem spells_nameDraft (s : String) :
    (nameDraft s).Spells cat host (quoteName d.identifierQuote s) :=
  spells_of_quotes hq (Dialect.quote_eq_text cat hd s)

theorem spells_names {α : Type} (f : α → String) (as : List α) :
    (commaSeparated (as.map fun a => nameDraft (f a))).Spells cat host
      (", ".intercalate (as.map fun a => quoteName d.identifierQuote (f a))) := by
  refine .commaSeparated ?_
  rw [List.forall₂_map_left_iff, List.forall₂_map_right_iff]
  exact List.forall₂_same.2 fun a _ => spells_nameDraft hd hq (f a)

end Names

end Draft

end SqlCompose
