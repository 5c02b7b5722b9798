import SqlCompose.Compile
import SqlCompose.Proofs.Draft.Outcome

/-!
# Quoted names in drafts

However a dialect quotes names, a name comes out as a word. So names between commas come out as their
words between commas.
-/
namespace SqlCompose

variable {cat : Catalog} {d : Dialect}

namespace Value

/-- No expression starts a text. -/
theorem expr?_eq_none_of_textHas {e : End} {s : String} {u v : Value} (h : textHas e s u = .ok v) :
    u.expr? = Option.none := by
  cases u with
  | expr x => cases h
  | _ => rfl

/-- Only texts take each other's place in a text. -/
theorem texts_of_textReplaced {s : String} {old new v : Value}
    (h : textReplaced s old new = .ok v) : (∃ a, old = .text a) ∧ ∃ t, v = .text t := by
  unfold textReplaced at h
  split at h
  · rename_i a b ha _
    exact ⟨⟨a, eq_text_of_text? ha⟩, _, (Except.ok.inj h).symm⟩
  · cases h
  · cases h

/-- Of what is no expression only texts go before a text. -/
theorem exists_text_of_plus {u v : Value} {s : String} (hu : u.expr? = Option.none)
    (h : u.plus (.text s) = .ok v) : ∃ a, u = .text a ∧ v = .text (a ++ s) := by
  unfold plus joinedTo at h
  rw [hu, if_neg (by simp [expr?, text])] at h
  split at h
  · rename_i a b hb
    obtain rfl := Value.text_inj hb
    exact ⟨a, rfl, (Except.ok.inj h).symm⟩
  · rename_i hb
    cases hb
  · have hl : (text s).list? = Option.none := rfl
    have ht : (text s).tuple? = Option.none := rfl
    simp [hl, ht] at h

end Value

/-- Between quotes of any kind a text stays as it is or starts with the opening quote. -/
theorem cases_of_quoteAny {quotes : Value × Value} {name : String} {v : Value}
    (h : quoteAny cat quotes (.text name) = .ok v) :
    v = .text name ∨ ∃ a rest, quotes.1 = .text a ∧ v = .text (a ++ rest) := by
  obtain ⟨opening, closing⟩ := quotes
  have hword : ∀ word : Value, (pure word : Except Error Value) = .ok v → v = word :=
    fun word hword => (Except.ok.inj hword).symm
  unfold quoteAny at h
  simp only at h
  split at h
  · exact .inl (hword _ h)
  · obtain ⟨started, hstarted, h⟩ := Except.bind_eq_ok_iff.1 h
    split at h
    · exact .inl (hword _ h)
    · obtain ⟨double, -, h⟩ := Except.bind_eq_ok_iff.1 h
      obtain ⟨inner, hinner, h⟩ := Except.bind_eq_ok_iff.1 h
      obtain ⟨opened, hopened, hclosed⟩ := Except.bind_eq_ok_iff.1 h
      obtain ⟨⟨close, rfl⟩, body, rfl⟩ := Value.texts_of_textReplaced hinner
      obtain ⟨a, rfl, rfl⟩ :=
        Value.exists_text_of_plus (Value.expr?_eq_none_of_textHas hstarted) hopened
      refine .inr ⟨a, body ++ close, rfl, ?_⟩
      rw [← String.append_assoc]
      exact (Except.ok.inj hclosed).symm

/-- A text between quotes of any kind is a text. -/
theorem exists_text_of_quoteAny {quotes : Value × Value} {name : String} {v : Value}
    (h : quoteAny cat quotes (.text name) = .ok v) : ∃ word, v = .text word := by
  obtain rfl | ⟨a, rest, -, rfl⟩ := cases_of_quoteAny h
  · exact ⟨name, rfl⟩
  · exact ⟨a ++ rest, rfl⟩

namespace Dialect

/-- Whether a dialect writes a name as a word. -/
def Quotes (cat : Catalog) (d : Dialect) (name word : String) : Prop :=
  d.quote cat (.text name) = .ok (.text word)

/-- A name becomes a word, if anything. -/
theorem exists_quotes {name : String} {v : Value} (h : d.quote cat (.text name) = .ok v) :
    ∃ word, v = .text word ∧ d.Quotes cat name word := by
  obtain ⟨word, rfl⟩ : ∃ word, v = .text word := by
    unfold quote at h
    split at h
    · exact ⟨_, (Except.ok.inj h).symm⟩
    · rename_i hnone
      cases hnone
    · obtain ⟨quotes, -, hquoted⟩ := Except.bind_eq_ok_iff.1 h
      exact exists_text_of_quoteAny hquoted
  exact ⟨word, rfl, h⟩

/-- What is looked up is found without the entries that have another name. -/
theorem lookup_filter_ne {name other : String} (h : name ≠ other) (entries : List (String × Value)) :
    (entries.filter (·.1 ≠ other)).lookup name = entries.lookup name := by
  induction entries with
  | nil => rfl
  | cons entry entries ih =>
    obtain ⟨field, v⟩ := entry
    by_cases hf : field = other
    · have hn : (name == field) = false := by simpa [hf] using h
      rw [List.filter_cons_of_neg (by simpa using hf), List.lookup_cons, hn, ih]
    · rw [List.filter_cons_of_pos (by simpa using hf), List.lookup_cons, List.lookup_cons, ih]

theorem quote_inlining (cat : Catalog) (d : Dialect) (v : Value) :
    d.inlining.quote cat v = d.quote cat v := by
  have hlookup : d.inlining.given.lookup "identifier_quote" = d.given.lookup "identifier_quote" :=
    lookup_filter_ne (by decide) d.given
  rw [quote, quote, hlookup]
  rfl

end Dialect

/-- Whether a host writes names as a dialect does. -/
def Host.QuotesAs (cat : Catalog) (d : Dialect) (host : Host) : Prop :=
  ∀ v, host.quote cat v = d.quote cat v

/-- Whether literals are bound is nothing to names. -/
theorem Host.quotesAs_inlining (cat : Catalog) (d : Dialect) (number : Nat) :
    (Host.context d.inlining number).QuotesAs cat d := d.quote_inlining cat

namespace Draft.Yields

variable {host : Host}

/-- A draft under an alias. -/
theorem named {x : Draft} {asName : Value} {s : String}
    (h : Yields cat host (x.named asName) (.text s)) :
    ∃ t, Yields cat host x (.text t) ∧ (s = t ∨ ∃ other, s = t ++ " AS " ++ other) := by
  unfold Draft.named at h
  split at h
  · obtain ⟨u, last, hx, hlast, hjoin⟩ := Draft.Yields.extend h
    obtain ⟨keyword, _, hkeyword, -, hjoined⟩ := Draft.Yields.plus hlast
    obtain rfl := hkeyword.token
    obtain ⟨t, behind, rfl, hbehind, rfl⟩ := hjoin s rfl
    obtain ⟨other, -, rfl⟩ := hjoined.behind hbehind
    exact ⟨t, hx, .inr ⟨other, (String.append_assoc ..).symm⟩⟩
  · exact ⟨s, h, .inl rfl⟩

variable (hd : host.QuotesAs cat d)
include hd

theorem nameDraft {name : String} {v : Value} (h : Yields cat host (nameDraft name) v) :
    ∃ word, v = .text word ∧ d.Quotes cat name word :=
  Dialect.exists_quotes ((hd _).symm.trans h.name)

/-- Names between commas. -/
theorem names {α : Type} {f : α → String} {xs : List α} {v : Value}
    (h : Yields cat host (.commaSeparated (xs.map fun a => SqlCompose.nameDraft (f a))) v) :
    ∃ words, List.Forall₂ (fun a => d.Quotes cat (f a)) xs words ∧
      v = .text (", ".intercalate words) := by
  obtain ⟨words, hwords, hv⟩ := h.commaSeparated
  refine ⟨words, hwords.imp fun a word hword => ?_, hv⟩
  obtain ⟨_, hword, hquoted⟩ := nameDraft hd hword
  obtain rfl := Value.text_inj hword
  exact hquoted

/-- A name with items in parentheses behind it. -/
theorem nameWithList {x : Draft} {name : String} {α : Type} {f : α → Draft} {xs : List α} {v : Value}
    (h : Yields cat host (x + SqlCompose.nameDraft name + .text " (" + .commaSeparated (xs.map f)
      + .text ")") v) :
    ∃ u word texts, Yields cat host x u ∧ d.Quotes cat name word ∧
      List.Forall₂ (fun a s => Yields cat host (f a) (.text s)) xs texts ∧
      ∀ s, v = .text s →
        ∃ a, u = .text a ∧ s = a ++ word ++ " (" ++ ", ".intercalate texts ++ ")" := by
  obtain ⟨body, last, hbody, hlast, hjoin⟩ := Yields.plus h
  obtain ⟨front, list, hfront, hlist, hlisted⟩ := Yields.plus hbody
  obtain ⟨own, opening, hown, hopening, hopened⟩ := Yields.plus hfront
  obtain ⟨u, _, hu, hname, hnamed⟩ := Yields.plus hown
  obtain ⟨word, rfl, hword⟩ := nameDraft hd hname
  obtain ⟨texts, htexts, rfl⟩ := hlist.commaSeparated
  obtain rfl := hopening.token
  obtain rfl := hlast.token
  refine ⟨u, word, texts, hu, hword, htexts, fun s hs => ?_⟩
  obtain ⟨b, hb, rfl⟩ := hjoin.before hs
  obtain ⟨c, hc, rfl⟩ := hlisted.before hb
  obtain ⟨e, he, rfl⟩ := hopened.before hc
  obtain ⟨a, ha, rfl⟩ := hnamed.before he
  exact ⟨a, ha, rfl⟩

end Draft.Yields

end SqlCompose
