import SqlCompose.Compile
import SqlCompose.Proofs.Dialect.Outline
import SqlCompose.Proofs.Draft.Spelled

/-!
# Quoted names read back

How a database reads the names of a statement that stand between quotes: up to which character a name
goes, and which text it stands for. A name that a dialect puts between quotes is read as that name,
and a reference to a column as the name of its table and the name of the column, whatever follows. A
name that has the opening quote already is written as it is, and is read as one name only if it was
one.
-/
namespace SqlCompose

/-! ## Names between quotes -/

namespace Text

/-- The rest of a quoted name after its opening quote: the characters it stands for, and what follows
the closing quote. A closing quote written twice stands for one. -/
def readClosed (mark : Char) : List Char → Option (List Char × List Char)
  | [] => none
  | [c] => if c = mark then some ([], []) else none
  | c :: next :: cs =>
    if c = mark then
      if next = mark then (readClosed mark cs).map (Prod.map (mark :: ·) id)
      else some ([], next :: cs)
    else (readClosed mark (next :: cs)).map (Prod.map (c :: ·) id)

section Reading

variable {mark c : Char} {cs value rest : List Char}

theorem readClosed_closing (h : rest.head? ≠ some mark) :
    readClosed mark (mark :: rest) = some ([], rest) := by
  cases rest with
  | nil => simp [readClosed]
  | cons next cs =>
    have hnext : next ≠ mark := by simpa using h
    simp [readClosed, hnext]

theorem readClosed_doubled :
    readClosed mark (mark :: mark :: cs) = (readClosed mark cs).map (Prod.map (mark :: ·) id) := by
  simp [readClosed]

theorem readClosed_plain (h : c ≠ mark) :
    readClosed mark (c :: cs) = (readClosed mark cs).map (Prod.map (c :: ·) id) := by
  cases cs <;> simp [readClosed, h]

theorem readClosed_doubled_append (value : List Char) (h : rest.head? ≠ some mark) :
    readClosed mark (doubled [mark] value ++ mark :: rest) = some (value, rest) := by
  rw [doubled_singleton]
  induction value with
  | nil => exact readClosed_closing h
  | cons c value ih =>
    rw [List.flatMap_cons, List.append_assoc]
    split
    case isTrue hc =>
      subst hc
      rw [List.cons_append, List.singleton_append, readClosed_doubled, ih]
      rfl
    case isFalse hc =>
      rw [List.singleton_append, readClosed_plain hc, ih]
      rfl

theorem eq_doubled_append_of_readClosed (h : readClosed mark cs = some (value, rest)) :
    cs = doubled [mark] value ++ mark :: rest ∧ rest.head? ≠ some mark := by
  simp only [doubled_singleton]
  fun_induction readClosed mark cs generalizing value with
  | case1 => cases h
  | case2 =>
    obtain ⟨rfl, rfl⟩ := Prod.mk.inj (Option.some.inj h)
    exact ⟨rfl, nofun⟩
  | case3 => cases h
  | case4 cs ih =>
    obtain ⟨⟨value, after⟩, hread, heq⟩ := Option.map_eq_some_iff.1 h
    obtain ⟨rfl, rfl⟩ := Prod.mk.inj heq
    obtain ⟨rfl, hafter⟩ := ih hread
    exact ⟨by simp, hafter⟩
  | case5 next cs hnext =>
    obtain ⟨rfl, rfl⟩ := Prod.mk.inj (Option.some.inj h)
    exact ⟨rfl, by simpa using hnext⟩
  | case6 c next cs hc ih =>
    obtain ⟨⟨value, after⟩, hread, heq⟩ := Option.map_eq_some_iff.1 h
    obtain ⟨rfl, rfl⟩ := Prod.mk.inj heq
    obtain ⟨hrest, hafter⟩ := ih hread
    exact ⟨by simp [hc, hrest], hafter⟩

/-- What is read is what doubling the closing quotes writes. -/
theorem readClosed_eq_some_iff : readClosed mark cs = some (value, rest) ↔
    cs = doubled [mark] value ++ mark :: rest ∧ rest.head? ≠ some mark := by
  refine ⟨eq_doubled_append_of_readClosed, ?_⟩
  rintro ⟨rfl, h⟩
  exact readClosed_doubled_append value h

end Reading

end Text

namespace Engine

/-- The quoted name that some text starts with: what it stands for, and what follows it. -/
def readName (e : Engine) : List Char → Option (List Char × List Char)
  | [] => none
  | c :: cs => if c = e.nameQuotes.1 then Text.readClosed e.nameQuotes.2 cs else none

/-- The quoted name of a table with the quoted name of a column behind a dot: what both stand for,
and what follows them. -/
def readReference (e : Engine) (cs : List Char) :
    Option ((List Char × List Char) × List Char) := do
  match ← e.readName cs with
  | (qualifier, '.' :: behind) =>
    let (name, rest) ← e.readName behind
    return ((qualifier, name), rest)
  | _ => none

/-- A text between the quotes of an engine, with every closing quote inside written twice. -/
def quoted (e : Engine) (value : List Char) : List Char :=
  e.nameQuotes.1 :: (Text.doubled [e.nameQuotes.2] value ++ [e.nameQuotes.2])

/-- Whether a text is exactly one quoted name: it starts with an opening quote, it ends with a closing
quote, and every closing quote between them is written twice. -/
def IsQuotedName (e : Engine) (cs : List Char) : Prop := ∃ value, cs = e.quoted value

variable {e : Engine} {cs value rest : List Char}

theorem readName_eq_some_iff : e.readName cs = some (value, rest) ↔
    cs = e.quoted value ++ rest ∧ rest.head? ≠ some e.nameQuotes.2 := by
  cases cs with
  | nil => simp [readName, quoted]
  | cons c cs =>
    by_cases hc : c = e.nameQuotes.1
    · simp [readName, quoted, hc, Text.readClosed_eq_some_iff]
    · simp [readName, quoted, hc]

theorem readName_quoted (value : List Char) (h : rest.head? ≠ some e.nameQuotes.2) :
    e.readName (e.quoted value ++ rest) = some (value, rest) := readName_eq_some_iff.2 ⟨rfl, h⟩

theorem readReference_quoted (qualifier name : List Char) (h : rest.head? ≠ some e.nameQuotes.2) :
    e.readReference (e.quoted qualifier ++ '.' :: (e.quoted name ++ rest)) =
      some ((qualifier, name), rest) := by
  have hdot : ('.' :: (e.quoted name ++ rest)).head? ≠ some e.nameQuotes.2 := by
    cases e <;> simp [nameQuotes]
  rw [readReference, readName_quoted qualifier hdot]
  simp [readName_quoted name h]

/-- A text is read as a name that ends with it if it is a quoted name. -/
theorem exists_readName_append_iff (h : rest.head? ≠ some e.nameQuotes.2) :
    (∃ value, e.readName (cs ++ rest) = some (value, rest)) ↔ e.IsQuotedName cs := by
  simp [readName_eq_some_iff, h, IsQuotedName]

instance (e : Engine) : DecidablePred e.IsQuotedName := fun cs =>
  decidable_of_iff ((e.readName cs).any (·.2 = []) = true) (by
    have hiff : (∃ value, e.readName (cs ++ []) = some (value, [])) ↔ e.IsQuotedName cs :=
      exists_readName_append_iff nofun
    rw [List.append_nil] at hiff
    rw [← hiff]
    simp [Option.any_eq_true])

end Engine

/-! ## Names of a dialect -/

/-- A name that is packed is packed already. -/
theorem quoteName_quoteName (quotes : String × String) (name : String) :
    quoteName quotes (quoteName quotes name) = quoteName quotes name := by
  by_cases h : quotes.1 = "" ∨ quotes.1.toList <+: name.toList
  · simp [quoteName, h]
  · have hstarts : quotes.1.toList <+: (quoteName quotes name).toList := by
      simp [quoteName, h, List.append_assoc]
    exact quoteName_of_prefix hstarts

variable {cat : Catalog} {d : Dialect}

/-- Between quotes of any kind a name stays as it is the second time. -/
theorem quoteAny_of_quoteAny {quotes : Value × Value} {name : String} {word : Value}
    (h : quoteAny cat quotes (.text name) = .ok word) : quoteAny cat quotes word = .ok word := by
  obtain rfl | ⟨a, rest, hopening, rfl⟩ := cases_of_quoteAny h
  · exact h
  · have hstarted : (Value.text (a ++ rest)).invoke cat "startswith" [.text a] =
        .ok (.bool true) := by
      have hprefix : a.toList.isPrefixOf (a ++ rest).toList = true := by simp
      exact congrArg (Except.ok ∘ Value.bool) hprefix
    simp only [quoteAny, hopening, hstarted]
    split <;> rfl

theorem Dialect.quote_of_quote {name : String} {word : Value}
    (h : d.quote cat (.text name) = .ok word) : d.quote cat word = .ok word := by
  obtain ⟨s, rfl, -⟩ := Dialect.exists_quotes h
  cases hgiven : d.given.lookup "identifier_quote" with
  | none =>
    rw [quote_text cat d hgiven] at h ⊢
    rw [← Value.text_inj (Except.ok.inj h), quoteName_quoteName]
  | some quotes =>
    simp only [quote, hgiven] at h ⊢
    obtain ⟨pair, hpair, h⟩ := Except.bind_eq_ok_iff.1 h
    exact Except.bind_eq_ok_iff.2 ⟨pair, hpair, quoteAny_of_quoteAny h⟩

/-- Packing a name a second time changes nothing, whatever is given for a dialect. -/
theorem quoteFor_of_quoteFor {x word : Value} {name : String}
    (h : quoteFor cat x (.text name) = .ok word) : quoteFor cat x word = .ok word := by
  cases x with
  | dialect d => exact Dialect.quote_of_quote h
  | _ =>
    obtain ⟨held, hheld, h⟩ := Except.bind_eq_ok_iff.1 h
    obtain ⟨pair, hpair, h⟩ := Except.bind_eq_ok_iff.1 h
    exact Except.bind_eq_ok_iff.2 ⟨held, hheld,
      Except.bind_eq_ok_iff.2 ⟨pair, hpair, quoteAny_of_quoteAny h⟩⟩

/-- A table and a column with dots and brackets in their names. -/
def Catalog.ofBrackets : Catalog where
  columns := #[{ name := "c].[d", owner := some ⟨0⟩ }]
  tables := #[{ name := "s.t]" }]

namespace Dialect

/-- Whether a dialect puts names between the quotes of its engine. -/
structure QuotesAsEngine (d : Dialect) : Prop where
  engine : d.engine ≠ .generic
  quotes : d.identifierQuote = standardQuote d.engine
  unchanged : d.given.lookup "identifier_quote" = none

theorem quotesAsEngine_standard {e : Engine} (he : e ≠ .generic) : (standard e).QuotesAsEngine :=
  ⟨he, rfl, rfl⟩

/-- Whether a dialect puts a name between quotes: it is there, and does not start with the opening
quote. -/
def Encloses (d : Dialect) (name : String) : Prop :=
  name ≠ "" ∧ ¬d.identifierQuote.1.toList <+: name.toList

/-- Whether a dialect puts both names of a reference to a column between quotes. -/
def EnclosesNames (cat : Catalog) (d : Dialect) (id : ColumnId) : Prop :=
  d.Encloses (cat.qualifier id) ∧ d.Encloses (cat.column id).name

/-- Whether a reference to a column is written as a text, whatever has been bound before it. -/
def RefersBy (cat : Catalog) (d : Dialect) (id : ColumnId) (word : String) : Prop :=
  ∀ asName number bound, ((Expr.column asName id).reference cat d.engine).outcome cat
    (.context d number) bound = (.ok (.text word), bound)

theorem refersBy_of_quotes {id : ColumnId} {qualifier name : String} (hn : cat.qualifier id ≠ "")
    (hq : d.Quotes cat (cat.qualifier id) qualifier) (hc : d.Quotes cat (cat.column id).name name) :
    d.RefersBy cat id (qualifier ++ "." ++ name) := by
  intro asName number bound
  have hhost : (Host.context d number).QuotesAs cat d := fun _ => rfl
  have hspells := ((Draft.spells_of_quotes hhost hq).plus (Draft.spells_text ".")).plus
    (Draft.spells_of_quotes hhost hc)
  have hdraft : (Expr.column asName id).reference cat d.engine = columnDraft cat id := rfl
  rw [hdraft, columnDraft, if_neg hn]
  exact hspells.outcome bound

theorem RefersBy.eq {id : ColumnId} {word word' : String} (h : d.RefersBy cat id word)
    (h' : d.RefersBy cat id word') : word = word' := by
  have heq := (h .none 0 []).symm.trans (h' .none 0 [])
  exact Value.text_inj (Except.ok.inj (Prod.mk.inj heq).1)

namespace QuotesAsEngine

variable (hd : d.QuotesAsEngine)
include hd

theorem fst_identifierQuote : d.identifierQuote.1.toList = [d.engine.nameQuotes.1] := by
  have he := hd.engine
  rw [hd.quotes]
  cases hengine : d.engine <;> first | exact absurd hengine he | rfl

theorem snd_identifierQuote : d.identifierQuote.2.toList = [d.engine.nameQuotes.2] := by
  have he := hd.engine
  rw [hd.quotes]
  cases hengine : d.engine <;> first | exact absurd hengine he | rfl

/-- A name that does not start with the opening quote is written between quotes. -/
theorem exists_quotes {name : String} (h : ¬d.identifierQuote.1.toList <+: name.toList) :
    ∃ word, d.Quotes cat name word ∧ word.toList = d.engine.quoted name.toList := by
  have hopening : d.identifierQuote.1 ≠ "" := by
    intro hempty
    exact h (by simp [hempty])
  refine ⟨quoteName d.identifierQuote name, quote_text cat d hd.unchanged name, ?_⟩
  rw [quoteName, if_neg (by simp [hopening, h])]
  simp [Engine.quoted, hd.fst_identifierQuote, hd.snd_identifierQuote]

/-- A name that starts with the opening quote is written as it is. -/
theorem quotes_self {name : String} (h : d.identifierQuote.1.toList <+: name.toList) :
    d.Quotes cat name name := by
  have hquote := quote_text cat d hd.unchanged name
  rwa [ quoteName_of_prefix h] at hquote

theorem exists_refersBy {id : ColumnId} (h : d.EnclosesNames cat id) :
    ∃ word, d.RefersBy cat id word ∧ ∀ rest : List Char, rest.head? ≠ some d.engine.nameQuotes.2 →
      d.engine.readReference (word.toList ++ rest) =
        some (((cat.qualifier id).toList, (cat.column id).name.toList), rest) := by
  obtain ⟨qualifier, hq, hqualifier⟩ := hd.exists_quotes h.1.2
  obtain ⟨name, hc, hname⟩ := hd.exists_quotes h.2.2
  refine ⟨_, refersBy_of_quotes h.1.1 hq hc, fun rest hrest => ?_⟩
  have hread := Engine.readReference_quoted (cat.qualifier id).toList (cat.column id).name.toList hrest
  simpa [hqualifier, hname] using hread

end QuotesAsEngine

/-- A reference to a column is read as the names of its table and of the column, whatever follows, so
columns with different names are written differently. A name that is packed is packed already, with
quotes of any kind. -/
theorem references_read_back {d : Dialect} (hd : d.QuotesAsEngine) :
    (∀ (cat : Catalog) (id : ColumnId), d.EnclosesNames cat id →
      ∃ word, d.RefersBy cat id word ∧
        ∀ rest : List Char, rest.head? ≠ some d.engine.nameQuotes.2 →
          d.engine.readReference (word.toList ++ rest) =
            some (((cat.qualifier id).toList, (cat.column id).name.toList), rest)) ∧
    (∀ (cat cat' : Catalog) (id id' : ColumnId) (word : String), d.EnclosesNames cat id →
      d.EnclosesNames cat' id' → d.RefersBy cat id word → d.RefersBy cat' id' word →
        cat.qualifier id = cat'.qualifier id' ∧ (cat.column id).name = (cat'.column id').name) ∧
    ∀ (cat : Catalog) (name : String),
      (∀ d' : Dialect, d'.given.lookup "identifier_quote" = none →
        ∃ word, quoteFor cat (.dialect d') (.text name) = .ok word) ∧
      ∀ x word, quoteFor cat x (.text name) = .ok word → quoteFor cat x word = .ok word := by
  refine ⟨fun cat id h => hd.exists_refersBy h, fun cat cat' id id' word h h' hword hword' => ?_,
    fun cat name => ⟨fun d' hgiven => ⟨_, quote_text cat d' hgiven name⟩, fun x word hword => ?_⟩⟩
  · obtain ⟨_, href, hread⟩ := hd.exists_refersBy h
    obtain ⟨_, href', hread'⟩ := hd.exists_refersBy h'
    obtain rfl := hword.eq href
    obtain rfl := hword'.eq href'
    have heq := Option.some.inj ((hread [] nofun).symm.trans (hread' [] nofun))
    simpa [String.toList_inj] using heq
  · exact quoteFor_of_quoteFor hword

/-- Dots and brackets in names do not change where they end. -/
theorem references_read_back_brackets : (standard .sqlserver).QuotesAsEngine ∧
    (standard .sqlserver).EnclosesNames .ofBrackets ⟨0⟩ ∧
    (standard .sqlserver).RefersBy .ofBrackets ⟨0⟩ "[s.t]]].[c]].[d]" ∧
    Engine.sqlserver.readReference "[s.t]]].[c]].[d] = 1".toList =
      some (("s.t]".toList, "c].[d".toList), " = 1".toList) ∧
    quoteFor default (.dialect (standard .sqlserver)) (.text "[s.t]]]") = .ok (.text "[s.t]]]") := by
  have hd : (standard .sqlserver).QuotesAsEngine := quotesAsEngine_standard nofun
  have hnames : (standard .sqlserver).EnclosesNames .ofBrackets ⟨0⟩ := by
    unfold EnclosesNames Encloses
    decide
  obtain ⟨hread, -, hpack⟩ := references_read_back hd
  obtain ⟨word, hword, hreading⟩ := hread .ofBrackets ⟨0⟩ hnames
  obtain rfl : "[s.t]]].[c]].[d]" = word := by
    have hrefers : (standard .sqlserver).RefersBy .ofBrackets ⟨0⟩ "[s.t]]].[c]].[d]" :=
      fun _ _ _ => rfl
    exact hrefers.eq hword
  exact ⟨hd, hnames, hword, hreading " = 1".toList (by decide),
    (hpack default "s.t]").2 _ _ rfl⟩

/-- A name that starts with the opening quote is written as it is. It is read as one name that ends
where it ends, whatever follows, if and only if it is exactly one quoted name itself. -/
theorem quoted_name_read_iff (cat : Catalog) {d : Dialect} (hd : d.QuotesAsEngine) {name : String}
    (h : d.identifierQuote.1.toList <+: name.toList) :
    quoteFor cat (.dialect d) (.text name) = .ok (.text name) ∧
    (∀ number bound, (nameDraft name).outcome cat (.context d number) bound =
      (.ok (.text name), bound)) ∧
    (∀ value, d.engine.readName name.toList = some (value, []) ↔
      name.toList = d.engine.quoted value) ∧
    ∀ rest : List Char, rest.head? ≠ some d.engine.nameQuotes.2 →
      ((∃ value, d.engine.readName (name.toList ++ rest) = some (value, rest)) ↔
        d.engine.IsQuotedName name.toList) := by
  refine ⟨hd.quotes_self h, fun number bound => ?_, fun value => ?_, fun rest hrest =>
    Engine.exists_readName_append_iff hrest⟩
  · exact (Draft.spells_of_quotes (fun _ => rfl) (hd.quotes_self h)).outcome bound
  · simp [Engine.readName_eq_some_iff]

/-- A name that was packed stays one name. -/
theorem quoted_name_read_iff_packed : (standard .sqlite).QuotesAsEngine ∧
    (standard .sqlite).identifierQuote.1.toList <+: "\"a\"\"b\"".toList ∧
    quoteFor default (.dialect (standard .sqlite)) (.text "\"a\"\"b\"") = .ok (.text "\"a\"\"b\"") ∧
    ∃ value, Engine.sqlite.readName ("\"a\"\"b\"".toList ++ " FROM".toList) =
      some (value, " FROM".toList) := by
  have hd : (standard .sqlite).QuotesAsEngine := quotesAsEngine_standard nofun
  have hprefix : (standard .sqlite).identifierQuote.1.toList <+: "\"a\"\"b\"".toList := by decide
  obtain ⟨hquote, -, -, hread⟩ := quoted_name_read_iff default hd hprefix
  exact ⟨hd, hprefix, hquote, (hread _ (by decide)).2 (by decide)⟩

/-- A name that starts with the opening quote and has no closing one is written as it is, and what
follows it is read as a part of it. -/
theorem half_quoted_name_left_open :
    (standard .sqlite).identifierQuote.1.toList <+: "\"half".toList ∧
    quoteFor default (.dialect (standard .sqlite)) (.text "\"half") = .ok (.text "\"half") ∧
    ¬Engine.sqlite.IsQuotedName "\"half".toList ∧
    Engine.sqlite.readName ("\"half".toList ++ " FROM \"t\"".toList) =
      some ("half FROM ".toList, "t\"".toList) :=
  ⟨by decide, rfl, by decide, by decide⟩

end Dialect

end SqlCompose
