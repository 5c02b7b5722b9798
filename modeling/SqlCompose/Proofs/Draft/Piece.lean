import Mathlib.Data.List.Forall2
import SqlCompose.Assembly
import SqlCompose.Expr.Operand
import SqlCompose.Proofs.Dialect.Wording

/-!
# The pieces of a draft

For one dialect a draft comes down to a row of pieces: tokens, words that the dialect has spelled,
and values that are still to be bound or written out. The row depends neither on how placeholders
are spelled nor on whether they are used. Writing pieces one after the other is what marks values.
-/
namespace SqlCompose

/-- A piece of the text of a draft. -/
inductive Piece
  | token (t : Token)
  /-- A name, a spelling or a literal that a dialect has written out. -/
  | word (s : String)
  | value (v : Value)

namespace Piece

/-- The values among pieces, in order. -/
def values : List Piece → List Value
  | [] => []
  | value v :: ps => v :: values ps
  | _ :: ps => values ps

@[simp] theorem values_nil : values [] = [] := rfl

@[simp] theorem values_token (t : Token) (ps : List Piece) :
    values (token t :: ps) = values ps := rfl

@[simp] theorem values_word (s : String) (ps : List Piece) :
    values (word s :: ps) = values ps := rfl

@[simp] theorem values_value (v : Value) (ps : List Piece) :
    values (value v :: ps) = v :: values ps := rfl

@[simp] theorem values_append (ps qs : List Piece) :
    values (ps ++ qs) = values ps ++ values qs := by
  induction ps with
  | nil => rfl
  | cons p ps ih => cases p <;> simp [ih]

/-- The pieces of a token; empty text is no piece. -/
def ofToken (t : Token) : List Piece := if t = .text "" then [] else [token t]

@[simp] theorem values_ofToken (t : Token) : values (ofToken t) = [] := by
  rw [ofToken]
  split <;> rfl

/-- Rows of pieces with a token between them. -/
def separated (separator : Token) : List (List Piece) → List Piece
  | [] => []
  | [ps] => ps
  | ps :: qs :: rows => ps ++ token separator :: separated separator (qs :: rows)

/-- Rows of pieces with a lead before the first of them. -/
def led : Option String → List (List Piece) → List (List Piece)
  | some lead, ps :: rows => (token (.text lead) :: ps) :: rows
  | _, rows => rows

@[simp] theorem values_separated (separator : Token) (rows : List (List Piece)) :
    values (separated separator rows) = rows.flatMap values := by
  induction rows using separated.induct with
  | case1 => rfl
  | case2 ps => simp [separated]
  | case3 ps qs rows ih => simp [separated, ih]

@[simp] theorem values_led (lead : Option String) (rows : List (List Piece)) :
    (led lead rows).flatMap values = rows.flatMap values := by
  cases lead with
  | none => rfl
  | some s => cases rows <;> rfl

end Piece

/-- The spelling of a keyword in a dialect that spells in texts. -/
def Dialect.spelled (d : Dialect) (keyword : String) : String :=
  (d.substitutions.lookup keyword).getD keyword

namespace Draft

/-- The piece of a word that a dialect writes. -/
def wordPiece (r : Except Error Value) : Except Error (List Piece) := do
  return [.word (← (← r).asText)]

mutual

/-- The pieces of a draft. What a draft leaves to other values than a dialect has none. -/
def pieces (cat : Catalog) (d : Dialect) : Draft → Except Error (List Piece)
  | token t => .ok (Piece.ofToken t)
  | literal v => .ok [.value v]
  | inlined v | packed v => wordPiece (d.pack cat v)
  | name v => wordPiece (d.quote cat v)
  | spelling keyword => wordPiece (d.spelling cat (.text keyword))
  | ofDialect answer => wordPiece (answer d)
  | applied _ | member _ _ => .error .badCall
  | ask _ => .ok []
  | fail e => .error e
  | before first rest => do
    discard (pieces cat d first)
    pieces cat d rest
  | checked draft last => do
    let ps ← pieces cat d draft
    discard (pieces cat d last)
    return ps
  | plus a b | extend a b => do return (← pieces cat d a) ++ (← pieces cat d b)
  | shown draft => pieces cat d draft
  | row separator items => do return Piece.separated separator (← piecesAll cat d items)
  | framed lead opening items closing => do
    let rows ← piecesAll cat d items
    let opened ← pieces cat d opening
    return opened ++ Piece.separated (.text ", ") (Piece.led lead rows) ++ (← pieces cat d closing)

/-- The pieces of several drafts. -/
def piecesAll (cat : Catalog) (d : Dialect) : List Draft → Except Error (List (List Piece))
  | [] => .ok []
  | draft :: drafts => do return (← pieces cat d draft) :: (← piecesAll cat d drafts)

end

variable {cat : Catalog} {d : Dialect}

attribute [local simp] pieces piecesAll

theorem wordPiece_map_text (r : Except Error String) :
    wordPiece (r.map Value.text) = r.map fun s => [Piece.word s] := by
  cases r <;> rfl

theorem pieces_token {t : Token} (h : t ≠ .text "") :
    (token t).pieces cat d = .ok [.token t] := by
  rw [pieces, Piece.ofToken, if_neg h]

theorem pieces_packed (hd : d.WritesText) (v : Value) :
    (packed v).pieces cat d = (d.literalText cat v).map fun s => [Piece.word s] := by
  rw [pieces, Dialect.pack_eq_text cat hd, wordPiece_map_text]

theorem pieces_name (hd : d.WritesText) (s : String) :
    (name (.text s)).pieces cat d = .ok [.word (quoteName d.identifierQuote s)] := by
  rw [pieces, Dialect.quote_eq_text cat hd]
  rfl

theorem pieces_spelling (hd : d.WritesText) (keyword : String) :
    (spelling keyword).pieces cat d = .ok [.word (d.spelled keyword)] := by
  rw [pieces, Dialect.spelling_eq_text cat hd]
  rfl

theorem eq_of_pieces_token {t : Token} {ps : List Piece} (hp : (token t).pieces cat d = .ok ps)
    (h : t ≠ .text "") : ps = [.token t] := Except.ok.inj (hp.symm.trans (pieces_token h))

/-- The pieces of one draft go before those of another one. -/
theorem pieces_plus_eq_ok {x y : Draft} {ps : List Piece} :
    (plus x y).pieces cat d = .ok ps ↔
      ∃ xs ys, x.pieces cat d = .ok xs ∧ y.pieces cat d = .ok ys ∧ ps = xs ++ ys := by
  simp only [pieces, Except.bind_eq_ok_iff, pure, Except.pure, Except.ok.injEq]
  constructor
  · rintro ⟨xs, hx, ys, hy, h⟩
    exact ⟨xs, ys, hx, hy, h.symm⟩
  · rintro ⟨xs, ys, hx, hy, h⟩
    exact ⟨xs, hx, ys, hy, h.symm⟩

theorem pieces_plus_eq_error {x y : Draft} {e : Error} (h : (plus x y).pieces cat d = .error e) :
    x.pieces cat d = .error e ∨ y.pieces cat d = .error e := by
  simp only [pieces, Except.bind_eq_error_iff] at h
  rcases h with hx | ⟨xs, hx, hy | ⟨ys, hy, hr⟩⟩
  · exact .inl hx
  · exact .inr hy
  · simp [pure, Except.pure] at hr

theorem pieces_extend (x y : Draft) : (extend x y).pieces cat d = (plus x y).pieces cat d := by
  simp only [pieces]

theorem pieces_before_eq_ok {x y : Draft} {ps : List Piece} :
    (before x y).pieces cat d = .ok ps ↔
      (∃ xs, x.pieces cat d = .ok xs) ∧ y.pieces cat d = .ok ps := by
  simp only [pieces, Except.bind_eq_ok_iff, Except.discard_eq_ok_iff]
  constructor
  · rintro ⟨-, hx, hy⟩
    exact ⟨hx, hy⟩
  · rintro ⟨hx, hy⟩
    exact ⟨(), hx, hy⟩

theorem pieces_checked_eq_ok {x y : Draft} {ps : List Piece} :
    (checked x y).pieces cat d = .ok ps ↔
      x.pieces cat d = .ok ps ∧ ∃ ys, y.pieces cat d = .ok ys := by
  simp only [pieces, Except.bind_eq_ok_iff, Except.discard_eq_ok_iff, pure, Except.pure,
    Except.ok.injEq]
  constructor
  · rintro ⟨xs, hx, -, hy, rfl⟩
    exact ⟨hx, hy⟩
  · rintro ⟨hx, hy⟩
    exact ⟨ps, hx, (), hy, rfl⟩

theorem pieces_row_eq_ok {separator : Token} {items : List Draft} {ps : List Piece} :
    (row separator items).pieces cat d = .ok ps ↔
      ∃ rows, piecesAll cat d items = .ok rows ∧ ps = Piece.separated separator rows := by
  simp only [pieces, Except.bind_eq_ok_iff, pure, Except.pure, Except.ok.injEq, eq_comm (a := ps)]

theorem piecesAll_cons_eq_ok {x : Draft} {items : List Draft} {rows : List (List Piece)} :
    piecesAll cat d (x :: items) = .ok rows ↔ ∃ xs rest,
      x.pieces cat d = .ok xs ∧ piecesAll cat d items = .ok rest ∧ rows = xs :: rest := by
  simp only [piecesAll, Except.bind_eq_ok_iff, pure, Except.pure, Except.ok.injEq]
  constructor
  · rintro ⟨xs, hx, rest, hrest, h⟩
    exact ⟨xs, rest, hx, hrest, h.symm⟩
  · rintro ⟨xs, rest, hx, hrest, h⟩
    exact ⟨xs, hx, rest, hrest, h.symm⟩

theorem piecesAll_append_eq_ok {items others : List Draft} {rows : List (List Piece)} :
    piecesAll cat d (items ++ others) = .ok rows ↔ ∃ front rest,
      piecesAll cat d items = .ok front ∧ piecesAll cat d others = .ok rest ∧
        rows = front ++ rest := by
  induction items generalizing rows with
  | nil => simp
  | cons x items ih =>
    simp only [List.cons_append, piecesAll_cons_eq_ok, ih]
    constructor
    · rintro ⟨xs, -, hx, ⟨front, rest, hfront, hrest, rfl⟩, rfl⟩
      exact ⟨xs :: front, rest, ⟨xs, front, hx, hfront, rfl⟩, hrest, rfl⟩
    · rintro ⟨-, rest, ⟨xs, front, hx, hfront, rfl⟩, hrest, rfl⟩
      exact ⟨xs, front ++ rest, hx, ⟨front, rest, hfront, hrest, rfl⟩, rfl⟩

theorem pieces_extend_eq_ok {x y : Draft} {ps : List Piece} :
    (x ++ y).pieces cat d = .ok ps ↔ ∃ xs ys, x.pieces cat d = .ok xs ∧
      y.pieces cat d = .ok ys ∧ ps = xs ++ ys := by
  rw [← pieces_plus_eq_ok, ← pieces_extend]
  rfl

/-- The pieces of drafts that go on with one another. -/
theorem pieces_continued_eq_ok {x : Draft} {items : List Draft} {ps : List Piece} :
    (x.continued items).pieces cat d = .ok ps ↔ ∃ xs rows, x.pieces cat d = .ok xs ∧
      piecesAll cat d items = .ok rows ∧ ps = xs ++ rows.flatten := by
  induction items generalizing x ps with
  | nil => simp [continued]
  | cons y items ih =>
    have hcons : x.continued (y :: items) = (x ++ y).continued items := rfl
    rw [hcons, ih]
    constructor
    · rintro ⟨front, rows, hfront, hrows, rfl⟩
      obtain ⟨xs, ys, hx, hy, rfl⟩ := pieces_extend_eq_ok.1 hfront
      exact ⟨xs, ys :: rows, hx, piecesAll_cons_eq_ok.2 ⟨ys, rows, hy, hrows, rfl⟩, by simp⟩
    · rintro ⟨xs, rows, hx, hrows, rfl⟩
      obtain ⟨ys, rest, hy, hrest, rfl⟩ := piecesAll_cons_eq_ok.1 hrows
      exact ⟨xs ++ ys, rest, pieces_extend_eq_ok.2 ⟨xs, ys, hx, hy, rfl⟩, hrest, by simp⟩

/-- The pieces of a draft in parentheses. -/
theorem pieces_parenthesized_eq_ok {x : Draft} {ps : List Piece} :
    x.parenthesized.pieces cat d = .ok ps ↔
      ∃ xs, x.pieces cat d = .ok xs ∧ ps = .token .opening :: xs ++ [.token .closing] := by
  rw [show x.parenthesized = plus (plus (.token .opening) x) (.token .closing) from rfl,
    pieces_plus_eq_ok]
  constructor
  · rintro ⟨opened, closed, ho, hc, rfl⟩
    obtain ⟨start, xs, hs, hx, rfl⟩ := pieces_plus_eq_ok.1 ho
    simp only [pieces, Except.ok.injEq] at hs hc
    exact ⟨xs, hx, by rw [← hs, ← hc]; rfl⟩
  · rintro ⟨xs, hx, rfl⟩
    have ho := pieces_plus_eq_ok (x := .token .opening).2 ⟨_, xs, pieces_token nofun, hx, rfl⟩
    exact ⟨_, _, ho, pieces_token nofun, rfl⟩

theorem pieces_parenthesized_eq_error {x : Draft} {e : Error}
    (h : x.parenthesized.pieces cat d = .error e) : x.pieces cat d = .error e := by
  rcases pieces_plus_eq_error (x := plus (.token .opening) x) h with ho | hc
  · rcases pieces_plus_eq_error ho with hs | hx
    · simp at hs
    · exact hx
  · simp at hc

theorem pieces_opening (hd : d.WritesText) (symbol : String) :
    (asking "function_sql" (spelling symbol) + token .opening).pieces cat d
      = .ok [.word (d.spelled symbol), .token .opening] :=
  have hs := pieces_before_eq_ok.2 ⟨⟨[], by rw [pieces]⟩, pieces_spelling hd symbol⟩
  pieces_plus_eq_ok.2 ⟨_, _, hs, pieces_token nofun, rfl⟩

/-- What a dialect is asked for has no pieces. -/
theorem pieces_asking (part : String) (x : Draft) :
    (asking part x).pieces cat d = x.pieces cat d := rfl

/-- The pieces of an infix operator between two drafts. -/
theorem pieces_infixed_eq_ok {x y : Draft} {symbol : String} {ps : List Piece} :
    (infixed x symbol y).pieces cat d = .ok ps ↔ ∃ xs ys,
      x.pieces cat d = .ok xs ∧ y.pieces cat d = .ok ys ∧
        ps = xs ++ .token (.operator .between symbol) :: ys := by
  rw [show infixed x symbol y = plus (plus (.shown x) (.token (.operator .between symbol)))
    (.shown y) from rfl, pieces_plus_eq_ok]
  constructor
  · rintro ⟨front, ys, hfront, hy, rfl⟩
    obtain ⟨xs, own, hx, hown, rfl⟩ := pieces_plus_eq_ok.1 hfront
    obtain rfl := eq_of_pieces_token hown nofun
    rw [pieces] at hx hy
    exact ⟨xs, ys, hx, hy, by simp⟩
  · rintro ⟨xs, ys, hx, hy, rfl⟩
    have hfront := pieces_plus_eq_ok (x := .shown x).2
      ⟨xs, _, by rw [pieces, hx], pieces_token (t := .operator .between symbol) nofun, rfl⟩
    exact ⟨_, ys, hfront, by rw [pieces, hy], by simp⟩

/-- The pieces of an operator before a draft. -/
theorem pieces_before_operator_eq_ok {y : Draft} {symbol : String} {ps : List Piece} :
    (operator .before symbol + y).pieces cat d = .ok ps ↔
      ∃ ys, y.pieces cat d = .ok ys ∧ ps = .token (.operator .before symbol) :: ys := by
  rw [show operator .before symbol + y = plus (.token (.operator .before symbol)) y from rfl,
    pieces_plus_eq_ok]
  constructor
  · rintro ⟨own, ys, hown, hy, rfl⟩
    obtain rfl := eq_of_pieces_token hown nofun
    exact ⟨ys, hy, rfl⟩
  · rintro ⟨ys, hy, rfl⟩
    exact ⟨_, ys, pieces_token nofun, hy, rfl⟩

/-- The pieces of a function call. -/
theorem pieces_callWith_eq_ok (hd : d.WritesText) {symbol : String} {lead : Option String}
    {items : List Draft} {ps : List Piece} :
    (callWith symbol lead items).pieces cat d = .ok ps ↔
      ∃ rows, piecesAll cat d items = .ok rows ∧
        ps = .word (d.spelled symbol) :: .token .opening
          :: Piece.separated (.text ", ") (Piece.led lead rows) ++ [.token .closing] := by
  rw [callWith, pieces, pieces_opening hd, pieces_token (t := .closing) nofun]
  simp [Except.bind_eq_ok_iff, pure, Except.pure, eq_comm (a := ps)]

theorem pieces_callWith_eq_error (hd : d.WritesText) {symbol : String} {lead : Option String}
    {items : List Draft} {e : Error} (h : (callWith symbol lead items).pieces cat d = .error e) :
    piecesAll cat d items = .error e := by
  rw [callWith, pieces, pieces_opening hd] at h
  cases hrows : piecesAll cat d items with
  | error e' => simpa [hrows, bind, Except.bind] using h
  | ok rows => simp [hrows, pieces, bind, Except.bind, pure, Except.pure] at h

/-- Every row of pieces is that of one of the drafts. -/
theorem mem_piecesAll {items : List Draft} {rows : List (List Piece)}
    (h : piecesAll cat d items = .ok rows) {ps : List Piece} (hps : ps ∈ rows) :
    ∃ x ∈ items, x.pieces cat d = .ok ps := by
  induction items generalizing rows with
  | nil =>
    simp only [piecesAll, Except.ok.injEq] at h
    simp [← h] at hps
  | cons x items ih =>
    obtain ⟨xs, rest, hx, hrest, rfl⟩ := piecesAll_cons_eq_ok.1 h
    rcases List.mem_cons.1 hps with rfl | hps
    · exact ⟨x, by simp, hx⟩
    · obtain ⟨y, hy, hpy⟩ := ih hrest hps
      exact ⟨y, by simp [hy], hpy⟩

theorem piecesAll_singleton_eq_ok {x : Draft} {rows : List (List Piece)} :
    piecesAll cat d [x] = .ok rows ↔ ∃ ps, x.pieces cat d = .ok ps ∧ rows = [ps] := by
  have hnil : ∀ rest, piecesAll cat d [] = .ok rest ↔ rest = [] := by simp [eq_comm]
  simp only [piecesAll_cons_eq_ok, hnil, exists_and_left, exists_eq_left]

/-- Drafts have their pieces one by one. -/
theorem piecesAll_map_eq_ok {α : Type} {f : α → Draft} {xs : List α} {rows : List (List Piece)} :
    piecesAll cat d (xs.map f) = .ok rows ↔
      List.Forall₂ (fun x ps => (f x).pieces cat d = .ok ps) xs rows := by
  induction xs generalizing rows with
  | nil => simp [eq_comm]
  | cons x xs ih =>
    rw [List.map_cons, piecesAll_cons_eq_ok, List.forall₂_cons_left_iff]
    simp only [ih]

/-- The pieces of drafts with commas between them. -/
theorem pieces_commaSeparated_eq_ok {α : Type} {f : α → Draft} {xs : List α}
    {ps : List Piece} : (commaSeparated (xs.map f)).pieces cat d = .ok ps ↔
      ∃ rows, List.Forall₂ (fun x qs => (f x).pieces cat d = .ok qs) xs rows ∧
        ps = Piece.separated (.text ", ") rows := by
  rw [commaSeparated, pieces_row_eq_ok]
  simp only [piecesAll_map_eq_ok]

end Draft

namespace Assembly

/-- Binds a value or writes it out, as the dialect says. -/
def mark (cat : Catalog) (d : Dialect) (v : Value) : Assembly String :=
  if d.bindLiterals then do
    discard (lift (v.toScalar cat))
    modify (·.push v)
    return d.placeholder ((← get).size : Nat)
  else lift (d.literalText cat v)

theorem literal_eq_mark (cat : Catalog) {d : Dialect} (hd : d.WritesText) (number : Nat)
    (v : Value) : literal cat (.context d number) v = Value.text <$> mark cat d v := by
  by_cases hb : d.bindLiterals
  · simp [literal, mark, hb, Assembly.bind, map_eq_pure_bind, -bind_pure_comp]
  · simp [literal, mark, hb]
    rw [Dialect.pack_eq_text cat hd]
    cases d.literalText cat v with
    | error e => rfl
    | ok s => rfl

/-- Writes pieces one after the other. -/
def write (cat : Catalog) (d : Dialect) : List Piece → Assembly String
  | [] => pure ""
  | .token t :: ps => do return t.spelling ++ (← write cat d ps)
  | .word s :: ps => do return s ++ (← write cat d ps)
  | .value v :: ps => do
    let written ← mark cat d v
    return written ++ (← write cat d ps)

theorem write_append (cat : Catalog) (d : Dialect) (ps qs : List Piece) :
    write cat d (ps ++ qs) = do return (← write cat d ps) ++ (← write cat d qs) := by
  induction ps with
  | nil => simp [write, -bind_pure_comp]
  | cons p ps ih =>
    cases p <;> simp [write, ih, String.append_assoc, -bind_pure_comp]

theorem write_ofToken (cat : Catalog) (d : Dialect) (t : Token) :
    write cat d (Piece.ofToken t) = pure t.spelling := by
  by_cases ht : t = .text ""
  · simp [Piece.ofToken, ht, write, Token.spelling]
  · simp [Piece.ofToken, ht, write]

/-- Pieces without values are written without binding anything. -/
theorem write_of_values_eq_nil (cat : Catalog) (d : Dialect) {ps : List Piece}
    (h : Piece.values ps = []) : ∃ s, write cat d ps = pure s := by
  induction ps with
  | nil => exact ⟨_, rfl⟩
  | cons p ps ih =>
    cases p with
    | token t =>
      obtain ⟨s, hs⟩ := ih h
      exact ⟨t.spelling ++ s, by simp [write, hs]⟩
    | word w =>
      obtain ⟨s, hs⟩ := ih h
      exact ⟨w ++ s, by simp [write, hs]⟩
    | value v => simp at h

/-- Writes rows of pieces, each on its own. -/
def writeAll (cat : Catalog) (d : Dialect) : List (List Piece) → Assembly (List String)
  | [] => pure []
  | ps :: rows => do
    let s ← write cat d ps
    return s :: (← writeAll cat d rows)

theorem write_separated (cat : Catalog) (d : Dialect) (separator : Token)
    (rows : List (List Piece)) : write cat d (Piece.separated separator rows)
      = separator.spelling.intercalate <$> writeAll cat d rows := by
  induction rows using Piece.separated.induct with
  | case1 => simp [Piece.separated, write, writeAll]
  | case2 ps => simp [Piece.separated, writeAll, map_eq_pure_bind, -bind_pure_comp]
  | case3 ps qs rows ih =>
    simp only [Piece.separated, write_append, write, ih, writeAll]
    simp [map_eq_pure_bind, String.intercalate_cons_cons, String.append_assoc, -bind_pure_comp]

/-- Texts with a lead before the first of them. -/
def ledTexts : Option String → List String → List String
  | some lead, s :: texts => (lead ++ s) :: texts
  | _, texts => texts

theorem led_map_text (lead : Option String) (texts : List String) :
    led lead (texts.map .text) = .ok ((ledTexts lead texts).map .text) := by
  cases lead with
  | none => simp [led, ledTexts]
  | some s =>
    cases texts with
    | nil => rfl
    | cons t texts => rfl

theorem writeAll_led (cat : Catalog) (d : Dialect) (lead : Option String)
    (rows : List (List Piece)) :
    writeAll cat d (Piece.led lead rows) = ledTexts lead <$> writeAll cat d rows := by
  cases lead with
  | none =>
    have hid : ledTexts none = id := by funext texts; rfl
    simp [Piece.led, hid]
  | some s =>
    cases rows with
    | nil => simp [Piece.led, ledTexts, writeAll]
    | cons ps rows =>
      simp [Piece.led, ledTexts, writeAll, write, Token.spelling, map_eq_pure_bind, -bind_pure_comp]

end Assembly

end SqlCompose
