import Mathlib.Data.List.Forall2
import SqlCompose.Proofs.Dialect.Wording
import SqlCompose.Render.Select
import SqlCompose.Statement.Select

/-!
# Paging clauses read back

Which rows a paging clause selects. Each engine has its own form of the clause, with numbers that
stand for "no limit" where one has to be written and with an order of nothing where there has to be
an order. Read as the engine reads it, the clause skips the rows of the offset and then keeps those of
the limit.
-/
namespace SqlCompose

/-! ## Words and numbers -/

namespace Text

/-- The words of a text with blanks between them. -/
def words (s : String) : List String :=
  ((s.toList.splitOn ' ').filter (· ≠ [])).map String.ofList

/-- The number that decimal digits spell. -/
def readNat (s : String) : Option Nat :=
  if s ≠ "" ∧ s.toList.all Char.isDigit then some (Nat.ofDigitChars 10 s.toList 0) else none

/-- The number that decimal digits spell, behind a minus sign or not. -/
def readInt (s : String) : Option Int :=
  match s.toList with
  | '-' :: digits => (readNat (.ofList digits)).map fun n => -n
  | _ => (readNat s).map Int.ofNat

theorem words_append (s t : String) : words (s ++ " " ++ t) = words s ++ words t := by
  have hlist : (s ++ " " ++ t).toList = s.toList ++ ' ' :: t.toList := by simp
  rw [words, hlist, List.splitOn_append_cons_self, List.filter_append, List.map_append]
  rfl

theorem isDigit_of_mem_repr {n : Nat} {c : Char} (h : c ∈ n.repr.toList) : c.isDigit = true := by
  rw [Nat.toList_repr] at h
  exact Nat.isDigit_of_mem_toDigits (by decide) (by decide) h

theorem words_repr (n : Nat) : words n.repr = [n.repr] := by
  have hblank : ' ' ∉ n.repr.toList := fun h => absurd (isDigit_of_mem_repr h) (by decide)
  rw [words, List.splitOn_eq_singleton hblank, List.filter_cons_of_pos (by simp), List.filter_nil,
    List.map_singleton, String.ofList_toList]

theorem readNat_repr (n : Nat) : readNat n.repr = some n := by
  have hdigits : n.repr.toList.all Char.isDigit = true :=
    List.all_eq_true.2 fun c hc => isDigit_of_mem_repr hc
  rw [readNat, if_pos ⟨Nat.repr_ne_empty, hdigits⟩, Nat.toList_repr, Nat.ofDigitChars_ten_toDigits]

theorem readInt_repr (n : Nat) : readInt n.repr = some (n : Int) := by
  unfold readInt
  split
  case h_1 digits h =>
    have hsign : '-' ∈ n.repr.toList := h ▸ List.mem_cons_self
    exact absurd (isDigit_of_mem_repr hsign) (by decide)
  case h_2 =>
    rw [readNat_repr]
    rfl

end Text

/-! ## Clauses -/

/-- One of the clauses that page the rows of a SELECT. -/
inductive RowClause
  /-- `LIMIT n`. -/
  | limit (n : Int)
  /-- `OFFSET n`. -/
  | offset (n : Nat)
  /-- `OFFSET n ROWS`. -/
  | offsetRows (n : Nat)
  /-- `FETCH NEXT n ROWS ONLY`. -/
  | fetch (n : Nat)
  /-- `ORDER BY (SELECT NULL)`. -/
  | unordered

namespace RowClause

/-- The clauses that words spell. -/
def read : List String → Option (List RowClause)
  | [] => some []
  | "LIMIT" :: n :: words => do (read words).map (.limit (← Text.readInt n) :: ·)
  | "OFFSET" :: n :: "ROWS" :: words => do (read words).map (.offsetRows (← Text.readNat n) :: ·)
  | "OFFSET" :: n :: words => do (read words).map (.offset (← Text.readNat n) :: ·)
  | "FETCH" :: "NEXT" :: n :: "ROWS" :: "ONLY" :: words => do
    (read words).map (.fetch (← Text.readNat n) :: ·)
  | "ORDER" :: "BY" :: "(SELECT" :: "NULL)" :: words => (read words).map (.unordered :: ·)
  | _ => none

end RowClause

/-- A selection of rows: how many are skipped, and how many are kept at most. -/
structure Page where
  skipped : Nat := 0
  kept : Option Nat := none
deriving DecidableEq

/-- The rows of a page. -/
def Page.rows {α : Type} (p : Page) (rows : List α) : List α :=
  match p.kept with
  | some n => (rows.drop p.skipped).take n
  | none => rows.drop p.skipped

namespace Engine

/-- The page of a SELECT with a LIMIT. In SQLite a negative one stands for no limit; other engines
have no negative ones. -/
def limitedPage (e : Engine) (n : Int) (skipped : Nat) : Option Page :=
  if 0 ≤ n then some { skipped, kept := some n.toNat }
  else if e = .sqlite then some { skipped } else none

/-- The page of a SELECT that is in an order, in an engine with OFFSET and FETCH. -/
def fetchedPage : List RowClause → Option Page
  | [.offsetRows m] => some { skipped := m }
  | [.offsetRows m, .fetch n] => some { skipped := m, kept := some n }
  | _ => none

/-- The page that an engine takes paging clauses for, behind a SELECT that has an order or not.
SQLite and MySQL have no OFFSET without a LIMIT, and SQL Server pages only what is ordered. -/
def page? (e : Engine) (ordered : Bool) (clauses : List RowClause) : Option Page :=
  match e, ordered, clauses with
  | _, _, [] => some {}
  | sqlserver, true, clauses => fetchedPage clauses
  | sqlserver, false, .unordered :: clauses => fetchedPage clauses
  | sqlserver, false, _ => none
  | e, _, [.limit n] => e.limitedPage n 0
  | e, _, [.limit n, .offset m] => e.limitedPage n m
  | generic, _, [.offset m] | postgresql, _, [.offset m] => some { skipped := m }
  | _, _, _ => none

/-- The page that an engine reads a text as. -/
def readPage (e : Engine) (ordered : Bool) (s : String) : Option Page :=
  (RowClause.read (Text.words s)).bind (e.page? ordered)

end Engine

/-- The rows that a limit and an offset select: those behind the offset, if there is one, and of them
no more than the limit, if there is one. -/
def paginated {α : Type} (limit offset : Option Nat) (rows : List α) : List α :=
  let rest := rows.drop (offset.getD 0)
  match limit with
  | some n => rest.take n
  | none => rest

/-! ## Texts of clauses -/

namespace RowClause

/-- Whether a text spells a clause, whatever clauses follow it. -/
structure Spells (s : String) (c : RowClause) : Prop where
  starts : ∃ word more, Text.words s = word :: more ∧ word ≠ "ROWS"
  reads : ∀ words, words.head? ≠ some "ROWS" →
    read (Text.words s ++ words) = (read words).map (c :: ·)

section Spells

variable {n : Nat}

attribute [local simp] read

theorem words_counted {word : String} (h : Text.words word = [word]) :
    Text.words (word ++ " " ++ n.repr) = [word, n.repr] := by
  rw [Text.words_append, Text.words_repr, h]
  rfl

theorem words_limit : Text.words ("LIMIT " ++ n.repr) = ["LIMIT", n.repr] :=
  @words_counted n "LIMIT" (by decide)

theorem words_offset : Text.words ("OFFSET " ++ n.repr) = ["OFFSET", n.repr] :=
  @words_counted n "OFFSET" (by decide)

theorem words_offsetRows :
    Text.words ("OFFSET " ++ n.repr ++ " ROWS") = ["OFFSET", n.repr, "ROWS"] := by
  have hword : Text.words "ROWS" = ["ROWS"] := by decide
  have htext : "OFFSET " ++ n.repr ++ " ROWS" = "OFFSET " ++ n.repr ++ " " ++ "ROWS" :=
    (@String.append_assoc ("OFFSET " ++ n.repr) " " "ROWS").symm
  rw [htext, Text.words_append, words_offset, hword]
  rfl

theorem words_fetch : Text.words ("FETCH NEXT " ++ n.repr ++ " ROWS ONLY")
    = ["FETCH", "NEXT", n.repr, "ROWS", "ONLY"] := by
  have hfront : Text.words "FETCH NEXT" = ["FETCH", "NEXT"] := by decide
  have hback : Text.words "ROWS ONLY" = ["ROWS", "ONLY"] := by decide
  have htext : "FETCH NEXT " ++ n.repr ++ " ROWS ONLY"
      = "FETCH NEXT" ++ " " ++ n.repr ++ " " ++ "ROWS ONLY" :=
    (@String.append_assoc ("FETCH NEXT" ++ " " ++ n.repr) " " "ROWS ONLY").symm
  rw [htext, Text.words_append, Text.words_append, Text.words_repr, hfront, hback]
  rfl

theorem spells_limit (n : Nat) : Spells ("LIMIT " ++ n.repr) (.limit n) where
  starts := ⟨_, _, words_limit, by decide⟩
  reads words _ := by
    simp [words_limit, Text.readInt_repr]

theorem spells_noLimit : Spells "LIMIT -1" (.limit (-1)) := by
  have hwords : Text.words "LIMIT -1" = ["LIMIT", "-1"] := by decide
  have hnumber : Text.readInt "-1" = some (-1) := by decide
  refine ⟨⟨_, _, hwords, by decide⟩, fun words _ => ?_⟩
  simp [hwords, hnumber]

theorem spells_offset (n : Nat) : Spells ("OFFSET " ++ n.repr) (.offset n) where
  starts := ⟨_, _, words_offset, by decide⟩
  reads words hwords := by
    have hrows : ∀ more, words ≠ "ROWS" :: more := by
      rintro more rfl
      exact hwords rfl
    simp [words_offset, Text.readNat_repr]

theorem spells_offsetRows (n : Nat) : Spells ("OFFSET " ++ n.repr ++ " ROWS") (.offsetRows n) where
  starts := ⟨_, _, words_offsetRows, by decide⟩
  reads words _ := by
    simp [words_offsetRows, Text.readNat_repr]

theorem spells_fetch (n : Nat) :
    Spells ("FETCH NEXT " ++ n.repr ++ " ROWS ONLY") (.fetch n) where
  starts := ⟨_, _, words_fetch, by decide⟩
  reads words _ := by
    simp [words_fetch, Text.readNat_repr]

theorem spells_unordered : Spells "ORDER BY (SELECT NULL)" .unordered := by
  have hwords : Text.words "ORDER BY (SELECT NULL)" = ["ORDER", "BY", "(SELECT", "NULL)"] := by
    decide
  refine ⟨⟨_, _, hwords, by decide⟩, fun words _ => ?_⟩
  simp [hwords]

theorem Spells.head?_append {s : String} {c : RowClause} (h : Spells s c) (words : List String) :
    (Text.words s ++ words).head? ≠ some "ROWS" := by
  obtain ⟨word, more, hs, hword⟩ := h.starts
  simpa [hs] using hword

theorem Spells.read_words {s : String} {c : RowClause} (h : Spells s c) :
    read (Text.words s) = some [c] := by
  have halone := h.reads [] (by simp)
  simpa using halone

theorem head?_words_intercalate {texts : List String} {clauses : List RowClause}
    (h : List.Forall₂ Spells texts clauses) :
    (Text.words (" ".intercalate texts)).head? ≠ some "ROWS" := by
  cases h with
  | nil => decide
  | @cons s _ texts _ hs _ =>
    cases texts with
    | nil => simpa using hs.head?_append []
    | cons t more =>
      rw [String.intercalate_cons_of_ne_nil (List.cons_ne_nil t more), Text.words_append]
      exact hs.head?_append _

/-- Texts of clauses with blanks between them are read as those clauses. -/
theorem read_words_intercalate {texts : List String} {clauses : List RowClause}
    (h : List.Forall₂ Spells texts clauses) :
    read (Text.words (" ".intercalate texts)) = some clauses := by
  induction h with
  | nil => rfl
  | @cons s _ texts _ hs hrest ih =>
    cases texts with
    | nil =>
      cases hrest
      simpa using hs.read_words
    | cons t more =>
      rw [String.intercalate_cons_of_ne_nil (List.cons_ne_nil t more), Text.words_append,
        hs.reads _ (head?_words_intercalate hrest), ih]
      rfl

end Spells

end RowClause

/-! ## The paging clause of an engine -/

/-- A count of rows that is not negative as a bound. -/
def RowBound.ofNat (n : Nat) : RowBound := .ofInt n

namespace Engine

open RowClause (Spells)

/-- The clauses that make up a paging clause. -/
def pagingClauses (e : Engine) (limit offset : Option Nat) (ordered : Bool) : List RowClause :=
  match e, limit, offset with
  | sqlite, none, some m => [.limit (-1), .offset m]
  | mysql, none, some m => [.limit largestRowCount, .offset m]
  | sqlserver, none, none => []
  | sqlserver, limit, offset =>
    (if ordered then [] else [.unordered]) ++ [.offsetRows (offset.getD 0)]
      ++ (limit.map .fetch).toList
  | _, limit, offset => (limit.map fun n => .limit n).toList ++ (offset.map .offset).toList

variable {e : Engine} {limit offset : Option Nat} {ordered : Bool}

theorem forall₂_toList {f : Nat → String} {g : Nat → RowClause} (h : ∀ n, Spells (f n) (g n))
    (bound : Option Nat) : List.Forall₂ Spells (bound.map f).toList (bound.map g).toList := by
  cases bound with
  | none => exact .nil
  | some n => exact .cons (h n) .nil

theorem skipped_ofNat (bound : Option Nat) :
    skipped (bound.map .ofNat) = (bound.getD 0).repr := by
  cases bound with
  | none => rfl
  | some n => cases n <;> rfl

/-- OFFSET and FETCH, behind an order of nothing if there is no other one. -/
theorem forall₂_fetching (limit offset : Option Nat) (ordered : Bool) :
    List.Forall₂ Spells
      ((if ordered then [] else ["ORDER BY (SELECT NULL)"])
        ++ ["OFFSET " ++ (offset.getD 0).repr ++ " ROWS"]
        ++ (limit.map fun n => "FETCH NEXT " ++ n.repr ++ " ROWS ONLY").toList)
      ((if ordered then [] else [.unordered]) ++ [.offsetRows (offset.getD 0)]
        ++ (limit.map .fetch).toList) := by
  have horder : List.Forall₂ Spells (if ordered then [] else ["ORDER BY (SELECT NULL)"])
      (if ordered then [] else [.unordered]) := by
    cases ordered with
    | false => exact .cons RowClause.spells_unordered .nil
    | true => exact .nil
  have hoffset : List.Forall₂ Spells ["OFFSET " ++ (offset.getD 0).repr ++ " ROWS"]
      [.offsetRows (offset.getD 0)] := .cons (RowClause.spells_offsetRows _) .nil
  exact List.rel_append (List.rel_append horder hoffset)
    (forall₂_toList RowClause.spells_fetch limit)

theorem forall₂_plain (limit offset : Option Nat) : List.Forall₂ Spells
    ((limit.map fun n => "LIMIT " ++ n.repr).toList
      ++ (offset.map fun m => "OFFSET " ++ m.repr).toList)
    ((limit.map fun n => .limit n).toList ++ (offset.map .offset).toList) :=
  List.rel_append (forall₂_toList (g := fun n => .limit n) RowClause.spells_limit limit)
    (forall₂_toList RowClause.spells_offset offset)

theorem plainPaging_ofNat (limit offset : Option Nat) :
    plainPaging (limit.map .ofNat) (offset.map .ofNat)
      = " ".intercalate ((limit.map fun n => "LIMIT " ++ n.repr).toList
        ++ (offset.map fun m => "OFFSET " ++ m.repr).toList) := by
  rw [plainPaging, Option.map_map, Option.map_map]
  rfl

theorem limitClause_fetching (limit offset : Option Nat) (ordered : Bool)
    (h : limit ≠ none ∨ offset ≠ none) :
    sqlserver.limitClause (limit.map .ofNat) (offset.map .ofNat) ordered
      = " ".intercalate ((if ordered then [] else ["ORDER BY (SELECT NULL)"])
        ++ ["OFFSET " ++ (offset.getD 0).repr ++ " ROWS"]
        ++ (limit.map fun n => "FETCH NEXT " ++ n.repr ++ " ROWS ONLY").toList) := by
  rw [← skipped_ofNat]
  cases limit <;> cases offset <;> first | rfl | simp at h

/-- A paging clause is the texts of its clauses, with blanks between them. -/
theorem exists_texts (e : Engine) (limit offset : Option Nat) (ordered : Bool) : ∃ texts,
    List.Forall₂ Spells texts (e.pagingClauses limit offset ordered) ∧
    e.limitClause (limit.map .ofNat) (offset.map .ofNat) ordered = " ".intercalate texts := by
  have hplain := forall₂_plain limit offset
  cases e with
  | generic | postgresql => exact ⟨_, hplain, plainPaging_ofNat limit offset⟩
  | sqlite =>
    cases limit with
    | some n => exact ⟨_, hplain, plainPaging_ofNat (some n) offset⟩
    | none =>
      cases offset with
      | none => exact ⟨_, hplain, rfl⟩
      | some m =>
        exact ⟨["LIMIT -1", "OFFSET " ++ m.repr],
          .cons RowClause.spells_noLimit (.cons (RowClause.spells_offset m) .nil), rfl⟩
  | mysql =>
    cases limit with
    | some n => exact ⟨_, hplain, plainPaging_ofNat (some n) offset⟩
    | none =>
      cases offset with
      | none => exact ⟨_, hplain, rfl⟩
      | some m =>
        refine ⟨["LIMIT " ++ largestRowCount.repr, "OFFSET " ++ m.repr],
          .cons (RowClause.spells_limit _) (.cons (RowClause.spells_offset m) .nil), ?_⟩
        exact @String.append_assoc ("LIMIT " ++ largestRowCount.repr) " OFFSET " m.repr
  | sqlserver =>
    have hfetching := forall₂_fetching limit offset ordered
    cases limit with
    | some n =>
      exact ⟨_, hfetching, limitClause_fetching _ _ _ (.inl (Option.some_ne_none n))⟩
    | none =>
      cases offset with
      | none => exact ⟨[], .nil, rfl⟩
      | some m =>
        exact ⟨_, hfetching, limitClause_fetching _ _ _ (.inr (Option.some_ne_none m))⟩

/-- The page that a limit and an offset make, with a limit that is there for the engine's sake. -/
def pageOf (e : Engine) (limit offset : Option Nat) : Page where
  skipped := offset.getD 0
  kept := if e = .mysql ∧ offset.isSome then some (limit.getD largestRowCount) else limit

theorem page?_pagingClauses (e : Engine) (limit offset : Option Nat) (ordered : Bool) :
    e.page? ordered (e.pagingClauses limit offset ordered) = some (e.pageOf limit offset) := by
  cases e <;> cases limit <;> cases offset <;> cases ordered <;> rfl

/-- A page with the largest limit has all rows, if they can be counted with 64 bits. -/
theorem rows_pageOf (e : Engine) (limit offset : Option Nat) {α : Type} {rows : List α}
    (h : rows.length < Nat.pow 2 64) : (e.pageOf limit offset).rows rows = paginated limit offset rows := by
  cases limit with
  | some n =>
    have hkept : (e.pageOf (some n) offset).kept = some n := ite_self _
    rw [Page.rows, hkept]
    rfl
  | none =>
    by_cases hlargest : e = .mysql ∧ offset.isSome
    · have hkept : (e.pageOf none offset).kept = some largestRowCount := if_pos hlargest
      have hcount : (rows.drop (offset.getD 0)).length ≤ largestRowCount := by
        have hbits : Nat.pow 2 64 = largestRowCount + 1 := rfl
        rw [hbits] at h
        rw [List.length_drop]
        omega
      rw [Page.rows, hkept]
      exact List.take_of_length_le hcount
    · have hkept : (e.pageOf none offset).kept = none := if_neg hlargest
      rw [Page.rows, hkept]
      rfl

/-- A paging clause is read as the rows that its limit and its offset select. -/
theorem readPage_limitClause (e : Engine) (limit offset : Option Nat) (ordered : Bool) :
    e.readPage ordered (e.limitClause (limit.map .ofNat) (offset.map .ofNat) ordered)
      = some (e.pageOf limit offset) := by
  obtain ⟨texts, htexts, hclause⟩ := exists_texts e limit offset ordered
  rw [readPage, hclause, RowClause.read_words_intercalate htexts, Option.bind_some,
    page?_pagingClauses]

end Engine

/-! ## Bounds of a SELECT -/

/-- The value of a bound: a number, or nothing if there is no bound. -/
def Value.ofCount (bound : Option Nat) : Value := .ofOption (fun n : Nat => .int n) bound

/-- Whether a bound, if there is one, is a number that can be written out. -/
def IsWritten (bound : Option Nat) : Prop := ∀ n ∈ bound, n < Nat.pow 10 Scalar.largestWritten

section Bounds

variable {cat : Catalog}

theorem bound?_natCast (cat : Catalog) (n : Nat) : (Value.ofCount (some n)).bound? cat =
    if n < Nat.pow 10 Scalar.largestWritten then .ok (some (.ofNat n)) else .error .tooManyDigits := by
  have hlabel : (Value.int n).label cat = Scalar.wholeText n := rfl
  have htruthy : (Value.int n).truthy = ((n : Int) != 0) := rfl
  rw [Value.ofCount, Value.ofOption, Value.bound?, if_neg (by simp [Value.int, Value.isNone]), hlabel,
    htruthy, Scalar.wholeText, Int.natAbs_natCast]
  split <;> rfl

theorem bound?_of_isWritten {bound : Option Nat} (h : IsWritten bound) :
    (Value.ofCount bound).bound? cat = .ok (bound.map .ofNat) := by
  cases bound with
  | none => rfl
  | some n => exact (bound?_natCast cat n).trans (if_pos (h n rfl))

theorem bound?_of_not_isWritten {bound : Option Nat} (h : ¬IsWritten bound) :
    (Value.ofCount bound).bound? cat = .error .tooManyDigits := by
  cases bound with
  | none => exact absurd (fun n hn => nomatch hn) h
  | some n =>
    refine (bound?_natCast cat n).trans (if_neg fun hn => h fun m hm => ?_)
    obtain rfl := Option.mem_some_iff.1 hm
    exact hn

theorem checkCount_eq_ok_iff {clause : String} {v w : Value} :
    checkCount cat clause v = .ok w ↔ ∃ n : Nat, v = .int n ∧ w = .int n := by
  constructor
  · intro h
    unfold checkCount at h
    split at h
    case h_1 n =>
      split at h
      case isTrue =>
        obtain ⟨_, -, hthrown⟩ := Except.bind_eq_ok_iff.1 h
        cases hthrown
      case isFalse hn =>
        obtain ⟨count, rfl⟩ := Int.eq_ofNat_of_zero_le (Int.not_lt.1 hn)
        exact ⟨count, rfl, (Except.ok.inj h).symm⟩
    case h_2 =>
      obtain ⟨_, -, hthrown⟩ := Except.bind_eq_ok_iff.1 h
      cases hthrown
  · rintro ⟨n, rfl, rfl⟩
    rfl

/-- What is set to a count is set to a number that is not negative. -/
theorem counted_eq_ok_iff {α : Type} {clause : String} {v : Value} {set : Value → α} {later : α} :
    (do return set (← checkCount cat clause v)) = Except.ok later ↔
      ∃ n, v = .ofCount (some n) ∧ later = set (.ofCount (some n)) := by
  rw [Except.bind_eq_ok_iff]
  constructor
  · rintro ⟨w, hw, hlater⟩
    obtain ⟨n, rfl, rfl⟩ := checkCount_eq_ok_iff.1 hw
    exact ⟨n, rfl, (Except.ok.inj hlater).symm⟩
  · rintro ⟨n, rfl, rfl⟩
    exact ⟨.int n, checkCount_eq_ok_iff.2 ⟨n, rfl, rfl⟩, rfl⟩

variable {e : Engine} {limit offset : Option Nat} {ordered : Bool}

theorem pagingClause_of_isWritten (hlimit : IsWritten limit) (hoffset : IsWritten offset) :
    pagingClause cat e (.ofCount limit) (.ofCount offset) ordered
      = .ok (e.limitClause (limit.map .ofNat) (offset.map .ofNat) ordered) := by
  rw [pagingClause, bound?_of_isWritten hlimit, bound?_of_isWritten hoffset]
  split <;> rfl

theorem pagingClause_of_not_isWritten (h : ¬(IsWritten limit ∧ IsWritten offset)) :
    pagingClause cat e (.ofCount limit) (.ofCount offset) ordered = .error .tooManyDigits := by
  unfold pagingClause
  by_cases hlimit : IsWritten limit
  · have hoffset : ¬IsWritten offset := fun hoffset => h ⟨hlimit, hoffset⟩
    rw [bound?_of_isWritten hlimit, bound?_of_not_isWritten hoffset]
    split <;> rfl
  · rw [bound?_of_not_isWritten hlimit]
    split
    · by_cases hoffset : IsWritten offset
      · rw [bound?_of_isWritten hoffset]
        rfl
      · rw [bound?_of_not_isWritten hoffset]
        rfl
    · rfl

end Bounds

/-- The paging clauses of all engines select the same rows. A limit and an offset are taken if they
are numbers that are not negative. An engine reads the clause that is written for them, behind a
SELECT with an order of its own or without, as the rows behind the offset, and of them no more than
the limit; a bound that is not there leaves nothing out. The clause is written unless one of the
numbers has too many digits. -/
theorem pagingClause_selects (cat : Catalog) :
    (∀ (q : Select) v later, q.setLimit cat v = .ok later ↔
      ∃ n, v = .ofCount (some n) ∧ later = { q with limit := .ofCount (some n) }) ∧
    (∀ (q : Select) v later, q.setOffset cat v = .ok later ↔
      ∃ n, v = .ofCount (some n) ∧ later = { q with offset := .ofCount (some n) }) ∧
    ∀ (e : Engine) (limit offset : Option Nat) (ordered : Bool),
      (IsWritten limit ∧ IsWritten offset → ∃ text page,
        pagingClause cat e (.ofCount limit) (.ofCount offset) ordered = .ok text ∧
        e.readPage ordered text = some page ∧
        ∀ (α : Type) (rows : List α), rows.length < Nat.pow 2 64 →
          page.rows rows = paginated limit offset rows) ∧
      (¬(IsWritten limit ∧ IsWritten offset) →
        pagingClause cat e (.ofCount limit) (.ofCount offset) ordered = .error .tooManyDigits) := by
  refine ⟨fun _ _ _ => counted_eq_ok_iff, fun _ _ _ => counted_eq_ok_iff,
    fun e limit offset ordered => ⟨fun ⟨hlimit, hoffset⟩ => ?_, pagingClause_of_not_isWritten⟩⟩
  exact ⟨_, _, pagingClause_of_isWritten hlimit hoffset,
    Engine.readPage_limitClause e limit offset ordered,
    fun _ _ hrows => Engine.rows_pageOf e limit offset hrows⟩

/-- An engine reads only clauses of its own form. -/
example : Engine.sqlite.readPage false "LIMIT -1 OFFSET 2" = some { skipped := 2 } ∧
    Engine.mysql.readPage false "OFFSET 2" = none ∧
    Engine.sqlserver.readPage false "OFFSET 2 ROWS" = none := by decide

/-- On MySQL a SELECT that skips two rows keeps all others; more digits than are written out are too
many. -/
theorem pagingClause_selects_offset : ∃ text page,
    pagingClause default .mysql (.ofCount none) (.ofCount (some 2)) false = .ok text ∧
    Engine.mysql.readPage false text = some page ∧ page.rows ["a", "b", "c"] = ["c"] ∧
    pagingClause default .mysql (.ofCount (some (Nat.pow 10 Scalar.largestWritten))) (.ofCount none)
      false = .error .tooManyDigits := by
  have hall := (pagingClause_selects default).2.2 .mysql
  have hpow : ∀ k, 0 < k → 2 < Nat.pow 10 k := fun k hk =>
    calc 2 < 10 ^ 1 := by decide
      _ ≤ 10 ^ k := Nat.pow_le_pow_right (by decide) hk
  have hsmall : IsWritten (some 2) := by
    intro n hn
    obtain rfl := Option.mem_some_iff.1 hn
    exact hpow _ (by decide)
  have hlarge : ¬IsWritten (some (Nat.pow 10 Scalar.largestWritten)) := fun h =>
    Nat.lt_irrefl _ (h _ (Option.mem_some_self _))
  obtain ⟨text, page, htext, hpage, hrows⟩ := (hall none (some 2) false).1 ⟨nofun, hsmall⟩
  exact ⟨text, page, htext, hpage, hrows String ["a", "b", "c"] (by decide),
    (hall _ none false).2 fun h => hlarge h.1⟩

end SqlCompose
