import Mathlib.Data.List.Find
import SqlCompose.Proofs.Statement.Rows

/-!
# Assignments

The mapping and the keywords of a call are put together by their keys, where a later value takes the
place of an earlier one. A name and a column are different keys, and so are a column and its copy.
So a column may be assigned twice, but only if it is keyed in different ways.
-/
namespace SqlCompose

variable {cat : Catalog} {id : TableId}

namespace Value

/-- What tells the keys of columns apart: a text is what it says, and a column is itself. -/
def mark? : Value → Option (String ⊕ ColumnId)
  | scalar (.text s) => some (.inl s)
  | expr (.column _ c) => some (.inr c)
  | _ => Option.none

/-- Whether a value can be the key of a column: a name or a column. -/
def IsColumnKey (k : Value) : Prop := k.mark?.isSome

/-- The name of the column that a key with a given mark stands for. -/
def markedName (cat : Catalog) : String ⊕ ColumnId → String
  | .inl s => s
  | .inr c => (cat.column c).name

variable {k k' : Value}

theorem isColumnKey_iff : k.IsColumnKey ↔ (∃ s, k = text s) ∨ ∃ a c, k = expr (.column a c) := by
  unfold IsColumnKey mark?
  split <;> simp_all [text]

theorem IsColumnKey.keyName?_eq (h : k.IsColumnKey) :
    k.keyName? cat = k.mark?.map (markedName cat) := by
  obtain ⟨s, rfl⟩ | ⟨a, c, rfl⟩ := isColumnKey_iff.1 h
  · rfl
  · rfl

/-- Keys of columns are the same if they have the same mark. -/
theorem IsColumnKey.sameKey_iff (h : k.IsColumnKey) (h' : k'.IsColumnKey) :
    k.sameKey k' = true ↔ k.mark? = k'.mark? := by
  obtain ⟨s, rfl⟩ | ⟨a, c, rfl⟩ := isColumnKey_iff.1 h
  · obtain ⟨s', rfl⟩ | ⟨a', c', rfl⟩ := isColumnKey_iff.1 h'
    · simp [sameKey, text, plainKey?, Scalar.atom?, mark?]
    · constructor <;> intro hsame <;> cases hsame
  · obtain ⟨s', rfl⟩ | ⟨a', c', rfl⟩ := isColumnKey_iff.1 h'
    · constructor <;> intro hsame <;> cases hsame
    · simp only [sameKey, column?, mark?, beq_iff_eq, Option.some.injEq, Sum.inr.injEq]
      exact eq_comm

end Value

/-- The value of the last entry whose key fits. -/
def lastFor? (fits : Value → Bool) (entries : List (Value × Value)) : Option Value :=
  (entries.reverse.find? fun entry => fits entry.1).map (·.2)

theorem lastFor?_concat (fits : Value → Bool) (entries : List (Value × Value)) (k v : Value) :
    lastFor? fits (entries ++ [(k, v)]) = if fits k then some v else lastFor? fits entries := by
  rw [lastFor?, List.reverse_append, List.reverse_singleton, List.singleton_append,
    List.find?_cons]
  cases hk : fits k <;> simp [lastFor?]

namespace Update

/-- The entries of a mapping with the marks of their keys. -/
def marked (entries : List (Value × Value)) : List (Option (String ⊕ ColumnId) × Value) :=
  entries.map fun entry => (entry.1.mark?, entry.2)

variable {entries kept : List (Value × Value)} {k v : Value}

theorem map_fst_marked (entries : List (Value × Value)) :
    (marked entries).map (·.1) = entries.map (·.1.mark?) := by
  rw [marked, List.map_map]
  rfl

@[simp] theorem marked_cons (entry : Value × Value) (entries : List (Value × Value)) :
    marked (entry :: entries) = (entry.1.mark?, entry.2) :: marked entries := rfl

/-- Putting a value under a key changes the value of this key and of no other. -/
theorem mem_marked_upsert_iff (hk : k.IsColumnKey) (hkept : ∀ entry ∈ kept, entry.1.IsColumnKey)
    (hn : (kept.map (·.1.mark?)).Nodup) {m : Option (String ⊕ ColumnId)} {w : Value} :
    (m, w) ∈ marked (upsert k v kept) ↔
      m = k.mark? ∧ w = v ∨ m ≠ k.mark? ∧ (m, w) ∈ marked kept := by
  induction kept with
  | nil => simp [upsert, marked]
  | cons entry rest ih =>
    obtain ⟨own, old⟩ := entry
    obtain ⟨hown, hrest⟩ := List.forall_mem_cons.1 hkept
    rw [List.map_cons, List.nodup_cons] at hn
    have hothers : own.mark? = k.mark? → (k.mark?, w) ∉ marked rest := by
      intro heq hmem
      refine hn.1 ?_
      rw [← map_fst_marked]
      exact List.mem_map.2 ⟨_, hmem, heq.symm⟩
    rw [upsert]
    by_cases hmark : own.mark? = k.mark?
    · rw [if_pos ((hown.sameKey_iff hk).2 hmark), marked_cons, marked_cons, List.mem_cons,
        List.mem_cons, Prod.mk.injEq, Prod.mk.injEq, hmark]
      by_cases hm : m = k.mark?
      · subst hm
        simp [hothers hmark]
      · simp [hm]
    · rw [if_neg fun hsame => hmark ((hown.sameKey_iff hk).1 hsame), marked_cons, marked_cons,
        List.mem_cons, List.mem_cons, ih hrest hn.2, Prod.mk.injEq]
      by_cases hm : m = k.mark?
      · simp [hm, Ne.symm hmark]
      · simp [hm]

/-- The keys stay keys of columns, and the marks stay different. -/
theorem isColumnKey_upsert (hk : k.IsColumnKey) (hkept : ∀ entry ∈ kept, entry.1.IsColumnKey) :
    ∀ entry ∈ upsert k v kept, entry.1.IsColumnKey := by
  induction kept with
  | nil => simpa [upsert] using hk
  | cons entry rest ih =>
    obtain ⟨own, old⟩ := entry
    obtain ⟨hown, hrest⟩ := List.forall_mem_cons.1 hkept
    rw [upsert]
    split
    · exact List.forall_mem_cons.2 ⟨hown, hrest⟩
    · exact List.forall_mem_cons.2 ⟨hown, ih hrest⟩

theorem nodup_marks_upsert (hk : k.IsColumnKey) (hkept : ∀ entry ∈ kept, entry.1.IsColumnKey)
    (hn : (kept.map (·.1.mark?)).Nodup) : ((upsert k v kept).map (·.1.mark?)).Nodup := by
  induction kept with
  | nil => simp [upsert]
  | cons entry rest ih =>
    obtain ⟨own, old⟩ := entry
    obtain ⟨hown, hrest⟩ := List.forall_mem_cons.1 hkept
    rw [List.map_cons, List.nodup_cons] at hn
    rw [upsert]
    split
    · exact List.nodup_cons.2 hn
    · rename_i hsame
      refine List.nodup_cons.2 ⟨fun hmem => ?_, ih hrest hn.2⟩
      rw [← map_fst_marked] at hmem
      obtain ⟨⟨m, w⟩, hmem, hm : m = own.mark?⟩ := List.mem_map.1 hmem
      rcases (mem_marked_upsert_iff hk hrest hn.2).1 hmem with ⟨heq, -⟩ | ⟨-, hmem⟩
      · exact hsame ((hown.sameKey_iff hk).2 (hm.symm.trans heq))
      · refine hn.1 ?_
        rw [← map_fst_marked]
        exact List.mem_map.2 ⟨_, hmem, hm⟩

/-- Whether entries are others put together: each key once, with the last value given for it. -/
structure Merges (entries kept : List (Value × Value)) : Prop where
  isColumnKey : ∀ entry ∈ kept, entry.1.IsColumnKey
  nodup : (kept.map (·.1.mark?)).Nodup
  mem_iff : ∀ m w, (m, w) ∈ marked kept ↔ lastFor? (fun k => k.mark? = m) entries = some w

theorem Merges.upsert (h : Merges entries kept) (hk : k.IsColumnKey) :
    Merges (entries ++ [(k, v)]) (upsert k v kept) := by
  refine ⟨isColumnKey_upsert hk h.isColumnKey, nodup_marks_upsert hk h.isColumnKey h.nodup,
    fun m w => ?_⟩
  rw [mem_marked_upsert_iff hk h.isColumnKey h.nodup, lastFor?_concat, h.mem_iff]
  by_cases hm : m = k.mark?
  · subst hm
    simp [eq_comm]
  · simp [hm, Ne.symm hm]

/-- Keywords are names. -/
theorem isColumnKey_given {named : List (String × Value)}
    (hk : ∀ entry ∈ entries, entry.1.IsColumnKey) :
    ∀ entry ∈ entries ++ named.map fun entry => (Value.text entry.1, entry.2),
      entry.1.IsColumnKey := by
  intro entry hmem
  rcases List.mem_append.1 hmem with hmem | hmem
  · exact hk entry hmem
  · obtain ⟨keyword, -, rfl⟩ := List.mem_map.1 hmem
    rfl

/-- Entries put under their keys one after the other. -/
theorem merges_foldl {rest : List (Value × Value)} (h : Merges entries kept)
    (hk : ∀ entry ∈ rest, entry.1.IsColumnKey) :
    Merges (entries ++ rest) (rest.foldl (fun kept entry => upsert entry.1 entry.2 kept) kept) := by
  induction rest generalizing entries kept with
  | nil => simpa using h
  | cons entry rest ih =>
    obtain ⟨hentry, hrest⟩ := List.forall_mem_cons.1 hk
    have hnext : Merges (entries ++ [entry]) (upsert entry.1 entry.2 kept) := h.upsert hentry
    have hall := ih hnext hrest
    rwa [List.append_assoc] at hall

/-- A mapping and keywords put together. -/
theorem merges_mergeAssignments {named : List (String × Value)}
    (hk : ∀ entry ∈ entries, entry.1.IsColumnKey) :
    Merges (entries ++ named.map fun entry => (.text entry.1, entry.2))
      (mergeAssignments entries named) := by
  have hnone : Merges [] [] := ⟨by simp, by simp, by simp [marked, lastFor?]⟩
  exact merges_foldl hnone (isColumnKey_given hk)

end Update

/-- Whether keys that stand for the same column are the same key. -/
def KeyedOnce (cat : Catalog) (keys : List Value) : Prop :=
  ∀ k ∈ keys, ∀ k' ∈ keys, k.keyName? cat = k'.keyName? cat → k.sameKey k' = true

section KeyedOnce

variable {keys : List Value} {entries kept : List (Value × Value)}

/-- Whether columns are keyed once can be told from the marks of the keys. -/
theorem keyedOnce_iff (hk : ∀ k ∈ keys, k.IsColumnKey) : KeyedOnce cat keys ↔
    ∀ m ∈ keys.map Value.mark?, ∀ m' ∈ keys.map Value.mark?,
      m.map (Value.markedName cat) = m'.map (Value.markedName cat) → m = m' := by
  simp only [KeyedOnce, List.forall_mem_map]
  refine forall₂_congr fun k hmem => forall₂_congr fun k' hmem' => ?_
  rw [(hk k hmem).keyName?_eq, (hk k' hmem').keyName?_eq, (hk k hmem).sameKey_iff (hk k' hmem')]

/-- Different keys name each column once only if columns are keyed once. -/
theorem nodup_keyNames_iff (hk : ∀ entry ∈ kept, entry.1.IsColumnKey)
    (hn : (kept.map (·.1.mark?)).Nodup) :
    (kept.filterMap (·.1.keyName? cat)).Nodup ↔ KeyedOnce cat (kept.map (·.1)) := by
  have hkeys : ∀ k ∈ kept.map (·.1), k.IsColumnKey := by simpa using fun a b h => hk (a, b) h
  have hnames : (kept.filterMap (·.1.keyName? cat)).map some
      = (kept.map (·.1.mark?)).map (Option.map (Value.markedName cat)) := by
    clear hn hkeys
    induction kept with
    | nil => rfl
    | cons entry kept ih =>
      obtain ⟨hentry, hk⟩ := List.forall_mem_cons.1 hk
      obtain ⟨m, hm⟩ := Option.isSome_iff_exists.1 hentry
      have hname : entry.1.keyName? cat = some (Value.markedName cat m) := by
        rw [hentry.keyName?_eq, hm]
        rfl
      rw [List.filterMap_cons_some (f := fun entry : Value × Value => entry.1.keyName? cat) hname,
        List.map_cons, List.map_cons, List.map_cons, ih hk, hm]
      rfl
  rw [keyedOnce_iff hkeys, List.map_map, ← List.nodup_map_iff (fun _ _ => Option.some.inj), hnames,
    List.nodup_map_iff_inj_on hn]
  rfl

theorem lastFor?_eq_some {fits : Value → Bool} {v : Value}
    (h : lastFor? fits entries = some v) : ∃ entry ∈ entries, fits entry.1 = true := by
  obtain ⟨entry, hentry, -⟩ := Option.map_eq_some_iff.1 h
  have hfits := List.find?_some hentry
  exact ⟨entry, List.mem_reverse.1 (List.mem_of_find?_eq_some hentry), hfits⟩

theorem exists_lastFor? (fits : Value → Bool) {entry : Value × Value} (hmem : entry ∈ entries)
    (hfits : fits entry.1 = true) : ∃ v, lastFor? fits entries = some v := by
  have hsome : (entries.reverse.find? fun entry => fits entry.1).isSome :=
    List.find?_isSome.2 ⟨entry, List.mem_reverse.2 hmem, hfits⟩
  obtain ⟨found, hfound⟩ := Option.isSome_iff_exists.1 hsome
  exact ⟨found.2, by rw [lastFor?, hfound]; rfl⟩

theorem lastFor?_congr {fits fits' : Value → Bool}
    (h : ∀ entry ∈ entries, fits entry.1 = fits' entry.1) :
    lastFor? fits entries = lastFor? fits' entries := by
  have hfind : entries.reverse.find? (fun entry => fits entry.1)
      = entries.reverse.find? fun entry => fits' entry.1 :=
    List.find?_congr fun entry hmem => h entry (List.mem_reverse.1 hmem)
  rw [lastFor?, lastFor?, hfind]

/-- What is assigned to a column is what is kept under a mark for it. -/
theorem mem_filterMap_named_iff (hk : ∀ entry ∈ kept, entry.1.IsColumnKey) {column : String}
    {v : Value} :
    (column, v) ∈ kept.filterMap (fun entry => (entry.1.keyName? cat).map (·, entry.2)) ↔
      ∃ m, m.map (Value.markedName cat) = some column ∧ (m, v) ∈ Update.marked kept := by
  rw [List.mem_filterMap]
  constructor
  · rintro ⟨entry, hentry, heq⟩
    obtain ⟨name, hname, heq⟩ := Option.map_eq_some_iff.1 heq
    obtain ⟨rfl, rfl⟩ := Prod.mk.inj heq
    exact ⟨entry.1.mark?, by rw [← (hk entry hentry).keyName?_eq, hname],
      List.mem_map.2 ⟨entry, hentry, rfl⟩⟩
  · rintro ⟨m, hm, hmem⟩
    obtain ⟨entry, hentry, heq⟩ := List.mem_map.1 hmem
    obtain ⟨rfl, rfl⟩ := Prod.mk.inj heq
    exact ⟨entry, hentry, by rw [(hk entry hentry).keyName?_eq, hm]; rfl⟩

/-- If columns are keyed once, the keys for a column are those with one mark. -/
theorem lastFor?_mark_eq (hk : ∀ entry ∈ entries, entry.1.IsColumnKey)
    (ho : KeyedOnce cat (entries.map (·.1))) {m : Option (String ⊕ ColumnId)} {column : String}
    (hm : m ∈ entries.map (·.1.mark?)) (hname : m.map (Value.markedName cat) = some column) :
    lastFor? (fun k => k.mark? = m) entries
      = lastFor? (fun k => k.keyName? cat = some column) entries := by
  refine lastFor?_congr fun entry hentry => decide_eq_decide.2 ?_
  rw [(hk entry hentry).keyName?_eq]
  refine ⟨fun heq => by rw [heq, hname], fun heq => ?_⟩
  refine (keyedOnce_iff ?_).1 ho _ ?_ m ?_ (heq.trans hname.symm)
  · simpa using fun a b h => hk (a, b) h
  · exact List.mem_map.2 ⟨entry.1, List.mem_map.2 ⟨entry, hentry, rfl⟩, rfl⟩
  · rwa [List.map_map]

variable (h : Update.Merges entries kept)
include h

/-- The keys stay, up to sameness. -/
theorem Update.Merges.mem_marks_iff {m : Option (String ⊕ ColumnId)} :
    m ∈ kept.map (·.1.mark?) ↔ m ∈ entries.map (·.1.mark?) := by
  rw [← map_fst_marked, List.mem_map, List.mem_map]
  constructor
  · rintro ⟨⟨m, w⟩, hmem, rfl⟩
    obtain ⟨entry, hentry, hm⟩ := lastFor?_eq_some ((h.mem_iff m w).1 hmem)
    exact ⟨entry, hentry, by simpa using hm⟩
  · rintro ⟨entry, hentry, rfl⟩
    obtain ⟨w, hw⟩ := exists_lastFor? (fun k => k.mark? = entry.1.mark?) hentry (by simp)
    exact ⟨(entry.1.mark?, w), (h.mem_iff _ w).2 hw, rfl⟩

variable (hk : ∀ entry ∈ entries, entry.1.IsColumnKey)
include hk

theorem Update.Merges.keyedOnce_iff :
    KeyedOnce cat (kept.map (·.1)) ↔ KeyedOnce cat (entries.map (·.1)) := by
  rw [SqlCompose.keyedOnce_iff (by simpa using fun a b h' => h.isColumnKey (a, b) h'),
    SqlCompose.keyedOnce_iff (by simpa using fun a b h' => hk (a, b) h')]
  have hmarks : ∀ m, m ∈ (kept.map (·.1)).map Value.mark?
      ↔ m ∈ (entries.map (·.1)).map Value.mark? := by
    intro m
    rw [List.map_map, List.map_map]
    exact h.mem_marks_iff
  simp only [hmarks]

/-- If columns are keyed once, each gets the last value that is given for it. -/
theorem Update.Merges.mem_named_iff (ho : KeyedOnce cat (entries.map (·.1))) {column : String}
    {v : Value} :
    (column, v) ∈ kept.filterMap (fun entry => (entry.1.keyName? cat).map (·, entry.2)) ↔
      lastFor? (fun k => k.keyName? cat = some column) entries = some v := by
  rw [mem_filterMap_named_iff h.isColumnKey]
  constructor
  · rintro ⟨m, hm, hmem⟩
    have hlast := (h.mem_iff m v).1 hmem
    obtain ⟨entry, hentry, hfits⟩ := lastFor?_eq_some hlast
    have hmark : m ∈ entries.map (·.1.mark?) :=
      List.mem_map.2 ⟨entry, hentry, by simpa using hfits⟩
    rwa [lastFor?_mark_eq hk ho hmark hm] at hlast
  · intro hlast
    obtain ⟨entry, hentry, hfits⟩ := lastFor?_eq_some hlast
    have hm : entry.1.mark?.map (Value.markedName cat) = some column := by
      rw [← (hk entry hentry).keyName?_eq]
      simpa using hfits
    refine ⟨entry.1.mark?, hm, (h.mem_iff _ v).2 ?_⟩
    rw [lastFor?_mark_eq hk ho (List.mem_map.2 ⟨entry, hentry, rfl⟩) hm, hlast]

end KeyedOnce

/-! ## What statements assign -/

/-- The column and the value of an assignment. -/
def Value.assignment? (cat : Catalog) : Value → Option (String × Value)
  | .sequence .tuple [column, v] => (column.columnName? cat).map (·, v)
  | _ => Option.none

/-- What an UPDATE assigns to columns, in order. -/
def Update.assigned (cat : Catalog) (q : Update) : List (String × Value) :=
  (q.assignments.parts?.getD []).filterMap (·.assignment? cat)

/-- Each entry is assigned to the column that its key stands for. -/
theorem assignments_of_ownColumns {entries : List (Value × Value)} {added : List Value}
    (h : (entries.mapM fun (k, v) => do return Value.tuple [← ownColumn cat (.table id) k, v])
      = .ok added) :
    added.filterMap (·.assignment? cat)
      = entries.filterMap fun entry => (entry.1.keyName? cat).map (·, entry.2) := by
  induction entries generalizing added with
  | nil =>
    obtain rfl := Except.ok.inj h
    rfl
  | cons entry entries ih =>
    obtain ⟨k, v⟩ := entry
    obtain ⟨w, ws, hw, hws, rfl⟩ := Except.mapM_cons_eq_ok_iff.1 h
    obtain ⟨column, hcolumn, hw⟩ := Except.bind_eq_ok_iff.1 hw
    obtain rfl := Except.ok.inj hw
    obtain ⟨a, c, rfl, hname⟩ := column_of_ownColumn hcolumn
    rw [List.filterMap_cons, List.filterMap_cons, ih hws]
    simp only [hname]
    rfl

theorem Update.assigned_of_set {entries : List (Value × Value)} {named : List (String × Value)}
    {later : Update} (h : (Update.of (.table id)).set cat (.dict entries) named = .ok later) :
    later.assigned cat = (mergeAssignments entries named).filterMap
      fun entry => (entry.1.keyName? cat).map (·, entry.2) := by
  obtain ⟨mapping, hmapping, hrest⟩ := Except.bind_eq_ok_iff.1 h
  obtain rfl := Except.ok.inj hmapping
  obtain ⟨added, hadded, hlater⟩ := Except.bind_eq_ok_iff.1 hrest
  obtain rfl := Except.ok.inj hlater
  exact assignments_of_ownColumns hadded

/-- An UPDATE assigns each column once, and an INSERT lists each once, if and only if no two keys
that differ stand for the same column. In that case every column gets the last value that is given
for it, by a keyword rather than by the mapping. -/
theorem assigns_once_iff {entries : List (Value × Value)}
    (hk : ∀ entry ∈ entries, entry.1.IsColumnKey) :
    (∀ named later, (Update.of (.table id)).set cat (.dict entries) named = .ok later →
      let given := entries ++ named.map fun entry => (Value.text entry.1, entry.2)
      (((later.assigned cat).map (·.1)).Nodup ↔ KeyedOnce cat (given.map (·.1))) ∧
      (KeyedOnce cat (given.map (·.1)) → ∀ column v, (column, v) ∈ later.assigned cat ↔
        lastFor? (fun k => k.keyName? cat = some column) given = some v)) ∧
    ∀ later, (entries.Pairwise fun entry other => ¬entry.1.sameKey other.1) →
      (Insert.into (.table id)).addValues cat [.dict entries] [] = .ok later →
      ((later.listed cat).Nodup ↔ KeyedOnce cat (entries.map (·.1))) := by
  refine ⟨fun named later h => ?_, fun later hn h => ?_⟩
  · intro given
    have hgiven : ∀ entry ∈ given, entry.1.IsColumnKey := Update.isColumnKey_given hk
    have hmerges : Update.Merges given (Update.mergeAssignments entries named) :=
      Update.merges_mergeAssignments hk
    have hnames : (later.assigned cat).map (·.1)
        = (Update.mergeAssignments entries named).filterMap (·.1.keyName? cat) := by
      rw [Update.assigned_of_set h, List.map_filterMap]
      refine List.filterMap_congr fun entry _ => ?_
      rw [Option.map_map]
      exact Option.map_id'
    rw [hnames, nodup_keyNames_iff hmerges.isColumnKey hmerges.nodup, hmerges.keyedOnce_iff hgiven,
      Update.assigned_of_set h]
    exact ⟨Iff.rfl, fun ho column v => hmerges.mem_named_iff hgiven ho⟩
  · have hmarks : (entries.map (·.1.mark?)).Nodup := by
      refine List.pairwise_map.2 (hn.imp_of_mem fun hmem hmem' hne heq => hne ?_)
      exact ((hk _ hmem).sameKey_iff (hk _ hmem')).2 heq
    obtain ⟨columns, rows, hcolumns, -, -, rfl⟩ := Insert.exists_of_addNamedRow h
    have hlisted : columns.filterMap (·.columnName? cat)
        = entries.filterMap (·.1.keyName? cat) := by
      rw [(columns_of_ownColumns hcolumns).2.1, List.filterMap_map]
      rfl
    rw [← nodup_keyNames_iff hk hmarks, ← hlisted]
    rfl

/-- A table of one column, and a copy of the column. -/
def Catalog.ofCopied : Catalog where
  columns := #[{ name := "a", owner := some ⟨0⟩ }, { name := "a", owner := some ⟨0⟩ }]
  tables := #[{ name := "t", columns := [{ id := ⟨0⟩ }] }]

/-- A column, its copy and its name are three keys of one column. -/
theorem assigns_once_iff_copied :
    let original := Value.expr (.column .none ⟨0⟩)
    let copy := Value.expr (.column (.text "b") ⟨1⟩)
    (∃ later, (Update.of (.table ⟨0⟩)).set .ofCopied (.dict [(original, .int 1)]) [("a", .int 2)]
        = .ok later ∧
      later.assigned .ofCopied = [("a", .int 1), ("a", .int 2)] ∧
      ¬KeyedOnce .ofCopied [original, .text "a"]) ∧
    ∃ later, (Insert.into (.table ⟨0⟩)).addValues .ofCopied
        [.dict [(original, .int 1), (copy, .int 2)]] [] = .ok later ∧
      later.listed .ofCopied = ["a", "a"] ∧ ¬KeyedOnce .ofCopied [original, copy] := by
  intro original copy
  have horiginal : original.IsColumnKey := rfl
  have hcopy : copy.IsColumnKey := rfl
  refine ⟨⟨_, rfl, rfl, fun ho => ?_⟩, ⟨_, rfl, rfl, fun ho => ?_⟩⟩
  · obtain ⟨hset, -⟩ := @assigns_once_iff .ofCopied ⟨0⟩ [(original, .int 1)]
      (by simpa using horiginal)
    obtain ⟨hnodup, -⟩ := hset [("a", .int 2)] _ rfl
    exact absurd (hnodup.2 ho) (by decide)
  · obtain ⟨-, hvalues⟩ := @assigns_once_iff .ofCopied ⟨0⟩ [(original, .int 1), (copy, .int 2)]
      (by simpa using ⟨horiginal, hcopy⟩)
    exact absurd ((hvalues _ (by simp [Value.sameKey, original, copy, Value.column?]) rfl).2 ho)
      (by decide)

end SqlCompose
