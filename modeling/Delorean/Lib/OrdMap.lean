import Mathlib

/-!
# Ordered maps as key-sorted lists

An ordered finite map is a list of entries whose keys strictly increase. That is all a persistent
ordered map (a B-tree, an `OrdMap`) shows of itself through lookups, insertions, splits and
in-order iteration: iterating it yields the entries by increasing key, its first entry holds the
least key and its last entry the greatest. `OrdMap.sorted` carries the order as a field, so every
operation returns a sorted map and no later proof has to re-establish it.

The lemmas are the ones a client needs to reason about a map without unfolding it: lookups after
an insertion or a split, and what the first and the last entry say about all the others.
-/

/-- A finite map whose entries are listed by strictly increasing key. -/
structure OrdMap (κ α : Type) [LinearOrder κ] where
  /-- The entries, by increasing key. -/
  entries : List (κ × α)
  /-- Keys strictly increase along the list, so no key appears twice. -/
  sorted : entries.Pairwise (fun a b => a.1 < b.1)

namespace OrdMap

variable {κ α : Type} [LinearOrder κ]

/-! ## Lists -/

/-- The value of the first entry of `l` with key `k`. -/
def lookup (k : κ) : List (κ × α) → Option α
  | [] => none
  | e :: es => if e.1 = k then some e.2 else lookup k es

/-- Insertion into a key-sorted list that replaces the entry with the same key. -/
def insertSorted (k : κ) (v : α) : List (κ × α) → List (κ × α)
  | [] => [(k, v)]
  | e :: es =>
    if k < e.1 then (k, v) :: e :: es
    else if k = e.1 then (k, v) :: es
    else e :: insertSorted k v es

theorem mem_insertSorted {k : κ} {v : α} {e : κ × α} {l : List (κ × α)}
    (h : e ∈ insertSorted k v l) : e = (k, v) ∨ e ∈ l := by
  induction l with
  | nil => simpa [insertSorted] using h
  | cons d ds ih =>
    simp only [insertSorted] at h
    split_ifs at h with h1 h2
    · simpa using h
    · rcases List.mem_cons.mp h with rfl | h
      · exact .inl rfl
      · exact .inr (List.mem_cons_of_mem _ h)
    · rcases List.mem_cons.mp h with rfl | h
      · exact .inr List.mem_cons_self
      · rcases ih h with rfl | h
        · exact .inl rfl
        · exact .inr (List.mem_cons_of_mem _ h)

theorem insertSorted_sorted (k : κ) (v : α) {l : List (κ × α)}
    (h : l.Pairwise (fun a b => a.1 < b.1)) :
    (insertSorted k v l).Pairwise (fun a b => a.1 < b.1) := by
  induction l with
  | nil => simp [insertSorted]
  | cons d ds ih =>
    rw [List.pairwise_cons] at h
    simp only [insertSorted]
    split_ifs with h1 h2
    · refine List.Pairwise.cons (fun e he => ?_) (List.Pairwise.cons h.1 h.2)
      rcases List.mem_cons.mp he with rfl | he
      · exact h1
      · exact lt_trans h1 (h.1 e he)
    · subst h2
      exact List.Pairwise.cons h.1 h.2
    · refine List.Pairwise.cons (fun e he => ?_) (ih h.2)
      rcases mem_insertSorted he with rfl | he
      · exact lt_of_le_of_ne (not_lt.mp h1) (Ne.symm h2)
      · exact h.1 e he

theorem lookup_insertSorted (k k' : κ) (v : α) (l : List (κ × α)) :
    lookup k' (insertSorted k v l) = if k = k' then some v else lookup k' l := by
  induction l with
  | nil => simp [insertSorted, lookup]
  | cons d ds ih =>
    rcases lt_trichotomy k d.1 with hlt | rfl | hgt
    · -- The new entry goes in front.
      have hsi : insertSorted k v (d :: ds) = (k, v) :: d :: ds := by simp [insertSorted, hlt]
      rw [hsi]
      by_cases hk : k = k' <;> simp [lookup, hk]
    · have hsi : insertSorted d.1 v (d :: ds) = (d.1, v) :: ds := by simp [insertSorted]
      rw [hsi]
      by_cases hk : d.1 = k' <;> simp [lookup, hk]
    · have hsi : insertSorted k v (d :: ds) = d :: insertSorted k v ds := by
        simp [insertSorted, not_lt.mpr hgt.le, hgt.ne']
      rw [hsi]
      by_cases hd : d.1 = k'
      · have hk : k ≠ k' := by
          rintro rfl
          exact lt_irrefl _ (hd ▸ hgt)
        simp [lookup, hd, hk]
      · simp [lookup, hd, ih]

/-- In a list with distinct keys, a lookup finds exactly the entries of the list. -/
theorem lookup_eq_some_iff {l : List (κ × α)} (hl : l.Pairwise (fun a b => a.1 < b.1))
    (k : κ) (v : α) : lookup k l = some v ↔ (k, v) ∈ l := by
  induction l with
  | nil => simp [lookup]
  | cons d ds ih =>
    rw [List.pairwise_cons] at hl
    simp only [lookup, List.mem_cons]
    split_ifs with hk
    · subst hk
      constructor
      · rintro ⟨⟩
        exact .inl rfl
      · rintro (h | h)
        · rw [← h]
        · exact absurd (hl.1 _ h) (lt_irrefl _)
    · rw [ih hl.2]
      constructor
      · exact .inr
      · rintro (rfl | h)
        · exact absurd rfl hk
        · exact h

/-- A key above every key of the list goes at its end. -/
theorem insertSorted_of_forall_lt {k : κ} (v : α) :
    ∀ {l : List (κ × α)}, (∀ e ∈ l, e.1 < k) → insertSorted k v l = l ++ [(k, v)]
  | [], _ => rfl
  | e :: es, h => by
    have he : e.1 < k := h e List.mem_cons_self
    have hk : ¬k < e.1 := not_lt.mpr he.le
    have hne : k ≠ e.1 := ne_of_gt he
    rw [insertSorted, if_neg hk, if_neg hne,
      insertSorted_of_forall_lt v fun e' he' => h e' (List.mem_cons_of_mem e he'), List.cons_append]

/-- A key below every key of the list goes at its head. -/
theorem insertSorted_of_forall_gt {k : κ} (v : α) :
    ∀ {l : List (κ × α)}, (∀ e ∈ l, k < e.1) → insertSorted k v l = (k, v) :: l
  | [], _ => rfl
  | e :: _, h => by rw [insertSorted, if_pos (h e List.mem_cons_self)]

/-- Inserting into a key-sorted list puts the entry between the entries below its key and those
above it; an entry with its key is replaced. -/
theorem insertSorted_eq_filter (k : κ) (v : α) {l : List (κ × α)}
    (hl : l.Pairwise (fun a b => a.1 < b.1)) :
    insertSorted k v l = l.filter (fun e => e.1 < k) ++ (k, v) :: l.filter (fun e => k < e.1) := by
  induction l with
  | nil => rfl
  | cons d ds ih =>
    rw [List.pairwise_cons] at hl
    rcases lt_trichotomy k d.1 with hlt | rfl | hgt
    · -- Every entry is above `k`.
      have habove : ∀ e ∈ d :: ds, k < e.1 := by
        intro e he
        rcases List.mem_cons.mp he with rfl | he
        · exact hlt
        · exact hlt.trans (hl.1 e he)
      rw [insertSorted, if_pos hlt, List.filter_eq_nil_iff.mpr fun e he => by
          simpa using (habove e he).le, List.filter_eq_self.mpr fun e he => by simpa using habove e he]
      rfl
    · -- The entry with the key is replaced; the others are above it.
      have habove : ∀ e ∈ ds, d.1 < e.1 := hl.1
      rw [insertSorted, if_neg (lt_irrefl _), if_pos rfl,
        List.filter_eq_nil_iff.mpr fun e he => by
          rcases List.mem_cons.mp he with rfl | he
          · simp
          · simpa using (habove e he).le,
        List.filter_cons_of_neg (by simp), List.filter_eq_self.mpr fun e he => by simpa using habove e he]
      rfl
    · rw [insertSorted, if_neg (not_lt.mpr hgt.le), if_neg hgt.ne', ih hl.2,
        List.filter_cons_of_pos (by simpa using hgt), List.filter_cons_of_neg (by simpa using hgt.le)]
      rfl

/-- A key-sorted list is its entries below a key, at it, and above it. -/
theorem eq_filter_append {l : List (κ × α)} (hl : l.Pairwise (fun a b => a.1 < b.1)) (k : κ) :
    l = l.filter (fun e => e.1 < k) ++ l.filter (fun e => e.1 = k) ++ l.filter (fun e => k < e.1) := by
  induction l with
  | nil => rfl
  | cons d ds ih =>
    rw [List.pairwise_cons] at hl
    rcases lt_trichotomy d.1 k with hlt | heq | hgt
    · rw [List.filter_cons_of_pos (by simpa using hlt), List.filter_cons_of_neg (by simpa using hlt.ne),
        List.filter_cons_of_neg (by simpa using hlt.le), List.cons_append, List.cons_append, ← ih hl.2]
    · -- The rest is above the key.
      have habove : ∀ e ∈ ds, k < e.1 := fun e he => heq ▸ hl.1 e he
      rw [List.filter_cons_of_neg (by simp [heq]), List.filter_cons_of_pos (by simp [heq]),
        List.filter_cons_of_neg (by simp [heq]),
        List.filter_eq_nil_iff.mpr fun e he => by simpa using (habove e he).le,
        List.filter_eq_nil_iff.mpr fun e he => by simpa using (habove e he).ne',
        List.filter_eq_self.mpr fun e he => by simpa using habove e he]
      rfl
    · have habove : ∀ e ∈ ds, k < e.1 := fun e he => hgt.trans (hl.1 e he)
      rw [List.filter_cons_of_neg (by simpa using hgt.le), List.filter_cons_of_neg (by simpa using hgt.ne'),
        List.filter_cons_of_pos (by simpa using hgt),
        List.filter_eq_nil_iff.mpr fun e he => by simpa using (habove e he).le,
        List.filter_eq_nil_iff.mpr fun e he => by simpa using (habove e he).ne',
        List.filter_eq_self.mpr fun e he => by simpa using habove e he]
      rfl

/-- The entries of a key-sorted list at a key are the one its lookup finds, if any. -/
theorem filter_key_eq {l : List (κ × α)} (hl : l.Pairwise (fun a b => a.1 < b.1)) (k : κ) :
    l.filter (fun e => e.1 = k) = ((lookup k l).map fun v => (k, v)).toList := by
  induction l with
  | nil => rfl
  | cons d ds ih =>
    rw [List.pairwise_cons] at hl
    by_cases hd : d.1 = k
    · -- The rest is above the key.
      rw [List.filter_cons_of_pos (by simpa using hd),
        List.filter_eq_nil_iff.mpr fun e he => by simpa [← hd] using (hl.1 e he).ne']
      rw [lookup, if_pos hd, Option.map_some, Option.toList_some, ← hd]
    · rw [List.filter_cons_of_neg (by simpa using hd), ih hl.2]
      simp [lookup, hd]

/-! ## Maps -/

/-- The empty map. -/
def empty : OrdMap κ α := ⟨[], .nil⟩

/-- The map with one entry. -/
def singleton (k : κ) (v : α) : OrdMap κ α := ⟨[(k, v)], List.pairwise_singleton _ _⟩

/-- The value at `k`, if there is one. -/
def get? (m : OrdMap κ α) (k : κ) : Option α := lookup k m.entries

/-- The map with `k` bound to `v`, replacing any earlier binding. -/
def insert (m : OrdMap κ α) (k : κ) (v : α) : OrdMap κ α :=
  ⟨insertSorted k v m.entries, insertSorted_sorted k v m.sorted⟩

/-- The entry with the least key. -/
def getMin? (m : OrdMap κ α) : Option (κ × α) := m.entries.head?

/-- The entry with the greatest key. -/
def getMax? (m : OrdMap κ α) : Option (κ × α) := m.entries.getLast?

/-- The entries below `k` and the entries above `k`; an entry at `k` goes to neither. -/
def split (m : OrdMap κ α) (k : κ) : OrdMap κ α × OrdMap κ α :=
  (⟨m.entries.filter (fun e => e.1 < k), m.sorted.filter _⟩,
    ⟨m.entries.filter (fun e => k < e.1), m.sorted.filter _⟩)

/-- The keys, in increasing order. -/
def keys (m : OrdMap κ α) : List κ := m.entries.map Prod.fst

/-- The map built by inserting the pairs in order, so that a later pair overrides an earlier one. -/
def ofList (l : List (κ × α)) : OrdMap κ α := l.foldl (fun m e => m.insert e.1 e.2) empty

theorem get?_eq_some_iff (m : OrdMap κ α) (k : κ) (v : α) :
    m.get? k = some v ↔ (k, v) ∈ m.entries :=
  lookup_eq_some_iff m.sorted k v

@[simp]
theorem get?_empty (k : κ) : (empty : OrdMap κ α).get? k = none := rfl

@[simp]
theorem get?_singleton (k k' : κ) (v : α) :
    (singleton k v).get? k' = if k = k' then some v else none := by
  simp [singleton, get?, lookup]

@[simp]
theorem get?_insert (m : OrdMap κ α) (k k' : κ) (v : α) :
    (m.insert k v).get? k' = if k = k' then some v else m.get? k' :=
  lookup_insertSorted k k' v m.entries

theorem get?_insert_of_ne (m : OrdMap κ α) {k k' : κ} (v : α) (h : k ≠ k') :
    (m.insert k v).get? k' = m.get? k' := by
  simp [h]

theorem mem_entries_of_get? {m : OrdMap κ α} {k : κ} {v : α} (h : m.get? k = some v) :
    (k, v) ∈ m.entries :=
  (m.get?_eq_some_iff k v).mp h

@[simp]
theorem get?_split_fst (m : OrdMap κ α) (k k' : κ) :
    (m.split k).1.get? k' = if k' < k then m.get? k' else none := by
  apply Option.ext
  intro v
  simp only [split, get?_eq_some_iff, List.mem_filter, decide_eq_true_eq]
  split_ifs with h <;> simp [h, get?_eq_some_iff]

@[simp]
theorem get?_split_snd (m : OrdMap κ α) (k k' : κ) :
    (m.split k).2.get? k' = if k < k' then m.get? k' else none := by
  apply Option.ext
  intro v
  simp only [split, get?_eq_some_iff, List.mem_filter, decide_eq_true_eq]
  split_ifs with h <;> simp [h, get?_eq_some_iff]

/-- The first entry is in the map and its key is below every other key. -/
theorem getMin?_spec {m : OrdMap κ α} {k : κ} {v : α} (h : m.getMin? = some (k, v)) :
    m.get? k = some v ∧ ∀ e ∈ m.entries, k ≤ e.1 := by
  obtain ⟨es, sorted⟩ := m
  cases es with
  | nil => simp [getMin?] at h
  | cons d ds =>
    simp only [getMin?, List.head?_cons, Option.some.injEq] at h
    subst h
    rw [List.pairwise_cons] at sorted
    refine ⟨(get?_eq_some_iff _ k v).mpr List.mem_cons_self, fun e he => ?_⟩
    rcases List.mem_cons.mp he with rfl | he
    · exact le_rfl
    · exact (sorted.1 e he).le

/-- The last entry is in the map and its key is above every other key. -/
theorem getMax?_spec {m : OrdMap κ α} {k : κ} {v : α} (h : m.getMax? = some (k, v)) :
    m.get? k = some v ∧ ∀ e ∈ m.entries, e.1 ≤ k := by
  have hmem : (k, v) ∈ m.entries := List.mem_of_getLast? h
  refine ⟨(m.get?_eq_some_iff k v).mpr hmem, fun e he => ?_⟩
  obtain ⟨l, hl⟩ := List.getLast?_eq_some_iff.mp h
  have hs := m.sorted
  rw [hl, List.pairwise_append] at hs
  rw [hl, List.mem_append] at he
  rcases he with he | he
  · exact (hs.2.2 e he (k, v) List.mem_cons_self).le
  · rw [List.mem_singleton.mp he]

/-- A key below every key of the map gives its first entry. -/
theorem getMin?_insert_of_forall_lt {m : OrdMap κ α} {k : κ} (v : α)
    (hk : ∀ e ∈ m.entries, k < e.1) : (m.insert k v).getMin? = some (k, v) := by
  cases hm : m.entries with
  | nil => simp [insert, getMin?, hm, insertSorted]
  | cons d ds =>
    have hd : k < d.1 := hk d (by simp [hm])
    simp [insert, getMin?, hm, insertSorted, hd]

/-- A key above the greatest key leaves the first entry as it was. -/
theorem getMin?_insert_of_getMax? {m : OrdMap κ α} {top k : κ} {w : α} (v : α)
    (hmax : m.getMax? = some (top, w)) (hk : top < k) : (m.insert k v).getMin? = m.getMin? := by
  have hbelow : ∀ e ∈ m.entries, e.1 < k := fun e he =>
    lt_of_le_of_lt ((getMax?_spec hmax).2 e he) hk
  have hne : m.entries ≠ [] := fun hnil => by simp [getMax?, hnil] at hmax
  obtain ⟨d, ds, hds⟩ := List.exists_cons_of_ne_nil hne
  have hentries : (m.insert k v).entries = m.entries ++ [(k, v)] :=
    insertSorted_of_forall_lt v hbelow
  rw [getMin?, getMin?, hentries, hds]
  rfl

/-- A key above every key of the map gives its last entry. -/
theorem getMax?_insert_of_forall_lt {m : OrdMap κ α} {k : κ} (v : α)
    (hk : ∀ e ∈ m.entries, e.1 < k) : (m.insert k v).getMax? = some (k, v) := by
  simp [getMax?, insert, insertSorted_of_forall_lt v hk]

/-- A map has no first entry exactly when it is empty. -/
theorem getMin?_eq_none_iff (m : OrdMap κ α) : m.getMin? = none ↔ m.entries = [] :=
  List.head?_eq_none_iff

/-- A map has no last entry exactly when it is empty. -/
theorem getMax?_eq_none_iff (m : OrdMap κ α) : m.getMax? = none ↔ m.entries = [] :=
  List.getLast?_eq_none_iff

/-- Iterating backwards lists the entries by strictly decreasing key. -/
theorem entries_reverse_sorted (m : OrdMap κ α) :
    m.entries.reverse.Pairwise (fun a b => b.1 < a.1) :=
  List.pairwise_reverse.mpr m.sorted

/-- On a list by strictly decreasing key, the first entry that satisfies `p` is the one with the
greatest key among those that do. -/
theorem find?_eq_some_iff_greatest {l : List (κ × α)}
    (hl : l.Pairwise (fun a b => b.1 < a.1)) (p : κ × α → Bool) (e : κ × α) :
    l.find? p = some e ↔ e ∈ l ∧ p e = true ∧ ∀ e' ∈ l, p e' = true → e'.1 ≤ e.1 := by
  induction l with
  | nil => simp
  | cons d ds ih =>
    rw [List.pairwise_cons] at hl
    by_cases hd : p d = true
    · -- The head is taken: it is the greatest of all the entries.
      rw [List.find?_cons_of_pos hd, Option.some.injEq]
      constructor
      · rintro rfl
        refine ⟨List.mem_cons_self, hd, fun e' he' _ => ?_⟩
        rcases List.mem_cons.mp he' with rfl | he'
        · exact le_rfl
        · exact (hl.1 e' he').le
      · rintro ⟨he, -, hmax⟩
        rcases List.mem_cons.mp he with rfl | he
        · rfl
        · exact absurd (hmax d List.mem_cons_self hd) (not_le.mpr (hl.1 e he))
    · -- The head is skipped, and it cannot be the answer.
      rw [List.find?_cons_of_neg hd, ih hl.2]
      constructor
      · rintro ⟨he, hpe, hmax⟩
        refine ⟨List.mem_cons_of_mem _ he, hpe, fun e' he' hpe' => ?_⟩
        rcases List.mem_cons.mp he' with rfl | he'
        · exact absurd hpe' hd
        · exact hmax e' he' hpe'
      · rintro ⟨he, hpe, hmax⟩
        rcases List.mem_cons.mp he with rfl | he
        · exact absurd hpe hd
        · exact ⟨he, hpe, fun e' he' hpe' => hmax e' (List.mem_cons_of_mem _ he') hpe'⟩

/-- Iterating a map backwards, the first entry that satisfies `p` is the one with the greatest
key among those that do. -/
theorem find?_reverse_eq_some_iff (m : OrdMap κ α) (p : κ × α → Bool) (e : κ × α) :
    m.entries.reverse.find? p = some e ↔
      e ∈ m.entries ∧ p e = true ∧ ∀ e' ∈ m.entries, p e' = true → e'.1 ≤ e.1 := by
  rw [find?_eq_some_iff_greatest m.entries_reverse_sorted]
  simp only [List.mem_reverse]

/-! ## Keys -/

/-- A key above every key of the map is added last. -/
theorem keys_insert_of_forall_lt {m : OrdMap κ α} {k : κ} (v : α) (hk : ∀ e ∈ m.entries, e.1 < k) :
    (m.insert k v).keys = m.keys ++ [k] := by
  simp [keys, insert, insertSorted_of_forall_lt v hk]

/-- A key below every key of the map is added first. -/
theorem keys_insert_of_forall_gt {m : OrdMap κ α} {k : κ} (v : α) (hk : ∀ e ∈ m.entries, k < e.1) :
    (m.insert k v).keys = k :: m.keys := by
  simp [keys, insert, insertSorted_of_forall_gt v hk]

/-- The upper part of a split keeps the keys above the splitting key. -/
theorem keys_split_snd (m : OrdMap κ α) (k : κ) :
    (m.split k).2.keys = m.keys.filter fun k' => k < k' := by
  simp only [keys, split, List.filter_map]
  rfl

/-! ## Entries around a key -/

/-- Inserting at `k` puts the entry between the map's entries below `k` and those above it. -/
theorem entries_insert (m : OrdMap κ α) (k : κ) (v : α) :
    (m.insert k v).entries = (m.split k).1.entries ++ (k, v) :: (m.split k).2.entries :=
  insertSorted_eq_filter k v m.sorted

/-- A map's entries are those below `k`, the one at `k` if any, and those above `k`. -/
theorem entries_eq_split (m : OrdMap κ α) (k : κ) :
    m.entries = (m.split k).1.entries ++ ((m.get? k).map fun v => (k, v)).toList ++
      (m.split k).2.entries := by
  rw [get?, ← filter_key_eq m.sorted k]
  exact eq_filter_append m.sorted k

/-- Inserting at a key at or above every key puts the entry after those below it. -/
theorem entries_insert_of_forall_le {m : OrdMap κ α} {k : κ} (v : α)
    (h : ∀ e ∈ m.entries, e.1 ≤ k) :
    (m.insert k v).entries = m.entries.filter (fun e => e.1 < k) ++ [(k, v)] := by
  rw [entries_insert]
  congr 2
  exact List.filter_eq_nil_iff.mpr fun e he => by simpa using h e he

/-- A map whose keys are at most `k` is its entries below `k` and the one at `k`, if any. -/
theorem entries_eq_of_forall_le {m : OrdMap κ α} {k : κ} (h : ∀ e ∈ m.entries, e.1 ≤ k) :
    m.entries = m.entries.filter (fun e => e.1 < k) ++ ((m.get? k).map fun v => (k, v)).toList := by
  have hsplit := entries_eq_split m k
  have habove : (m.split k).2.entries = [] :=
    List.filter_eq_nil_iff.mpr fun e he => by simpa using h e he
  rw [habove, List.append_nil] at hsplit
  exact hsplit

/-! ## Keys that form an interval

A map keyed by numbers whose keys are `lo, lo + 1, …, lo + n - 1`, as a chain of block heights
with no gap is. Adding the next key and cutting the map at a key from `lo` on keep it so. -/

/-- The numbers of an interval above `h`, when the interval starts at most one above `h`. -/
theorem filter_lt_range' (h : ℕ) :
    ∀ {lo n : ℕ}, lo ≤ h + 1 →
      (List.range' lo n).filter (fun x => decide (h < x)) = List.range' (h + 1) (lo + n - (h + 1))
  | lo, 0, hlo => by
    rw [List.range'_zero, List.filter_nil, show lo + 0 - (h + 1) = 0 by omega, List.range'_zero]
  | lo, n + 1, hlo => by
    by_cases hstart : lo = h + 1
    · -- Every number of the interval is above `h`.
      subst hstart
      rw [List.filter_eq_self.mpr fun x hx => by simp [List.mem_range'_1] at hx ⊢; omega]
      congr 1
      omega
    · rw [List.range'_succ, List.filter_cons_of_neg (by simp; omega),
        filter_lt_range' h (show lo + 1 ≤ h + 1 by omega)]
      congr 1
      omega

variable {α' : Type}

/-- Adding the key after the greatest one extends the interval. -/
theorem keys_insert_succ {m : OrdMap ℕ α'} {lo top : ℕ} {w : α'} (v : α')
    (hkeys : m.keys = List.range' lo m.keys.length) (hmax : m.getMax? = some (top, w)) :
    (m.insert (top + 1) v).keys = List.range' lo (m.insert (top + 1) v).keys.length := by
  have hbelow : ∀ e ∈ m.entries, e.1 < top + 1 := fun e he =>
    Nat.lt_succ_of_le ((getMax?_spec hmax).2 e he)
  -- The greatest key is the last number of the interval.
  have hlast : m.keys.getLast? = some top := by
    rw [keys, List.getLast?_map]
    exact Option.map_eq_some_iff.mpr ⟨(top, w), hmax, rfl⟩
  rw [hkeys, List.getLast?_range'] at hlast
  split_ifs at hlast with hn
  rw [Option.some.injEq] at hlast
  rw [keys_insert_of_forall_lt v hbelow, List.length_append, List.length_singleton,
    List.range'_concat, ← hkeys]
  congr 2
  omega

/-- Cutting the map at `h`, from the start of the interval on, and adding `h` leaves the interval
from `h`. -/
theorem keys_split_insert {m : OrdMap ℕ α'} {lo h : ℕ} (v : α')
    (hkeys : m.keys = List.range' lo m.keys.length) (hlo : lo ≤ h) :
    ((m.split h).2.insert h v).keys = List.range' h ((m.split h).2.insert h v).keys.length := by
  have habove : ∀ e ∈ (m.split h).2.entries, h < e.1 := by
    intro e he
    simp only [split, List.mem_filter, decide_eq_true_eq] at he
    exact he.2
  have hsplit : (m.split h).2.keys = List.range' (h + 1) (lo + m.keys.length - (h + 1)) := by
    rw [keys_split_snd, hkeys, filter_lt_range' h (by omega), List.length_range']
  rw [keys_insert_of_forall_gt v habove, hsplit, List.length_cons, List.length_range',
    List.range'_succ]

end OrdMap
