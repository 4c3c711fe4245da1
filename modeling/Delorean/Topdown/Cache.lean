import Delorean.Lib.OrdMap

/-!
# The sequential key cache

`SequentialKeyCache` of `fendermint/vm/topdown/src/cache.rs` keeps key-value pairs whose keys
step by a fixed increment, in a `VecDeque` that the model reads as a list: entries are appended
at the back, and removed from the front (`remove_key_below`) or from the back
(`remove_key_above`). A lookup does not search: it computes the index `(key - lower) / increment`
from the lower bound, which is only right while the keys really are sequential. Keys are the
parent chain's `u64` block heights, as natural numbers.

The lemmas say what each operation does to the two bounds, which is what the finality provider's
invariants read. Over every run of appends and removals the keys step by the increment
(`Sequential`). The lookups compute their indices from the lower bound, so they find exactly the
stored entries for keys that are the lower bound plus a multiple of the increment, within the
bounds (`lookups_of_runCalls`); off those keys they answer the value of the entry below, and
outside the bounds `values_from` and `values_within` panic (`none` here) where the source's `u64` arithmetic or
`VecDeque::range` does.
-/

namespace Delorean.Topdown

/-- `SequentialAppendError`: why `append` refused a key. -/
inductive SequentialAppendError where
  | AboveBound
  | AlreadyInserted
  | BelowBound
  deriving DecidableEq, Repr

/-- `SequentialKeyCache<K, V>` with `K` the block height. -/
structure SequentialKeyCache (V : Type) where
  /-- The step between consecutive keys. -/
  increment : Nat
  /-- The entries, front first. -/
  data : List (Nat × V)

namespace SequentialKeyCache

variable {V : Type}

/-- `SequentialKeyCache::new`: an empty cache with the given increment. -/
def new (increment : Nat) : SequentialKeyCache V := ⟨increment, []⟩

/-- `SequentialKeyCache::sequential`: an empty cache with increment one. -/
def sequential : SequentialKeyCache V := ⟨1, []⟩

/-- `size`: the number of entries. -/
def size (c : SequentialKeyCache V) : Nat := c.data.length

/-- `is_empty`. -/
def isEmpty (c : SequentialKeyCache V) : Bool := c.data.isEmpty

/-- `upper_bound`: the key at the back. -/
def upperBound (c : SequentialKeyCache V) : Option Nat := c.data.getLast?.map Prod.fst

/-- `lower_bound`: the key at the front. -/
def lowerBound (c : SequentialKeyCache V) : Option Nat := c.data.head?.map Prod.fst

/-- `within_bound`: whether `k` lies between the two bounds. A list has both bounds or neither,
so the source's `unreachable!()` arm is the `false` arm here. -/
def withinBound (c : SequentialKeyCache V) (k : Nat) : Bool :=
  match c.lowerBound, c.upperBound with
  | some lower, some upper => decide (lower ≤ k) && decide (k ≤ upper)
  | _, _ => false

/-- `get_value`: the value at index `(key - lower) / increment`, for a key within the bounds. -/
def getValue (c : SequentialKeyCache V) (key : Nat) : Option V :=
  if !c.withinBound key then none
  else
    match c.lowerBound with
    | some lower => (c.data[(key - lower) / c.increment]?).map Prod.snd
    -- `within_bound` held, so the source's `unwrap` of the lower bound cannot fail.
    | none => none

/-- `remove_key_below`: pop entries from the front while their key is below `key`. -/
def removeKeyBelow (c : SequentialKeyCache V) (key : Nat) : SequentialKeyCache V :=
  { c with data := c.data.dropWhile (fun e => decide (e.1 < key)) }

/-- `remove_key_above`: pop entries from the back while their key is above `key`. -/
def removeKeyAbove (c : SequentialKeyCache V) (key : Nat) : SequentialKeyCache V :=
  { c with data := (c.data.reverse.dropWhile (fun e => decide (key < e.1))).reverse }

/-- `append`: push `(key, val)` at the back if the cache is empty or `key` is the upper bound
plus the increment; otherwise say where `key` lies. -/
def append (c : SequentialKeyCache V) (key : Nat) (val : V) :
    Except SequentialAppendError (SequentialKeyCache V) :=
  match c.upperBound with
  | none => .ok { c with data := c.data ++ [(key, val)] }
  | some upper =>
    let expected_next_key := upper + c.increment
    if expected_next_key = key then .ok { c with data := c.data ++ [(key, val)] }
    else if expected_next_key < key then .error .AboveBound
    else
      match c.lowerBound with
      | some lower => if key < lower then .error .BelowBound else .error .AlreadyInserted
      -- There is an upper bound, so there is a lower bound.
      | none => .error .AlreadyInserted

/-- `(key - lower) / increment` as the source computes it on `u64`, `none` where that panics: the
subtraction underflows when `key` is below `lower`, and the division fails when the increment is
zero. (A release build wraps the subtraction instead, to an index that `range` then rejects.) -/
def offset (c : SequentialKeyCache V) (lower key : Nat) : Option Nat :=
  if key < lower ∨ c.increment = 0 then none else some ((key - lower) / c.increment)

/-- `VecDeque::range(start..)` of the entries, read for their values: `none` where it panics, when
`start` is past the end. -/
def rangeFrom (data : List (Nat × V)) (start : Nat) : Option (List V) :=
  if start ≤ data.length then some ((data.drop start).map Prod.snd) else none

/-- `VecDeque::range(start..=stop)` of the entries, read for their values: `none` where it panics,
when `start` is beyond `stop + 1` or `stop` is past the end. -/
def rangeInclusive (data : List (Nat × V)) (start stop : Nat) : Option (List V) :=
  if start ≤ stop + 1 ∧ stop < data.length then
    some (((data.drop start).take (stop + 1 - start)).map Prod.snd)
  else none

/-- `values_from`: the values from the index of `start`, or of the lower bound if `start` is
below it. `none` where the source panics. -/
def valuesFrom (c : SequentialKeyCache V) (start : Nat) : Option (List V) :=
  if c.isEmpty then some (c.data.map Prod.snd)
  else
    match c.lowerBound with
    | some lower => (c.offset lower (max start lower)).bind (rangeFrom c.data)
    -- The cache is not empty, so the source's `unwrap` of the lower bound cannot fail.
    | none => none

/-- `values_within`: the values from the index of `start` to the index of `end_`, each taken
within the bounds. `none` where the source panics. -/
def valuesWithin (c : SequentialKeyCache V) (start end_ : Nat) : Option (List V) :=
  if c.isEmpty then some (c.data.map Prod.snd)
  else
    match c.lowerBound, c.upperBound with
    | some lower, some upper => do
      let end_idx ← c.offset lower (min end_ upper)
      let start_idx ← c.offset lower (max start lower)
      rangeInclusive c.data start_idx end_idx
    -- The cache is not empty, so the source's `unwrap`s of the bounds cannot fail.
    | _, _ => none

/-- The calls that change a cache. -/
inductive CacheCall (V : Type) where
  | append (key : Nat) (val : V)
  | removeKeyBelow (key : Nat)
  | removeKeyAbove (key : Nat)

/-- One call; a refused `append` leaves the cache as it was. -/
def applyCall (c : SequentialKeyCache V) : CacheCall V → SequentialKeyCache V
  | .append key val =>
    match c.append key val with
    | .ok c' => c'
    | .error _ => c
  | .removeKeyBelow key => c.removeKeyBelow key
  | .removeKeyAbove key => c.removeKeyAbove key

/-- The calls, one after another. -/
def runCalls (c : SequentialKeyCache V) (calls : List (CacheCall V)) : SequentialKeyCache V :=
  calls.foldl applyCall c

@[simp]
theorem lowerBound_sequential : (sequential : SequentialKeyCache V).lowerBound = none := rfl

@[simp]
theorem upperBound_sequential : (sequential : SequentialKeyCache V).upperBound = none := rfl

theorem upperBound_eq_none_iff (c : SequentialKeyCache V) :
    c.upperBound = none ↔ c.data = [] := by
  simp [upperBound]

/-- The one way `append` succeeds: `key` goes at the back, and it is the first key of an empty
cache or the upper bound plus the increment. -/
theorem append_eq_ok {c c' : SequentialKeyCache V} {key : Nat} {val : V}
    (h : c.append key val = .ok c') :
    c' = { c with data := c.data ++ [(key, val)] } ∧
      (c.data = [] ∨ ∃ upper, c.upperBound = some upper ∧ key = upper + c.increment) := by
  unfold append at h
  cases hu : c.upperBound with
  | none =>
    rw [hu] at h
    cases h
    exact ⟨rfl, .inl ((upperBound_eq_none_iff c).mp hu)⟩
  | some upper =>
    rw [hu] at h
    simp only at h
    split_ifs at h with h1 h2
    · cases h
      exact ⟨rfl, .inr ⟨upper, rfl, h1.symm⟩⟩
    · split at h
      · split_ifs at h
      · cases h

/-- Appending keeps the front of a non-empty cache. -/
theorem lowerBound_append {c c' : SequentialKeyCache V} {key : Nat} {val : V}
    (h : c.append key val = .ok c') :
    c'.lowerBound = (c.lowerBound).or (some key) := by
  obtain ⟨rfl, -⟩ := append_eq_ok h
  cases hd : c.data with
  | nil => simp [lowerBound, hd]
  | cons e es => simp [lowerBound, hd]

/-- The front of the entries left by `remove_key_below key` has a key of at least `key`. -/
theorem le_of_head?_dropWhile {key : Nat} :
    ∀ {l : List (Nat × V)} {e : Nat × V},
      (l.dropWhile (fun e => decide (e.1 < key))).head? = some e → key ≤ e.1
  | [], e, h => by simp at h
  | d :: ds, e, h => by
    by_cases hd : d.1 < key
    · rw [List.dropWhile_cons_of_pos (by simpa using hd)] at h
      exact le_of_head?_dropWhile h
    · rw [List.dropWhile_cons_of_neg (by simpa using hd)] at h
      simp only [List.head?_cons, Option.some.injEq] at h
      subst h
      omega

/-- The lower bound after `remove_key_below key` is at least `key`. -/
theorem lowerBound_removeKeyBelow {c : SequentialKeyCache V} {key lower : Nat}
    (h : (c.removeKeyBelow key).lowerBound = some lower) : key ≤ lower := by
  simp only [lowerBound, Option.map_eq_some_iff] at h
  obtain ⟨e, he, rfl⟩ := h
  exact le_of_head?_dropWhile he

/-! ## Caches of any increment -/

/-- The keys step by the cache's increment from the front: the shape `new` starts with, and that
`append`, `remove_key_below` and `remove_key_above` keep. -/
def Sequential (c : SequentialKeyCache V) : Prop :=
  c.data.IsChain fun a b => b.1 = a.1 + c.increment

theorem sequential_new (increment : Nat) : (new increment : SequentialKeyCache V).Sequential :=
  .nil

/-- In a list whose keys step by `inc`, the key at position `i` is the first key plus `i * inc`.
The induction is on the list after the first entry. -/
theorem key_getElem_of_isChain_add {inc : Nat} {d : Nat × V} {ds : List (Nat × V)}
    (h : (d :: ds).IsChain fun a b => b.1 = a.1 + inc) :
    ∀ (i : Nat) (hi : i < (d :: ds).length), ((d :: ds)[i]).1 = d.1 + i * inc := by
  induction ds generalizing d with
  | nil =>
    intro i hi
    have hi0 : i = 0 := by simpa using hi
    subst hi0
    simp
  | cons e es ih =>
    obtain ⟨hde, hrest⟩ := List.isChain_cons_cons.mp h
    intro i hi
    cases i with
    | zero => simp
    | succ i =>
      have hi' : i < (e :: es).length := by simpa using hi
      have hkey := ih hrest i hi'
      rw [List.getElem_cons_succ, hkey, hde, Nat.succ_mul]
      omega

section Sequential

variable {c c' : SequentialKeyCache V}

theorem Sequential.append (hc : c.Sequential) {key : Nat} {val : V} (h : c.append key val = .ok c') :
    c'.Sequential := by
  obtain ⟨rfl, hcase⟩ := append_eq_ok h
  show (c.data ++ [(key, val)]).IsChain fun a b => b.1 = a.1 + c.increment
  rcases hcase with hnil | ⟨upper, hupper, hkey⟩
  · simp [hnil]
  · -- The new key is the increment above the key at the back.
    refine List.IsChain.append hc (List.isChain_singleton _) fun x hx y hy => ?_
    simp only [List.head?_cons, Option.mem_def, Option.some.injEq] at hy
    subst hy
    simp only [upperBound, Option.map_eq_some_iff] at hupper
    obtain ⟨x', hx', rfl⟩ := hupper
    rw [Option.mem_def, hx', Option.some.injEq] at hx
    subst hx
    exact hkey

theorem Sequential.removeKeyBelow (hc : c.Sequential) (key : Nat) : (c.removeKeyBelow key).Sequential :=
  List.IsChain.suffix hc (List.dropWhile_suffix _)

theorem Sequential.removeKeyAbove (hc : c.Sequential) (key : Nat) : (c.removeKeyAbove key).Sequential :=
  List.IsChain.prefix hc (List.rdropWhile_prefix _ _)

theorem Sequential.applyCall (hc : c.Sequential) (call : CacheCall V) : (c.applyCall call).Sequential := by
  cases call with
  | append key val =>
    simp only [SequentialKeyCache.applyCall]
    split
    · rename_i c' h
      exact hc.append h
    · exact hc
  | removeKeyBelow key => exact hc.removeKeyBelow key
  | removeKeyAbove key => exact hc.removeKeyAbove key

@[simp]
theorem increment_applyCall (c : SequentialKeyCache V) (call : CacheCall V) :
    (c.applyCall call).increment = c.increment := by
  cases call with
  | append key val =>
    simp only [SequentialKeyCache.applyCall]
    split
    · rename_i c' h
      rw [(append_eq_ok h).1]
    · rfl
  | removeKeyBelow key => rfl
  | removeKeyAbove key => rfl

/-- Every run of calls keeps the keys stepping by the increment, which no call changes. The
induction is on the calls. -/
theorem Sequential.runCalls (hc : c.Sequential) (calls : List (CacheCall V)) :
    (c.runCalls calls).Sequential ∧ (c.runCalls calls).increment = c.increment := by
  induction calls generalizing c with
  | nil => exact ⟨hc, rfl⟩
  | cons call calls ih =>
    obtain ⟨hseq, hinc⟩ := ih (hc.applyCall call)
    exact ⟨hseq, hinc.trans (increment_applyCall c call)⟩

/-- The key at position `i` of a cache whose keys step by its increment. -/
theorem Sequential.key_getElem (hc : c.Sequential) {lower : Nat} (hl : c.lowerBound = some lower) :
    ∀ (i : Nat) (hi : i < c.data.length), (c.data[i]).1 = lower + i * c.increment := by
  cases hd : c.data with
  | nil => simp [lowerBound, hd] at hl
  | cons d ds =>
    have hlower : d.1 = lower := by simpa [lowerBound, hd] using hl
    rw [← hlower]
    have hchain : (d :: ds).IsChain fun a b => b.1 = a.1 + c.increment := hd ▸ hc
    exact key_getElem_of_isChain_add hchain

/-- The upper bound is the lower bound plus the increment once for each entry after the first. -/
theorem Sequential.upper_eq (hc : c.Sequential) {lower upper : Nat} (hl : c.lowerBound = some lower)
    (hu : c.upperBound = some upper) : upper = lower + (c.data.length - 1) * c.increment := by
  have hne : c.data ≠ [] := fun h => by simp [lowerBound, h] at hl
  have hlen : c.data.length - 1 < c.data.length := by
    have := List.length_pos_of_ne_nil hne
    omega
  have hlast : c.upperBound = some (c.data[c.data.length - 1]).1 := by
    rw [upperBound, List.getLast?_eq_getElem?]
    simp [List.getElem?_eq_getElem hlen]
  rw [hu, Option.some.injEq] at hlast
  rw [hlast, hc.key_getElem hl _ hlen]

/-- One increment past the back is where the key one past the last would be. -/
theorem Sequential.upper_add_increment (hc : c.Sequential) {lower upper : Nat}
    (hl : c.lowerBound = some lower) (hu : c.upperBound = some upper) :
    upper + c.increment = lower + c.data.length * c.increment := by
  have hne : c.data ≠ [] := fun h => by simp [lowerBound, h] at hl
  have hlen := List.length_pos_of_ne_nil hne
  rw [hc.upper_eq hl hu, Nat.add_assoc, ← Nat.succ_mul, Nat.succ_eq_add_one, Nat.sub_add_cancel hlen]

end Sequential

/-! ## Lookups on a cache of any increment -/

section Lookups

variable {c : SequentialKeyCache V}

/-- On a cache whose keys step by a positive increment, `get_value` finds every entry. -/
theorem getValue_of_mem_sequential (hc : c.Sequential) (hinc : 0 < c.increment) {k : Nat} {v : V}
    (hmem : (k, v) ∈ c.data) : c.getValue k = some v := by
  have hne : c.data ≠ [] := List.ne_nil_of_mem hmem
  obtain ⟨lower, hl⟩ : ∃ lower, c.lowerBound = some lower := by
    cases hd : c.data with
    | nil => exact absurd hd hne
    | cons d ds => exact ⟨d.1, by simp [lowerBound, hd]⟩
  obtain ⟨upper, hu⟩ : ∃ upper, c.upperBound = some upper := by
    cases h : c.upperBound with
    | none => exact absurd ((upperBound_eq_none_iff c).1 h) hne
    | some upper => exact ⟨upper, rfl⟩
  obtain ⟨i, hi, hget⟩ := List.getElem_of_mem hmem
  -- The entry sits at the position of its key above the front, and the back is the highest.
  have hkey : k = lower + i * c.increment := by rw [← hc.key_getElem hl i hi, hget]
  have hupper := hc.upper_eq hl hu
  have hle : i * c.increment ≤ (c.data.length - 1) * c.increment :=
    Nat.mul_le_mul_right _ (by omega)
  have hwithin : c.withinBound k = true := by
    simp only [withinBound, hl, hu, Bool.and_eq_true, decide_eq_true_eq]
    omega
  have hindex : (k - lower) / c.increment = i := by
    rw [hkey, Nat.add_sub_cancel_left, Nat.mul_div_cancel _ hinc]
  have hat : c.data[i]? = some (k, v) := by rw [List.getElem?_eq_getElem hi, hget]
  simp [getValue, hwithin, hl, hindex, hat]

/-- What `get_value` returns is the value of the entry with the greatest key at or below the one
asked for: the key itself only when it is the lower bound plus a multiple of the increment. -/
theorem getValue_eq_some (hc : c.Sequential) (hinc : 0 < c.increment) {key : Nat} {v : V}
    (h : c.getValue key = some v) : ∃ k, (k, v) ∈ c.data ∧ k ≤ key ∧ key < k + c.increment := by
  unfold getValue at h
  split_ifs at h with hout
  simp only [Bool.not_eq_true', Bool.not_eq_false] at hout
  cases hl : c.lowerBound with
  | none => simp [hl] at h
  | some lower =>
    rw [hl] at h
    obtain ⟨e, he, rfl⟩ := Option.map_eq_some_iff.1 h
    obtain ⟨hi, hget⟩ := List.getElem?_eq_some_iff.1 he
    have hkey := hc.key_getElem hl _ hi
    rw [hget] at hkey
    -- The bounds put `key` at or above the front.
    have hlow : lower ≤ key := by
      unfold withinBound at hout
      rw [hl] at hout
      split at hout
      · rename_i lower' upper' hl' hu'
        cases hl'
        simp only [Bool.and_eq_true, decide_eq_true_eq] at hout
        exact hout.1
      · cases hout
    have hdiv := Nat.div_mul_le_self (key - lower) c.increment
    have hmod := Nat.lt_div_mul_add (a := key - lower) hinc
    refine ⟨e.1, hget ▸ List.getElem_mem hi, ?_, ?_⟩ <;> omega

/-- Filtering a list by an interval of positions takes that slice of it. The induction is on the
list, moving the interval down by one at each entry. -/
theorem filter_eq_take_drop {α : Type} {q : α → Bool} :
    ∀ {l : List α} {a b : Nat}, (∀ i (hi : i < l.length), q l[i] = true ↔ a ≤ i ∧ i < b) →
      l.filter q = (l.drop a).take (b - a)
  | [], a, b, _ => by simp
  | x :: xs, a, b, h => by
    have htail : ∀ i (hi : i < xs.length), q xs[i] = true ↔ a - 1 ≤ i ∧ i < b - 1 := by
      intro i hi
      have := h (i + 1) (by simpa using hi)
      simp only [List.getElem_cons_succ] at this
      rw [this]
      omega
    have hhead := h 0 (by simp)
    simp only [List.getElem_cons_zero] at hhead
    cases a with
    | zero =>
      cases b with
      | zero =>
        -- No position lies below zero, so nothing is kept.
        have hnone : ∀ y ∈ x :: xs, q y = false := by
          intro y hy
          obtain ⟨i, hi, rfl⟩ := List.getElem_of_mem hy
          have := h i hi
          simp only [Nat.not_lt_zero, and_false, iff_false, Bool.not_eq_true] at this
          exact this
        rw [List.filter_eq_nil_iff.2 fun y hy => by simp [hnone y hy]]
        simp
      | succ b =>
        rw [List.filter_cons, if_pos (hhead.2 ⟨le_rfl, by omega⟩), filter_eq_take_drop htail]
        simp
    | succ a =>
      have hx : q x = false := by
        cases hq : q x
        · rfl
        · exact absurd (hhead.1 hq).1 (by omega)
      rw [List.filter_cons, if_neg (by simp [hx]), filter_eq_take_drop htail]
      simp only [List.drop_succ_cons, Nat.add_sub_cancel]
      congr 1
      omega

/-- A key at the index of a start at or below the front, or aligned to the increment from it, is
at or above the start exactly from that index on. -/
theorem le_key_iff {inc lower start : Nat} (hinc : 0 < inc)
    (hstart : start ≤ lower ∨ (start - lower) % inc = 0) (i : Nat) :
    start ≤ lower + i * inc ↔ (max start lower - lower) / inc ≤ i := by
  rcases Nat.le_total start lower with hle | hle
  · rw [Nat.max_eq_right hle, Nat.sub_self, Nat.zero_div]
    constructor
    · intro
      exact Nat.zero_le i
    · intro
      exact le_trans hle (Nat.le_add_right _ _)
  · have hmod : (start - lower) % inc = 0 := by
      rcases hstart with hs | hs
      · rw [Nat.sub_eq_zero_of_le hs, Nat.zero_mod]
      · exact hs
    obtain ⟨m, hm⟩ : ∃ m, start - lower = m * inc :=
      ⟨(start - lower) / inc, (Nat.div_mul_cancel (Nat.dvd_of_mod_eq_zero hmod)).symm⟩
    rw [Nat.max_eq_left hle, hm, Nat.mul_div_cancel _ hinc]
    constructor
    · intro h
      exact (Nat.mul_le_mul_right_iff hinc).1 (by omega)
    · intro h
      have := Nat.mul_le_mul_right inc h
      omega

/-- A key at most `stop`, for a `stop` at or above the front, sits at most at the index of
`stop`. -/
theorem key_le_iff {inc lower stop : Nat} (hinc : 0 < inc) (hle : lower ≤ stop) (i : Nat) :
    lower + i * inc ≤ stop ↔ i ≤ (stop - lower) / inc := by
  rw [Nat.le_div_iff_mul_le hinc]
  omega

/-- `values_from` of a start at or below the front, or aligned to the increment and at most one
increment past the back, gives the values of the keys from the start on, in order. -/
theorem valuesFrom_eq_filter (hc : c.Sequential) (hinc : 0 < c.increment) {lower upper start : Nat}
    (hl : c.lowerBound = some lower) (hu : c.upperBound = some upper)
    (hstart : start ≤ lower ∨ ((start - lower) % c.increment = 0 ∧ start ≤ upper + c.increment)) :
    c.valuesFrom start = some ((c.data.filter fun e => decide (start ≤ e.1)).map Prod.snd) := by
  have hne : c.data ≠ [] := fun h => by simp [lowerBound, h] at hl
  have hupper := hc.upper_eq hl hu
  have hlen := List.length_pos_of_ne_nil hne
  set j := (max start lower - lower) / c.increment with hj
  have hkeys := le_key_iff hinc (hstart.imp id And.left)
  -- The start's index is within the entries, at most one past the last.
  have hj_le : j ≤ c.data.length := by
    rcases hstart with hs | ⟨-, hs⟩
    · rw [hj, Nat.max_eq_right hs, Nat.sub_self, Nat.zero_div]
      exact Nat.zero_le _
    · refine (hkeys c.data.length).1 ?_
      rw [← hc.upper_add_increment hl hu]
      exact hs
  have hoffset : c.offset lower (max start lower) = some j := by
    simp [offset, Nat.ne_of_gt hinc, hj]
  have hfilter : c.data.filter (fun e => decide (start ≤ e.1)) = (c.data.drop j).take (c.data.length - j) := by
    refine filter_eq_take_drop fun i hi => ?_
    rw [hc.key_getElem hl i hi, decide_eq_true_iff, hkeys i]
    omega
  have hempty : c.isEmpty = false := by simpa [isEmpty] using hne
  rw [hfilter, List.take_of_length_le (by simp)]
  simp [valuesFrom, hempty, hl, hoffset, rangeFrom, hj_le]

/-- `values_within` of a start at or below the front, or aligned to the increment, at most one
increment past the back, and an end at or above both the front and the start, gives the values
of the keys between the two, in order. -/
theorem valuesWithin_eq_filter (hc : c.Sequential) (hinc : 0 < c.increment)
    {lower upper start end_ : Nat} (hl : c.lowerBound = some lower) (hu : c.upperBound = some upper)
    (hstart : start ≤ lower ∨ (start - lower) % c.increment = 0) (hsu : start ≤ upper + c.increment)
    (hend : lower ≤ end_) (hse : start ≤ end_) :
    c.valuesWithin start end_ =
      some ((c.data.filter fun e => decide (start ≤ e.1) && decide (e.1 ≤ end_)).map Prod.snd) := by
  have hne : c.data ≠ [] := fun h => by simp [lowerBound, h] at hl
  have hupper := hc.upper_eq hl hu
  have hlen := List.length_pos_of_ne_nil hne
  have hlu : lower ≤ upper := by omega
  set j := (max start lower - lower) / c.increment with hj
  set m := (min end_ upper - lower) / c.increment with hm
  have hkeys := le_key_iff hinc hstart
  have hends := key_le_iff hinc (le_min hend hlu)
  -- The end's index is that of a key of the cache, at most the last.
  have hm_lt : m < c.data.length := by
    have hm_le : m ≤ (upper - lower) / c.increment := Nat.div_le_div_right (by omega)
    have hlast : (upper - lower) / c.increment = c.data.length - 1 := by
      rw [hupper, Nat.add_sub_cancel_left, Nat.mul_div_cancel _ hinc]
    omega
  -- The start's index is at most one past the end's.
  have hj_le : j ≤ m + 1 := by
    rcases Nat.lt_or_ge (min end_ upper) start with hs | hs
    swap
    · exact Nat.le_succ_of_le (Nat.div_le_div_right (by omega))
    · -- A start past the end's key is past the back, so at most the index past the last.
      have hmu : min end_ upper = upper := by omega
      have hlast : m = c.data.length - 1 := by
        rw [hm, hmu, hupper, Nat.add_sub_cancel_left, Nat.mul_div_cancel _ hinc]
      have : j ≤ c.data.length := (hkeys c.data.length).1 (hc.upper_add_increment hl hu ▸ hsu)
      omega
  have hend_off : c.offset lower (min end_ upper) = some m := by
    simp [offset, Nat.ne_of_gt hinc, hm, hend, hlu]
  have hstart_off : c.offset lower (max start lower) = some j := by
    simp [offset, Nat.ne_of_gt hinc, hj]
  have hfilter : c.data.filter (fun e => decide (start ≤ e.1) && decide (e.1 ≤ end_)) =
      (c.data.drop j).take (m + 1 - j) := by
    refine filter_eq_take_drop fun i hi => ?_
    have hkey := hc.key_getElem hl i hi
    have hi_le : i * c.increment ≤ (c.data.length - 1) * c.increment := Nat.mul_le_mul_right _ (by omega)
    -- A key is at most `end_` exactly when it is at most the end's key, the back being higher.
    have hmin : lower + i * c.increment ≤ end_ ↔ lower + i * c.increment ≤ min end_ upper := by
      rw [le_min_iff]
      omega
    rw [hkey, Bool.and_eq_true, decide_eq_true_iff, decide_eq_true_iff, hkeys i, hmin, hends i]
    omega
  have hempty : c.isEmpty = false := by simpa [isEmpty] using hne
  rw [hfilter]
  simp [valuesWithin, hempty, hl, hu, hend_off, hstart_off, rangeInclusive, hj_le, hm_lt]

/-- Over every run of calls from `new increment` with a positive increment: the keys step by the
increment; `get_value` finds every stored entry, and what it answers is the value of the entry
with the greatest key at or below the one asked, less than one increment below it; and
`values_from` and `values_within`, from a start at or below the front or aligned to the
increment, at most one increment past the back, give the values of the keys in their range. -/
theorem lookups_of_runCalls (increment : Nat) (hinc : 0 < increment) (calls : List (CacheCall V)) :
    let c := (new increment : SequentialKeyCache V).runCalls calls
    c.Sequential ∧ (∀ k v, (k, v) ∈ c.data → c.getValue k = some v) ∧
      (∀ key v, c.getValue key = some v → ∃ k, (k, v) ∈ c.data ∧ k ≤ key ∧ key < k + increment) ∧
      (∀ lower upper start, c.lowerBound = some lower → c.upperBound = some upper →
        (start ≤ lower ∨ ((start - lower) % increment = 0 ∧ start ≤ upper + increment)) →
        c.valuesFrom start = some ((c.data.filter fun e => decide (start ≤ e.1)).map Prod.snd)) ∧
      ∀ lower upper start end_, c.lowerBound = some lower → c.upperBound = some upper →
        (start ≤ lower ∨ (start - lower) % increment = 0) → start ≤ upper + increment →
        lower ≤ end_ → start ≤ end_ →
        c.valuesWithin start end_ =
          some ((c.data.filter fun e => decide (start ≤ e.1) && decide (e.1 ≤ end_)).map Prod.snd) := by
  intro c
  obtain ⟨hseq, hincrement⟩ := (sequential_new increment).runCalls calls
  -- no call changes the increment
  have hc : c.increment = increment := hincrement
  have hpos : 0 < c.increment := hc ▸ hinc
  refine ⟨hseq, fun k v hmem => getValue_of_mem_sequential hseq hpos hmem, fun key v h => ?_,
    fun lower upper start hl hu hstart =>
      valuesFrom_eq_filter hseq hpos hl hu (by rw [hc]; exact hstart),
    fun lower upper start end_ hl hu hstart hsu hend hse =>
      valuesWithin_eq_filter hseq hpos hl hu (by rw [hc]; exact hstart) (by rw [hc]; exact hsu)
        hend hse⟩
  rw [← hc]
  exact getValue_eq_some hseq hpos h

/-- The cache of increment two with keys 0 and 2. -/
theorem lookups_of_runCalls_step_two :
    let c := (new 2 : SequentialKeyCache Nat).runCalls [.append 0 10, .append 2 12]
    0 < 2 ∧ c.Sequential ∧ (∀ k v, (k, v) ∈ c.data → c.getValue k = some v) ∧
      (∀ key v, c.getValue key = some v → ∃ k, (k, v) ∈ c.data ∧ k ≤ key ∧ key < k + 2) ∧
      (∀ lower upper start, c.lowerBound = some lower → c.upperBound = some upper →
        (start ≤ lower ∨ ((start - lower) % 2 = 0 ∧ start ≤ upper + 2)) →
        c.valuesFrom start = some ((c.data.filter fun e => decide (start ≤ e.1)).map Prod.snd)) ∧
      ∀ lower upper start end_, c.lowerBound = some lower → c.upperBound = some upper →
        (start ≤ lower ∨ (start - lower) % 2 = 0) → start ≤ upper + 2 →
        lower ≤ end_ → start ≤ end_ →
        c.valuesWithin start end_ =
          some ((c.data.filter fun e => decide (start ≤ e.1) && decide (e.1 ≤ end_)).map Prod.snd) :=
  ⟨by decide, lookups_of_runCalls 2 (by decide) _⟩

/-- Lookups off the keys and outside the bounds. With increment two and keys 0 and 2,
`get_value 1` answers the value stored under 0, and `values_from 1` includes it. With keys 5 and
6, `values_within` panics for a range below the front, where `min(end, upper) - lower`
underflows, and for one starting two past the back, as `values_from` does. -/
theorem sequentialKeyCache_lookups_off_keys :
    let c₂ : SequentialKeyCache Nat := (new 2).runCalls [.append 0 10, .append 2 12]
    let c₁ : SequentialKeyCache Nat := sequential.runCalls [.append 5 50, .append 6 60]
    (1, 10) ∉ c₂.data ∧ c₂.getValue 1 = some 10 ∧ c₂.valuesFrom 1 = some [10, 12] ∧
      c₁.valuesWithin 0 3 = none ∧ c₁.valuesWithin 8 9 = none ∧ c₁.valuesFrom 8 = none := by
  decide

end Lookups

/-! ## Caches with consecutive keys -/

/-- The keys step by one from the front: the shape of the caches `sequential` starts, and that
`append` and `remove_key_below` keep. On such a cache the index a lookup computes is the
entry's position, so a lookup finds exactly the entries. -/
def Consecutive (c : SequentialKeyCache V) : Prop :=
  c.increment = 1 ∧ c.data.IsChain fun a b => b.1 = a.1 + 1

theorem consecutive_sequential : (sequential : SequentialKeyCache V).Consecutive :=
  ⟨rfl, .nil⟩

/-- A cache with consecutive keys is one of increment one whose keys step by it. -/
theorem consecutive_iff (c : SequentialKeyCache V) : c.Consecutive ↔ c.increment = 1 ∧ c.Sequential := by
  unfold Consecutive Sequential
  constructor
  · rintro ⟨hinc, hchain⟩
    exact ⟨hinc, by rw [hinc]; exact hchain⟩
  · rintro ⟨hinc, hchain⟩
    exact ⟨hinc, by rw [hinc] at hchain; exact hchain⟩

/-- On a cache with consecutive keys, `get_value` finds every entry. -/
theorem getValue_of_mem {c : SequentialKeyCache V} (hc : c.Consecutive) {k : Nat} {v : V}
    (hmem : (k, v) ∈ c.data) : c.getValue k = some v := by
  obtain ⟨hinc, hseq⟩ := (consecutive_iff c).1 hc
  exact getValue_of_mem_sequential hseq (by omega) hmem

theorem Consecutive.append {c c' : SequentialKeyCache V} {key : Nat} {val : V}
    (hc : c.Consecutive) (h : c.append key val = .ok c') : c'.Consecutive := by
  obtain ⟨hinc, hseq⟩ := (consecutive_iff c).1 hc
  have hinc' : c'.increment = c.increment := by rw [(append_eq_ok h).1]
  exact (consecutive_iff c').2 ⟨hinc'.trans hinc, hseq.append h⟩

theorem Consecutive.removeKeyBelow {c : SequentialKeyCache V} (hc : c.Consecutive) (key : Nat) :
    (c.removeKeyBelow key).Consecutive := by
  obtain ⟨hinc, hseq⟩ := (consecutive_iff c).1 hc
  exact (consecutive_iff _).2 ⟨hinc, hseq.removeKeyBelow key⟩

/-- An entry at or above `key` survives `remove_key_below key`. -/
theorem mem_removeKeyBelow {c : SequentialKeyCache V} {key : Nat} {e : Nat × V}
    (he : e ∈ c.data) (hkey : key ≤ e.1) : e ∈ (c.removeKeyBelow key).data := by
  have hsplit := List.takeWhile_append_dropWhile (p := fun e : Nat × V => decide (e.1 < key))
    (l := c.data)
  rw [← hsplit, List.mem_append] at he
  rcases he with he | he
  · -- What is dropped lies below `key`.
    have := List.mem_takeWhile_imp he
    simp only [decide_eq_true_eq] at this
    omega
  · exact he

theorem data_ne_nil_of_removeKeyBelow {c : SequentialKeyCache V} {key : Nat}
    (h : (c.removeKeyBelow key).data ≠ []) : c.data ≠ [] := by
  intro hnil
  simp [removeKeyBelow, hnil] at h


end SequentialKeyCache

end Delorean.Topdown
