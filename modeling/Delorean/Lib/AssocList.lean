import Mathlib

/-!
# Hash maps as association lists

A hash map is the list of its entries in iteration order, each key at most once. `entryOrDefault`,
`modify` and `removeKey` are its entry API: `entry(k).or_default()`, an update in place through
`get_mut` or `values_mut`, and `remove`. A new key goes at the end and no operation reorders the
others, so the list also fixes the order in which a loop over the map sees its entries.

Lookups are read through membership: where the keys are distinct, `lookup k m = some v` exactly
when `(k, v)` is an entry (`lookup_eq_some_iff`). The other lemmas say what each operation does to
the keys and to the entries.
-/

namespace AssocList

variable {K V : Type}

/-- The keys, in iteration order. -/
def keys (m : List (K × V)) : List K := m.map Prod.fst

@[simp] theorem keys_nil : keys ([] : List (K × V)) = [] := rfl

@[simp] theorem keys_cons (e : K × V) (m : List (K × V)) : keys (e :: m) = e.1 :: keys m := rfl

@[simp] theorem keys_append (m m' : List (K × V)) : keys (m ++ m') = keys m ++ keys m' :=
  List.map_append

@[simp] theorem length_keys (m : List (K × V)) : (keys m).length = m.length := List.length_map _

theorem fst_mem_keys {e : K × V} {m : List (K × V)} (h : e ∈ m) : e.1 ∈ keys m :=
  List.mem_map_of_mem h

/-- A map of the entries that keeps every key keeps the keys. -/
theorem keys_map_of_fst {W : Type} {f : K × V → K × W} (hf : ∀ e, (f e).1 = e.1)
    (m : List (K × V)) : keys (m.map f) = keys m := by
  unfold keys
  rw [List.map_map]
  exact List.map_congr_left fun e _ => hf e

/-- Changing the values keeps the keys. -/
@[simp] theorem keys_map_snd {W : Type} (g : K × V → W) (m : List (K × V)) :
    keys (m.map fun e => (e.1, g e)) = keys m :=
  keys_map_of_fst (f := fun e => (e.1, g e)) (fun _ => rfl) m

theorem Sublist.keys {m m' : List (K × V)} (h : List.Sublist m' m) :
    List.Sublist (keys m') (keys m) :=
  h.map _

/-- Distinct keys, fewer entries than the keys of a sublist `R` of them leave: the entries whose
key is not in `R` are at most the rest. -/
theorem length_filter_not_mem_add_le [DecidableEq K] {m : List (K × V)} {R : List K}
    (hR : R.Nodup) (hsub : R ⊆ keys m) :
    (m.filter fun e => e.1 ∉ R).length + R.length ≤ m.length := by
  have hsplit := List.length_eq_length_filter_add (fun e : K × V => decide (e.1 ∉ R)) (l := m)
  have hin : R ⊆ keys (m.filter fun e => !decide (e.1 ∉ R)) := by
    intro x hx
    obtain ⟨e, he, rfl⟩ := List.mem_map.1 (hsub hx)
    exact fst_mem_keys (List.mem_filter.2 ⟨he, by simpa using hx⟩)
  have hle := (List.subperm_of_subset hR hin).length_le
  rw [length_keys] at hle
  omega

variable [DecidableEq K]

/-- The value of the first entry with key `k`. -/
def lookup (k : K) : List (K × V) → Option V
  | [] => none
  | e :: es => if e.1 = k then some e.2 else lookup k es

/-- `HashMap::entry(k).or_default()`, as far as the map goes: a key without an entry gets the
default, at the end. -/
def entryOrDefault (m : List (K × V)) (k : K) (default : V) : List (K × V) :=
  if k ∈ keys m then m else m ++ [(k, default)]

/-- Change the value at a key in place. -/
def modify (m : List (K × V)) (k : K) (f : V → V) : List (K × V) :=
  m.map fun e => (e.1, if e.1 = k then f e.2 else e.2)

/-- `HashMap::remove`, the returned value dropped. -/
def removeKey (m : List (K × V)) (k : K) : List (K × V) := m.filter fun e => e.1 ≠ k

theorem lookup_eq_none_iff {k : K} : ∀ {m : List (K × V)}, lookup k m = none ↔ k ∉ keys m
  | [] => by simp [lookup]
  | e :: es => by
    by_cases h : e.1 = k
    · simp [lookup, h]
    · simp only [lookup, h, if_false, keys_cons, List.mem_cons, not_or]
      exact ⟨fun hn => ⟨Ne.symm h, lookup_eq_none_iff.1 hn⟩, fun hn => lookup_eq_none_iff.2 hn.2⟩

/-- A key has a value. -/
theorem exists_lookup_eq_some {m : List (K × V)} {k : K} (hk : k ∈ keys m) :
    ∃ v, lookup k m = some v :=
  Option.ne_none_iff_exists'.1 (mt lookup_eq_none_iff.1 (not_not.2 hk))

/-- With distinct keys, a lookup finds exactly the entries. -/
theorem lookup_eq_some_iff {k : K} {v : V} :
    ∀ {m : List (K × V)}, (keys m).Nodup → (lookup k m = some v ↔ (k, v) ∈ m)
  | [], _ => by simp [lookup]
  | e :: es, hnd => by
    rw [keys_cons, List.nodup_cons] at hnd
    by_cases h : e.1 = k
    · subst h
      have hnot : (e.1, v) ∉ es := fun hv => hnd.1 (fst_mem_keys (e := (e.1, v)) hv)
      simp only [lookup, if_true, Option.some.injEq, List.mem_cons, hnot, or_false]
      exact ⟨fun hv => by rw [← hv], fun hv => by rw [← hv]⟩
    · have hne : (k, v) ≠ e := fun hv => h (by rw [← hv])
      simp only [lookup, h, if_false, List.mem_cons, hne, false_or]
      exact lookup_eq_some_iff hnd.2

/-- The value a lookup reads at an entry's key, where keys are distinct. -/
theorem lookup_of_mem {m : List (K × V)} (hnd : (keys m).Nodup) {e : K × V} (he : e ∈ m) :
    lookup e.1 m = some e.2 :=
  (lookup_eq_some_iff hnd).2 he

theorem mem_keys_entryOrDefault {m : List (K × V)} {k x : K} {default : V} :
    x ∈ keys (entryOrDefault m k default) ↔ x = k ∨ x ∈ keys m := by
  unfold entryOrDefault
  split_ifs with h
  · exact ⟨Or.inr, fun hx => hx.elim (fun hxk => hxk ▸ h) id⟩
  · simp [or_comm]

theorem nodup_keys_entryOrDefault {m : List (K × V)} (h : (keys m).Nodup) (k : K) (default : V) :
    (keys (entryOrDefault m k default)).Nodup := by
  unfold entryOrDefault
  split_ifs with hk
  · exact h
  · rw [keys_append, List.nodup_append]
    exact ⟨h, List.nodup_singleton k, fun a ha b hb hab => hk (by simp_all)⟩

theorem mem_entryOrDefault {m : List (K × V)} {k : K} {default : V} {e : K × V} :
    e ∈ entryOrDefault m k default ↔ e ∈ m ∨ (e = (k, default) ∧ k ∉ keys m) := by
  unfold entryOrDefault
  split_ifs with hk
  · simp [hk]
  · simp [hk]

theorem lookup_append (k : K) :
    ∀ m m' : List (K × V), lookup k (m ++ m') = (lookup k m).or (lookup k m')
  | [], _ => by simp [lookup]
  | e :: es, m' => by
    by_cases h : e.1 = k
    · simp [lookup, h]
    · simp [lookup, h, lookup_append k es m']

/-- After `entryOrDefault` the key has an entry: its value, or the default. -/
theorem lookup_entryOrDefault (m : List (K × V)) (k : K) (default : V) :
    lookup k (entryOrDefault m k default) = some ((lookup k m).getD default) := by
  unfold entryOrDefault
  split_ifs with hk
  · obtain ⟨v, hv⟩ := exists_lookup_eq_some hk
    rw [hv, Option.getD_some]
  · rw [lookup_append, lookup_eq_none_iff.2 hk]
    simp [lookup]

/-- `entryOrDefault` leaves a key with an entry as it is. -/
theorem entryOrDefault_of_mem {m : List (K × V)} {k : K} (hk : k ∈ keys m) (default : V) :
    entryOrDefault m k default = m :=
  if_pos hk

/-- `entryOrDefault` leaves the other keys' values. -/
theorem lookup_entryOrDefault_of_ne (m : List (K × V)) {k x : K} (default : V) (hx : x ≠ k) :
    lookup x (entryOrDefault m k default) = lookup x m := by
  unfold entryOrDefault
  split_ifs
  · rfl
  · rw [lookup_append]
    simp [lookup, Ne.symm hx]

/-- A default entry is read back as the default anyway. -/
@[simp] theorem getD_lookup_entryOrDefault (m : List (K × V)) (k x : K) (default : V) :
    (lookup x (entryOrDefault m k default)).getD default = (lookup x m).getD default := by
  unfold entryOrDefault
  split_ifs with hk
  · rfl
  · rw [lookup_append]
    cases lookup x m <;> by_cases hx : k = x <;> simp [lookup, hx]

/-- A lookup after changing the values changes the value it finds. -/
theorem lookup_map_snd {W : Type} (g : K → V → W) (k : K) :
    ∀ m : List (K × V), lookup k (m.map fun e => (e.1, g e.1 e.2)) = (lookup k m).map (g k)
  | [] => rfl
  | e :: es => by
    by_cases h : e.1 = k
    · simp [lookup, h]
    · simp [lookup, h, lookup_map_snd g k es]

/-- A lookup after dropping the keys of `R`. -/
theorem lookup_filter_not_mem (R : List K) (k : K) :
    ∀ m : List (K × V), lookup k (m.filter fun e => e.1 ∉ R) = if k ∈ R then none else lookup k m
  | [] => by simp [lookup]
  | e :: es => by
    have ih := lookup_filter_not_mem R k es
    by_cases hR : e.1 ∈ R
    · rw [List.filter_cons_of_neg (by simpa using hR), ih]
      by_cases h : e.1 = k
      · subst h
        simp [hR]
      · simp [lookup, h]
    · rw [List.filter_cons_of_pos (by simpa using hR)]
      by_cases h : e.1 = k
      · subst h
        simp [lookup, hR]
      · simp only [lookup, h, if_false]
        exact ih

@[simp] theorem keys_modify (m : List (K × V)) (k : K) (f : V → V) : keys (modify m k f) = keys m :=
  keys_map_snd (fun e => if e.1 = k then f e.2 else e.2) m

theorem lookup_modify (m : List (K × V)) (k x : K) (f : V → V) :
    lookup x (modify m k f) = (lookup x m).map fun v => if x = k then f v else v :=
  lookup_map_snd (fun x v => if x = k then f v else v) x m

theorem mem_keys_filter_not_mem {m : List (K × V)} {R : List K} {k : K} :
    k ∈ keys (m.filter fun e => e.1 ∉ R) ↔ k ∈ keys m ∧ k ∉ R := by
  simp only [keys, List.mem_map, List.mem_filter, decide_eq_true_eq]
  constructor
  · rintro ⟨e, ⟨he, hR⟩, rfl⟩
    exact ⟨⟨e, he, rfl⟩, hR⟩
  · rintro ⟨⟨e, he, rfl⟩, hR⟩
    exact ⟨e, ⟨he, hR⟩, rfl⟩

/-- A value found at a key means the key has an entry. -/
theorem mem_keys_of_mem_getD_lookup {W : Type} {m : List (K × List W)} {k : K} {w : W}
    (h : w ∈ (lookup k m).getD []) : k ∈ keys m := by
  by_contra hk
  rw [lookup_eq_none_iff.2 hk, Option.getD_none] at h
  exact List.not_mem_nil h

end AssocList
