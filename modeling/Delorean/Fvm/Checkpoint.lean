import Delorean.Lib.Writes

/-!
# The power table updates returned to CometBFT

`fendermint_vm_interpreter::fvm::checkpoint`. At the end of a checkpoint period the interpreter
returns to CometBFT only what changed between the current and the next power table
(`power_diff`): every new validator and every validator whose power changed, with its power, and
every removed validator with power zero, which CometBFT reads as its removal. Both tables are
first made maps by serialized public key (`into_power_map`). `power_update`, from the module's
tests, is that reading of the updates: upsert each one, and remove the key of one with power zero.

Every lookup in the maps and every write of the updates is keyed by the serialized public key of
the validator it holds (`Keyed`), so applying the updates is an `AList.writeAll`, and each key's
fate is decided by the last update to it (`AList.lookup_writeAll`). The deletions are for keys of
the current map only, the upserts for keys of the next map only, each key at most once. Applying
the diff to the current table therefore gives the next table as a map, as long as no validator
of the next table has power zero; and the diff is empty exactly when the two tables are the same
map.
-/

namespace Delorean.Fvm

/-- `Validator<Power>`: a validator's public key and its power. -/
structure Validator (PublicKey : Type) where
  public_key : PublicKey
  power : Nat
  deriving DecidableEq, Repr

/-- `PowerTable`: the validators with their power. -/
structure PowerTable (PublicKey : Type) where
  validators : List (Validator PublicKey)
  deriving DecidableEq, Repr

/-- `PowerUpdates`: the changes in the power table. -/
structure PowerUpdates (PublicKey : Type) where
  updates : List (Validator PublicKey)
  deriving DecidableEq, Repr

section PowerDiff

/- `serialize` is the 65-byte serialization of a public key the maps are keyed by: the raw
`PublicKey` does not implement `Hash`. -/
variable {PublicKey Key : Type} [DecidableEq Key] (serialize : PublicKey → Key)

/-- `into_power_map`: the validators by serialized public key. A later validator with the same key
replaces an earlier one, as collecting into a `HashMap` does. -/
def intoPowerMap (value : PowerTable PublicKey) : AList fun _ : Key => Validator PublicKey :=
  value.validators.foldl (fun m v => m.insert (serialize v.public_key) v) ∅

variable [DecidableEq PublicKey] in
/-- `power_diff`: a deletion, with power zero, for every validator of `current` whose key is not in
`next`, then every validator of `next` that is not in `current` as it is. The loops run over the
two maps in their order of iteration. -/
def powerDiff (current next : PowerTable PublicKey) : PowerUpdates PublicKey :=
  let current := intoPowerMap serialize current
  let next := intoPowerMap serialize next
  -- Validators in `current` but not in `next` should be removed.
  let deletes := current.entries.filterMap fun e =>
    if e.1 ∉ next then some ⟨e.2.public_key, 0⟩ else none
  -- Validators in `next` that differ from `current` should be updated.
  let inserts := next.entries.filterMap fun e =>
    match current.lookup e.1 with
    | some w => if w = e.2 then none else some e.2
    | none => some e.2
  ⟨deletes ++ inserts⟩

/- A removed validator, a new one and a changed one; the loops meet the keys in the maps' order,
latest inserted first. -/
example : (powerDiff id (⟨[⟨1, 5⟩, ⟨2, 3⟩]⟩ : PowerTable Nat) ⟨[⟨2, 4⟩, ⟨3, 1⟩]⟩).updates =
    [⟨1, 0⟩, ⟨3, 1⟩, ⟨2, 4⟩] := by decide

/-- The write an update makes: power zero removes the key, any other power sets it. -/
def updateWrite (v : Validator PublicKey) : Key × Option (Validator PublicKey) :=
  (serialize v.public_key, if v.power = 0 then none else some v)

/-- `power_update` of the tests, how CometBFT applies the updates: each one in turn, removing the
key of a validator with power zero and upserting any other, and the table of what is left. -/
def powerUpdate (current : PowerTable PublicKey) (updates : PowerUpdates PublicKey) :
    PowerTable PublicKey :=
  let current := (intoPowerMap serialize current).writeAll (updates.updates.map (updateWrite serialize))
  ⟨current.entries.map Sigma.snd⟩

/-- The power an update writes, under its validator's key. -/
def powerWrite (v : Validator PublicKey) : Key × Nat := (serialize v.public_key, v.power)

/-- The power a table gives the validator under a serialized key, zero when it holds none: the
voting power CometBFT reads for that validator. -/
def PowerTable.powerAt (t : PowerTable PublicKey) (k : Key) : Nat :=
  (((intoPowerMap serialize t).lookup k).map Validator.power).getD 0

/-! ## Maps keyed by the serialized public key -/

/-- Every validator of the map sits under its own serialized public key. -/
def Keyed (m : AList fun _ : Key => Validator PublicKey) : Prop :=
  ∀ k v, m.lookup k = some v → serialize v.public_key = k

/-- `into_power_map` is the writes of every validator under its key. -/
theorem lookup_intoPowerMap (t : PowerTable PublicKey) (k : Key) :
    (intoPowerMap serialize t).lookup k =
      AList.lastWrite (t.validators.map fun v => (serialize v.public_key, v)) k := by
  have h : intoPowerMap serialize t =
      AList.insertAll (t.validators.map fun v => (serialize v.public_key, v)) ∅ := by
    simp [intoPowerMap, AList.insertAll, List.foldl_map]
  rw [h, AList.lookup_insertAll, AList.lookup_empty, Option.or_none]

/-- A validator of `into_power_map` is one of the table's, under its own key. -/
theorem mem_of_lookup_intoPowerMap {t : PowerTable PublicKey} {k : Key} {v : Validator PublicKey}
    (h : (intoPowerMap serialize t).lookup k = some v) :
    serialize v.public_key = k ∧ v ∈ t.validators := by
  rw [lookup_intoPowerMap] at h
  obtain ⟨v', hv', hw⟩ := List.mem_map.1 (AList.mem_of_lastWrite_eq_some h)
  simp only [Prod.mk.injEq] at hw
  obtain ⟨hk, rfl⟩ := hw
  exact ⟨hk, hv'⟩

theorem keyed_intoPowerMap (t : PowerTable PublicKey) : Keyed serialize (intoPowerMap serialize t) :=
  fun _ _ h => (mem_of_lookup_intoPowerMap serialize h).1

theorem lookup_of_mem_entries {m : AList fun _ : Key => Validator PublicKey}
    {e : Σ _ : Key, Validator PublicKey} (he : e ∈ m.entries) : m.lookup e.1 = some e.2 :=
  AList.mem_lookup_iff.2 he

/-- Listing a keyed map's validators and keying them again gives the map back. -/
theorem lookup_intoPowerMap_entries {m : AList fun _ : Key => Validator PublicKey}
    (hm : Keyed serialize m) (k : Key) :
    (intoPowerMap serialize ⟨m.entries.map Sigma.snd⟩).lookup k = m.lookup k := by
  rw [lookup_intoPowerMap, List.map_map]
  -- An entry's write is under the entry's own key.
  have hwrite : ∀ w ∈ m.entries.map ((fun v => (serialize v.public_key, v)) ∘ Sigma.snd),
      m.lookup w.1 = some w.2 := by
    intro w hw
    obtain ⟨e, he, rfl⟩ := List.mem_map.1 hw
    have hlookup := lookup_of_mem_entries he
    show m.lookup (serialize e.2.public_key) = some e.2
    rw [hm _ _ hlookup]
    exact hlookup
  cases h : m.lookup k with
  | none =>
    refine AList.lastWrite_eq_none_iff.2 fun w hw hk => ?_
    rw [← hk, hwrite w hw] at h
    cases h
  | some v =>
    refine AList.lastWrite_eq_some_of_forall ?_ fun w hw hk => ?_
    · refine List.mem_map.2 ⟨⟨k, v⟩, AList.mem_lookup_iff.1 h, ?_⟩
      simp [hm k v h]
    · have := hwrite w hw
      rw [hk, h] at this
      exact (Option.some.inj this).symm

/-- Writing updates keeps a map keyed: each write sets or erases its own validator's key. -/
theorem keyed_writeAll_updateWrite {m : AList fun _ : Key => Validator PublicKey}
    (hm : Keyed serialize m) (updates : List (Validator PublicKey)) :
    Keyed serialize (m.writeAll (updates.map (updateWrite serialize))) := by
  intro k v hv
  rw [AList.lookup_writeAll] at hv
  cases hw : AList.lastWrite (updates.map (updateWrite serialize)) k with
  | none =>
    rw [hw, Option.getD_none] at hv
    exact hm k v hv
  | some o =>
    rw [hw, Option.getD_some] at hv
    obtain ⟨u, -, hu⟩ := List.mem_map.1 (AList.mem_of_lastWrite_eq_some hw)
    simp only [updateWrite, hv, Prod.mk.injEq] at hu
    obtain ⟨hk, hpow⟩ := hu
    split_ifs at hpow
    cases hpow
    exact hk

/-- An update's power is what its write leaves: its validator, or zero for a removal. -/
theorem lastWrite_powerWrite (updates : List (Validator PublicKey)) (k : Key) :
    AList.lastWrite (updates.map (powerWrite serialize)) k =
      (AList.lastWrite (updates.map (updateWrite serialize)) k).map
        fun o => (Option.map Validator.power o).getD 0 := by
  have hmap : updates.map (powerWrite serialize) =
      (updates.map (updateWrite serialize)).map
        fun w => (w.1, (Option.map Validator.power w.2).getD 0) := by
    rw [List.map_map]
    refine List.map_congr_left fun v _ => ?_
    by_cases hv : v.power = 0 <;> simp [powerWrite, updateWrite, hv]
  rw [hmap]
  exact AList.lastWrite_map_snd _ (fun o => (Option.map Validator.power o).getD 0) k

/-- After CometBFT applies updates, a validator has the power of its last update, zero for a
removal, and the power it had when no update names it. -/
theorem powerAt_powerUpdate (t : PowerTable PublicKey) (updates : PowerUpdates PublicKey) (k : Key) :
    (powerUpdate serialize t updates).powerAt serialize k =
      (AList.lastWrite (updates.updates.map (powerWrite serialize)) k).getD (t.powerAt serialize k) := by
  have hkeyed := keyed_writeAll_updateWrite serialize (keyed_intoPowerMap serialize t) updates.updates
  unfold PowerTable.powerAt powerUpdate
  dsimp only
  rw [lookup_intoPowerMap_entries serialize hkeyed, AList.lookup_writeAll, lastWrite_powerWrite]
  cases AList.lastWrite (updates.updates.map (updateWrite serialize)) k <;> rfl

/-! ## The writes of the diff -/

variable [DecidableEq PublicKey]

/-- Keyed by the public key itself, the powers the updates write are those keyed by its
serialization, which is injective. -/
theorem lastWrite_powerWrite_serialize (hserialize : Function.Injective serialize)
    (updates : List (Validator PublicKey)) (pk : PublicKey) :
    AList.lastWrite (updates.map (powerWrite serialize)) (serialize pk) =
      AList.lastWrite (updates.map fun v => (v.public_key, v.power)) pk := by
  have hmap : updates.map (powerWrite serialize) =
      (updates.map fun v => (v.public_key, v.power)).map fun w => (serialize w.1, w.2) := by
    rw [List.map_map]
    rfl
  rw [hmap, AList.lastWrite_map_fst hserialize]

/-- A table's power at a validator's serialized key is the power of the table's last entry for
that validator, under an injective serialization. -/
theorem powerAt_serialize (hserialize : Function.Injective serialize) (t : PowerTable PublicKey)
    (pk : PublicKey) :
    t.powerAt serialize (serialize pk) =
      (AList.lastWrite (t.validators.map fun v => (v.public_key, v.power)) pk).getD 0 := by
  unfold PowerTable.powerAt
  rw [lookup_intoPowerMap]
  -- The map holds the last validator written under the key; its power is the last power written.
  have hpower : (AList.lastWrite (t.validators.map fun v => (serialize v.public_key, v))
      (serialize pk)).map Validator.power =
      AList.lastWrite (t.validators.map (powerWrite serialize)) (serialize pk) := by
    rw [← AList.lastWrite_map_snd, List.map_map]
    rfl
  rw [hpower, lastWrite_powerWrite_serialize serialize hserialize]

section Writes

variable {current next : PowerTable PublicKey}

omit [DecidableEq PublicKey] in
/-- The deletions write `none` to the keys of `current` that are not in `next`, and nothing else. -/
theorem lastWrite_deletes (k : Key) :
    AList.lastWrite (((intoPowerMap serialize current).entries.filterMap fun e =>
        if e.1 ∉ intoPowerMap serialize next then some ⟨e.2.public_key, 0⟩ else none).map
          (updateWrite serialize)) k =
      if k ∈ intoPowerMap serialize current ∧ k ∉ intoPowerMap serialize next then some none
      else none := by
  have hkeyed := keyed_intoPowerMap serialize current
  -- A deletion is of an entry of `current` whose key is not in `next`, under that key.
  have hdel : ∀ w ∈ ((intoPowerMap serialize current).entries.filterMap fun e =>
        if e.1 ∉ intoPowerMap serialize next then some ⟨e.2.public_key, 0⟩ else none).map
          (updateWrite serialize),
      w.2 = none ∧ w.1 ∈ intoPowerMap serialize current ∧ w.1 ∉ intoPowerMap serialize next := by
    intro w hw
    obtain ⟨d, hd, rfl⟩ := List.mem_map.1 hw
    obtain ⟨e, he, hed⟩ := List.mem_filterMap.1 hd
    split_ifs at hed with hnext
    cases hed
    have hlookup := lookup_of_mem_entries he
    have hk : serialize e.2.public_key = e.1 := hkeyed _ _ hlookup
    refine ⟨rfl, ?_, ?_⟩ <;> simp only [updateWrite, hk]
    · exact AList.lookup_isSome.1 (by simp [hlookup])
    · exact hnext
  split_ifs with hk
  · obtain ⟨hcur, hnext⟩ := hk
    obtain ⟨v, hv⟩ := Option.isSome_iff_exists.1 (AList.lookup_isSome.2 hcur)
    refine AList.lastWrite_eq_some_of_forall ?_ fun w hw _ => (hdel w hw).1
    refine List.mem_map.2 ⟨⟨v.public_key, 0⟩, List.mem_filterMap.2 ⟨⟨k, v⟩, AList.mem_lookup_iff.1 hv, ?_⟩, ?_⟩
    · simp [hnext]
    · simp [updateWrite, hkeyed k v hv]
  · refine AList.lastWrite_eq_none_iff.2 fun w hw hwk => hk ?_
    obtain ⟨-, hcur, hnext⟩ := hdel w hw
    exact hwk ▸ ⟨hcur, hnext⟩

/-- The upserts write each validator of `next` that `current` does not hold as it is, under its
key, and nothing else. -/
theorem lastWrite_upserts (k : Key) :
    AList.lastWrite (((intoPowerMap serialize next).entries.filterMap fun e =>
        match (intoPowerMap serialize current).lookup e.1 with
        | some w => if w = e.2 then none else some e.2
        | none => some e.2).map (updateWrite serialize)) k =
      match (intoPowerMap serialize next).lookup k with
      | some v => if (intoPowerMap serialize current).lookup k = some v then none
        else some (updateWrite serialize v).2
      | none => none := by
  -- An upsert is of an entry of `next` that `current` does not hold, under its key.
  have hins : ∀ w ∈ ((intoPowerMap serialize next).entries.filterMap fun e =>
        match (intoPowerMap serialize current).lookup e.1 with
        | some w => if w = e.2 then none else some e.2
        | none => some e.2).map (updateWrite serialize),
      ∃ v, w = updateWrite serialize v ∧ (intoPowerMap serialize next).lookup w.1 = some v ∧
        (intoPowerMap serialize current).lookup w.1 ≠ some v := by
    intro w hw
    obtain ⟨u, hu, rfl⟩ := List.mem_map.1 hw
    obtain ⟨e, he, heu⟩ := List.mem_filterMap.1 hu
    have hlookup := lookup_of_mem_entries he
    have hk := (mem_of_lookup_intoPowerMap serialize hlookup).1
    -- The upsert is the entry's validator, which `current` does not hold under its key.
    have hcur : (intoPowerMap serialize current).lookup e.1 ≠ some e.2 ∧ u = e.2 := by
      cases hc : (intoPowerMap serialize current).lookup e.1 with
      | none =>
        rw [hc] at heu
        exact ⟨by simp, (Option.some.inj heu).symm⟩
      | some w =>
        rw [hc] at heu
        dsimp only at heu
        split_ifs at heu with hwe
        exact ⟨fun h => hwe (Option.some.inj h), (Option.some.inj heu).symm⟩
    obtain ⟨hne, rfl⟩ := hcur
    refine ⟨e.2, rfl, ?_, ?_⟩
    · show (intoPowerMap serialize next).lookup (serialize e.2.public_key) = some e.2
      rw [hk]
      exact hlookup
    · show (intoPowerMap serialize current).lookup (serialize e.2.public_key) ≠ some e.2
      rw [hk]
      exact hne
  cases hv : (intoPowerMap serialize next).lookup k with
  | none =>
    refine AList.lastWrite_eq_none_iff.2 fun w hw hwk => ?_
    obtain ⟨v, -, hlookup, -⟩ := hins w hw
    rw [hwk, hv] at hlookup
    cases hlookup
  | some v =>
    dsimp only
    split_ifs with hcur
    · refine AList.lastWrite_eq_none_iff.2 fun w hw hwk => ?_
      obtain ⟨u, -, hlookup, hne⟩ := hins w hw
      rw [hwk, hv] at hlookup
      rw [hwk, hcur, hlookup] at hne
      exact hne rfl
    · refine AList.lastWrite_eq_some_of_forall ?_ fun w hw hwk => ?_
      · have hk := (mem_of_lookup_intoPowerMap serialize hv).1
        refine List.mem_map.2 ⟨v, List.mem_filterMap.2 ⟨⟨k, v⟩, AList.mem_lookup_iff.1 hv, ?_⟩, ?_⟩
        · cases hc : (intoPowerMap serialize current).lookup k with
          | none => rfl
          | some w =>
            have hwv : w ≠ v := fun h => hcur (by rw [hc, h])
            simp [hwv]
        · simp [updateWrite, hk]
      · obtain ⟨u, hwu, hlookup, -⟩ := hins w hw
        rw [hwk, hv] at hlookup
        rw [hwu, Option.some.inj hlookup]

/-- The upserts write each validator of `next` that `current` does not hold as it is, under its
key, and nothing else, when no validator of `next` has power zero. -/
theorem lastWrite_inserts (hnext : ∀ v ∈ next.validators, v.power ≠ 0) (k : Key) :
    AList.lastWrite (((intoPowerMap serialize next).entries.filterMap fun e =>
        match (intoPowerMap serialize current).lookup e.1 with
        | some w => if w = e.2 then none else some e.2
        | none => some e.2).map (updateWrite serialize)) k =
      match (intoPowerMap serialize next).lookup k with
      | some v => if (intoPowerMap serialize current).lookup k = some v then none else some (some v)
      | none => none := by
  rw [lastWrite_upserts]
  cases hv : (intoPowerMap serialize next).lookup k with
  | none => rfl
  | some v => simp [updateWrite, hnext v (mem_of_lookup_intoPowerMap serialize hv).2]

end Writes

/-- Applying the diff to `current` gives `next` as a map, when no validator of `next` has power
zero. -/
theorem powerUpdate_powerDiff (current next : PowerTable PublicKey)
    (hnext : ∀ v ∈ next.validators, v.power ≠ 0) (k : Key) :
    (intoPowerMap serialize (powerUpdate serialize current (powerDiff serialize current next))).lookup k =
      (intoPowerMap serialize next).lookup k := by
  set m := (intoPowerMap serialize current).writeAll
    ((powerDiff serialize current next).updates.map (updateWrite serialize)) with hm
  -- After the writes the map is still keyed: each write is under its validator's key.
  have hkeyed : Keyed serialize m :=
    keyed_writeAll_updateWrite serialize (keyed_intoPowerMap serialize current) _
  have hupdate : powerUpdate serialize current (powerDiff serialize current next) =
      ⟨m.entries.map Sigma.snd⟩ := rfl
  rw [hupdate, lookup_intoPowerMap_entries serialize hkeyed, hm, AList.lookup_writeAll]
  simp only [powerDiff, List.map_append, AList.lastWrite_append, lastWrite_deletes,
    lastWrite_inserts serialize hnext]
  -- The key's fate: the upsert if `next` holds it, the deletion if only `current` does.
  cases hv : (intoPowerMap serialize next).lookup k with
  | none =>
    have hnot : k ∉ intoPowerMap serialize next := AList.lookup_eq_none.1 hv
    by_cases hcur : k ∈ intoPowerMap serialize current
    · simp [hcur, hnot]
    · simp [hcur, AList.lookup_eq_none.2 hcur]
  | some v =>
    have hin : k ∈ intoPowerMap serialize next := AList.lookup_isSome.1 (by simp [hv])
    by_cases hcur : (intoPowerMap serialize current).lookup k = some v
    · simp [hcur, hin]
    · simp [hcur, hin]

/-- `power_diff` is empty exactly when the two tables are the same map. -/
theorem powerDiff_eq_nil_iff (current next : PowerTable PublicKey) :
    (powerDiff serialize current next).updates = [] ↔
      ∀ k, (intoPowerMap serialize current).lookup k = (intoPowerMap serialize next).lookup k := by
  simp only [powerDiff, List.append_eq_nil_iff, List.filterMap_eq_nil_iff]
  constructor
  · rintro ⟨hdel, hins⟩ k
    cases hv : (intoPowerMap serialize next).lookup k with
    | some v =>
      -- `next`'s entry is not upserted, so `current` holds it as it is.
      have := hins ⟨k, v⟩ (AList.mem_lookup_iff.1 hv)
      cases hc : (intoPowerMap serialize current).lookup k with
      | none => simp [hc] at this
      | some w =>
        simp only [hc] at this
        split_ifs at this with hwv
        · rw [hwv]
    | none =>
      -- A key of `current` that `next` lacks would be deleted.
      refine AList.lookup_eq_none.2 fun hcur => ?_
      obtain ⟨w, hw⟩ := Option.isSome_iff_exists.1 (AList.lookup_isSome.2 hcur)
      have := hdel ⟨k, w⟩ (AList.mem_lookup_iff.1 hw)
      simp [AList.lookup_eq_none.1 hv] at this
  · intro h
    refine ⟨fun e he => ?_, fun e he => ?_⟩
    · have hnext : e.1 ∈ intoPowerMap serialize next := by
        rw [← AList.lookup_isSome, ← h, lookup_of_mem_entries he]
        rfl
      simp [hnext]
    · simp [h, lookup_of_mem_entries he]

/-- The powers the diff writes take every key from its power in `current` to its power in `next`,
zero powers included: a key of `current` that `next` lacks is written zero, a validator of `next`
that `current` does not hold as it is is written its power, and any other key keeps a power that
is the same in both. -/
theorem powerAt_lastWrite_powerDiff (current next : PowerTable PublicKey) (k : Key) :
    (AList.lastWrite ((powerDiff serialize current next).updates.map (powerWrite serialize)) k).getD
      (current.powerAt serialize k) = next.powerAt serialize k := by
  rw [lastWrite_powerWrite]
  simp only [powerDiff, List.map_append, AList.lastWrite_append, lastWrite_deletes,
    lastWrite_upserts]
  unfold PowerTable.powerAt
  -- The key's fate, as in `powerUpdate_powerDiff`, now read as a power.
  cases hv : (intoPowerMap serialize next).lookup k with
  | none =>
    have hnot : k ∉ intoPowerMap serialize next := AList.lookup_eq_none.1 hv
    by_cases hcur : k ∈ intoPowerMap serialize current
    · simp [hcur, hnot]
    · simp [hcur, AList.lookup_eq_none.2 hcur]
  | some v =>
    have hin : k ∈ intoPowerMap serialize next := AList.lookup_isSome.1 (by simp [hv])
    by_cases hcur : (intoPowerMap serialize current).lookup k = some v
    · simp [hcur, hin]
    · by_cases hp : v.power = 0 <;> simp [hcur, hin, updateWrite, hp]

/-- The diff is exact: applied to `current` it gives `next` as a map, when no validator of `next`
has power zero, and it is empty exactly when the two tables are the same map. -/
theorem powerDiff_exact (current next : PowerTable PublicKey)
    (hnext : ∀ v ∈ next.validators, v.power ≠ 0) :
    (∀ k, (intoPowerMap serialize (powerUpdate serialize current (powerDiff serialize current next))).lookup k =
      (intoPowerMap serialize next).lookup k) ∧
    ((powerDiff serialize current next).updates = [] ↔
      ∀ k, (intoPowerMap serialize current).lookup k = (intoPowerMap serialize next).lookup k) :=
  ⟨powerUpdate_powerDiff serialize current next hnext, powerDiff_eq_nil_iff serialize current next⟩

/-- One validator removed, one added and one whose power changed: the changed one ends with its
new power, and the diff is not empty. -/
theorem powerDiff_exact_changed_power :
    let current : PowerTable Nat := ⟨[⟨1, 5⟩, ⟨2, 3⟩]⟩
    let next : PowerTable Nat := ⟨[⟨2, 4⟩, ⟨3, 1⟩]⟩
    (∀ v ∈ next.validators, v.power ≠ 0) ∧
      (intoPowerMap id (powerUpdate id current (powerDiff id current next))).lookup 2 =
        (intoPowerMap id next).lookup 2 :=
  ⟨by decide, (powerDiff_exact id _ _ (by decide)).1 2⟩

end PowerDiff

end Delorean.Fvm
