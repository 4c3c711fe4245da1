import Delorean.Resolver.ProviderCache

/-!
# The provider cache against the reference of its tests

The property tests of `provider_cache.rs` check the cache against `build_providers`: each peer
provides the subnets of its first record of the greatest timestamp. `prop_providers_listed` adds
the records one by one, each after `set_routable` of its peer, to a cache that never prunes
(`max_subnets = usize::MAX`), and `prop_providers_pruned` then prunes the peers older than a cutoff
and compares with the reference of the records from the cutoff on. Both hold for every sequence of
records of positive timestamps and any bound on the subnets at least their number
(`providers_listed_pruned`). A record of timestamp zero is where they fail: the cache never accepts
it, and the reference keeps it.

The proof carries what the cache keeps of the records added so far (`Listed`): the greatest
timestamp of each peer with a record, and the providers of each subnet as the reference lists them.
One record of the test keeps it (`Listed.step`), so the whole run does, by induction on the records.
-/

namespace Delorean.Resolver

open AssocList

namespace SubnetProviderCache

variable {SubnetID PeerId : Type} [DecidableEq SubnetID] [DecidableEq PeerId]

/-! ## The reference -/

/-- `max_timestamps` of `build_providers`: the greatest timestamp of the peer's records, zero for a
peer without one. -/
def maxTimestamp (records : List (ProviderRecord SubnetID PeerId)) (peer_id : PeerId) : Nat :=
  records.foldl (fun mts record =>
    if record.peer_id = peer_id ∧ mts < record.timestamp then record.timestamp else mts) 0

/-- The record `build_providers` keeps for a peer: its first record of the greatest timestamp. -/
def latestRecord (records : List (ProviderRecord SubnetID PeerId)) (peer_id : PeerId) :
    Option (ProviderRecord SubnetID PeerId) :=
  records.find? fun record =>
    record.peer_id = peer_id ∧ record.timestamp = maxTimestamp records peer_id

/-- `build_providers` at one subnet and one peer: the peer provides the subnets of the record kept
for it. -/
def buildProviders (records : List (ProviderRecord SubnetID PeerId)) (subnet_id : SubnetID)
    (peer_id : PeerId) : Bool :=
  (latestRecord records peer_id).any fun record => subnet_id ∈ record.subnet_ids

example : buildProviders [⟨1, [10], 5⟩, ⟨2, [10], 5⟩, ⟨1, [20], 7⟩, ⟨1, [30], 7⟩] 20 1 = true := by
  decide

/-- The calls of the tests: the peer of each record is made routable, then the record is added. -/
def testCalls (records : List (ProviderRecord SubnetID PeerId)) : List (CacheCall SubnetID PeerId) :=
  records.flatMap fun record => [.setRoutable record.peer_id, .addProvider record]

section Reference

omit [DecidableEq SubnetID]

variable (records : List (ProviderRecord SubnetID PeerId))

theorem maxTimestamp_append_singleton (record : ProviderRecord SubnetID PeerId) (p : PeerId) :
    maxTimestamp (records ++ [record]) p =
      if record.peer_id = p ∧ maxTimestamp records p < record.timestamp then record.timestamp
      else maxTimestamp records p := by
  unfold maxTimestamp
  rw [List.foldl_append]
  rfl

/-- No record of the peer is newer than its greatest timestamp. -/
theorem le_maxTimestamp {records : List (ProviderRecord SubnetID PeerId)}
    {record : ProviderRecord SubnetID PeerId} (h : record ∈ records) {p : PeerId}
    (hp : record.peer_id = p) : record.timestamp ≤ maxTimestamp records p := by
  induction records using List.reverseRecOn with
  | nil => exact absurd h List.not_mem_nil
  | append_singleton records r ih =>
    rw [maxTimestamp_append_singleton]
    rcases List.mem_append.1 h with h | h
    · have hle := ih h
      split_ifs <;> omega
    · obtain rfl := List.mem_singleton.1 h
      split_ifs with hc
      · exact le_rfl
      · exact not_lt.1 fun hlt => hc ⟨hp, hlt⟩

/-- The greatest timestamp is zero, or that of a record of the peer. -/
theorem maxTimestamp_eq_zero_or (p : PeerId) :
    maxTimestamp records p = 0 ∨
      ∃ record ∈ records, record.peer_id = p ∧ record.timestamp = maxTimestamp records p := by
  induction records using List.reverseRecOn with
  | nil => exact .inl rfl
  | append_singleton records r ih =>
    rw [maxTimestamp_append_singleton]
    split_ifs with hc
    · exact .inr ⟨r, List.mem_append_right _ (List.mem_singleton_self r), hc.1, rfl⟩
    · rcases ih with h | ⟨record, hr, hp, heq⟩
      · exact .inl h
      · exact .inr ⟨record, List.mem_append_left _ hr, hp, heq⟩

theorem maxTimestamp_of_not_mem {p : PeerId} (hp : p ∉ records.map ProviderRecord.peer_id) :
    maxTimestamp records p = 0 := by
  rcases maxTimestamp_eq_zero_or records p with h | ⟨record, hr, hrp, -⟩
  · exact h
  · exact absurd (List.mem_map.2 ⟨record, hr, hrp⟩) hp

theorem mem_peers_of_maxTimestamp_pos {p : PeerId} (h : 0 < maxTimestamp records p) :
    p ∈ records.map ProviderRecord.peer_id := by
  by_contra hp
  rw [maxTimestamp_of_not_mem records hp] at h
  exact Nat.lt_irrefl 0 h

/-- A new record of positive timestamp is kept for its peer exactly when it is newer than the
peer's records before it. -/
theorem latestRecord_append_singleton {record : ProviderRecord SubnetID PeerId}
    (hpos : 0 < record.timestamp) (p : PeerId) :
    latestRecord (records ++ [record]) p =
      if record.peer_id = p ∧ maxTimestamp records p < record.timestamp then some record
      else latestRecord records p := by
  unfold latestRecord
  rw [maxTimestamp_append_singleton, List.find?_append]
  split_ifs with hc
  · -- no earlier record has the new greatest timestamp
    have hnone : records.find? (fun r => decide (r.peer_id = p ∧ r.timestamp = record.timestamp)) =
        none := by
      refine List.find?_eq_none.2 fun r hr hpred => ?_
      rw [decide_eq_true_eq] at hpred
      have hle := le_maxTimestamp hr hpred.1
      omega
    rw [hnone, Option.none_or]
    simp [hc.1]
  · by_cases hp : record.peer_id = p
    · -- the record is not newer, so an earlier record has the greatest timestamp and comes first
      have hle : record.timestamp ≤ maxTimestamp records p := not_lt.1 fun hlt => hc ⟨hp, hlt⟩
      rcases maxTimestamp_eq_zero_or records p with h0 | ⟨r, hr, hrp, heq⟩
      · omega
      · rw [Option.or_of_isSome (List.find?_isSome.2 ⟨r, hr, ?_⟩)]
        simp [hrp, heq]
    · have hnone : [record].find? (fun r => decide (r.peer_id = p ∧
          r.timestamp = maxTimestamp records p)) = none := by
        simp [hp]
      rw [hnone, Option.or_none]

theorem maxTimestamp_filter_le (cutoff : Nat) (p : PeerId) :
    maxTimestamp (records.filter fun r => cutoff ≤ r.timestamp) p ≤ maxTimestamp records p := by
  rcases maxTimestamp_eq_zero_or (records.filter fun r => cutoff ≤ r.timestamp) p with
    h0 | ⟨r, hr, hp, heq⟩
  · omega
  · rw [← heq]
    exact le_maxTimestamp (List.mem_of_mem_filter hr) hp

/-- The greatest timestamp of a peer survives a cutoff below it. -/
theorem maxTimestamp_filter {cutoff : Nat} {p : PeerId} (h : cutoff ≤ maxTimestamp records p) :
    maxTimestamp (records.filter fun r => cutoff ≤ r.timestamp) p = maxTimestamp records p := by
  refine le_antisymm (maxTimestamp_filter_le records cutoff p) ?_
  rcases maxTimestamp_eq_zero_or records p with h0 | ⟨r, hr, hp, heq⟩
  · omega
  · rw [← heq]
    exact le_maxTimestamp (List.mem_filter.2 ⟨hr, by simpa [heq] using h⟩) hp

/-- Dropping the records older than the cutoff drops the peers whose greatest timestamp is older,
and keeps the record kept for the others. -/
theorem latestRecord_filter (cutoff : Nat) (p : PeerId) :
    latestRecord (records.filter fun r => cutoff ≤ r.timestamp) p =
      if cutoff ≤ maxTimestamp records p then latestRecord records p else none := by
  unfold latestRecord
  rw [List.find?_filter]
  split_ifs with h
  · -- a record of the greatest timestamp is not older than the cutoff
    rw [maxTimestamp_filter records h]
    congr 1
    funext r
    by_cases hr : r.peer_id = p ∧ r.timestamp = maxTimestamp records p
    · simp [hr.1, hr.2, h]
    · simp only [hr, decide_false, Bool.false_eq_true, and_false]
  · refine List.find?_eq_none.2 fun r hr hpred => ?_
    simp only [decide_eq_true_eq] at hpred
    have hle := le_maxTimestamp hr hpred.2.1
    omega

theorem buildProviders_append_singleton {record : ProviderRecord SubnetID PeerId}
    (hpos : 0 < record.timestamp) (s : SubnetID) (p : PeerId) [DecidableEq SubnetID] :
    buildProviders (records ++ [record]) s p =
      if record.peer_id = p ∧ maxTimestamp records p < record.timestamp then
        decide (s ∈ record.subnet_ids)
      else buildProviders records s p := by
  unfold buildProviders
  rw [latestRecord_append_singleton records hpos]
  split_ifs <;> rfl

theorem buildProviders_filter (cutoff : Nat) (s : SubnetID) (p : PeerId) [DecidableEq SubnetID] :
    buildProviders (records.filter fun r => cutoff ≤ r.timestamp) s p =
      (decide (cutoff ≤ maxTimestamp records p) && buildProviders records s p) := by
  unfold buildProviders
  rw [latestRecord_filter]
  split_ifs with h <;> simp [h]

/-- A peer provides a subnet only with a record. -/
theorem mem_peers_of_buildProviders {s : SubnetID} {p : PeerId} [DecidableEq SubnetID]
    (h : buildProviders records s p = true) : p ∈ records.map ProviderRecord.peer_id := by
  unfold buildProviders at h
  cases hl : latestRecord records p with
  | none =>
    rw [hl] at h
    cases h
  | some r =>
    unfold latestRecord at hl
    have hpred := List.find?_some hl
    rw [decide_eq_true_eq] at hpred
    exact List.mem_map.2 ⟨r, List.mem_of_find?_eq_some hl, hpred.1⟩

end Reference

/-! ## The test's calls -/

omit [DecidableEq SubnetID] in
@[simp] theorem setRoutable_peer_timestamps (cache : SubnetProviderCache SubnetID PeerId)
    (p : PeerId) : (cache.setRoutable p).peer_timestamps = cache.peer_timestamps := rfl

omit [DecidableEq SubnetID] in
@[simp] theorem setRoutable_subnet_providers (cache : SubnetProviderCache SubnetID PeerId)
    (p : PeerId) : (cache.setRoutable p).subnet_providers = cache.subnet_providers := rfl

omit [DecidableEq SubnetID] in
@[simp] theorem setRoutable_max_subnets (cache : SubnetProviderCache SubnetID PeerId)
    (p : PeerId) : (cache.setRoutable p).max_subnets = cache.max_subnets := rfl

omit [DecidableEq SubnetID] in
theorem isRoutable_setRoutable (cache : SubnetProviderCache SubnetID PeerId) (p : PeerId) :
    (cache.setRoutable p).isRoutable p = true := by
  unfold isRoutable setRoutable
  split_ifs with hp <;> simp [hp]

/-- The test's calls for one more record: its peer is made routable, then the record added. -/
theorem run_testCalls_append_singleton (cache : SubnetProviderCache SubnetID PeerId)
    (records : List (ProviderRecord SubnetID PeerId)) (record : ProviderRecord SubnetID PeerId) :
    cache.run (testCalls (records ++ [record])) =
      (((cache.run (testCalls records)).setRoutable record.peer_id).addProvider record).1 := by
  simp only [testCalls, run, List.flatMap_append, List.flatMap_cons, List.flatMap_nil,
    List.append_nil, List.foldl_append, List.foldl_cons, List.foldl_nil, applyCall]

/-- Marking unroutable takes the peer out of every subnet. -/
theorem providersOfSubnet_setUnroutable (cache : SubnetProviderCache SubnetID PeerId) (p : PeerId)
    (s : SubnetID) : (cache.setUnroutable p).providersOfSubnet s = (cache.providersOfSubnet s).erase p := by
  unfold providersOfSubnet setUnroutable
  have hmap := lookup_map_snd (fun (_ : SubnetID) (v : List PeerId) => v.erase p) s
    cache.subnet_providers
  rw [hmap]
  cases lookup s cache.subnet_providers <;> rfl

/-- Marking peers unroutable removes them from every subnet, and no other peer. The induction is on
the peers, the cache generalized. -/
theorem mem_providersOfSubnet_foldl_setUnroutable (peers : List PeerId) :
    ∀ {cache : SubnetProviderCache SubnetID PeerId}, cache.Wf → ∀ s q,
      q ∈ (peers.foldl setUnroutable cache).providersOfSubnet s ↔
        q ∈ cache.providersOfSubnet s ∧ q ∉ peers := by
  induction peers with
  | nil => simp
  | cons p peers ih =>
    intro cache hw s q
    rw [List.foldl_cons, ih (hw.setUnroutable p), providersOfSubnet_setUnroutable,
      (nodup_providersOfSubnet hw s).mem_erase_iff, List.mem_cons, not_or]
    tauto

/-- What the cache keeps of the records the test's calls added: the greatest timestamp of each peer
with a record, the subnets of the records, and the providers of each subnet as the reference lists
them. -/
structure Listed (records : List (ProviderRecord SubnetID PeerId))
    (cache : SubnetProviderCache SubnetID PeerId) : Prop where
  wf : cache.Wf
  timestamps_nodup : (keys cache.peer_timestamps).Nodup
  timestamps : ∀ p, lookup p cache.peer_timestamps =
    if p ∈ records.map ProviderRecord.peer_id then some (maxTimestamp records p) else none
  subnets : keys cache.subnet_providers ⊆ records.flatMap ProviderRecord.subnet_ids
  providers : ∀ s p, p ∈ cache.providersOfSubnet s ↔ buildProviders records s p = true

theorem listed_new (max_subnets : Nat) :
    Listed [] (new max_subnets [] : SubnetProviderCache SubnetID PeerId) where
  wf := wf_new max_subnets []
  timestamps_nodup := List.nodup_nil
  timestamps p := by simp [new, lookup]
  subnets := by simp [new]
  providers s p := by simp [new, providersOfSubnet, lookup, buildProviders, latestRecord]

section Step

variable {records : List (ProviderRecord SubnetID PeerId)} {cache : SubnetProviderCache SubnetID PeerId}

theorem Listed.getD_timestamp (h : Listed records cache) (p : PeerId) :
    (lookup p cache.peer_timestamps).getD 0 = maxTimestamp records p := by
  rw [h.timestamps p]
  split_ifs with hp
  · rfl
  · exact (maxTimestamp_of_not_mem records hp).symm

/-- A record newer than its peer's: the peer's timestamp becomes the record's, and the peer provides
exactly the record's subnets. -/
theorem Listed.step_of_lt (h : Listed records cache) (record : ProviderRecord SubnetID PeerId)
    (hpos : 0 < record.timestamp) (hlt : maxTimestamp records record.peer_id < record.timestamp)
    (hmax : ((records ++ [record]).flatMap ProviderRecord.subnet_ids).dedup.length ≤
      cache.max_subnets) :
    Listed (records ++ [record]) ((cache.setRoutable record.peer_id).addProvider record).1 := by
  have hroutable := isRoutable_setRoutable cache record.peer_id
  have hw := h.wf.setRoutable record.peer_id
  have hwf := hw.addProvider record
  have hnd : (keys (cache.subnet_providers.map fun e =>
      (e.1, if e.1 ∉ record.subnet_ids then e.2.erase record.peer_id else e.2))).Nodup := by
    rw [keys_map_snd]
    exact h.wf.providers.keys_nodup
  obtain ⟨hk, hv, -⟩ := addLoop_spec record.peer_id record.subnet_ids _ [] hnd
  -- the cache has room for the record's subnets: they are among the records' subnets
  have hsub : keys (addLoop record.peer_id record.subnet_ids (cache.subnet_providers.map fun e =>
      (e.1, if e.1 ∉ record.subnet_ids then e.2.erase record.peer_id else e.2)) []).1 ⊆
        (records ++ [record]).flatMap ProviderRecord.subnet_ids := by
    intro s hs
    rw [List.flatMap_append, List.mem_append]
    rcases (hk s).1 hs with hs | hs
    · rw [keys_map_snd] at hs
      exact .inl (h.subnets hs)
    · exact .inr (by simpa using hs)
  have hlen := (List.subperm_of_subset
    ((hw.providers.leave record.subnet_ids record.peer_id).addLoop (by simpa [isRoutable] using hroutable)
      record.subnet_ids _ []).keys_nodup fun s hs => List.mem_dedup.2 (hsub hs)).length_le
  rw [length_keys] at hlen
  have hts : (lookup record.peer_id (cache.setRoutable record.peer_id).peer_timestamps).getD 0 <
      record.timestamp := by
    rw [setRoutable_peer_timestamps, h.getD_timestamp]
    exact hlt
  rw [addProvider_of_accepted_of_le _ record hroutable hts (by simpa using hlen.trans hmax)] at hwf ⊢
  simp only [setRoutable_peer_timestamps, setRoutable_subnet_providers] at hwf ⊢
  refine ⟨hwf, ?_, fun q => ?_, hsub, fun s q => ?_⟩
  · rw [keys_modify]
    exact nodup_keys_entryOrDefault h.timestamps_nodup _ _
  · -- the peer's timestamp is the record's; the others keep theirs
    rw [lookup_modify, maxTimestamp_append_singleton]
    by_cases hq : q = record.peer_id
    · subst hq
      rw [lookup_entryOrDefault]
      simp [hlt]
    · rw [lookup_entryOrDefault_of_ne _ _ hq, h.timestamps q]
      have hne : record.peer_id ≠ q := Ne.symm hq
      simp [hq, hne]
  · -- the peer provides the record's subnets; the others are where they were
    unfold providersOfSubnet
    rw [hv s q, getD_lookup_leave, buildProviders_append_singleton records hpos]
    have hnodup := nodup_providersOfSubnet h.wf s
    unfold providersOfSubnet at hnodup
    by_cases hq : record.peer_id = q
    · -- the record's peer provides exactly the record's subnets
      subst hq
      have hout := hnodup.not_mem_erase (a := record.peer_id)
      by_cases hs : s ∈ record.subnet_ids <;> simp [hs, hlt, hout]
    · -- another peer is where it was
      have hold := h.providers s q
      unfold providersOfSubnet at hold
      have hne : q ≠ record.peer_id := Ne.symm hq
      by_cases hs : s ∈ record.subnet_ids <;> simp [hs, hq, hne, hold, List.mem_erase_of_ne hne]

/-- A record no newer than its peer's changes neither the cache's books nor the reference. -/
theorem Listed.step_of_le (h : Listed records cache) (record : ProviderRecord SubnetID PeerId)
    (hpos : 0 < record.timestamp) (hle : record.timestamp ≤ maxTimestamp records record.peer_id) :
    Listed (records ++ [record]) ((cache.setRoutable record.peer_id).addProvider record).1 := by
  have hwf := (h.wf.setRoutable record.peer_id).addProvider record
  have hmem := mem_peers_of_maxTimestamp_pos records (lt_of_lt_of_le hpos hle)
  have hkey : record.peer_id ∈ keys cache.peer_timestamps := by
    have hl := h.timestamps record.peer_id
    rw [if_pos hmem] at hl
    exact by_contra fun hk => absurd (lookup_eq_none_iff.2 hk) (by simp [hl])
  have hmax : ∀ q, maxTimestamp (records ++ [record]) q = maxTimestamp records q := fun q => by
    rw [maxTimestamp_append_singleton, if_neg]
    rintro ⟨rfl, hlt⟩
    omega
  have hpeers : ∀ q, q ∈ (records ++ [record]).map ProviderRecord.peer_id ↔
      q ∈ records.map ProviderRecord.peer_id := fun q => by
    rw [List.map_append, List.mem_append, List.map_singleton, List.mem_singleton]
    exact ⟨fun hq => hq.elim id fun hq => hq ▸ hmem, Or.inl⟩
  have hts : ¬(lookup record.peer_id (cache.setRoutable record.peer_id).peer_timestamps).getD 0 <
      record.timestamp := by
    rw [setRoutable_peer_timestamps, h.getD_timestamp]
    omega
  rw [addProvider_of_not_newer _ record (isRoutable_setRoutable cache record.peer_id) hts] at hwf ⊢
  simp only [setRoutable_peer_timestamps, entryOrDefault_of_mem hkey] at hwf ⊢
  refine ⟨hwf, h.timestamps_nodup, fun q => ?_, ?_, fun s q => ?_⟩
  · rw [h.timestamps q, hmax q]
    simp only [hpeers]
  · rw [List.flatMap_append]
    exact List.subset_append_of_subset_left _ h.subnets
  · rw [buildProviders_append_singleton records hpos, if_neg, ← h.providers s q]
    · rfl
    · rintro ⟨rfl, hlt⟩
      omega

/-- One record of the test keeps the books, when the cache has room for the records' subnets. -/
theorem Listed.step (h : Listed records cache) (record : ProviderRecord SubnetID PeerId)
    (hpos : 0 < record.timestamp)
    (hmax : ((records ++ [record]).flatMap ProviderRecord.subnet_ids).dedup.length ≤
      cache.max_subnets) :
    Listed (records ++ [record]) ((cache.setRoutable record.peer_id).addProvider record).1 := by
  by_cases hlt : maxTimestamp records record.peer_id < record.timestamp
  · exact h.step_of_lt record hpos hlt hmax
  · exact h.step_of_le record hpos (not_lt.1 hlt)

/-- `prune_providers` drops the peers whose greatest timestamp is older than the cutoff. -/
theorem Listed.pruneProviders (h : Listed records cache) (cutoff_timestamp : Nat) (s : SubnetID)
    (p : PeerId) :
    p ∈ (cache.pruneProviders cutoff_timestamp).1.providersOfSubnet s ↔
      buildProviders (records.filter fun r => cutoff_timestamp ≤ r.timestamp) s p = true := by
  have hpruned : p ∈ cache.peer_timestamps.filterMap
      (fun e => if e.2 < cutoff_timestamp then some e.1 else none) ↔
        p ∈ records.map ProviderRecord.peer_id ∧ maxTimestamp records p < cutoff_timestamp := by
    rw [List.mem_filterMap]
    constructor
    · rintro ⟨e, he, hsome⟩
      split_ifs at hsome with hlt
      obtain rfl := Option.some.inj hsome
      have hl := h.timestamps e.1
      rw [lookup_of_mem h.timestamps_nodup he] at hl
      -- a peer without a record has no timestamp, so the `else` case closes
      split_ifs at hl with hmem
      rw [Option.some.inj hl] at hlt
      exact ⟨hmem, hlt⟩
    · rintro ⟨hmem, hlt⟩
      have hl := h.timestamps p
      rw [if_pos hmem] at hl
      exact ⟨(p, maxTimestamp records p), (lookup_eq_some_iff h.timestamps_nodup).1 hl, by simp [hlt]⟩
  unfold SubnetProviderCache.pruneProviders
  rw [mem_providersOfSubnet_foldl_setUnroutable _ h.wf, hpruned, h.providers,
    buildProviders_filter]
  constructor
  · rintro ⟨hb, hnot⟩
    -- a peer provides only with a record, so it was not pruned for its greatest timestamp
    have hmem := mem_peers_of_buildProviders records hb
    simp [hb, not_lt.1 fun hlt => hnot ⟨hmem, hlt⟩]
  · intro hb
    simp only [Bool.and_eq_true, decide_eq_true_eq] at hb
    exact ⟨hb.2, fun hc => absurd hb.1 (not_le.2 hc.2)⟩

end Step

/-- The test's calls from a new cache keep the books, one record at a time. -/
theorem listed_testCalls (max_subnets : Nat) (records : List (ProviderRecord SubnetID PeerId))
    (hts : ∀ record ∈ records, 0 < record.timestamp)
    (hmax : (records.flatMap ProviderRecord.subnet_ids).dedup.length ≤ max_subnets) :
    Listed records ((new max_subnets []).run (testCalls records)) := by
  induction records using List.reverseRecOn with
  | nil => exact listed_new max_subnets
  | append_singleton records record ih =>
    -- the records before the last name no more subnets
    have hmax' : (records.flatMap ProviderRecord.subnet_ids).dedup.length ≤ max_subnets := by
      refine le_trans (List.subperm_of_subset (List.nodup_dedup _) fun s hs => ?_).length_le hmax
      rw [List.mem_dedup] at hs ⊢
      rw [List.flatMap_append]
      exact List.mem_append_left _ hs
    have hl := ih (fun r hr => hts r (List.mem_append_left _ hr)) hmax'
    rw [run_testCalls_append_singleton]
    refine hl.step record (hts record (by simp)) ?_
    rw [(settings_run (testCalls records) (new max_subnets [])).1]
    exact hmax

/-- `prop_providers_listed` and `prop_providers_pruned`, for every sequence of records of positive
timestamps and any bound on the subnets at least their number: after the test's calls each subnet's
providers are the peers whose reference record lists it, and after `prune_providers` those whose
reference record among the records from the cutoff on lists it. -/
theorem providers_listed_pruned (max_subnets : Nat) (records : List (ProviderRecord SubnetID PeerId))
    (cutoff_timestamp : Nat) (hts : ∀ record ∈ records, 0 < record.timestamp)
    (hmax : (records.flatMap ProviderRecord.subnet_ids).dedup.length ≤ max_subnets) :
    let cache := (new max_subnets []).run (testCalls records)
    (∀ s p, p ∈ cache.providersOfSubnet s ↔ buildProviders records s p = true) ∧
      ∀ s p, p ∈ (cache.pruneProviders cutoff_timestamp).1.providersOfSubnet s ↔
        buildProviders (records.filter fun record => cutoff_timestamp ≤ record.timestamp) s p =
          true := by
  intro cache
  have h := listed_testCalls max_subnets records hts hmax
  exact ⟨h.providers, h.pruneProviders cutoff_timestamp⟩

/-- Three records of two peers, two subnets and a cutoff of four: peer 1's newer record moves it
from subnet 10 to subnet 20, and the cutoff prunes peer 2. -/
theorem providers_listed_pruned_three :
    let records : List (ProviderRecord Nat Nat) := [⟨1, [10], 5⟩, ⟨2, [10, 20], 3⟩, ⟨1, [20], 7⟩]
    (∀ record ∈ records, 0 < record.timestamp) ∧
      (records.flatMap ProviderRecord.subnet_ids).dedup.length ≤ 2 ∧
      ∀ s p, p ∈ (((new 2 []).run (testCalls records)).pruneProviders 4).1.providersOfSubnet s ↔
        buildProviders (records.filter fun record => 4 ≤ record.timestamp) s p = true := by
  intro records
  exact ⟨by decide, by decide, (providers_listed_pruned 2 records 4 (by decide) (by decide)).2⟩

end SubnetProviderCache

end Delorean.Resolver
