import Mathlib
import Delorean.Lib.AssocList

/-!
# The resolver's subnet provider cache

`SubnetProviderCache` of `ipld/resolver/src/provider_cache.rs` tracks which routable peers
provide which subnets, from the provider records the peers gossip. Its hash maps and sets are
lists in their iteration order here; a new key goes to the end. The order decides two things the
source leaves to the hash map: the order of the subnets in a `ProviderDelta`, and which of the
subnets with the same number of providers `prune_subnets` drops first, since `sort_by_key` is
stable.

A record is accepted when it is newer than the timestamp kept for its peer, and
`entry().or_default()` keeps a timestamp of zero for a peer that had none. Marking a peer
unroutable, also through `prune_providers`, forgets its timestamp and its subnets.

`prune_subnets` removes the first `to_prune` unpinned subnets by number of providers
(`pruneSubnets_eq`). Every run of the calls on peers and providers keeps the invariant `Wf`, so
the cache tracks at most `max(max_subnets, |pinned|)` subnets and never drops a pinned one
(`run_new_bounded_keeps_pinned`). `unpin_subnet` does not prune, so a run that unpins keeps the
bound loosened by one for each unpin (`WfUpTo`), until an accepted record prunes again; a pinned
subnet stays tracked until it is unpinned (`runOps_new_bounded_keeps_pinned`).
The delta of `add_provider` reports exactly the subnets the peer joined, and the subnets it left
except those the same call's prune dropped (`addProvider_delta`).
-/

namespace Delorean.Resolver

/-- `ProviderRecord`: a peer, the subnets it provides and when it said so. -/
structure ProviderRecord (SubnetID PeerId : Type) where
  peer_id : PeerId
  subnet_ids : List SubnetID
  timestamp : Nat
  deriving DecidableEq, Repr

/-- `ProviderDelta`: the change in a peer's subnets. -/
structure ProviderDelta (SubnetID : Type) where
  is_new : Bool
  added : List SubnetID
  removed : List SubnetID
  deriving DecidableEq, Repr

/-- `SubnetProviderCache`. -/
structure SubnetProviderCache (SubnetID PeerId : Type) where
  max_subnets : Nat
  pinned_subnets : List SubnetID
  routable_peers : List PeerId
  subnet_providers : List (SubnetID × List PeerId)
  peer_timestamps : List (PeerId × Nat)
  deriving DecidableEq, Repr

/-- The public operations that change the cache's peers and providers. -/
inductive CacheCall (SubnetID PeerId : Type)
  | setRoutable (peer_id : PeerId)
  | setUnroutable (peer_id : PeerId)
  | addProvider (record : ProviderRecord SubnetID PeerId)
  | pruneProviders (cutoff_timestamp : Nat)
  deriving DecidableEq, Repr

/-- Every public operation that changes the cache: a call on its peers and providers, or a change
of the pinned set. -/
inductive CacheOp (SubnetID PeerId : Type)
  | call (c : CacheCall SubnetID PeerId)
  | pinSubnet (subnet_id : SubnetID)
  | unpinSubnet (subnet_id : SubnetID)
  deriving DecidableEq, Repr

/-- Whether the operation unpins a subnet. -/
def CacheOp.isUnpin {SubnetID PeerId : Type} : CacheOp SubnetID PeerId → Bool
  | .unpinSubnet _ => true
  | _ => false

open AssocList

namespace SubnetProviderCache

variable {SubnetID PeerId : Type} [DecidableEq SubnetID] [DecidableEq PeerId]

/-- `new`: the static subnets are pinned, as a set. -/
def new (max_subnets : Nat) (static_subnets : List SubnetID) : SubnetProviderCache SubnetID PeerId :=
  ⟨max_subnets, static_subnets.dedup, [], [], []⟩

/-- `pin_subnet`: the subnet joins the pinned set, which no prune drops. -/
def pinSubnet (self : SubnetProviderCache SubnetID PeerId) (subnet_id : SubnetID) :
    SubnetProviderCache SubnetID PeerId :=
  { self with
    pinned_subnets := if subnet_id ∈ self.pinned_subnets then self.pinned_subnets
      else self.pinned_subnets ++ [subnet_id] }

/-- `unpin_subnet`: the subnet leaves the pinned set, so that a prune may drop it. -/
def unpinSubnet (self : SubnetProviderCache SubnetID PeerId) (subnet_id : SubnetID) :
    SubnetProviderCache SubnetID PeerId :=
  { self with pinned_subnets := self.pinned_subnets.erase subnet_id }

/-- `set_routable`. -/
def setRoutable (self : SubnetProviderCache SubnetID PeerId) (peer_id : PeerId) :
    SubnetProviderCache SubnetID PeerId :=
  { self with
    routable_peers := if peer_id ∈ self.routable_peers then self.routable_peers
      else self.routable_peers ++ [peer_id] }

/-- `set_unroutable`: forget the peer's timestamp and take it out of every subnet. -/
def setUnroutable (self : SubnetProviderCache SubnetID PeerId) (peer_id : PeerId) :
    SubnetProviderCache SubnetID PeerId :=
  { self with
    routable_peers := self.routable_peers.erase peer_id
    peer_timestamps := removeKey self.peer_timestamps peer_id
    subnet_providers := self.subnet_providers.map fun e => (e.1, e.2.erase peer_id) }

/-- `is_routable`. -/
def isRoutable (self : SubnetProviderCache SubnetID PeerId) (peer_id : PeerId) : Bool :=
  peer_id ∈ self.routable_peers

/-- `has_timestamp`. -/
def hasTimestamp (self : SubnetProviderCache SubnetID PeerId) (peer_id : PeerId) : Bool :=
  peer_id ∈ keys self.peer_timestamps

/-- The `for` loop of `prune_subnets` over the subnets sorted by their number of providers:
skip the pinned ones, remove the others until `to_prune` are gone. -/
def pruneLoop (pinned : List SubnetID) (to_prune : Nat) :
    List (SubnetID × Nat) → List (SubnetID × List PeerId) → List SubnetID →
      List (SubnetID × List PeerId) × List SubnetID
  | [], providers, removed => (providers, removed)
  | (subnet_id, _) :: counts, providers, removed =>
    if subnet_id ∈ pinned then pruneLoop pinned to_prune counts providers removed
    else
      let providers := removeKey providers subnet_id
      let removed := if subnet_id ∈ removed then removed else removed ++ [subnet_id]
      if removed.length = to_prune then (providers, removed)
      else pruneLoop pinned to_prune counts providers removed

/-- `prune_subnets`: drop the subnets with the fewest providers, pinned ones apart, until at most
`max_subnets` are left; the removed subnets. -/
def pruneSubnets (self : SubnetProviderCache SubnetID PeerId) :
    SubnetProviderCache SubnetID PeerId × List SubnetID :=
  let to_prune := self.subnet_providers.length - self.max_subnets
  if 0 < to_prune then
    let counts := (self.subnet_providers.map fun e => (e.1, e.2.length)).mergeSort
      fun a b => decide (a.2 ≤ b.2)
    let pruned := pruneLoop self.pinned_subnets to_prune counts self.subnet_providers []
    ({ self with subnet_providers := pruned.1 }, pruned.2)
  else (self, [])

/-- The loop of `add_provider` over the record's subnets: add the peer to each, creating the
subnet if needed; the subnets it was added to. -/
def addLoop (peer_id : PeerId) :
    List SubnetID → List (SubnetID × List PeerId) → List SubnetID →
      List (SubnetID × List PeerId) × List SubnetID
  | [], providers, added => (providers, added)
  | subnet_id :: subnet_ids, providers, added =>
    let providers := entryOrDefault providers subnet_id []
    if peer_id ∈ (lookup subnet_id providers).getD [] then addLoop peer_id subnet_ids providers added
    else addLoop peer_id subnet_ids (modify providers subnet_id (· ++ [peer_id])) (added ++ [subnet_id])

/-- `add_provider`: nothing for a peer that is not routable. A record newer than the peer's
timestamp replaces its subnets: the peer leaves the subnets the record does not list and joins
those it does, then the cache is pruned, and the delta says what changed, without the added
subnets that the pruning dropped. -/
def addProvider (self : SubnetProviderCache SubnetID PeerId)
    (record : ProviderRecord SubnetID PeerId) :
    SubnetProviderCache SubnetID PeerId × Option (ProviderDelta SubnetID) :=
  if !self.isRoutable record.peer_id then (self, none)
  else
    let is_new := !self.hasTimestamp record.peer_id
    -- `entry(peer_id).or_default()` keeps a zero timestamp for a peer without one
    let peer_timestamps := entryOrDefault self.peer_timestamps record.peer_id 0
    let timestamp := (lookup record.peer_id peer_timestamps).getD 0
    let self := { self with peer_timestamps }
    if timestamp < record.timestamp then
      let self := { self with
        peer_timestamps := modify self.peer_timestamps record.peer_id fun _ => record.timestamp }
      let removed := self.subnet_providers.filterMap fun e =>
        if e.1 ∉ record.subnet_ids ∧ record.peer_id ∈ e.2 then some e.1 else none
      let providers := self.subnet_providers.map fun e =>
        (e.1, if e.1 ∉ record.subnet_ids then e.2.erase record.peer_id else e.2)
      let joined := addLoop record.peer_id record.subnet_ids providers []
      let pruned := pruneSubnets { self with subnet_providers := joined.1 }
      (pruned.1, some ⟨is_new, joined.2.filter (· ∉ pruned.2), removed⟩)
    else (self, some ⟨is_new, [], []⟩)

/-- `prune_providers`: mark unroutable every peer whose timestamp is older than the cutoff; the
peers pruned. -/
def pruneProviders (self : SubnetProviderCache SubnetID PeerId) (cutoff_timestamp : Nat) :
    SubnetProviderCache SubnetID PeerId × List PeerId :=
  let to_prune := self.peer_timestamps.filterMap fun e =>
    if e.2 < cutoff_timestamp then some e.1 else none
  (to_prune.foldl setUnroutable self, to_prune)

/-- `providers_of_subnet`. -/
def providersOfSubnet (self : SubnetProviderCache SubnetID PeerId) (subnet_id : SubnetID) :
    List PeerId :=
  (lookup subnet_id self.subnet_providers).getD []

/-- One call, its result dropped. -/
def applyCall (self : SubnetProviderCache SubnetID PeerId) :
    CacheCall SubnetID PeerId → SubnetProviderCache SubnetID PeerId
  | .setRoutable peer_id => self.setRoutable peer_id
  | .setUnroutable peer_id => self.setUnroutable peer_id
  | .addProvider record => (self.addProvider record).1
  | .pruneProviders cutoff_timestamp => (self.pruneProviders cutoff_timestamp).1

/-- A run of calls. -/
def run (self : SubnetProviderCache SubnetID PeerId) (calls : List (CacheCall SubnetID PeerId)) :
    SubnetProviderCache SubnetID PeerId :=
  calls.foldl applyCall self

/-- One operation. -/
def applyOp (self : SubnetProviderCache SubnetID PeerId) :
    CacheOp SubnetID PeerId → SubnetProviderCache SubnetID PeerId
  | .call c => self.applyCall c
  | .pinSubnet subnet_id => self.pinSubnet subnet_id
  | .unpinSubnet subnet_id => self.unpinSubnet subnet_id

/-- A run of operations. -/
def runOps (self : SubnetProviderCache SubnetID PeerId) (ops : List (CacheOp SubnetID PeerId)) :
    SubnetProviderCache SubnetID PeerId :=
  ops.foldl applyOp self

/-! ## Provider maps -/

/-- A provider map as the cache keeps it: each subnet once, each of its providers once, and only
routable peers. -/
structure ProvidersWf (routable : List PeerId) (m : List (SubnetID × List PeerId)) : Prop where
  keys_nodup : (keys m).Nodup
  nodup : ∀ e ∈ m, e.2.Nodup
  routable : ∀ e ∈ m, ∀ q ∈ e.2, q ∈ routable

namespace ProvidersWf

variable {routable : List PeerId} {m : List (SubnetID × List PeerId)}

omit [DecidableEq SubnetID] [DecidableEq PeerId] in
theorem sublist (h : ProvidersWf routable m) {m' : List (SubnetID × List PeerId)}
    (hs : List.Sublist m' m) : ProvidersWf routable m' :=
  ⟨h.keys_nodup.sublist (Sublist.keys hs), fun e he => h.nodup e (hs.subset he),
    fun e he => h.routable e (hs.subset he)⟩

omit [DecidableEq SubnetID] [DecidableEq PeerId] in
/-- A change of every subnet's providers keeps the map well formed if each new list is a set of
routable peers. -/
theorem map_snd {routable' : List PeerId} (h : ProvidersWf routable m)
    (g : SubnetID × List PeerId → List PeerId) (hnodup : ∀ e ∈ m, (g e).Nodup)
    (hroutable : ∀ e ∈ m, ∀ q ∈ g e, q ∈ routable') :
    ProvidersWf routable' (m.map fun e => (e.1, g e)) where
  keys_nodup := by
    rw [keys_map_snd]
    exact h.keys_nodup
  nodup := by
    simp only [List.mem_map, forall_exists_index, and_imp]
    rintro _ e he rfl
    exact hnodup e he
  routable := by
    simp only [List.mem_map, forall_exists_index, and_imp]
    rintro _ e he rfl
    exact hroutable e he

omit [DecidableEq SubnetID] in
/-- `set_unroutable` on the map: the peer leaves every subnet and the routable peers. -/
theorem erase_peer (h : ProvidersWf routable m) (hr : routable.Nodup) (p : PeerId) :
    ProvidersWf (routable.erase p) (m.map fun e => (e.1, e.2.erase p)) := by
  refine h.map_snd (fun e => e.2.erase p) (fun e he => (h.nodup e he).erase p) fun e he q hq => ?_
  have hq' := ((h.nodup e he).mem_erase_iff).1 hq
  exact (hr.mem_erase_iff).2 ⟨hq'.1, h.routable e he q hq'.2⟩

/-- The first loop of `add_provider`: the peer leaves the subnets its record does not list. -/
theorem leave (h : ProvidersWf routable m) (subnet_ids : List SubnetID) (p : PeerId) :
    ProvidersWf routable
      (m.map fun e => (e.1, if e.1 ∉ subnet_ids then e.2.erase p else e.2)) := by
  refine h.map_snd (fun e => if e.1 ∉ subnet_ids then e.2.erase p else e.2) (fun e he => ?_)
    fun e he q hq => ?_
  · split_ifs
    · exact h.nodup e he
    · exact (h.nodup e he).erase p
  · split_ifs at hq
    · exact h.routable e he q hq
    · exact h.routable e he q (List.mem_of_mem_erase hq)

omit [DecidableEq PeerId] in
theorem entryOrDefault (h : ProvidersWf routable m) (s : SubnetID) :
    ProvidersWf routable (entryOrDefault m s []) where
  keys_nodup := nodup_keys_entryOrDefault h.keys_nodup s []
  nodup e he := by
    rcases mem_entryOrDefault.1 he with he | ⟨rfl, _⟩
    · exact h.nodup e he
    · exact List.nodup_nil
  routable e he := by
    rcases mem_entryOrDefault.1 he with he | ⟨rfl, _⟩
    · exact h.routable e he
    · simp

omit [DecidableEq PeerId] in
/-- The second loop of `add_provider`, one subnet: a routable peer joins it, once. -/
theorem join (h : ProvidersWf routable m) {p : PeerId} (hp : p ∈ routable) {s : SubnetID}
    (hnot : p ∉ (lookup s m).getD []) : ProvidersWf routable (AssocList.modify m s (· ++ [p])) := by
  unfold AssocList.modify
  refine h.map_snd (fun e => if e.1 = s then e.2 ++ [p] else e.2) (fun e he => ?_)
    fun e he q hq => ?_
  · split_ifs with hs
    · have hnot' : p ∉ e.2 := by
        rwa [← hs, lookup_of_mem h.keys_nodup he, Option.getD_some] at hnot
      exact (h.nodup e he).append (List.nodup_singleton p) (by simpa using hnot')
    · exact h.nodup e he
  · split_ifs at hq
    · rcases List.mem_append.1 hq with hq | hq
      · exact h.routable e he q hq
      · rw [List.mem_singleton.1 hq]
        exact hp
    · exact h.routable e he q hq

end ProvidersWf

/-- The second loop of `add_provider` keeps the provider map well formed. The induction is on
the record's subnets, the map and the added subnets generalized. -/
theorem ProvidersWf.addLoop {routable : List PeerId} {p : PeerId} (hp : p ∈ routable) :
    ∀ (subnet_ids : List SubnetID) (m : List (SubnetID × List PeerId)) (added : List SubnetID),
      ProvidersWf routable m → ProvidersWf routable (addLoop p subnet_ids m added).1
  | [], _, _, h => h
  | s :: subnet_ids, m, added, h => by
    have h₁ := h.entryOrDefault s
    unfold SubnetProviderCache.addLoop
    dsimp only
    split_ifs with hin
    · exact ProvidersWf.addLoop hp subnet_ids _ added h₁
    · exact ProvidersWf.addLoop hp subnet_ids _ _ (h₁.join hp hin)

/-- One subnet of the second loop of `add_provider`: the subnet gets an entry, the peer joins it
if it is not in it already, and only then is the subnet reported. -/
theorem addLoop_cons (p : PeerId) (x : SubnetID) (subnet_ids : List SubnetID)
    (m : List (SubnetID × List PeerId)) (added : List SubnetID) (hnd : (keys m).Nodup) :
    ∃ m₁ added₁, addLoop p (x :: subnet_ids) m added = addLoop p subnet_ids m₁ added₁ ∧
      (keys m₁).Nodup ∧ (∀ s, s ∈ keys m₁ ↔ s = x ∨ s ∈ keys m) ∧
      (∀ s q, q ∈ (lookup s m₁).getD [] ↔ q ∈ (lookup s m).getD [] ∨ (q = p ∧ s = x)) ∧
      (∀ s, s ∈ added₁ ↔ s ∈ added ∨ (s = x ∧ p ∉ (lookup s m).getD [])) := by
  have hnd₁ := nodup_keys_entryOrDefault hnd x []
  have hget₁ : ∀ s, (lookup s (AssocList.entryOrDefault m x [])).getD [] = (lookup s m).getD [] :=
    fun s => getD_lookup_entryOrDefault m x s []
  by_cases hin : p ∈ (lookup x (AssocList.entryOrDefault m x [])).getD []
  · -- the peer is in `x` already: only the entry is created
    have heq : addLoop p (x :: subnet_ids) m added =
        addLoop p subnet_ids (AssocList.entryOrDefault m x []) added := by
      simp only [addLoop, hin, if_true]
    rw [hget₁] at hin
    refine ⟨_, _, heq, hnd₁, fun s => mem_keys_entryOrDefault, fun s q => ?_, fun s => ?_⟩
    · rw [hget₁]
      constructor
      · exact .inl
      · rintro (hq | ⟨rfl, rfl⟩)
        · exact hq
        · exact hin
    · constructor
      · exact .inl
      · rintro (hs | ⟨rfl, hp⟩)
        · exact hs
        · exact absurd hin hp
  · -- the peer joins `x`, which is reported
    have heq : addLoop p (x :: subnet_ids) m added = addLoop p subnet_ids
        (AssocList.modify (AssocList.entryOrDefault m x []) x (· ++ [p])) (added ++ [x]) := by
      simp only [addLoop, hin, if_false]
    rw [hget₁] at hin
    refine ⟨_, _, heq, ?_, fun s => ?_, fun s q => ?_, fun s => ?_⟩
    · rw [keys_modify]
      exact hnd₁
    · rw [keys_modify]
      exact mem_keys_entryOrDefault
    · rw [lookup_modify]
      by_cases hs : s = x
      · subst hs
        rw [lookup_entryOrDefault]
        simp
      · simp only [hs, if_false, Option.map_id', and_false, or_false]
        rw [hget₁]
    · by_cases hs : s = x
      · subst hs
        simp [hin]
      · simp [hs]

/-- What the second loop of `add_provider` does, key by key: each listed subnet gets an entry,
the peer joins each listed subnet once, and the subnets reported are those it was not in. The
induction is on the record's subnets, one step of `addLoop_cons` each. -/
theorem addLoop_spec (p : PeerId) :
    ∀ (subnet_ids : List SubnetID) (m : List (SubnetID × List PeerId)) (added : List SubnetID),
      (keys m).Nodup →
      (∀ s, s ∈ keys (addLoop p subnet_ids m added).1 ↔ s ∈ keys m ∨ s ∈ subnet_ids) ∧
      (∀ s q, q ∈ (lookup s (addLoop p subnet_ids m added).1).getD [] ↔
        q ∈ (lookup s m).getD [] ∨ (q = p ∧ s ∈ subnet_ids)) ∧
      (∀ s, s ∈ (addLoop p subnet_ids m added).2 ↔
        s ∈ added ∨ (s ∈ subnet_ids ∧ p ∉ (lookup s m).getD []))
  | [], m, added, _ => by simp [addLoop]
  | x :: subnet_ids, m, added, hnd => by
    obtain ⟨m₁, added₁, heq, hnd₁, hk, hv, ha⟩ := addLoop_cons p x subnet_ids m added hnd
    obtain ⟨ihk, ihv, iha⟩ := addLoop_spec p subnet_ids m₁ added₁ hnd₁
    rw [heq]
    refine ⟨fun s => ?_, fun s q => ?_, fun s => ?_⟩
    · rw [ihk, hk, List.mem_cons]
      tauto
    · rw [ihv, hv, List.mem_cons]
      tauto
    · -- after its own step the peer is in `x`, so `x` is reported by that step or not at all
      have hp₁ : p ∉ (lookup s m₁).getD [] ↔ s ≠ x ∧ p ∉ (lookup s m).getD [] := by
        rw [hv]
        tauto
      rw [iha, ha, hp₁, List.mem_cons]
      by_cases hs : s = x
      · subst hs
        simp
      · simp [hs]

/-! ## Pruning -/

omit [DecidableEq PeerId] in
/-- The pruning loop removes the first `to_prune` unpinned subnets of the counts, or all of them if
there are fewer, and the map loses exactly their entries. The induction is on the counts; a subnet
removed is not met again, since the counts list each subnet once. -/
theorem pruneLoop_eq (pinned : List SubnetID) (to_prune : Nat) (m : List (SubnetID × List PeerId)) :
    ∀ (counts : List (SubnetID × Nat)) (removed : List SubnetID), (keys counts).Nodup →
      (∀ x ∈ keys counts, x ∉ removed) → removed.length < to_prune →
      pruneLoop pinned to_prune counts (m.filter fun e => e.1 ∉ removed) removed =
        let removed' :=
          removed ++ ((keys counts).filter (· ∉ pinned)).take (to_prune - removed.length)
        (m.filter fun e => e.1 ∉ removed', removed')
  | [], removed, _, _, _ => by simp [pruneLoop]
  | (x, c) :: counts, removed, hnd, hdisj, hlt => by
    rw [keys_cons, List.nodup_cons] at hnd
    have hx : x ∉ removed := hdisj x (by simp)
    have hdisj' : ∀ y ∈ keys counts, y ∉ removed := fun y hy => hdisj y (by simp [hy])
    by_cases hpin : x ∈ pinned
    · rw [pruneLoop, if_pos hpin, pruneLoop_eq pinned to_prune m counts removed hnd.2 hdisj' hlt]
      simp [hpin]
    · -- removing the entry of `x` is filtering it out with the others
      have hremove : removeKey (m.filter fun e => e.1 ∉ removed) x =
          m.filter fun e => e.1 ∉ removed ++ [x] := by
        unfold removeKey
        rw [List.filter_filter]
        exact List.filter_congr fun e _ => by simp [and_comm]
      rw [pruneLoop, if_neg hpin]
      dsimp only
      rw [if_neg hx, hremove]
      split_ifs with hlen
      · have h1 : to_prune - removed.length = 1 := by
          rw [List.length_append, List.length_singleton] at hlen
          omega
        simp [h1, hpin]
      · have hdisj'' : ∀ y ∈ keys counts, y ∉ removed ++ [x] := by
          intro y hy
          simp only [List.mem_append, List.mem_singleton, not_or]
          exact ⟨hdisj' y hy, fun hyx => hnd.1 (hyx ▸ hy)⟩
        rw [List.length_append, List.length_singleton] at hlen
        have hlt' : (removed ++ [x]).length < to_prune := by
          rw [List.length_append, List.length_singleton]
          omega
        rw [pruneLoop_eq pinned to_prune m counts (removed ++ [x]) hnd.2 hdisj'' hlt']
        have h1 : to_prune - removed.length = to_prune - (removed ++ [x]).length + 1 := by
          rw [List.length_append, List.length_singleton]
          omega
        simp [h1, hpin, List.take_succ_cons]

/-- The subnets `prune_subnets` removes: the first `to_prune` unpinned subnets, fewest providers
first and in iteration order among equals. -/
def prunedSubnets (self : SubnetProviderCache SubnetID PeerId) : List SubnetID :=
  let to_prune := self.subnet_providers.length - self.max_subnets
  if 0 < to_prune then
    ((keys ((self.subnet_providers.map fun e => (e.1, e.2.length)).mergeSort
      fun a b => decide (a.2 ≤ b.2))).filter (· ∉ self.pinned_subnets)).take to_prune
  else []

omit [DecidableEq SubnetID] [DecidableEq PeerId] in
/-- The sorted counts list the subnets of the map, in another order. -/
theorem keys_sortedCounts_perm (m : List (SubnetID × List PeerId)) :
    (keys ((m.map fun e => (e.1, e.2.length)).mergeSort fun a b => decide (a.2 ≤ b.2))).Perm
      (keys m) := by
  have hperm := (List.mergeSort_perm (m.map fun e => (e.1, e.2.length))
    fun a b => decide (a.2 ≤ b.2)).map Prod.fst
  rw [← keys_map_snd (fun e => e.2.length) m]
  exact hperm

omit [DecidableEq PeerId] in
/-- `prune_subnets` drops the entries of `prunedSubnets` and returns them. -/
theorem pruneSubnets_eq (self : SubnetProviderCache SubnetID PeerId)
    (h : (keys self.subnet_providers).Nodup) :
    self.pruneSubnets = ({ self with
      subnet_providers := self.subnet_providers.filter fun e => e.1 ∉ self.prunedSubnets },
      self.prunedSubnets) := by
  unfold pruneSubnets prunedSubnets
  dsimp only
  by_cases ht : 0 < self.subnet_providers.length - self.max_subnets
  · have hloop := pruneLoop_eq self.pinned_subnets _ self.subnet_providers _ []
      ((keys_sortedCounts_perm _).nodup_iff.2 h) (by simp) ht
    simp only [List.not_mem_nil, not_false_eq_true, decide_true, List.filter_true, List.nil_append,
      List.length_nil, Nat.sub_zero] at hloop
    simp only [ht, if_true]
    rw [hloop]
  · simp [ht]

omit [DecidableEq PeerId] in
/-- Within the bound, `prune_subnets` drops nothing. -/
theorem pruneSubnets_of_length_le (cache : SubnetProviderCache SubnetID PeerId)
    (h : cache.subnet_providers.length ≤ cache.max_subnets) : cache.pruneSubnets = (cache, []) := by
  unfold pruneSubnets
  dsimp only
  rw [if_neg (by omega)]

omit [DecidableEq PeerId] in
/-- A pinned subnet is never pruned. -/
theorem not_mem_prunedSubnets_of_pinned (self : SubnetProviderCache SubnetID PeerId) {s : SubnetID}
    (hs : s ∈ self.pinned_subnets) : s ∉ self.prunedSubnets := by
  unfold prunedSubnets
  dsimp only
  split_ifs
  · intro hmem
    have := List.mem_of_mem_take hmem
    simp [hs] at this
  · simp

omit [DecidableEq PeerId] in
/-- After `prune_subnets` at most `max_subnets` subnets are left, or only pinned ones: either the
prune removed `to_prune` subnets, or it ran out of unpinned ones. -/
theorem length_pruneSubnets_le (self : SubnetProviderCache SubnetID PeerId)
    (h : (keys self.subnet_providers).Nodup) :
    self.pruneSubnets.1.subnet_providers.length ≤ max self.max_subnets self.pinned_subnets.length := by
  rw [pruneSubnets_eq self h]
  dsimp only
  have hperm := keys_sortedCounts_perm self.subnet_providers
  unfold prunedSubnets
  dsimp only
  by_cases ht : 0 < self.subnet_providers.length - self.max_subnets
  · simp only [ht, if_true]
    set unpinned := (keys ((self.subnet_providers.map fun e => (e.1, e.2.length)).mergeSort
      fun a b => decide (a.2 ≤ b.2))).filter (· ∉ self.pinned_subnets) with hunpinned
    have hsub : unpinned ⊆ keys self.subnet_providers := fun x hx =>
      hperm.subset (List.mem_of_mem_filter hx)
    by_cases hlen : self.subnet_providers.length - self.max_subnets ≤ unpinned.length
    · -- `to_prune` subnets removed
      have hR : (unpinned.take (self.subnet_providers.length - self.max_subnets)).Nodup :=
        ((hperm.nodup_iff.2 h).filter _).sublist (List.take_sublist _ _)
      have hle := length_filter_not_mem_add_le hR fun x hx => hsub (List.mem_of_mem_take hx)
      rw [List.length_take_of_le hlen] at hle
      omega
    · -- every unpinned subnet removed: only pinned ones are left
      rw [List.take_of_length_le (by omega)]
      have hpinned : keys (self.subnet_providers.filter fun e => e.1 ∉ unpinned) ⊆
          self.pinned_subnets := by
        intro x hx
        obtain ⟨e, he, rfl⟩ := List.mem_map.1 hx
        obtain ⟨he, hnot⟩ := List.mem_filter.1 he
        by_contra hxp
        have hmem : e.1 ∈ unpinned :=
          List.mem_filter.2 ⟨hperm.symm.subset (fst_mem_keys he), by simpa using hxp⟩
        simp [hmem] at hnot
      have hnd := h.sublist (Sublist.keys (List.filter_sublist (p := fun e => decide (e.1 ∉ unpinned))))
      have hle := (List.subperm_of_subset hnd hpinned).length_le
      rw [length_keys] at hle
      omega
  · simp only [ht, if_false, List.not_mem_nil, not_false_eq_true, decide_true, List.filter_true]
    omega

/-! ## `add_provider`, case by case -/

/-- `add_provider` for an accepted record: the two loops, then a prune that drops some unpinned
subnets `R`. -/
theorem addProvider_of_accepted {self : SubnetProviderCache SubnetID PeerId}
    (h : ProvidersWf self.routable_peers self.subnet_providers)
    (record : ProviderRecord SubnetID PeerId) (hr : self.isRoutable record.peer_id = true)
    (hts : (lookup record.peer_id self.peer_timestamps).getD 0 < record.timestamp) :
    ∃ R : List SubnetID,
      let joined := addLoop record.peer_id record.subnet_ids
        (self.subnet_providers.map fun e =>
          (e.1, if e.1 ∉ record.subnet_ids then e.2.erase record.peer_id else e.2)) []
      (self.addProvider record).1.subnet_providers = joined.1.filter (fun e => e.1 ∉ R) ∧
        (self.addProvider record).2 = some ⟨!self.hasTimestamp record.peer_id,
          joined.2.filter (· ∉ R), self.subnet_providers.filterMap fun e =>
            if e.1 ∉ record.subnet_ids ∧ record.peer_id ∈ e.2 then some e.1 else none⟩ ∧
        ∀ s ∈ R, s ∉ self.pinned_subnets := by
  have hts' : (lookup record.peer_id
      (AssocList.entryOrDefault self.peer_timestamps record.peer_id 0)).getD 0 < record.timestamp := by
    rwa [getD_lookup_entryOrDefault]
  have hp : record.peer_id ∈ self.routable_peers := by simpa [isRoutable] using hr
  have hw := (h.leave record.subnet_ids record.peer_id).addLoop hp record.subnet_ids _ []
  unfold addProvider
  dsimp only
  rw [if_neg (by simpa using hr), if_pos hts', pruneSubnets_eq _ hw.keys_nodup]
  exact ⟨_, rfl, rfl, fun s hsR hs => not_mem_prunedSubnets_of_pinned _ (by exact hs) hsR⟩

/-- `add_provider` for an accepted record that leaves no more subnets than the bound: the two
loops, the new timestamp, and nothing pruned. -/
theorem addProvider_of_accepted_of_le (self : SubnetProviderCache SubnetID PeerId)
    (record : ProviderRecord SubnetID PeerId) (hr : self.isRoutable record.peer_id = true)
    (hts : (lookup record.peer_id self.peer_timestamps).getD 0 < record.timestamp)
    (hle : (addLoop record.peer_id record.subnet_ids (self.subnet_providers.map fun e =>
        (e.1, if e.1 ∉ record.subnet_ids then e.2.erase record.peer_id else e.2)) []).1.length ≤
      self.max_subnets) :
    (self.addProvider record).1 = { self with
      peer_timestamps := AssocList.modify
        (AssocList.entryOrDefault self.peer_timestamps record.peer_id 0) record.peer_id
        fun _ => record.timestamp
      subnet_providers := (addLoop record.peer_id record.subnet_ids (self.subnet_providers.map
        fun e => (e.1, if e.1 ∉ record.subnet_ids then e.2.erase record.peer_id else e.2)) []).1 } := by
  have hts' : (lookup record.peer_id
      (AssocList.entryOrDefault self.peer_timestamps record.peer_id 0)).getD 0 < record.timestamp := by
    rwa [getD_lookup_entryOrDefault]
  unfold addProvider
  dsimp only
  rw [if_neg (by simpa using hr), if_pos hts', pruneSubnets_of_length_le _ hle]

/-- `add_provider` for a record no newer than the peer's: only the timestamp entry may be created. -/
theorem addProvider_of_not_newer (self : SubnetProviderCache SubnetID PeerId)
    (record : ProviderRecord SubnetID PeerId) (hr : self.isRoutable record.peer_id = true)
    (hts : ¬(lookup record.peer_id self.peer_timestamps).getD 0 < record.timestamp) :
    self.addProvider record = ({ self with
      peer_timestamps := AssocList.entryOrDefault self.peer_timestamps record.peer_id 0 },
      some ⟨!self.hasTimestamp record.peer_id, [], []⟩) := by
  have hts' : ¬(lookup record.peer_id
      (AssocList.entryOrDefault self.peer_timestamps record.peer_id 0)).getD 0 < record.timestamp := by
    rwa [getD_lookup_entryOrDefault]
  unfold addProvider
  dsimp only
  rw [if_neg (by simpa using hr), if_neg hts']

theorem addProvider_of_not_routable (self : SubnetProviderCache SubnetID PeerId)
    (record : ProviderRecord SubnetID PeerId) (hr : self.isRoutable record.peer_id = false) :
    self.addProvider record = (self, none) := by
  unfold addProvider
  rw [if_pos (by simpa using hr)]

/-! ## The invariant -/

/-- What every cache a run reaches keeps: its sets are sets, its provider map is well formed, and
at most `max(max_subnets, |pinned|)` subnets are tracked. -/
structure Wf (cache : SubnetProviderCache SubnetID PeerId) : Prop where
  pinned_nodup : cache.pinned_subnets.Nodup
  routable_nodup : cache.routable_peers.Nodup
  providers : ProvidersWf cache.routable_peers cache.subnet_providers
  length_le : cache.subnet_providers.length ≤ max cache.max_subnets cache.pinned_subnets.length

omit [DecidableEq PeerId] in
theorem wf_new (max_subnets : Nat) (static_subnets : List SubnetID) :
    (new max_subnets static_subnets : SubnetProviderCache SubnetID PeerId).Wf :=
  ⟨List.nodup_dedup _, List.nodup_nil, ⟨List.nodup_nil, by simp [new], by simp [new]⟩, by simp [new]⟩

omit [DecidableEq PeerId] in
/-- `prune_subnets` restores the bound on the number of subnets. -/
theorem Wf.pruneSubnets (cache : SubnetProviderCache SubnetID PeerId)
    (hp : cache.pinned_subnets.Nodup) (hr : cache.routable_peers.Nodup)
    (hw : ProvidersWf cache.routable_peers cache.subnet_providers) : cache.pruneSubnets.1.Wf := by
  have hle := length_pruneSubnets_le cache hw.keys_nodup
  rw [pruneSubnets_eq cache hw.keys_nodup] at hle ⊢
  exact ⟨hp, hr, hw.sublist List.filter_sublist, hle⟩

/-- `Wf` with the bound loosened by `slack`. A run that unpins keeps it with one more for each
unpin: an unpinned subnet stays tracked until a prune drops it. -/
structure WfUpTo (slack : Nat) (cache : SubnetProviderCache SubnetID PeerId) : Prop where
  pinned_nodup : cache.pinned_subnets.Nodup
  routable_nodup : cache.routable_peers.Nodup
  providers : ProvidersWf cache.routable_peers cache.subnet_providers
  length_le : cache.subnet_providers.length ≤
    max cache.max_subnets cache.pinned_subnets.length + slack

section WfUpTo

variable {self : SubnetProviderCache SubnetID PeerId} {slack : Nat}

omit [DecidableEq SubnetID] [DecidableEq PeerId] in
theorem Wf.toWfUpTo (h : self.Wf) : self.WfUpTo 0 :=
  ⟨h.pinned_nodup, h.routable_nodup, h.providers, h.length_le⟩

omit [DecidableEq SubnetID] [DecidableEq PeerId] in
theorem WfUpTo.toWf (h : self.WfUpTo 0) : self.Wf :=
  ⟨h.pinned_nodup, h.routable_nodup, h.providers, h.length_le⟩

omit [DecidableEq SubnetID] [DecidableEq PeerId] in
theorem WfUpTo.mono {slack' : Nat} (h : self.WfUpTo slack) (hle : slack ≤ slack') :
    self.WfUpTo slack' :=
  ⟨h.pinned_nodup, h.routable_nodup, h.providers, h.length_le.trans (by omega)⟩

omit [DecidableEq SubnetID] in
theorem WfUpTo.setRoutable (h : self.WfUpTo slack) (p : PeerId) :
    (self.setRoutable p).WfUpTo slack where
  pinned_nodup := h.pinned_nodup
  routable_nodup := by
    unfold SubnetProviderCache.setRoutable
    split_ifs with hp
    · exact h.routable_nodup
    · exact h.routable_nodup.append (List.nodup_singleton p) (by simpa using hp)
  providers := by
    refine ⟨h.providers.keys_nodup, h.providers.nodup, fun e he q hq => ?_⟩
    unfold SubnetProviderCache.setRoutable
    split_ifs
    · exact h.providers.routable e he q hq
    · exact List.mem_append_left _ (h.providers.routable e he q hq)
  length_le := h.length_le

omit [DecidableEq SubnetID] in
theorem WfUpTo.setUnroutable (h : self.WfUpTo slack) (p : PeerId) :
    (self.setUnroutable p).WfUpTo slack where
  pinned_nodup := h.pinned_nodup
  routable_nodup := h.routable_nodup.erase p
  providers := h.providers.erase_peer h.routable_nodup p
  length_le := by
    simpa [SubnetProviderCache.setUnroutable] using h.length_le

/-- An accepted record brings the bound back, whatever the slack before: the prune of
`add_provider` leaves at most `max(max_subnets, |pinned|)` subnets. -/
theorem WfUpTo.addProvider_wf (h : self.WfUpTo slack) (record : ProviderRecord SubnetID PeerId)
    (hr : self.isRoutable record.peer_id = true)
    (hts : (lookup record.peer_id self.peer_timestamps).getD 0 < record.timestamp) :
    (self.addProvider record).1.Wf := by
  have hts' : (lookup record.peer_id
      (AssocList.entryOrDefault self.peer_timestamps record.peer_id 0)).getD 0 < record.timestamp := by
    rwa [getD_lookup_entryOrDefault]
  have hp : record.peer_id ∈ self.routable_peers := by simpa [isRoutable] using hr
  unfold SubnetProviderCache.addProvider
  dsimp only
  rw [if_neg (by simpa using hr), if_pos hts']
  -- the peer leaves and joins subnets, then the cache is pruned
  exact Wf.pruneSubnets _ h.pinned_nodup h.routable_nodup
    ((h.providers.leave record.subnet_ids record.peer_id).addLoop hp _ _ _)

theorem WfUpTo.addProvider (h : self.WfUpTo slack) (record : ProviderRecord SubnetID PeerId) :
    (self.addProvider record).1.WfUpTo slack := by
  cases hr : self.isRoutable record.peer_id with
  | false => rwa [addProvider_of_not_routable self record hr]
  | true =>
    by_cases hts : (lookup record.peer_id self.peer_timestamps).getD 0 < record.timestamp
    · exact (h.addProvider_wf record hr hts).toWfUpTo.mono (Nat.zero_le _)
    · -- a record no newer than the peer's changes only the timestamps
      rw [addProvider_of_not_newer self record hr hts]
      exact ⟨h.pinned_nodup, h.routable_nodup, h.providers, h.length_le⟩

omit [DecidableEq SubnetID] in
theorem WfUpTo.foldl_setUnroutable (peers : List PeerId) :
    ∀ {self : SubnetProviderCache SubnetID PeerId}, self.WfUpTo slack →
      (peers.foldl SubnetProviderCache.setUnroutable self).WfUpTo slack := by
  induction peers with
  | nil => exact fun h => h
  | cons p peers ih => exact fun h => ih (h.setUnroutable p)

omit [DecidableEq SubnetID] in
theorem WfUpTo.pruneProviders (h : self.WfUpTo slack) (cutoff_timestamp : Nat) :
    (self.pruneProviders cutoff_timestamp).1.WfUpTo slack :=
  WfUpTo.foldl_setUnroutable _ h

theorem WfUpTo.applyCall (h : self.WfUpTo slack) :
    ∀ c : CacheCall SubnetID PeerId, (self.applyCall c).WfUpTo slack
  | .setRoutable p => h.setRoutable p
  | .setUnroutable p => h.setUnroutable p
  | .addProvider record => h.addProvider record
  | .pruneProviders cutoff_timestamp => h.pruneProviders cutoff_timestamp

omit [DecidableEq PeerId] in
/-- Pinning only loosens the bound. -/
theorem WfUpTo.pinSubnet (h : self.WfUpTo slack) (subnet_id : SubnetID) :
    (self.pinSubnet subnet_id).WfUpTo slack where
  pinned_nodup := by
    unfold SubnetProviderCache.pinSubnet
    split_ifs with hs
    · exact h.pinned_nodup
    · exact h.pinned_nodup.append (List.nodup_singleton _) (by simpa using hs)
  routable_nodup := h.routable_nodup
  providers := h.providers
  length_le := by
    have hle : self.pinned_subnets.length ≤ (self.pinSubnet subnet_id).pinned_subnets.length := by
      unfold SubnetProviderCache.pinSubnet
      split_ifs <;> simp
    show self.subnet_providers.length ≤
      max self.max_subnets (self.pinSubnet subnet_id).pinned_subnets.length + slack
    have := h.length_le
    omega

omit [DecidableEq PeerId] in
/-- Unpinning takes one subnet out of the pinned set, and the bound loses one. -/
theorem WfUpTo.unpinSubnet (h : self.WfUpTo slack) (subnet_id : SubnetID) :
    (self.unpinSubnet subnet_id).WfUpTo (slack + 1) where
  pinned_nodup := h.pinned_nodup.erase subnet_id
  routable_nodup := h.routable_nodup
  providers := h.providers
  length_le := by
    have hle : self.pinned_subnets.length ≤ (self.pinned_subnets.erase subnet_id).length + 1 := by
      rw [List.length_erase]
      split_ifs <;> omega
    show self.subnet_providers.length ≤
      max self.max_subnets (self.pinned_subnets.erase subnet_id).length + (slack + 1)
    have := h.length_le
    omega

theorem WfUpTo.applyOp (h : self.WfUpTo slack) :
    ∀ op : CacheOp SubnetID PeerId, (self.applyOp op).WfUpTo (slack + if op.isUnpin then 1 else 0)
  | .call c => h.applyCall c
  | .pinSubnet subnet_id => h.pinSubnet subnet_id
  | .unpinSubnet subnet_id => h.unpinSubnet subnet_id

end WfUpTo

/-- Every run of operations keeps the invariant, loosened by one for each unpin. -/
theorem wfUpTo_runOps (ops : List (CacheOp SubnetID PeerId)) :
    ∀ {self : SubnetProviderCache SubnetID PeerId} {slack : Nat}, self.WfUpTo slack →
      (self.runOps ops).WfUpTo (slack + ops.countP CacheOp.isUnpin) := by
  induction ops with
  | nil => exact fun h => h
  | cons op ops ih =>
    intro self slack h
    rw [List.countP_cons]
    exact (ih (h.applyOp op)).mono (by omega)

namespace Wf

variable {self : SubnetProviderCache SubnetID PeerId}

omit [DecidableEq SubnetID] in
theorem setRoutable (h : self.Wf) (p : PeerId) : (self.setRoutable p).Wf :=
  (h.toWfUpTo.setRoutable p).toWf

omit [DecidableEq SubnetID] in
theorem setUnroutable (h : self.Wf) (p : PeerId) : (self.setUnroutable p).Wf :=
  (h.toWfUpTo.setUnroutable p).toWf

theorem addProvider (h : self.Wf) (record : ProviderRecord SubnetID PeerId) :
    (self.addProvider record).1.Wf :=
  (h.toWfUpTo.addProvider record).toWf

theorem applyCall (h : self.Wf) (c : CacheCall SubnetID PeerId) : (self.applyCall c).Wf :=
  (h.toWfUpTo.applyCall c).toWf

end Wf

/-- Every run keeps the invariant. -/
theorem wf_run (calls : List (CacheCall SubnetID PeerId)) :
    ∀ {self : SubnetProviderCache SubnetID PeerId}, self.Wf → (self.run calls).Wf := by
  induction calls with
  | nil => exact fun h => h
  | cons c calls ih => exact fun h => ih (h.applyCall c)

/-! ## What the calls keep -/

omit [DecidableEq PeerId] in
theorem settings_pruneSubnets (cache : SubnetProviderCache SubnetID PeerId) :
    cache.pruneSubnets.1.max_subnets = cache.max_subnets ∧
      cache.pruneSubnets.1.pinned_subnets = cache.pinned_subnets := by
  unfold pruneSubnets
  dsimp only
  split_ifs <;> exact ⟨rfl, rfl⟩

omit [DecidableEq SubnetID] in
theorem foldl_setUnroutable_eq (peers : List PeerId) :
    ∀ self : SubnetProviderCache SubnetID PeerId,
      let after := peers.foldl setUnroutable self
      after.max_subnets = self.max_subnets ∧ after.pinned_subnets = self.pinned_subnets ∧
        keys after.subnet_providers = keys self.subnet_providers := by
  induction peers with
  | nil => exact fun _ => ⟨rfl, rfl, rfl⟩
  | cons p peers ih =>
    intro self
    obtain ⟨hmax, hpinned, hkeys⟩ := ih (self.setUnroutable p)
    exact ⟨hmax, hpinned, hkeys.trans (keys_map_snd _ _)⟩

/-- No call changes the bound or the pinned subnets. -/
theorem settings_applyCall (self : SubnetProviderCache SubnetID PeerId) :
    ∀ c : CacheCall SubnetID PeerId, (self.applyCall c).max_subnets = self.max_subnets ∧
      (self.applyCall c).pinned_subnets = self.pinned_subnets
  | .setRoutable _ => ⟨rfl, rfl⟩
  | .setUnroutable _ => ⟨rfl, rfl⟩
  | .addProvider record => by
    unfold applyCall addProvider
    dsimp only
    split_ifs
    · exact ⟨rfl, rfl⟩
    · exact settings_pruneSubnets _
    · exact ⟨rfl, rfl⟩
  | .pruneProviders cutoff_timestamp =>
    let ⟨hmax, hpinned, _⟩ := foldl_setUnroutable_eq _ self
    ⟨hmax, hpinned⟩

theorem settings_run (calls : List (CacheCall SubnetID PeerId)) :
    ∀ self : SubnetProviderCache SubnetID PeerId, (self.run calls).max_subnets = self.max_subnets ∧
      (self.run calls).pinned_subnets = self.pinned_subnets := by
  induction calls with
  | nil => exact fun _ => ⟨rfl, rfl⟩
  | cons c calls ih =>
    intro self
    obtain ⟨hmax, hpinned⟩ := ih (self.applyCall c)
    obtain ⟨hmax', hpinned'⟩ := settings_applyCall self c
    exact ⟨hmax.trans hmax', hpinned.trans hpinned'⟩

/-- A pinned subnet that is tracked stays tracked through any call: the only call that drops
subnets is the prune of `add_provider`, and it skips pinned ones. -/
theorem mem_keys_applyCall_of_pinned {self : SubnetProviderCache SubnetID PeerId}
    (h : ProvidersWf self.routable_peers self.subnet_providers) {s : SubnetID} (hs : s ∈ self.pinned_subnets) (hk : s ∈ keys self.subnet_providers) :
    ∀ c : CacheCall SubnetID PeerId, s ∈ keys (self.applyCall c).subnet_providers
  | .setRoutable _ => hk
  | .setUnroutable p => (keys_map_snd (fun e => e.2.erase p) self.subnet_providers).symm ▸ hk
  | .addProvider record => by
    show s ∈ keys (self.addProvider record).1.subnet_providers
    cases hr : self.isRoutable record.peer_id with
    | false => rwa [addProvider_of_not_routable self record hr]
    | true =>
      by_cases hts : (lookup record.peer_id self.peer_timestamps).getD 0 < record.timestamp
      · -- the prune of an accepted record skips pinned subnets
        obtain ⟨R, hafter, -, hpinned⟩ := addProvider_of_accepted h record hr hts
        have hnd := h.keys_nodup
        rw [← keys_map_snd (fun e => if e.1 ∉ record.subnet_ids then e.2.erase record.peer_id
          else e.2)] at hnd hk
        rw [hafter, mem_keys_filter_not_mem]
        exact ⟨((addLoop_spec record.peer_id record.subnet_ids _ [] hnd).1 s).2 (.inl hk),
          fun hR => hpinned s hR hs⟩
      · rwa [addProvider_of_not_newer self record hr hts]
  | .pruneProviders cutoff_timestamp => by
    unfold applyCall pruneProviders
    exact (foldl_setUnroutable_eq _ self).2.2 ▸ hk

theorem mem_keys_run_of_pinned (calls : List (CacheCall SubnetID PeerId)) :
    ∀ {self : SubnetProviderCache SubnetID PeerId}, self.Wf → ∀ {s : SubnetID},
      s ∈ self.pinned_subnets → s ∈ keys self.subnet_providers →
        s ∈ keys (self.run calls).subnet_providers := by
  induction calls with
  | nil => exact fun _ _ _ hk => hk
  | cons c calls ih =>
    intro self h s hs hk
    exact ih (h.applyCall c) ((settings_applyCall self c).2 ▸ hs)
      (mem_keys_applyCall_of_pinned h.providers hs hk c)

/-- Over every run from a new cache, at most `max(max_subnets, |pinned|)` subnets are tracked, and a
pinned subnet, once tracked, is tracked in every later state. -/
theorem run_new_bounded_keeps_pinned (max_subnets : Nat) (static_subnets : List SubnetID)
    (calls calls' : List (CacheCall SubnetID PeerId)) :
    let cache := (new max_subnets static_subnets).run calls
    cache.subnet_providers.length ≤ max max_subnets static_subnets.dedup.length ∧
      ∀ s ∈ static_subnets, s ∈ keys cache.subnet_providers →
        s ∈ keys (cache.run calls').subnet_providers := by
  intro cache
  have hwf : cache.Wf := wf_run calls (wf_new max_subnets static_subnets)
  obtain ⟨hmax, hpinned⟩ := settings_run calls (new max_subnets static_subnets)
  refine ⟨?_, fun s hs hk => mem_keys_run_of_pinned calls' hwf ?_ hk⟩
  · have hle := hwf.length_le
    rwa [hmax, hpinned] at hle
  · rw [hpinned]
    exact List.mem_dedup.2 hs

/-! ## Runs that pin and unpin -/

theorem max_subnets_runOps (ops : List (CacheOp SubnetID PeerId)) :
    ∀ self : SubnetProviderCache SubnetID PeerId, (self.runOps ops).max_subnets = self.max_subnets := by
  induction ops with
  | nil => exact fun _ => rfl
  | cons op ops ih =>
    intro self
    rw [runOps, List.foldl_cons, ← runOps, ih]
    -- pinning and unpinning leave the bound alone
    cases op with
    | call c => exact (settings_applyCall self c).1
    | pinSubnet _ => rfl
    | unpinSubnet _ => rfl

/-- A pinned subnet that is tracked stays pinned and tracked through any operation but its own
unpin. -/
theorem mem_applyOp_of_pinned {self : SubnetProviderCache SubnetID PeerId}
    (h : ProvidersWf self.routable_peers self.subnet_providers) {s : SubnetID}
    (hs : s ∈ self.pinned_subnets) (hk : s ∈ keys self.subnet_providers) :
    ∀ op : CacheOp SubnetID PeerId, op ≠ .unpinSubnet s →
      s ∈ (self.applyOp op).pinned_subnets ∧ s ∈ keys (self.applyOp op).subnet_providers
  | .call c, _ => ⟨(settings_applyCall self c).2 ▸ hs, mem_keys_applyCall_of_pinned h hs hk c⟩
  | .pinSubnet t, _ => by
    refine ⟨?_, hk⟩
    show s ∈ (self.pinSubnet t).pinned_subnets
    unfold pinSubnet
    split_ifs
    · exact hs
    · exact List.mem_append_left _ hs
  | .unpinSubnet t, hne => by
    have hst : s ≠ t := fun hst => hne (hst ▸ rfl)
    exact ⟨(List.mem_erase_of_ne hst).2 hs, hk⟩

theorem mem_runOps_of_pinned (ops : List (CacheOp SubnetID PeerId)) :
    ∀ {self : SubnetProviderCache SubnetID PeerId} {slack : Nat}, self.WfUpTo slack →
      ∀ {s : SubnetID}, s ∈ self.pinned_subnets → s ∈ keys self.subnet_providers →
        CacheOp.unpinSubnet s ∉ ops →
          s ∈ (self.runOps ops).pinned_subnets ∧ s ∈ keys (self.runOps ops).subnet_providers := by
  induction ops with
  | nil => exact fun _ _ hs hk _ => ⟨hs, hk⟩
  | cons op ops ih =>
    intro self slack h s hs hk hops
    rw [List.mem_cons, not_or] at hops
    obtain ⟨hs', hk'⟩ := mem_applyOp_of_pinned h.providers hs hk op (Ne.symm hops.1)
    exact ih (h.applyOp op) hs' hk' hops.2

/-- Over every run of all the operations from a new cache, pinning and unpinning included: the
cache tracks at most `max(max_subnets, |pinned|)` subnets, `pinned` the set pinned at the end, and
one more for each unpin of the run; a record that `add_provider` accepts brings the bound back; and
a subnet that is pinned and tracked stays pinned and tracked through every later run that does not
unpin it. -/
theorem runOps_new_bounded_keeps_pinned (max_subnets : Nat) (static_subnets : List SubnetID)
    (ops ops' : List (CacheOp SubnetID PeerId)) :
    let cache := (new max_subnets static_subnets).runOps ops
    cache.subnet_providers.length ≤
        max max_subnets cache.pinned_subnets.length + ops.countP CacheOp.isUnpin ∧
      (∀ record : ProviderRecord SubnetID PeerId, cache.isRoutable record.peer_id = true →
        (lookup record.peer_id cache.peer_timestamps).getD 0 < record.timestamp →
          (cache.addProvider record).1.subnet_providers.length ≤
            max max_subnets cache.pinned_subnets.length) ∧
      ∀ s ∈ cache.pinned_subnets, s ∈ keys cache.subnet_providers → CacheOp.unpinSubnet s ∉ ops' →
        s ∈ (cache.runOps ops').pinned_subnets ∧ s ∈ keys (cache.runOps ops').subnet_providers := by
  intro cache
  have hwf : cache.WfUpTo (0 + ops.countP CacheOp.isUnpin) :=
    wfUpTo_runOps ops (wf_new max_subnets static_subnets).toWfUpTo
  have hmax : cache.max_subnets = max_subnets := max_subnets_runOps ops _
  refine ⟨?_, fun record hr hts => ?_, fun s hs hk hops => mem_runOps_of_pinned ops' hwf hs hk hops⟩
  · have hle := hwf.length_le
    rwa [hmax, Nat.zero_add] at hle
  · -- the call keeps the bound and the pinned set, and its prune restores the bound
    have hle := (hwf.addProvider_wf record hr hts).length_le
    have hsettings : (cache.addProvider record).1.max_subnets = cache.max_subnets ∧
        (cache.addProvider record).1.pinned_subnets = cache.pinned_subnets :=
      settings_applyCall cache (.addProvider record)
    rwa [hsettings.1, hsettings.2, hmax] at hle

/- The slack is needed: subnet 1, pinned, survives the prune to zero subnets, and once unpinned it is
tracked above `max(0, 0)` until the next accepted record. -/
example :
    let cache := (new 0 [1] : SubnetProviderCache Nat Nat).runOps
      [.call (.setRoutable 1), .call (.addProvider ⟨1, [1], 1⟩), .unpinSubnet 1]
    cache.subnet_providers.length = 1 ∧ cache.pinned_subnets = [] := by
  simp +decide [runOps, applyOp, applyCall, new, setRoutable, addProvider, pruneSubnets,
    entryOrDefault, AssocList.modify, addLoop, pruneLoop, hasTimestamp, unpinSubnet]

/-! ## The delta of a record -/

/-- The providers of a subnet after the first loop of `add_provider`. -/
theorem getD_lookup_leave (m : List (SubnetID × List PeerId)) (subnet_ids : List SubnetID)
    (p : PeerId) (s : SubnetID) :
    (lookup s (m.map fun e => (e.1, if e.1 ∉ subnet_ids then e.2.erase p else e.2))).getD [] =
      if s ∉ subnet_ids then ((lookup s m).getD []).erase p else (lookup s m).getD [] := by
  have hmap := lookup_map_snd
    (fun (x : SubnetID) (v : List PeerId) => if x ∉ subnet_ids then v.erase p else v) s m
  rw [hmap]
  cases lookup s m <;> by_cases hs : s ∈ subnet_ids <;> simp [hs]

/-- The subnets the first loop of `add_provider` reports: those the record drops and the peer
was in. -/
theorem mem_removed_iff {m : List (SubnetID × List PeerId)} (hnd : (keys m).Nodup)
    (subnet_ids : List SubnetID) (p : PeerId) (s : SubnetID) :
    s ∈ m.filterMap (fun e => if e.1 ∉ subnet_ids ∧ p ∈ e.2 then some e.1 else none) ↔
      s ∉ subnet_ids ∧ p ∈ (lookup s m).getD [] := by
  rw [List.mem_filterMap]
  constructor
  · rintro ⟨e, he, hsome⟩
    split_ifs at hsome with hc
    obtain rfl := Option.some.inj hsome
    rw [lookup_of_mem hnd he, Option.getD_some]
    exact hc
  · rintro ⟨hs, hp⟩
    obtain ⟨v, hv⟩ := exists_lookup_eq_some (mem_keys_of_mem_getD_lookup hp)
    rw [hv, Option.getD_some] at hp
    exact ⟨(s, v), (lookup_eq_some_iff hnd).1 hv, by simp [hs, hp]⟩

/-- The provider map after an accepted record and a prune that drops the subnets `R`, subnet by
subnet: the peer has left the subnet if the record does not list it and joined it if it does, the
subnet is tracked if it was or is listed and is not in `R`, and the delta reports it as added if
the peer joined it and it survived the prune. -/
theorem acceptRecord_spec {m : List (SubnetID × List PeerId)} (hnd : (keys m).Nodup) (p : PeerId)
    (subnet_ids R : List SubnetID) (s : SubnetID) :
    let before := (lookup s m).getD []
    let joined := addLoop p subnet_ids
      (m.map fun e => (e.1, if e.1 ∉ subnet_ids then e.2.erase p else e.2)) []
    let after := joined.1.filter fun e => e.1 ∉ R
    (∀ q, q ∈ (lookup s after).getD [] ↔ s ∈ keys after ∧
        (q ∈ (if s ∉ subnet_ids then before.erase p else before) ∨ (q = p ∧ s ∈ subnet_ids))) ∧
      (s ∈ keys after ↔ (s ∈ keys m ∨ s ∈ subnet_ids) ∧ s ∉ R) ∧
      (s ∈ joined.2.filter (· ∉ R) ↔ s ∈ subnet_ids ∧ p ∉ before ∧ s ∈ keys after) := by
  intro before joined after
  have hnd₁ : (keys (m.map fun e => (e.1, if e.1 ∉ subnet_ids then e.2.erase p else e.2))).Nodup := by
    rw [keys_map_snd]
    exact hnd
  obtain ⟨hk, hv, ha⟩ := addLoop_spec p subnet_ids _ [] hnd₁
  have hleave := getD_lookup_leave m subnet_ids p s
  have hkeys : s ∈ keys after ↔ (s ∈ keys m ∨ s ∈ subnet_ids) ∧ s ∉ R := by
    rw [mem_keys_filter_not_mem, hk, keys_map_snd]
  -- a peer of the left-over providers makes the subnet a key before
  have hleft : ∀ q, q ∈ (if s ∉ subnet_ids then before.erase p else before) → s ∈ keys m := by
    intro q hq
    split_ifs at hq
    · exact mem_keys_of_mem_getD_lookup hq
    · exact mem_keys_of_mem_getD_lookup (List.mem_of_mem_erase hq)
  refine ⟨fun q => ?_, hkeys, ?_⟩
  · rw [lookup_filter_not_mem, hkeys]
    by_cases hR : s ∈ R
    · simp [hR]
    · rw [if_neg hR, hv, hleave]
      constructor
      · rintro (hq | ⟨rfl, hs⟩)
        · exact ⟨⟨.inl (hleft q hq), hR⟩, .inl hq⟩
        · exact ⟨⟨.inr hs, hR⟩, .inr ⟨rfl, hs⟩⟩
      · rintro ⟨_, hq⟩
        exact hq
  · rw [List.mem_filter, ha, hkeys, decide_eq_true_iff]
    constructor
    · rintro ⟨hs | ⟨hs, hp⟩, hR⟩
      · exact absurd hs List.not_mem_nil
      · rw [hleave, if_neg (not_not.2 hs)] at hp
        exact ⟨hs, hp, .inr hs, hR⟩
    · rintro ⟨hs, hp, _, hR⟩
      rw [hleave, if_neg (not_not.2 hs)]
      exact ⟨.inr ⟨hs, hp⟩, hR⟩

omit [DecidableEq PeerId] in
/-- A subnet lists each provider once. -/
theorem nodup_providersOfSubnet {self : SubnetProviderCache SubnetID PeerId} (h : self.Wf)
    (s : SubnetID) : (self.providersOfSubnet s).Nodup := by
  unfold providersOfSubnet
  cases hv : lookup s self.subnet_providers with
  | none => exact List.nodup_nil
  | some v => exact h.providers.nodup (s, v) ((lookup_eq_some_iff h.providers.keys_nodup).1 hv)

/-- What the delta of `add_provider` says of the peer's subnets, against the cache before and after
the call: a subnet is reported added exactly when the peer joined it; the peer left a subnet exactly
when the subnet is reported removed or is no longer tracked. The prune of the call may drop a subnet
the peer stays in, and that subnet is not reported. -/
theorem addProvider_delta {self : SubnetProviderCache SubnetID PeerId} (h : self.Wf)
    (record : ProviderRecord SubnetID PeerId) {d : ProviderDelta SubnetID}
    (hd : (self.addProvider record).2 = some d) (s : SubnetID) :
    (s ∈ d.added ↔ record.peer_id ∉ self.providersOfSubnet s ∧
        record.peer_id ∈ (self.addProvider record).1.providersOfSubnet s) ∧
      (record.peer_id ∈ self.providersOfSubnet s ∧
          record.peer_id ∉ (self.addProvider record).1.providersOfSubnet s ↔
        s ∈ d.removed ∨ (record.peer_id ∈ self.providersOfSubnet s ∧
          s ∉ keys (self.addProvider record).1.subnet_providers)) := by
  have hnodup := nodup_providersOfSubnet h s
  cases hr : self.isRoutable record.peer_id with
  | false =>
    rw [addProvider_of_not_routable self record hr] at hd
    exact absurd hd (by simp)
  | true =>
    by_cases hts : (lookup record.peer_id self.peer_timestamps).getD 0 < record.timestamp
    · -- accepted: read the call off the spec of the provider map
      obtain ⟨R, hafter, hdelta, -⟩ := addProvider_of_accepted h.providers record hr hts
      rw [hdelta, Option.some.injEq] at hd
      subst hd
      obtain ⟨hq, hkeys, hadded⟩ :=
        acceptRecord_spec h.providers.keys_nodup record.peer_id record.subnet_ids R s
      unfold providersOfSubnet at hnodup ⊢
      rw [hafter, hadded, hq, mem_removed_iff h.providers.keys_nodup]
      by_cases hs : s ∈ record.subnet_ids
      · simp only [hs, not_true_eq_false, if_false, and_true, or_true, true_and, false_and,
          false_or]
      · have hout := hnodup.not_mem_erase (a := record.peer_id)
        -- the peer is not in the erased list: it left the subnet, which is reported removed
        simp only [hs, not_false_eq_true, if_true, and_false, or_false, false_and, true_and, hout,
          and_true]
        exact ⟨Or.inl, fun hp => hp.elim id And.left⟩
    · rw [addProvider_of_not_newer self record hr hts] at hd ⊢
      rw [Option.some.injEq] at hd
      subst hd
      have hkey : record.peer_id ∈ self.providersOfSubnet s → s ∈ keys self.subnet_providers :=
        mem_keys_of_mem_getD_lookup
      -- only the timestamps changed: the peer is where it was
      show (s ∈ [] ↔ _ ∧ record.peer_id ∈ self.providersOfSubnet s) ∧
        (_ ∧ record.peer_id ∉ self.providersOfSubnet s ↔
          s ∈ [] ∨ (_ ∧ s ∉ keys self.subnet_providers))
      simp only [List.not_mem_nil, false_or]
      tauto

/-- A peer that moves from subnet 1 to subnet 2, with nothing to prune: subnet 2 is reported added,
and subnet 1, which the peer left, removed. -/
theorem addProvider_delta_move :
    let self : SubnetProviderCache Nat Nat :=
      (new 10 []).run [.setRoutable 1, .addProvider ⟨1, [1], 1⟩]
    let record : ProviderRecord Nat Nat := ⟨1, [2], 2⟩
    let d : ProviderDelta Nat := ⟨false, [2], [1]⟩
    self.Wf ∧ (self.addProvider record).2 = some d ∧
      (1 ∈ d.added ↔ record.peer_id ∉ self.providersOfSubnet 1 ∧
        record.peer_id ∈ (self.addProvider record).1.providersOfSubnet 1) ∧
      (record.peer_id ∈ self.providersOfSubnet 1 ∧
          record.peer_id ∉ (self.addProvider record).1.providersOfSubnet 1 ↔
        1 ∈ d.removed ∨ (record.peer_id ∈ self.providersOfSubnet 1 ∧
          1 ∉ keys (self.addProvider record).1.subnet_providers)) := by
  intro self record d
  have hwf : self.Wf := wf_run _ (wf_new 10 [])
  have hd : (self.addProvider record).2 = some d := by decide
  exact ⟨hwf, hd, addProvider_delta hwf record hd 1⟩

/-- Three runs against the latest-record reference. A record of timestamp zero is never accepted.
A peer marked unroutable and routable again has lost the subnets of its newest record, and then
an older record is accepted. And a prune that drops a subnet the peer stays in leaves it out of
the delta: `p` keeps subnet 1 in its new record, the prune drops subnet 1, before subnet 3 of the
same size in iteration order, and the delta lists no removal. -/
theorem subnetProviderCache_off_reference :
    let zero : SubnetProviderCache Nat Nat :=
      (new 10 []).run [.setRoutable 1, .addProvider ⟨1, [10], 0⟩]
    let again : SubnetProviderCache Nat Nat :=
      (new 10 []).run [.setRoutable 1, .addProvider ⟨1, [10], 5⟩, .setUnroutable 1,
        .setRoutable 1, .addProvider ⟨1, [20], 3⟩]
    let before : SubnetProviderCache Nat Nat :=
      (new 2 []).run [.setRoutable 2, .addProvider ⟨2, [2], 1⟩, .setRoutable 3,
        .addProvider ⟨3, [2], 1⟩, .setRoutable 1, .addProvider ⟨1, [1], 1⟩]
    zero.providersOfSubnet 10 = [] ∧
      again.providersOfSubnet 10 = [] ∧ again.providersOfSubnet 20 = [1] ∧
      before.providersOfSubnet 1 = [1] ∧
      (before.addProvider ⟨1, [1, 3], 2⟩).2 = some ⟨false, [3], []⟩ ∧
      (before.addProvider ⟨1, [1, 3], 2⟩).1.providersOfSubnet 1 = [] := by
  intro zero again before
  have hbefore : before = ⟨2, [], [2, 3, 1], [(2, [2, 3]), (1, [1])], [(2, 1), (3, 1), (1, 1)]⟩ := by
    decide
  -- the last call prunes, and `mergeSort` is evaluated by its equations rather than by `decide`
  refine ⟨by decide, by decide, by decide, by rw [hbefore]; decide, ?_, ?_⟩ <;>
  · rw [hbefore]
    simp +decide [addProvider, pruneSubnets, List.mergeSort, entryOrDefault, AssocList.modify,
      addLoop, pruneLoop, removeKey, hasTimestamp, providersOfSubnet]

end SubnetProviderCache

end Delorean.Resolver
