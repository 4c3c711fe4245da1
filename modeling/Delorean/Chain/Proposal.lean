import Delorean.Chain.Interpreter
import Delorean.Topdown.Finality
import Delorean.Topdown.Voting

/-!
# The chain interpreter's proposals

`ChainMessageInterpreter::prepare` adds the validator-only messages to a proposal: a top-down
finality, the lower of the finality provider's proposal and the vote tally's quorum, and a
bottom-up checkpoint for every item the resolution pool has resolved. `process` judges them
against the same pool and provider.

The three components live in the node's `ChainEnv` and change outside the interpreter: the
syncer feeds the provider and the tally the parent chain block by block, in one transaction;
executing a finality commits it to both; gossip adds votes and the pool resolves checkpoints.
`ChainEnv.Step` is that system, and `ChainEnv.Synced` its invariant: while the provider caches
blocks, every block the tally holds above its finalized height is in the cache with the same
hash. The tally's quorum therefore passes the provider's check, as the provider's own proposal
does (`FinalityWithNull.nextProposal_spec`), and every message `prepare` adds is one `process`
accepts (`acceptsMessage_of_prepare`).
-/

namespace Delorean.Chain

open Delorean.Topdown Delorean.Topdown.Voting

/-! ## The checkpoint resolution pool -/

/-- `ResolveStatus`: whether the content was resolved, whether to ask the node's own subnet for
it, and the items that resolve to it. -/
structure ResolveStatus (T : Type) where
  is_resolved : Bool
  use_own_subnet : Bool
  items : List T

/-- `ResolvePool`: the statuses by `ResolveKey`. Every item sits under its own key, which is how
`add` files it. The queue of resolution tasks is not modelled: a task completing is a step of its
own (`setResolved`). -/
structure ResolvePool (Key T : Type) [DecidableEq Key] (key : T → Key) where
  items : AList fun _ : Key => ResolveStatus T
  keyed : ∀ k status, items.lookup k = some status → ∀ t ∈ status.items, key t = k

namespace ResolvePool

variable {Key T : Type} [DecidableEq Key] {key : T → Key}

/-- `ResolvePool::new`. -/
def new : ResolvePool Key T key := ⟨∅, fun _ _ h => by simp at h⟩

/-- A status whose items all have its key can be filed under it. -/
theorem keyed_insert (pool : ResolvePool Key T key) (k : Key) (status : ResolveStatus T)
    (hk : ∀ t ∈ status.items, key t = k) :
    ∀ k' status', (pool.items.insert k status).lookup k' = some status' →
      ∀ t ∈ status'.items, key t = k' := by
  intro k' status' h t ht
  by_cases hkk : k' = k
  · subst hkk
    rw [AList.lookup_insert, Option.some.injEq] at h
    subst h
    exact hk t ht
  · rw [AList.lookup_insert_ne hkk] at h
    exact pool.keyed k' status' h t ht

variable [DecidableEq T]

/-- `add`: file the item under its key, in a new unresolved status if the key is new. -/
def add (pool : ResolvePool Key T key) (item : T) (use_own_subnet : Bool) :
    ResolvePool Key T key :=
  match h : pool.items.lookup (key item) with
  | some status =>
    ⟨pool.items.insert (key item)
      { status with use_own_subnet := status.use_own_subnet || use_own_subnet
                    items := status.items.insert item },
      pool.keyed_insert _ _ fun t ht => by
        rcases List.mem_insert_iff.mp ht with rfl | ht
        · rfl
        · exact pool.keyed _ status h t ht⟩
  | none =>
    ⟨pool.items.insert (key item) ⟨false, use_own_subnet, [item]⟩,
      pool.keyed_insert _ _ fun t ht => by
        rw [List.mem_singleton.mp ht]⟩

/-- `ResolveTask::set_resolved`: the content under `k` was resolved. -/
def setResolved (pool : ResolvePool Key T key) (k : Key) : ResolvePool Key T key :=
  match h : pool.items.lookup k with
  | some status =>
    ⟨pool.items.insert k { status with is_resolved := true }, pool.keyed_insert _ _ (pool.keyed k status h)⟩
  | none => pool

/-- `get_status`: the status filed under the item's key. -/
def getStatus (pool : ResolvePool Key T key) (item : T) : Option (ResolveStatus T) :=
  pool.items.lookup (key item)

/-- `collect_resolved`: the items of every resolved status. -/
def collectResolved (pool : ResolvePool Key T key) : List T :=
  pool.items.entries.flatMap fun e => if e.2.is_resolved then e.2.items else []

omit [DecidableEq T] in
/-- An item `collect_resolved` returns has a resolved status. -/
theorem getStatus_of_mem_collectResolved {pool : ResolvePool Key T key} {item : T}
    (h : item ∈ pool.collectResolved) :
    ∃ status, pool.getStatus item = some status ∧ status.is_resolved = true := by
  obtain ⟨e, he, hitem⟩ := List.mem_flatMap.mp h
  obtain ⟨k, status⟩ := e
  by_cases hres : status.is_resolved = true
  · rw [if_pos hres] at hitem
    -- The item is filed under its own key, so looking it up finds this status.
    have hlookup : pool.items.lookup k = some status := AList.mem_lookup_iff.mpr he
    have hkey : key item = k := pool.keyed k status hlookup item hitem
    exact ⟨status, by rw [getStatus, hkey, hlookup], hres⟩
  · rw [if_neg hres] at hitem
    simp at hitem

end ResolvePool

/-! ## Preparing and processing a proposal -/

/-- `ChainEnv`: the resolution pool of bottom-up checkpoints, the parent finality provider and
the vote tally. The pool's items are the checkpoints themselves: `CheckpointPoolItem` has the one
variant `BottomUp`. -/
structure ChainEnv (K Key T : Type) [DecidableEq Key] (key : T → Key) where
  checkpoint_pool : ResolvePool Key T key
  parent_finality_provider : FinalityWithNull
  parent_finality_votes : VoteTally K BlockHash

/-- The finality `prepare` proposes: the lower of the provider's proposal and the tally's quorum,
and none unless there are both. -/
def chooseFinality (parent : Option IPCParentFinality) (quorum : Option (Nat × BlockHash)) :
    Option IPCParentFinality :=
  match parent, quorum with
  | some parent, some (height, block_hash) =>
    some (if parent.height ≤ height then parent else ⟨height, block_hash⟩)
  | _, _ => none

section Interpreter

variable {K Key T Signed Relayed : Type} [DecidableEq K] [DecidableEq Key] {key : T → Key}

/-- `ChainMessageInterpreter::prepare`: the user messages, then the chosen finality, then the
resolved checkpoints. Votes are paused before the quorum is looked for, and `find_quorum`
unpauses them. The provider's panics stop the node, as the source's `unwrap` and `unreachable!`
do. -/
def prepare (state : ChainEnv K Key T key) (msgs : List (ChainMessage Signed Relayed T)) :
    Except String (ChainEnv K Key T key × List (ChainMessage Signed Relayed T)) := do
  let ckpts := state.checkpoint_pool.collectResolved
  let votes := state.parent_finality_votes.pauseVotesUntilFindQuorum
  let parent ← state.parent_finality_provider.nextProposal
  let found := votes.findQuorum
  let finality := chooseFinality parent found.2
  pure ({ state with parent_finality_votes := found.1 },
    msgs ++ (finality.map fun f => .Ipc (.TopDownExec ⟨f.height, f.block_hash⟩)).toList ++
      ckpts.map fun ckpt => .Ipc (.BottomUpExec ckpt))

/-- What `process` reads of the environment: a checkpoint's status in the pool, and the
provider's `check_proposal`. -/
def processEnv (state : ChainEnv K Key T key) : ProcessEnv T :=
  ⟨fun item =>
    match state.checkpoint_pool.getStatus item with
    | none => false
    | some status => status.is_resolved,
   fun p => state.parent_finality_provider.checkProposal ⟨p.height, p.block_hash⟩⟩

end Interpreter

/-- The validator-only messages: the ones `check` refuses from users. -/
def ChainMessage.isExec {Signed Relayed Certified : Type} :
    ChainMessage Signed Relayed Certified → Bool
  | .Ipc (.BottomUpExec _) | .Ipc (.TopDownExec _) => true
  | _ => false

/-- `process` accepts a message that is not validator-only whatever the environment. -/
theorem acceptsMessage_of_not_isExec {Signed Relayed Certified : Type}
    {m : ChainMessage Signed Relayed Certified} (h : m.isExec = false) (env : ProcessEnv Certified) :
    acceptsMessage env m = true := by
  cases m with
  | Ipc msg => cases msg <;> simp_all [ChainMessage.isExec, acceptsMessage]
  | Signed _ => rfl
  | Cetf _ => rfl

theorem isExec_eq_true_iff {Signed Relayed Certified : Type}
    {m : ChainMessage Signed Relayed Certified} :
    m.isExec = true ↔ (∃ c, m = .Ipc (.BottomUpExec c)) ∨ ∃ p, m = .Ipc (.TopDownExec p) := by
  cases m with
  | Ipc msg => cases msg <;> simp [ChainMessage.isExec]
  | Signed _ => simp [ChainMessage.isExec]
  | Cetf _ => simp [ChainMessage.isExec]

/-- A message `check` lets through is not validator-only: those are the ones it refuses as
illegal. -/
theorem not_isExec_of_check {σ Signed Relayed Certified Synthetic Address CheckRes : Type}
    {inner_check : σ → VerifiableMessage Signed Synthetic Address → Bool →
      Except String (σ × CheckRes)}
    {relayed_bottom_up_ckpt_to_fvm : Relayed → Except String Synthetic} {state state' : σ}
    {msg : ChainMessage Signed Relayed Certified} {is_recheck : Bool} {ret : CheckRes}
    (h : check inner_check relayed_bottom_up_ckpt_to_fvm state msg is_recheck =
      .ok (state', .ok ret)) : msg.isExec = false := by
  rw [← Bool.not_eq_true]
  intro hexec
  have hrefused : ∃ state'', check inner_check relayed_bottom_up_ckpt_to_fvm state msg is_recheck =
      .ok (state'', .error ⟨⟩) := check_eq_illegal_iff.2 (isExec_eq_true_iff.1 hexec)
  obtain ⟨state'', hrefused⟩ := hrefused
  -- `check` answered `Ok` for the message, not `IllegalMessage`
  rw [h, Except.ok.injEq, Prod.mk.injEq] at hrefused
  exact absurd hrefused.2 (by simp)

/-! ## The node's components over time -/

namespace ChainEnv

variable {K Key T : Type} [DecidableEq Key] {key : T → Key}

/-- The provider and the tally agree. The tally's finalized height is not below the provider's
committed one; and while the provider caches blocks, the two heights are equal and every block
of the tally above it is in the cache, with the same hash. -/
structure Synced (state : ChainEnv K Key T key) : Prop where
  committed : ∃ f, state.parent_finality_provider.last_committed_finality = some f ∧
    f.height ≤ state.parent_finality_votes.lastFinalizedHeight
  cached : state.parent_finality_provider.cached_data.data ≠ [] →
    (∃ f, state.parent_finality_provider.last_committed_finality = some f ∧
      f.height = state.parent_finality_votes.lastFinalizedHeight) ∧
    ∀ h block_hash, state.parent_finality_votes.lastFinalizedHeight < h →
      state.parent_finality_votes.chain.get? h = some (some block_hash) →
      ∃ payload, (h, some payload) ∈ state.parent_finality_provider.cached_data.data ∧
        payload.block_hash = block_hash

/-- A step that leaves the provider and the tally's chain as they were keeps the agreement. -/
theorem Synced.of_chain_eq {state state' : ChainEnv K Key T key} (hs : Synced state)
    (hprovider : state'.parent_finality_provider = state.parent_finality_provider)
    (hchain : state'.parent_finality_votes.chain = state.parent_finality_votes.chain) :
    Synced state' := by
  have hfin : state'.parent_finality_votes.lastFinalizedHeight =
      state.parent_finality_votes.lastFinalizedHeight := by
    simp only [VoteTally.lastFinalizedHeight, hchain]
  obtain ⟨hcommitted, hcached⟩ := hs
  refine ⟨by rw [hprovider, hfin]; exact hcommitted, fun hne => ?_⟩
  rw [hprovider] at hne ⊢
  rw [hfin, hchain]
  exact hcached hne

/-- The syncer's report keeps the agreement. Before it, the tally's blocks above its finalized
height are all cached: either the cache held blocks and agreed, or it was empty, the report is
for the height after the committed one, and so the tally ended at that height too. The new block
goes to both. -/
theorem Synced.sync {state : ChainEnv K Key T key} {latest height : Nat}
    {maybe_payload : Option ParentViewPayload} {provider : FinalityWithNull}
    {votes : VoteTally K BlockHash} (hs : Synced state)
    (hlatest : state.parent_finality_provider.latestHeight = some latest)
    (hheight : height = latest + 1)
    (hprovider : state.parent_finality_provider.newParentView height maybe_payload = .ok provider)
    (hvotes : state.parent_finality_votes.addBlock height
      (maybe_payload.map ParentViewPayload.block_hash) = .ok votes) :
    Synced { state with parent_finality_provider := provider, parent_finality_votes := votes } := by
  obtain ⟨hlast, happ⟩ := FinalityWithNull.newParentView_eq_ok hprovider
  obtain ⟨hdata, -⟩ := SequentialKeyCache.append_eq_ok happ
  have hfin := VoteTally.lastFinalizedHeight_addBlock hvotes
  obtain ⟨top, v, hmax, htop, rfl⟩ := VoteTally.addBlock_eq_ok hvotes
  obtain ⟨f, hf, hle⟩ := hs.committed
  have hfin_top := VoteTally.lastFinalizedHeight_le_of_getMax? hmax
  -- The tally's finalized height is the committed one, and its blocks above it are cached.
  have hbefore : (∃ f', state.parent_finality_provider.last_committed_finality = some f' ∧
        f'.height = state.parent_finality_votes.lastFinalizedHeight) ∧
      ∀ h block_hash, state.parent_finality_votes.lastFinalizedHeight < h →
        state.parent_finality_votes.chain.get? h = some (some block_hash) →
        ∃ payload, (h, some payload) ∈ state.parent_finality_provider.cached_data.data ∧
          payload.block_hash = block_hash := by
    by_cases hne : state.parent_finality_provider.cached_data.data = []
    · have hlatest' : latest = f.height := by
        simp [FinalityWithNull.latestHeight, FinalityWithNull.latestHeightInCache,
          SequentialKeyCache.upperBound, hne, hf] at hlatest
        omega
      refine ⟨⟨f, hf, by omega⟩, fun h block_hash hlt hget => ?_⟩
      rw [VoteTally.chain_get?_eq_none_of_getMax? hmax (by omega)] at hget
      cases hget
    · exact hs.cached hne
  obtain ⟨hsame, hagree⟩ := hbefore
  refine ⟨⟨f, hlast.trans hf, hfin ▸ hle⟩, fun _ => ⟨?_, ?_⟩⟩
  · obtain ⟨f', hf', hf'eq⟩ := hsame
    exact ⟨f', hlast.trans hf', hfin ▸ hf'eq⟩
  · intro h block_hash hlt hget
    simp only at hlt hget ⊢
    rw [hfin] at hlt
    simp only [hdata, List.mem_append]
    rw [OrdMap.get?_insert] at hget
    by_cases hh : height = h
    · -- The reported block is cached and in the tally with the same hash.
      subst hh
      rw [if_pos rfl, Option.some.injEq] at hget
      cases hp : maybe_payload with
      | none => simp [hp] at hget
      | some payload =>
        rw [hp, Option.map_some, Option.some.injEq] at hget
        exact ⟨payload, .inr (by simp [htop]), hget⟩
    · rw [if_neg hh] at hget
      obtain ⟨payload, hmem, hhash⟩ := hagree h block_hash hlt hget
      exact ⟨payload, .inl hmem, hhash⟩

/-- Committing a finality prunes the cache below it and the tally's chain up to it, so what stays
of the tally above it is still cached. -/
theorem Synced.commit {state : ChainEnv K Key T key} (hs : Synced state)
    (finality : IPCParentFinality) (previous_finality : Option IPCParentFinality)
    (hfinality : state.parent_finality_votes.lastFinalizedHeight ≤ finality.height) :
    Synced
      { state with
        parent_finality_provider :=
          state.parent_finality_provider.setNewFinality finality previous_finality
        parent_finality_votes :=
          state.parent_finality_votes.setFinalized finality.height finality.block_hash } := by
  have hfin := VoteTally.lastFinalizedHeight_setFinalized state.parent_finality_votes
    finality.height finality.block_hash
  refine ⟨⟨finality, rfl, hfin.ge⟩, fun hne => ⟨⟨finality, rfl, hfin.symm⟩, ?_⟩⟩
  have hne' := SequentialKeyCache.data_ne_nil_of_removeKeyBelow hne
  intro h block_hash hlt hget
  simp only at hlt hget ⊢
  rw [hfin] at hlt
  rw [VoteTally.chain_get?_setFinalized_of_lt _ _ hlt] at hget
  obtain ⟨payload, hmem, hhash⟩ := (hs.cached hne').2 h block_hash (by omega) hget
  exact ⟨payload, SequentialKeyCache.mem_removeKeyBelow hmem hlt.le, hhash⟩

/-- A reset empties the cache, with a committed height at most the tally's. -/
theorem Synced.reset {state : ChainEnv K Key T key} (finality : IPCParentFinality)
    (hfinality : finality.height ≤ state.parent_finality_votes.lastFinalizedHeight) :
    Synced { state with parent_finality_provider := state.parent_finality_provider.reset finality } :=
  ⟨⟨finality, rfl, hfinality⟩, fun hne => absurd rfl hne⟩

variable [DecidableEq K]

/-- The node after the syncer's launch: the provider and the tally hold the finality committed
in the ledger, the tally holds the power table, and the pool is empty. -/
def Initial (config : Config) (genesis_epoch : Nat) (state : ChainEnv K Key T key) : Prop :=
  ∃ f power_table, state.parent_finality_provider = .new config genesis_epoch (some f) ∧
    state.parent_finality_votes = .new power_table (f.height, f.block_hash) ∧
    state.checkpoint_pool = .new

theorem synced_initial {config : Config} {genesis_epoch : Nat} {state : ChainEnv K Key T key}
    (h : Initial config genesis_epoch state) : Synced state := by
  obtain ⟨f, power_table, hprovider, hvotes, -⟩ := h
  have hfin : state.parent_finality_votes.lastFinalizedHeight = f.height := by
    rw [hvotes]
    rfl
  refine ⟨⟨f, by rw [hprovider]; rfl, hfin.ge⟩, fun hne => ?_⟩
  rw [hprovider] at hne
  exact absurd rfl hne

variable [DecidableEq T]

/-- What happens to the components between proposals, one transaction at a time. -/
inductive Step : ChainEnv K Key T key → ChainEnv K Key T key → Prop where
  /-- The syncer reports the block after the provider's latest height to the provider and to the
  tally, in one transaction that takes place only if both accept it. -/
  | sync {state : ChainEnv K Key T key} {latest height : Nat}
      {maybe_payload : Option ParentViewPayload} {provider : FinalityWithNull}
      {votes : VoteTally K BlockHash}
      (hlatest : state.parent_finality_provider.latestHeight = some latest)
      (hheight : height = latest + 1)
      (hprovider : state.parent_finality_provider.newParentView height maybe_payload = .ok provider)
      (hvotes : state.parent_finality_votes.addBlock height
        (maybe_payload.map ParentViewPayload.block_hash) = .ok votes) :
      Step state { state with parent_finality_provider := provider, parent_finality_votes := votes }
  /-- The syncer clears the provider after a reorg, with the finality committed in the ledger,
  which is never above the one executed last. -/
  | reset (state : ChainEnv K Key T key) (finality : IPCParentFinality)
      (hfinality : finality.height ≤ state.parent_finality_votes.lastFinalizedHeight) :
      Step state
        { state with parent_finality_provider := state.parent_finality_provider.reset finality }
  /-- A top-down finality is executed and committed to the provider and the tally in one
  transaction; the gateway refuses a finality below the last one. -/
  | commit (state : ChainEnv K Key T key) (finality : IPCParentFinality)
      (previous_finality : Option IPCParentFinality)
      (hfinality : state.parent_finality_votes.lastFinalizedHeight ≤ finality.height) :
      Step state
        { state with
          parent_finality_provider :=
            state.parent_finality_provider.setNewFinality finality previous_finality
          parent_finality_votes :=
            state.parent_finality_votes.setFinalized finality.height finality.block_hash }
  /-- A gossiped vote is recorded. -/
  | add_vote {state : ChainEnv K Key T key} {votes : VoteTally K BlockHash} (validator_key : K)
      (height : Nat) (block_hash : BlockHash) (added : Bool)
      (h : state.parent_finality_votes.addVote validator_key height block_hash =
        .commit votes added) :
      Step state { state with parent_finality_votes := votes }
  /-- A proposal is prepared: votes are paused and a quorum looked for. -/
  | find_quorum (state : ChainEnv K Key T key) :
      Step state
        { state with
          parent_finality_votes :=
            state.parent_finality_votes.pauseVotesUntilFindQuorum.findQuorum.1 }
  /-- The end of a block changes the power table. -/
  | update_power_table (state : ChainEnv K Key T key) (power_updates : List (K × Nat)) :
      Step state
        { state with
          parent_finality_votes := state.parent_finality_votes.updatePowerTable power_updates }
  /-- A relayed checkpoint is added to the pool. -/
  | add_checkpoint (state : ChainEnv K Key T key) (item : T) (use_own_subnet : Bool) :
      Step state { state with checkpoint_pool := state.checkpoint_pool.add item use_own_subnet }
  /-- The content under a key is resolved. -/
  | resolve (state : ChainEnv K Key T key) (k : Key) :
      Step state { state with checkpoint_pool := state.checkpoint_pool.setResolved k }

theorem synced_step {state state' : ChainEnv K Key T key} (hs : Synced state)
    (hstep : Step state state') : Synced state' := by
  cases hstep with
  | sync hlatest hheight hprovider hvotes => exact hs.sync hlatest hheight hprovider hvotes
  | reset finality hfinality => exact Synced.reset finality hfinality
  | commit finality previous_finality hfinality => exact hs.commit finality previous_finality hfinality
  | add_vote validator_key height block_hash added h =>
    exact hs.of_chain_eq rfl (VoteTally.chain_addVote h)
  | find_quorum => exact hs.of_chain_eq rfl (by rw [VoteTally.findQuorum_fst]; rfl)
  | update_power_table power_updates =>
    exact hs.of_chain_eq rfl (VoteTally.chain_updatePowerTable _ _)
  | add_checkpoint item use_own_subnet => exact hs.of_chain_eq rfl rfl
  | resolve k => exact hs.of_chain_eq rfl rfl

theorem synced_of_reachable {config : Config} {genesis_epoch : Nat} {state : ChainEnv K Key T key}
    (hr : Reachable (Initial config genesis_epoch) Step state) : Synced state := by
  refine Reachable.invariant ?_ ?_ hr
  · intro s₀ h₀
    exact synced_initial h₀
  · intro s₁ s₂ hs hstep
    exact synced_step hs hstep

/-- The provider on its own runs as `FinalityWithNull.Step` allows: the node's steps are the
provider's steps or leave it alone. A report is above the committed height because the tally,
which is not below it, accepts only the height after its last. -/
theorem reachable_provider {config : Config} {genesis_epoch : Nat}
    {state : ChainEnv K Key T key} (hr : Reachable (Initial config genesis_epoch) Step state) :
    Reachable (FinalityWithNull.Initial config genesis_epoch) FinalityWithNull.Step
      state.parent_finality_provider := by
  -- the provider's own reachability is the invariant; a step reads `Synced`, which holds of
  -- every reachable state
  refine Reachable.invariant_of_reachable
    (I := fun s => Reachable (FinalityWithNull.Initial config genesis_epoch) FinalityWithNull.Step
      s.parent_finality_provider) (fun _ hs => synced_of_reachable hs) ?_ ?_ hr
  · rintro s₀ ⟨f, power_table, hprovider, -, -⟩
    exact .of_init ⟨f, hprovider⟩
  · intro s₁ s₂ hs hr₁ hstep
    cases hstep with
    | sync hlatest hheight hprovider hvotes =>
      obtain ⟨top, v, hmax, htop, -⟩ := VoteTally.addBlock_eq_ok hvotes
      have hfin_top := VoteTally.lastFinalizedHeight_le_of_getMax? hmax
      obtain ⟨f, hf, hle⟩ := hs.committed
      refine hr₁.tail (.new_parent_view (fun f' hf' => ?_) hprovider)
      rw [hf] at hf'
      cases hf'
      omega
    | reset finality _ => exact hr₁.tail (.reset _ finality)
    | commit finality previous_finality _ =>
      exact hr₁.tail (.set_new_finality _ finality previous_finality)
    | add_vote => exact hr₁
    | find_quorum => exact hr₁
    | update_power_table => exact hr₁
    | add_checkpoint => exact hr₁
    | resolve => exact hr₁

end ChainEnv

/-! ## What `prepare` proposes, `process` accepts -/

section Accept

variable {K Key T : Type} [DecidableEq K] [DecidableEq Key] [DecidableEq T] {key : T → Key}
  {config : Config} {genesis_epoch : Nat}

/-- A quorum of the node's tally passes the provider's check when the cache reaches it: the
tally's blocks above its finalized height are cached with their hashes, and the cache's keys
count up, so the provider finds the block at the quorum's height. -/
theorem checkProposal_of_findQuorum {state : ChainEnv K Key T key}
    (hr : Reachable (ChainEnv.Initial config genesis_epoch) ChainEnv.Step state)
    {height latest : Nat} {block_hash : BlockHash}
    (hq : state.parent_finality_votes.pauseVotesUntilFindQuorum.findQuorum.2 =
      some (height, block_hash))
    (hlatest : state.parent_finality_provider.latestHeightInCache = some latest)
    (hle : height ≤ latest) :
    state.parent_finality_provider.checkProposal ⟨height, block_hash⟩ = true := by
  have hcons := FinalityWithNull.consecutive_of_reachable (ChainEnv.reachable_provider hr)
  -- Pausing votes leaves the chain, so the quorum is a block of the node's tally.
  obtain ⟨hlt, -, hget⟩ := VoteTally.findQuorum_mem_chain hq
  have hne : state.parent_finality_provider.cached_data.data ≠ [] := by
    intro hnil
    simp [FinalityWithNull.latestHeightInCache, SequentialKeyCache.upperBound, hnil] at hlatest
  obtain ⟨⟨f, hf, hfeq⟩, hagree⟩ := (ChainEnv.synced_of_reachable hr).cached hne
  obtain ⟨payload, hmem, hhash⟩ := hagree height block_hash hlt hget
  have hvalue := SequentialKeyCache.getValue_of_mem hcons hmem
  have habove : f.height < height := hfeq ▸ hlt
  have hheight : state.parent_finality_provider.checkHeight ⟨height, block_hash⟩ = true := by
    simp [FinalityWithNull.checkHeight, hf, not_le.mpr habove, hlatest, hle]
  have hblock : state.parent_finality_provider.checkBlockHash ⟨height, block_hash⟩ = true := by
    simp [FinalityWithNull.checkBlockHash, FinalityWithNull.blockHashAtHeight, hf, habove.ne,
      FinalityWithNull.getAtHeight, hvalue, hhash]
  simp [FinalityWithNull.checkProposal, hheight, hblock]

/-- In every state the node reaches, the finality `prepare` chooses passes the provider's
`check_proposal`. The provider's own proposal does; a lower quorum of the tally is below the top
of the cache, which the provider's proposal does not exceed. -/
theorem checkProposal_chooseFinality {state : ChainEnv K Key T key}
    (hr : Reachable (ChainEnv.Initial config genesis_epoch) ChainEnv.Step state)
    {parent : Option IPCParentFinality} {f : IPCParentFinality}
    (hparent : state.parent_finality_provider.nextProposal = .ok parent)
    (hf : chooseFinality parent state.parent_finality_votes.pauseVotesUntilFindQuorum.findQuorum.2 =
      some f) :
    state.parent_finality_provider.checkProposal f = true := by
  have hcache := FinalityWithNull.cacheAboveCommitted_of_reachable (ChainEnv.reachable_provider hr)
  -- `chooseFinality` proposes only when there are both a proposal and a quorum.
  cases parent with
  | none => cases hf
  | some p =>
    cases hq : state.parent_finality_votes.pauseVotesUntilFindQuorum.findQuorum.2 with
    | none => rw [hq] at hf; cases hf
    | some quorum =>
      obtain ⟨height, block_hash⟩ := quorum
      rw [hq] at hf
      obtain ⟨hcheck, -, ⟨latest, hlatest, hp⟩, -⟩ :=
        FinalityWithNull.nextProposal_spec hcache hparent
      by_cases hle : p.height ≤ height
      · simp only [chooseFinality, if_pos hle, Option.some.injEq] at hf
        exact hf ▸ hcheck
      · simp only [chooseFinality, if_neg hle, Option.some.injEq] at hf
        subst hf
        exact checkProposal_of_findQuorum hr hq hlatest (by omega)

variable {Signed Relayed : Type}

/-- Every message `prepare` adds to the user messages is one that `process` accepts on the node's
state after it: the finality passes the provider's check, and the checkpoints are resolved. -/
theorem acceptsMessage_of_prepare {state state' : ChainEnv K Key T key}
    (hr : Reachable (ChainEnv.Initial config genesis_epoch) ChainEnv.Step state)
    {msgs out : List (ChainMessage Signed Relayed T)} (hprep : prepare state msgs = .ok (state', out))
    {m : ChainMessage Signed Relayed T} (hm : m ∈ out) :
    m ∈ msgs ∨ acceptsMessage (processEnv state') m = true := by
  simp only [prepare, Except.bind_eq_ok, Except.pure_eq_ok, Except.ok.injEq, Prod.mk.injEq] at hprep
  obtain ⟨parent, hparent, rfl, rfl⟩ := hprep
  simp only [List.mem_append, List.mem_map] at hm
  rcases hm with (hm | hm) | ⟨ckpt, hckpt, rfl⟩
  · exact .inl hm
  · -- The finality, if `chooseFinality` gave one.
    cases hchoose : chooseFinality parent
        state.parent_finality_votes.pauseVotesUntilFindQuorum.findQuorum.2 with
    | none => simp [hchoose] at hm
    | some f =>
      simp only [hchoose, Option.map_some, Option.toList_some, List.mem_singleton] at hm
      subst hm
      exact .inr (checkProposal_chooseFinality hr hparent hchoose)
  · obtain ⟨status, hstatus, hres⟩ := ResolvePool.getStatus_of_mem_collectResolved hckpt
    right
    simp [acceptsMessage, processEnv, hstatus, hres]

end Accept

end Delorean.Chain
