import Delorean.Topdown.Finality
import Delorean.Topdown.Voting

/-!
# The parent syncer

`LotusParentSyncer` of `fendermint/vm/topdown/src/sync/syncer.rs` polls the parent chain and
feeds each block it finds, above the provider's latest height, to both the finality provider and
the vote tally, in one STM transaction per block: the transaction commits only if both accept the
block. When the parent's head goes below the heights already fetched, or a block's parent hash is
not the hash last fetched, the syncer takes it for a reorg and resets; the reset clears the
provider's cache down to the finality committed in the ledger, and leaves the tally alone.

The tally then still holds the blocks that the provider has dropped. Its `add_block` accepts only
the height after its own last one, while the syncer asks for the one after the provider's, so
every later block is refused, the transaction aborts, and the provider's cache stays empty: once a
reset leaves the tally above the provider, no later `sync` appends anything
(`syncs_stalled`). The run `sync_reset_stalls` reaches that state from the syncer's launch.

The parent chain is the `ParentQueryProxy` a call of `sync` sees: what it answers about the chain
head and each height. The ledger's committed finality is the value the source's query returns
once the ledger is ready; its retries are not modelled. A panic of the source (`unreachable!`)
ends the call with its message, as the proxy's errors do.
-/

namespace Delorean.Topdown

/-- `GetBlockHashResult`: a parent block's hash and its parent's. -/
structure GetBlockHashResult where
  /-- The hash of the block's parent. -/
  parent_block_hash : BlockHash
  /-- The block's hash. -/
  block_hash : BlockHash
  deriving DecidableEq, Repr

/-- `TopDownQueryPayload`: a query's value with the hash of the block it was read at. -/
structure TopDownQueryPayload (T : Type) where
  /-- The value. -/
  value : T
  /-- The block the value was read at. -/
  block_hash : BlockHash
  deriving DecidableEq, Repr

/-- The parent chain as `ParentQueryProxy` shows it to one call of the syncer; an error is the
proxy's message. -/
structure ParentQueryProxy where
  /-- The height of the parent's chain head. -/
  get_chain_head_height : Except String Nat
  /-- The parent height at which the subnet was created. -/
  get_genesis_epoch : Except String Nat
  /-- The hashes of the block at a height and of its parent. -/
  get_block_hash : Nat → Except String GetBlockHashResult
  /-- The staking changes at a height. -/
  get_validator_changes : Nat → Except String (TopDownQueryPayload (List StakingChangeRequest))
  /-- The top-down messages at a height. -/
  get_top_down_msgs : Nat → Except String (TopDownQueryPayload (List IpcEnvelope))

/-- `NULL_ROUND_ERR_MSG`. -/
def nullRoundErrMsg : String := "requested epoch was a null round"

/-- `is_null_round_str`: the message contains `NULL_ROUND_ERR_MSG`. -/
def isNullRoundStr (s : String) : Bool := decide (nullRoundErrMsg.toList <:+: s.toList)

/-- `DEFAULT_MAX_CACHE_BLOCK`. -/
def defaultMaxCacheBlock : Nat := 500

/-- The fields of the topdown `Config` that the syncer reads. -/
structure SyncConfig where
  /-- How many blocks below the parent's head are taken as final. -/
  chain_head_delay : Nat
  /-- How many blocks the cache may hold; `None` is the default. -/
  max_cache_blocks : Option Nat
  deriving DecidableEq, Repr

/-- `Config::max_cache_blocks`. -/
def SyncConfig.maxCacheBlocks (c : SyncConfig) : Nat := c.max_cache_blocks.getD defaultMaxCacheBlock

/-- `query_starting_finality`: the finality committed in the ledger, or the parent's genesis
block when none has been committed yet. -/
def queryStartingFinality (committed : IPCParentFinality) (parent_client : ParentQueryProxy) :
    Except String IPCParentFinality :=
  if committed.height = 0 then do
    let genesis_epoch ← parent_client.get_genesis_epoch
    let r ← parent_client.get_block_hash genesis_epoch
    pure ⟨genesis_epoch, r.block_hash⟩
  else pure committed

/-- `fetch_data`: the staking changes and messages at a height, both read at the expected
block. -/
def fetchData (parent_proxy : ParentQueryProxy) (height : Nat) (block_hash : BlockHash) :
    Except Error ParentViewPayload := do
  let changes_res ← (parent_proxy.get_validator_changes height).mapError fun e =>
    .CannotQueryParent ("get_validator_changes: " ++ e) height
  let topdown_msgs_res ← (parent_proxy.get_top_down_msgs height).mapError fun e =>
    .CannotQueryParent ("get_top_down_msgs: " ++ e) height
  if changes_res.block_hash ≠ block_hash then throw .ParentChainReorgDetected
  if topdown_msgs_res.block_hash ≠ block_hash then throw .ParentChainReorgDetected
  pure ⟨block_hash, changes_res.value, topdown_msgs_res.value⟩

/-- How `sync` fails: with an error of the crate, or with a message of the proxy or of a
panic. -/
inductive SyncError where
  | topdown (e : Error)
  | anyhow (msg : String)
  deriving DecidableEq, Repr

/-- `LotusParentSyncer`: the provider and the tally it feeds. -/
structure LotusParentSyncer (K : Type) where
  /-- The syncer's part of the topdown configuration. -/
  config : SyncConfig
  /-- The finality provider. -/
  provider : FinalityWithNull
  /-- The vote tally. -/
  vote_tally : Voting.VoteTally K BlockHash
  /-- Whether one call fetches up to the chain head or one block only. -/
  sync_many : Bool

namespace LotusParentSyncer

variable {K : Type}

/-- The syncer as `launch_polling_syncer` starts it: the provider and the tally, created empty by
the node, take the starting finality, and the tally the power table. -/
def launch [DecidableEq K] (config : SyncConfig) (provider_config : Config) (genesis_epoch : Nat)
    (finality : IPCParentFinality) (power_table : List (K × Nat)) : LotusParentSyncer K :=
  ⟨config, (FinalityWithNull.new provider_config genesis_epoch none).setNewFinality finality none,
    (Voting.VoteTally.empty.setFinalized finality.height finality.block_hash).setPowerTable power_table,
    true⟩

/-- `map_voting_err`: the tally's refusal aborts the transaction with `NotSequential`. -/
def mapVotingErr (_e : Voting.Error K BlockHash) : Error := .NotSequential

/-- `exceed_cache_size_limit`. -/
def exceedCacheSizeLimit (s : LotusParentSyncer K) : Bool :=
  decide (s.config.maxCacheBlocks < s.provider.cached_data.size)

/-- The last non-null block at or below `latest_height`: from the cache, else the committed
finality. -/
def prevNonNullHeight (s : LotusParentSyncer K) (latest_height : Nat) : Option Nat :=
  match s.provider.firstNonNullBlock latest_height with
  | some height => some height
  | none => s.provider.last_committed_finality.map IPCParentFinality.height

/-- `latest_cached_data`: the provider's latest height, and the hash of the last non-null block
at or below it. -/
def latestCachedData (s : LotusParentSyncer K) : Except String (Nat × BlockHash) :=
  match s.provider.latestHeight with
  | none => .error
      "internal error: entered unreachable code: guaranteed to have latest height, report bug please"
  | some latest_height =>
    match s.prevNonNullHeight latest_height with
    | none => .error
        "internal error: entered unreachable code: guaranteed to have last committed finality, report bug please"
    | some height =>
      match s.provider.blockHashAtHeight height with
      | some hash => .ok (latest_height, hash)
      | none => .error ("internal error: entered unreachable code: guaranteed to have hash as the height " ++
          toString height ++ " is found")

/-- `finalized_chain_head`: the parent's head less the delay, if it is that high. -/
def finalizedChainHead (s : LotusParentSyncer K) (parent_proxy : ParentQueryProxy) :
    Except String (Option Nat) := do
  let parent_chain_head_height ← parent_proxy.get_chain_head_height
  if parent_chain_head_height < s.config.chain_head_delay then pure none
  else pure (some (parent_chain_head_height - s.config.chain_head_delay))

/-- The transaction of `poll_next`: the block goes to the provider and to the tally, or, if
either refuses it, to neither. -/
def addParentView (s : LotusParentSyncer K) (height : Nat)
    (maybe_payload : Option ParentViewPayload) : Except Error (LotusParentSyncer K) := do
  let provider ← s.provider.newParentView height maybe_payload
  let vote_tally ← (s.vote_tally.addBlock height (maybe_payload.map ParentViewPayload.block_hash)).mapError
    mapVotingErr
  pure { s with provider := provider, vote_tally := vote_tally }

/-- `poll_next`: fetch the block at `height` and add it, returning the hash of the last non-null
block. A null round keeps the previous hash; a block whose parent is not that hash is a reorg. -/
def pollNext (s : LotusParentSyncer K) (parent_proxy : ParentQueryProxy) (height : Nat)
    (parent_block_hash : BlockHash) : Except Error (LotusParentSyncer K × BlockHash) :=
  match parent_proxy.get_block_hash height with
  | .error e =>
    if isNullRoundStr e then do
      let s' ← s.addParentView height none
      pure (s', parent_block_hash)
    else .error (.CannotQueryParent ("get_block_hash: " ++ e) height)
  | .ok block_hash_res =>
    if block_hash_res.parent_block_hash ≠ parent_block_hash then .error .ParentChainReorgDetected
    else do
      let data ← fetchData parent_proxy height block_hash_res.block_hash
      let s' ← s.addParentView height (some data)
      pure (s', data.block_hash)

/-- `reset`: clear the provider down to the starting finality. The tally is not touched. -/
def reset (s : LotusParentSyncer K) (committed : IPCParentFinality)
    (parent_proxy : ParentQueryProxy) : Except String (LotusParentSyncer K) := do
  let finality ← queryStartingFinality committed parent_proxy
  pure { s with provider := s.provider.reset finality }

/-- A call of `sync` that ends with `reset`: with its error, or with success. -/
def resetOutcome (s : LotusParentSyncer K) (committed : IPCParentFinality)
    (parent_proxy : ParentQueryProxy) : LotusParentSyncer K × Except SyncError Unit :=
  match s.reset committed parent_proxy with
  | .ok s' => (s', .ok ())
  | .error e => (s, .error (.anyhow e))

/-- The loop of `sync` after `latest_height_fetched`, up to `chain_head`. Its fuel counts the
heights left, so that it ends where the source's loop does. -/
def syncLoop (committed : IPCParentFinality) (parent_proxy : ParentQueryProxy) (chain_head : Nat) :
    Nat → LotusParentSyncer K → Nat → BlockHash → LotusParentSyncer K × Except SyncError Unit
  | 0, s, _, _ => (s, .ok ())
  | fuel + 1, s, latest_height_fetched, first_non_null_parent_hash =>
    if s.exceedCacheSizeLimit then (s, .ok ())
    else
      match s.pollNext parent_proxy (latest_height_fetched + 1) first_non_null_parent_hash with
      | .ok (s', hash) =>
        if latest_height_fetched + 1 = chain_head then (s', .ok ())
        else if !s'.sync_many then (s', .ok ())
        else syncLoop committed parent_proxy chain_head fuel s' (latest_height_fetched + 1) hash
      -- The reorg is handled by a reset, and the call ends.
      | .error .ParentChainReorgDetected => s.resetOutcome committed parent_proxy
      | .error e => (s, .error (.topdown e))

/-- `sync`: fetch the blocks above the provider's latest height up to the parent's finalized
head, or reset if the head is below that height. A call that fails keeps the blocks it added
before the failure. -/
def sync (s : LotusParentSyncer K) (committed : IPCParentFinality)
    (parent_proxy : ParentQueryProxy) : LotusParentSyncer K × Except SyncError Unit :=
  match s.finalizedChainHead parent_proxy with
  | .error e => (s, .error (.anyhow e))
  | .ok none => (s, .ok ())
  | .ok (some chain_head) =>
    match s.latestCachedData with
    | .error e => (s, .error (.anyhow e))
    | .ok (latest_height_fetched, first_non_null_parent_hash) =>
      -- The chain head went backwards.
      if chain_head < latest_height_fetched then s.resetOutcome committed parent_proxy
      else if latest_height_fetched = chain_head then (s, .ok ())
      else
        syncLoop committed parent_proxy chain_head (chain_head - latest_height_fetched) s
          latest_height_fetched first_non_null_parent_hash

/-! ## What one call can do -/

/-- The one way the transaction commits: the provider and the tally both accept the block. -/
theorem addParentView_eq_ok {s s' : LotusParentSyncer K} {height : Nat}
    {maybe_payload : Option ParentViewPayload} (h : s.addParentView height maybe_payload = .ok s') :
    ∃ provider vote_tally, s.provider.newParentView height maybe_payload = .ok provider ∧
      s.vote_tally.addBlock height (maybe_payload.map ParentViewPayload.block_hash) = .ok vote_tally ∧
      s' = { s with provider := provider, vote_tally := vote_tally } := by
  obtain ⟨provider, hprovider, h⟩ := Except.bind_eq_ok.mp h
  obtain ⟨vote_tally, hvotes, h⟩ := Except.bind_eq_ok.mp h
  rw [Except.mapError_eq_ok] at hvotes
  cases h
  exact ⟨provider, vote_tally, hprovider, hvotes, rfl⟩

/-- A committed block is the latest of both the provider and the tally, and it is the height after
the tally's latest one. -/
theorem latestHeight_addParentView {s s' : LotusParentSyncer K} {height : Nat}
    {maybe_payload : Option ParentViewPayload} (h : s.addParentView height maybe_payload = .ok s') :
    s'.provider.latestHeight = some height ∧ s'.vote_tally.latestHeight = height ∧
      height = s.vote_tally.latestHeight + 1 := by
  obtain ⟨provider, vote_tally, hprovider, hvotes, rfl⟩ := addParentView_eq_ok h
  obtain ⟨hnext, hlatest⟩ := Voting.VoteTally.latestHeight_addBlock hvotes
  exact ⟨FinalityWithNull.latestHeight_newParentView hprovider, hlatest, hnext⟩

/-- `poll_next` changes the syncer only through the transaction. -/
theorem pollNext_eq_ok {s s' : LotusParentSyncer K} {parent_proxy : ParentQueryProxy}
    {height : Nat} {parent_block_hash hash : BlockHash}
    (h : s.pollNext parent_proxy height parent_block_hash = .ok (s', hash)) :
    ∃ maybe_payload, s.addParentView height maybe_payload = .ok s' := by
  unfold pollNext at h
  split at h
  · -- A null round, or a failed query.
    split_ifs at h
    obtain ⟨s'', hs'', h⟩ := Except.bind_eq_ok.mp h
    cases h
    exact ⟨none, hs''⟩
  · split_ifs at h
    obtain ⟨data, -, h⟩ := Except.bind_eq_ok.mp h
    obtain ⟨s'', hs'', h⟩ := Except.bind_eq_ok.mp h
    cases h
    exact ⟨some data, hs''⟩

/-- A reset replaces the provider by one reset to the starting finality, and keeps the rest. -/
theorem reset_eq_ok {s s' : LotusParentSyncer K} {committed : IPCParentFinality}
    {parent_proxy : ParentQueryProxy} (h : s.reset committed parent_proxy = .ok s') :
    ∃ finality, queryStartingFinality committed parent_proxy = .ok finality ∧
      s' = { s with provider := s.provider.reset finality } := by
  obtain ⟨finality, hfinality, h⟩ := Except.bind_eq_ok.mp h
  cases h
  exact ⟨finality, hfinality, rfl⟩

/-- The height `latest_cached_data` returns is the provider's latest. -/
theorem latestCachedData_eq_ok {s : LotusParentSyncer K} {latest_height : Nat}
    {hash : BlockHash} (h : s.latestCachedData = .ok (latest_height, hash)) :
    s.provider.latestHeight = some latest_height := by
  unfold latestCachedData at h
  split at h
  · cases h
  · rename_i latest_height' hlatest
    -- The branch that succeeds returns the latest height it read.
    split at h
    · cases h
    · split at h
      · cases h
        exact hlatest
      · cases h

/-! ## A reset that leaves the tally above the provider -/

/-- The provider holds nothing above a committed finality that is no higher than the tally's
finalized height, while the tally holds blocks above that height. -/
structure Stalled (s : LotusParentSyncer K) : Prop where
  /-- The provider's cache is empty. -/
  cache_empty : s.provider.cached_data.data = []
  /-- The provider's committed finality is at most the tally's finalized height. -/
  committed : ∃ f, s.provider.last_committed_finality = some f ∧
    f.height ≤ s.vote_tally.lastFinalizedHeight
  /-- The tally holds blocks above its finalized height. -/
  ahead : s.vote_tally.lastFinalizedHeight < s.vote_tally.latestHeight

/-- A stalled provider's latest height is below the tally's. -/
theorem Stalled.latestHeight_lt {s : LotusParentSyncer K} (hs : s.Stalled) {latest_height : Nat}
    (hlatest : s.provider.latestHeight = some latest_height) :
    latest_height < s.vote_tally.latestHeight := by
  obtain ⟨f, hf, hle⟩ := hs.committed
  have hupper : s.provider.latestHeightInCache = none :=
    (SequentialKeyCache.upperBound_eq_none_iff _).mpr hs.cache_empty
  simp only [FinalityWithNull.latestHeight, hupper, hf, Option.map_some, Option.some.injEq]
    at hlatest
  have := hs.ahead
  omega

/-- From a stalled state no block above the provider's latest height can be committed: the tally
wants the one after its own latest. -/
theorem Stalled.pollNext_ne_ok {s s' : LotusParentSyncer K} (hs : s.Stalled)
    {parent_proxy : ParentQueryProxy} {latest_height : Nat} {parent_block_hash hash : BlockHash}
    (hlatest : s.provider.latestHeight = some latest_height) :
    s.pollNext parent_proxy (latest_height + 1) parent_block_hash ≠ .ok (s', hash) := by
  intro h
  obtain ⟨maybe_payload, hview⟩ := pollNext_eq_ok h
  have hnext := (latestHeight_addParentView hview).2.2
  have hlt := hs.latestHeight_lt hlatest
  omega

section Reset

variable {committed : IPCParentFinality} {parent_proxy : ParentQueryProxy}

/-- A reset of a stalled syncer, to a finality no higher than the tally's finalized one, leaves it
stalled with the same tally. -/
theorem Stalled.resetOutcome {s : LotusParentSyncer K} (hs : s.Stalled)
    (hcommitted : ∀ f, queryStartingFinality committed parent_proxy = .ok f →
      f.height ≤ s.vote_tally.lastFinalizedHeight) :
    (s.resetOutcome committed parent_proxy).1.Stalled ∧
      (s.resetOutcome committed parent_proxy).1.vote_tally = s.vote_tally := by
  unfold LotusParentSyncer.resetOutcome
  split
  · rename_i s' hreset
    obtain ⟨finality, hfinality, rfl⟩ := reset_eq_ok hreset
    exact ⟨⟨rfl, ⟨finality, rfl, hcommitted finality hfinality⟩, hs.ahead⟩, rfl⟩
  · exact ⟨hs, rfl⟩

/-- The loop of a stalled syncer stops at its first block, leaving the syncer as it was or
reset. -/
theorem Stalled.syncLoop {s : LotusParentSyncer K} (hs : s.Stalled)
    (hcommitted : ∀ f, queryStartingFinality committed parent_proxy = .ok f →
      f.height ≤ s.vote_tally.lastFinalizedHeight)
    {chain_head fuel latest_height : Nat} {hash : BlockHash}
    (hlatest : s.provider.latestHeight = some latest_height) :
    (syncLoop committed parent_proxy chain_head fuel s latest_height hash).1.Stalled ∧
      (syncLoop committed parent_proxy chain_head fuel s latest_height hash).1.vote_tally =
        s.vote_tally := by
  cases fuel with
  | zero => exact ⟨hs, rfl⟩
  | succ fuel =>
    unfold LotusParentSyncer.syncLoop
    split
    · exact ⟨hs, rfl⟩
    · split
      · -- The first block cannot be committed.
        exact absurd ‹_› (hs.pollNext_ne_ok hlatest)
      · exact hs.resetOutcome hcommitted
      · exact ⟨hs, rfl⟩

/-- A call of `sync` on a stalled syncer, whatever the parent shows, leaves it stalled with the
same tally. -/
theorem Stalled.sync {s : LotusParentSyncer K} (hs : s.Stalled)
    (hcommitted : ∀ f, queryStartingFinality committed parent_proxy = .ok f →
      f.height ≤ s.vote_tally.lastFinalizedHeight) :
    (s.sync committed parent_proxy).1.Stalled ∧
      (s.sync committed parent_proxy).1.vote_tally = s.vote_tally := by
  unfold LotusParentSyncer.sync
  split
  · exact ⟨hs, rfl⟩
  · exact ⟨hs, rfl⟩
  · split
    · exact ⟨hs, rfl⟩
    · rename_i latest_height hash hcached
      have hlatest := latestCachedData_eq_ok hcached
      split_ifs
      · exact hs.resetOutcome hcommitted
      · exact ⟨hs, rfl⟩
      · exact hs.syncLoop hcommitted hlatest

end Reset

/-- The syncer's runs: calls of `sync` against any view of the parent, with the ledger's committed
finality, whose starting finality is never above the tally's finalized height (the ledger
commits to the tally each finality it executes). -/
inductive SyncStep : LotusParentSyncer K → LotusParentSyncer K → Prop
  | sync {s : LotusParentSyncer K} (committed : IPCParentFinality) (parent_proxy : ParentQueryProxy)
      (hcommitted : ∀ f, queryStartingFinality committed parent_proxy = .ok f →
        f.height ≤ s.vote_tally.lastFinalizedHeight) :
      SyncStep s (s.sync committed parent_proxy).1

/-- Once stalled, the syncer stays stalled over every later run: its tally does not change and
its provider's cache stays empty, so no block is fetched again. -/
theorem syncs_stalled {s₀ s : LotusParentSyncer K} (hs₀ : s₀.Stalled)
    (hr : Reachable (· = s₀) SyncStep s) : s.Stalled ∧ s.vote_tally = s₀.vote_tally := by
  refine Reachable.invariant (I := fun s => s.Stalled ∧ s.vote_tally = s₀.vote_tally) ?_ ?_ hr
  · rintro _ rfl
    exact ⟨hs₀, rfl⟩
  · rintro s s' ⟨hs, htally⟩ ⟨committed, parent_proxy, hcommitted⟩
    obtain ⟨hs', htally'⟩ := hs.sync hcommitted
    exact ⟨hs', htally'.trans htally⟩

/-- From the launch at height 10, the syncer fetches blocks 11 and 12 into both the provider and
the tally. The parent's head then reads 11, so the syncer resets: the provider goes back to 10,
the tally stays at 12. The next call, with the head at 13, fails: the tally refuses block 11. And
no later call fetches anything. -/
theorem sync_reset_stalls :
    let hash : Nat → BlockHash := fun n => [n.toUInt8]
    -- The parent chain with its head at `head`: each block's parent is the block below.
    let view : Nat → ParentQueryProxy := fun head =>
      ⟨.ok head, .ok 0, fun n => .ok ⟨hash (n - 1), hash n⟩, fun n => .ok ⟨[], hash n⟩,
        fun n => .ok ⟨[], hash n⟩⟩
    let f : IPCParentFinality := ⟨10, hash 10⟩
    let s₀ : LotusParentSyncer Nat := launch ⟨0, none⟩ ⟨none, none⟩ 0 f [(1, 1)]
    let s₁ := (s₀.sync f (view 12)).1
    let s₂ := (s₁.sync f (view 11)).1
    s₁.provider.latestHeight = some 12 ∧ s₁.vote_tally.latestHeight = 12 ∧
      s₂.provider.latestHeight = some 10 ∧ s₂.vote_tally.latestHeight = 12 ∧
      (s₂.sync f (view 13)).2 = .error (.topdown .NotSequential) ∧
      ∀ s, Reachable (· = s₂) SyncStep s →
        s.provider.cached_data.data = [] ∧ s.vote_tally = s₂.vote_tally := by
  intro hash view f s₀ s₁ s₂
  have hs₂ : s₂.Stalled := ⟨by decide, ⟨f, by decide, by decide⟩, by decide⟩
  refine ⟨by decide, by decide, by decide, by decide, by decide, fun s hr => ?_⟩
  obtain ⟨hs, htally⟩ := syncs_stalled hs₂ hr
  exact ⟨hs.cache_empty, htally⟩

end LotusParentSyncer

end Delorean.Topdown
