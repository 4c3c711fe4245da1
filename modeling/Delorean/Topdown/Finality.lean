import Delorean.Topdown.Cache
import Delorean.Lib.Reach
import Delorean.Lib.Except

/-!
# The finality provider with null rounds

`FinalityWithNull` of `fendermint/vm/topdown/src/finality/null.rs` holds the parent chain as the
syncer has fetched it, in a `SequentialKeyCache` from height to an optional payload (`None` for a
null round), together with the last parent finality committed in the ledger. The interpreter asks
it for the next finality to propose (`next_proposal`) and to judge the finalities that other
validators propose (`check_proposal`).

A proposal is found through two backward scans of the cache for a non-null block: the first from
the lower of the cache's top and the proposal range above the committed height, the second from
that block less the proposal delay. The check uses different conditions: above the committed
height, at most the cache's top, and a hash that matches the committed finality or the cache.

A node's own proposal passes its own check in every state that the syncer and the interpreter can
lead the provider to (`nextProposal_passes_check`). The invariant that carries it is that the
cache never reaches below the committed height (`CacheAboveCommitted`): the syncer only ever
appends the height after the provider's latest, and committing a finality prunes the cache
below it. Without that discipline the two disagree: a provider reset above the heights it is
then fed proposes a height it rejects, and a cache that starts below the proposal delay takes
the delay's subtraction below zero (`nextProposal_fails_after_reset_or_at_genesis`).

Heights are `u64` in the source and natural numbers here. The subtraction of the proposal delay is
the one place where the `u64` arithmetic can go below zero, and the model keeps it: it is
`subPanicking`, which fails with Rust's overflow panic, as do the source's `unwrap` and
`unreachable!` on the paths where they fire.
-/

namespace Delorean.Topdown

/-- `BlockHash`: the bytes of a parent block's hash. -/
abbrev BlockHash := List UInt8

/-- `IPCParentFinality`: a parent height and the hash of its block. -/
structure IPCParentFinality where
  /-- The parent height. -/
  height : Nat
  /-- The hash of the parent block at that height. -/
  block_hash : BlockHash
  deriving DecidableEq, Repr

/-- The field of a `StakingChangeRequest` that the provider reads. -/
structure StakingChangeRequest where
  /-- The configuration number that change requests count up. -/
  configuration_number : Nat
  deriving DecidableEq, Repr

/-- The field of an `IpcEnvelope` that the provider reads. -/
structure IpcEnvelope where
  /-- The top-down nonce. -/
  nonce : Nat
  deriving DecidableEq, Repr

/-- `ParentViewPayload`: a non-null parent block's hash, its validator changes and its top-down
messages. -/
structure ParentViewPayload where
  /-- The block hash. -/
  block_hash : BlockHash
  /-- The staking changes of the block. -/
  validator_changes : List StakingChangeRequest
  /-- The top-down messages of the block. -/
  top_down_msgs : List IpcEnvelope
  deriving DecidableEq, Repr

/-- The errors of `topdown/src/error.rs`: the provider raises the first two, the syncer the
others. -/
inductive Error where
  | NotSequential
  | NonSequentialParentViewInsert (e : SequentialAppendError)
  | ParentChainReorgDetected
  | CannotQueryParent (msg : String) (height : Nat)
  deriving DecidableEq, Repr

/-- `DEFAULT_MAX_PROPOSAL_RANGE`. -/
def defaultMaxProposalRange : Nat := 100

/-- `DEFAULT_PROPOSAL_DELAY`. -/
def defaultProposalDelay : Nat := 2

/-- The fields of the topdown `Config` that the provider reads. -/
structure Config where
  /-- How far above the committed height a proposal may go; `None` is the default. -/
  max_proposal_range : Option Nat
  /-- How many blocks a proposal stays behind the latest non-null block; `None` is the default. -/
  proposal_delay : Option Nat
  deriving DecidableEq, Repr

/-- `Config::max_proposal_range`. -/
def Config.maxProposalRange (c : Config) : Nat :=
  c.max_proposal_range.getD defaultMaxProposalRange

/-- `Config::proposal_delay`. -/
def Config.proposalDelay (c : Config) : Nat := c.proposal_delay.getD defaultProposalDelay

/-- Rust's `u64` subtraction with overflow checks: below zero it panics. -/
def subPanicking (a b : Nat) : Except String Nat :=
  if b ≤ a then .ok (a - b) else .error "attempt to subtract with overflow"

/-- `ensure_sequential`: the numbers that `f` reads off `msgs` count up by one. -/
def ensureSequential {T : Type} (msgs : List T) (f : T → Nat) : Except Error Unit :=
  match msgs with
  | [] => .ok ()
  | first :: rest => go (f first) rest
where
  /-- The loop over the messages after the first, with the last number seen. -/
  go : Nat → List T → Except Error Unit
    | _, [] => .ok ()
    | nonce, msg :: msgs => if nonce + 1 ≠ f msg then .error .NotSequential else go (nonce + 1) msgs

/-- `FinalityWithNull`: the cached parent view and the last committed finality. -/
structure FinalityWithNull where
  /-- The topdown configuration. -/
  config : Config
  /-- The parent height at which the subnet was created. -/
  genesis_epoch : Nat
  /-- The parent blocks fetched so far, `None` for a null round. -/
  cached_data : SequentialKeyCache (Option ParentViewPayload)
  /-- The last finality committed in the ledger. -/
  last_committed_finality : Option IPCParentFinality

namespace FinalityWithNull

/-- `FinalityWithNull::new`: an empty cache. -/
def new (config : Config) (genesis_epoch : Nat)
    (committed_finality : Option IPCParentFinality) : FinalityWithNull :=
  ⟨config, genesis_epoch, .sequential, committed_finality⟩

/-- `reset`: clear the cache and set the committed finality. -/
def reset (s : FinalityWithNull) (finality : IPCParentFinality) : FinalityWithNull :=
  { s with cached_data := .sequential, last_committed_finality := some finality }

/-- `parent_block_filled`: check that the block's messages and changes count up, then append it. -/
def parentBlockFilled (s : FinalityWithNull) (height : Nat) (p : ParentViewPayload) :
    Except Error FinalityWithNull := do
  if !p.top_down_msgs.isEmpty then ensureSequential p.top_down_msgs IpcEnvelope.nonce
  if !p.validator_changes.isEmpty then
    ensureSequential p.validator_changes StakingChangeRequest.configuration_number
  match s.cached_data.append height (some p) with
  | .ok c => .ok { s with cached_data := c }
  | .error e => .error (.NonSequentialParentViewInsert e)

/-- `parent_null_round`: append a null round. -/
def parentNullRound (s : FinalityWithNull) (height : Nat) :
    Except Error FinalityWithNull :=
  match s.cached_data.append height none with
  | .ok c => .ok { s with cached_data := c }
  | .error e => .error (.NonSequentialParentViewInsert e)

/-- `new_parent_view`: the syncer's report of the parent block at `height`. -/
def newParentView (s : FinalityWithNull) (height : Nat)
    (maybe_payload : Option ParentViewPayload) : Except Error FinalityWithNull :=
  match maybe_payload with
  | some p => s.parentBlockFilled height p
  | none => s.parentNullRound height

/-- `get_at_height` reading the block hash: the hash of a non-null cached block. -/
def getAtHeight (s : FinalityWithNull) (height : Nat) : Option BlockHash :=
  match s.cached_data.getValue height with
  | some (some p) => some p.block_hash
  | _ => none

/-- `block_hash_at_height`: the committed finality's hash at its height, else the cache's. -/
def blockHashAtHeight (s : FinalityWithNull) (height : Nat) : Option BlockHash :=
  match s.last_committed_finality with
  | some f => if f.height = height then some f.block_hash else s.getAtHeight height
  | none => s.getAtHeight height

/-- `latest_height_in_cache`. -/
def latestHeightInCache (s : FinalityWithNull) : Option Nat := s.cached_data.upperBound

/-- `latest_height`: the top of the cache, else the committed height. -/
def latestHeight (s : FinalityWithNull) : Option Nat :=
  match s.latestHeightInCache with
  | some h => some h
  | none => s.last_committed_finality.map IPCParentFinality.height

/-- Whether the cache holds a non-null block at `h`. -/
def isNonNull (s : FinalityWithNull) (h : Nat) : Bool :=
  match s.cached_data.getValue h with
  | some (some _) => true
  | _ => false

/-- `first_non_null_block`: scanning down from `height` to the cache's lower bound, the first
height that holds a non-null block. -/
def firstNonNullBlock (s : FinalityWithNull) (height : Nat) : Option Nat :=
  s.cached_data.lowerBound.bind fun lower_bound =>
    ((List.range' lower_bound (height + 1 - lower_bound)).reverse).find? s.isNonNull

/-- `propose_next_height`: the first non-null block at most the proposal delay below the first
non-null block within the proposal range, unless that is the committed height itself. -/
def proposeNextHeight (s : FinalityWithNull) : Except String (Option Nat) :=
  match s.latestHeightInCache with
  | none => .ok none
  | some latest_height =>
    match s.last_committed_finality with
    | none => .error
        "internal error: entered unreachable code: last committed finality will be available at this point"
    | some f =>
      let last_committed_height := f.height
      let max_proposal_height := last_committed_height + s.config.maxProposalRange
      let candidate_height := min max_proposal_height latest_height
      match s.firstNonNullBlock candidate_height with
      | none => .ok none
      | some first_non_null_height => do
        let delayed ← subPanicking first_non_null_height s.config.proposalDelay
        match s.firstNonNullBlock delayed with
        | some proposal_height =>
          if last_committed_height = proposal_height then .ok none else .ok (some proposal_height)
        | none => .ok none

/-- `next_proposal`: the proposed height with its block hash. -/
def nextProposal (s : FinalityWithNull) : Except String (Option IPCParentFinality) := do
  match ← s.proposeNextHeight with
  | none => .ok none
  | some height =>
    match s.blockHashAtHeight height with
    | some block_hash => .ok (some ⟨height, block_hash⟩)
    | none => .error "called `Option::unwrap()` on a `None` value"

/-- `check_height`: above the committed height and at most the top of the cache. -/
def checkHeight (s : FinalityWithNull) (proposal : IPCParentFinality) : Bool :=
  match s.last_committed_finality with
  | none => false
  | some f =>
    if proposal.height ≤ f.height then false
    else
      match s.latestHeightInCache with
      | some latest_height => decide (proposal.height ≤ latest_height)
      | none => false

/-- `check_block_hash`: the hash this provider knows at the proposed height. -/
def checkBlockHash (s : FinalityWithNull) (proposal : IPCParentFinality) : Bool :=
  match s.blockHashAtHeight proposal.height with
  | some block_hash => block_hash == proposal.block_hash
  | none => false

/-- `check_proposal`. -/
def checkProposal (s : FinalityWithNull) (proposal : IPCParentFinality) : Bool :=
  s.checkHeight proposal && s.checkBlockHash proposal

/-- `set_new_finality`: prune the cache below the new finality and record it. The source's
`debug_assert!` on the previous finality is compiled out of release builds and is not modelled. -/
def setNewFinality (s : FinalityWithNull) (finality : IPCParentFinality)
    (_previous_finality : Option IPCParentFinality) : FinalityWithNull :=
  { s with cached_data := s.cached_data.removeKeyBelow finality.height,
           last_committed_finality := some finality }

/-! ## What one call can do -/

/-- A height that `first_non_null_block` returns is in the cache, between the lower bound and the
height it started from, and holds a non-null block. -/
theorem firstNonNullBlock_spec {s : FinalityWithNull} {height h : Nat}
    (hf : s.firstNonNullBlock height = some h) :
    ∃ lower, s.cached_data.lowerBound = some lower ∧ lower ≤ h ∧ h ≤ height ∧
      ∃ p, s.cached_data.getValue h = some (some p) := by
  unfold firstNonNullBlock at hf
  obtain ⟨lower, hlower, hfind⟩ := Option.bind_eq_some_iff.mp hf
  have hmem := List.mem_of_find?_eq_some hfind
  have hnn : s.isNonNull h = true := List.find?_some hfind
  rw [List.mem_reverse, List.mem_range'_1] at hmem
  obtain ⟨hlo, hhi⟩ := hmem

  refine ⟨lower, hlower, hlo, by omega, ?_⟩
  unfold isNonNull at hnn
  split at hnn
  · rename_i p hp
    exact ⟨p, hp⟩
  · cases hnn

/-- The one way `propose_next_height` proposes: both scans found a block, the delay did not reach
below zero, and the block is not the committed one. -/
theorem proposeNextHeight_eq_some {s : FinalityWithNull} {h : Nat}
    (hp : s.proposeNextHeight = .ok (some h)) :
    ∃ f latest fnn, s.last_committed_finality = some f ∧ s.latestHeightInCache = some latest ∧
      s.firstNonNullBlock (min (f.height + s.config.maxProposalRange) latest) = some fnn ∧
      s.config.proposalDelay ≤ fnn ∧
      s.firstNonNullBlock (fnn - s.config.proposalDelay) = some h ∧ f.height ≠ h := by
  unfold proposeNextHeight at hp
  cases hl : s.latestHeightInCache with
  | none => simp [hl] at hp
  | some latest =>
    cases hf : s.last_committed_finality with
    | none => simp [hl, hf] at hp
    | some f =>
      cases hn : s.firstNonNullBlock (min (f.height + s.config.maxProposalRange) latest) with
      | none => simp [hl, hf, hn] at hp
      | some fnn =>
        by_cases hd : s.config.proposalDelay ≤ fnn
        · cases hq : s.firstNonNullBlock (fnn - s.config.proposalDelay) with
          | none => simp [hl, hf, hn, hd, hq, subPanicking] at hp
          | some q =>
            simp only [hl, hf, hn, hq, subPanicking, hd, if_true, Except.ok_bind] at hp
            split_ifs at hp with hfq
            · cases hp
            · cases hp
              exact ⟨f, latest, fnn, rfl, rfl, hn, hd, hq, hfq⟩
        · simp [hl, hf, hn, hd, subPanicking] at hp

/-- `next_proposal` proposes the height of `propose_next_height` with the hash known there. -/
theorem nextProposal_eq_some {s : FinalityWithNull} {p : IPCParentFinality}
    (hp : s.nextProposal = .ok (some p)) :
    s.proposeNextHeight = .ok (some p.height) ∧ s.blockHashAtHeight p.height = some p.block_hash := by
  unfold nextProposal at hp
  obtain ⟨o, ho, hrest⟩ := Except.bind_eq_ok.mp hp
  cases o with
  | none => cases hrest
  | some height =>
    simp only at hrest
    split at hrest
    · rename_i block_hash hb
      cases hrest
      exact ⟨ho, hb⟩
    · cases hrest

/-- The one way the filled-block path succeeds: both sequence checks pass and the block is
appended; nothing but the cache changes. -/
theorem parentBlockFilled_eq_ok {s s' : FinalityWithNull} {height : Nat} {p : ParentViewPayload}
    (h : s.parentBlockFilled height p = .ok s') :
    s.cached_data.append height (some p) = .ok s'.cached_data ∧
      s'.last_committed_finality = s.last_committed_finality := by
  -- Past the two sequence checks, the block is appended.
  have happend : ∀ s'', (match s.cached_data.append height (some p) with
      | .ok c => (.ok { s with cached_data := c } : Except Error FinalityWithNull)
      | .error e => .error (.NonSequentialParentViewInsert e)) = .ok s'' →
      s.cached_data.append height (some p) = .ok s''.cached_data ∧
        s''.last_committed_finality = s.last_committed_finality := by
    intro s'' h''
    split at h''
    · rename_i c hc
      cases h''
      exact ⟨hc, rfl⟩
    · cases h''
  unfold parentBlockFilled at h
  dsimp only at h
  split_ifs at h with h1 h2 h2
  · obtain ⟨-, -, h⟩ := Except.bind_eq_ok.mp h
    obtain ⟨-, -, h⟩ := Except.bind_eq_ok.mp h
    exact happend s' h
  · obtain ⟨-, -, h⟩ := Except.bind_eq_ok.mp h
    exact happend s' h
  · obtain ⟨-, -, h⟩ := Except.bind_eq_ok.mp h
    exact happend s' h
  · exact happend s' h

/-- A new parent view changes only the cache, by appending the reported block to it. -/
theorem newParentView_eq_ok {s s' : FinalityWithNull} {height : Nat}
    {maybe_payload : Option ParentViewPayload} (h : s.newParentView height maybe_payload = .ok s') :
    s'.last_committed_finality = s.last_committed_finality ∧
      s.cached_data.append height maybe_payload = .ok s'.cached_data := by
  cases maybe_payload with
  | none =>
    simp only [newParentView, parentNullRound] at h
    split at h
    · rename_i c hc
      cases h
      exact ⟨rfl, hc⟩
    · cases h
  | some p =>
    obtain ⟨happ, hlast⟩ := parentBlockFilled_eq_ok h
    exact ⟨hlast, happ⟩

/-- A new parent view's height becomes the latest. -/
theorem latestHeight_newParentView {s s' : FinalityWithNull} {height : Nat}
    {maybe_payload : Option ParentViewPayload} (h : s.newParentView height maybe_payload = .ok s') :
    s'.latestHeight = some height := by
  obtain ⟨-, happ⟩ := newParentView_eq_ok h
  obtain ⟨hdata, -⟩ := SequentialKeyCache.append_eq_ok happ
  simp [latestHeight, latestHeightInCache, SequentialKeyCache.upperBound, hdata]

/-! ## Own proposals pass the own check -/

/-- There is a committed finality, and the cache reaches no lower than its height. -/
def CacheAboveCommitted (s : FinalityWithNull) : Prop :=
  ∃ f, s.last_committed_finality = some f ∧
    ∀ lower, s.cached_data.lowerBound = some lower → f.height ≤ lower

/-- The provider as the node creates it, with the committed finality read from the ledger. -/
def Initial (config : Config) (genesis_epoch : Nat) (s : FinalityWithNull) : Prop :=
  ∃ f, s = new config genesis_epoch (some f)

/-- What the syncer and the interpreter do to the provider, one call at a time. The syncer asks
for the height after the provider's latest height, which is above the committed one. -/
inductive Step : FinalityWithNull → FinalityWithNull → Prop where
  | new_parent_view {s s' : FinalityWithNull} {height : Nat}
      {maybe_payload : Option ParentViewPayload}
      (habove : ∀ f, s.last_committed_finality = some f → f.height < height)
      (h : s.newParentView height maybe_payload = .ok s') : Step s s'
  | set_new_finality (s : FinalityWithNull) (finality : IPCParentFinality)
      (previous_finality : Option IPCParentFinality) :
      Step s (s.setNewFinality finality previous_finality)
  | reset (s : FinalityWithNull) (finality : IPCParentFinality) : Step s (s.reset finality)

theorem cacheAboveCommitted_initial {config : Config} {genesis_epoch : Nat} {s : FinalityWithNull}
    (h : Initial config genesis_epoch s) : s.CacheAboveCommitted := by
  obtain ⟨f, rfl⟩ := h
  exact ⟨f, rfl, fun lower h => by simp [new] at h⟩

/-- Every call keeps the cache above the committed height. -/
theorem cacheAboveCommitted_step {s s' : FinalityWithNull} (hs : s.CacheAboveCommitted)
    (hstep : Step s s') : s'.CacheAboveCommitted := by
  obtain ⟨f, hf, hlow⟩ := hs
  cases hstep with
  | new_parent_view habove h =>
    -- The append keeps the lower bound of a non-empty cache, and starts an empty one above `f`.
    obtain ⟨hlast, happ⟩ := newParentView_eq_ok h
    refine ⟨f, hlast.trans hf, fun lower hl => ?_⟩
    rw [SequentialKeyCache.lowerBound_append happ] at hl
    cases hc : s.cached_data.lowerBound with
    | some l =>
      rw [hc] at hl
      cases hl
      exact hlow lower hc
    | none =>
      rw [hc] at hl
      cases hl
      exact (habove f hf).le
  | set_new_finality finality _ =>
    exact ⟨finality, rfl, fun lower hl => SequentialKeyCache.lowerBound_removeKeyBelow hl⟩
  | reset finality =>
    exact ⟨finality, rfl, fun lower hl => by simp [reset] at hl⟩

theorem cacheAboveCommitted_of_reachable {config : Config} {genesis_epoch : Nat}
    {s : FinalityWithNull} (hr : Reachable (Initial config genesis_epoch) Step s) :
    s.CacheAboveCommitted := by
  refine Reachable.invariant ?_ ?_ hr
  · intro s₀ h₀
    exact cacheAboveCommitted_initial h₀
  · intro s₁ s₂ hs hstep
    exact cacheAboveCommitted_step hs hstep

/-- Every call keeps the cache's keys consecutive. -/
theorem consecutive_step {s s' : FinalityWithNull} (hs : s.cached_data.Consecutive)
    (hstep : Step s s') : s'.cached_data.Consecutive := by
  cases hstep with
  | new_parent_view _ h => exact hs.append (newParentView_eq_ok h).2
  | set_new_finality finality _ => exact hs.removeKeyBelow finality.height
  | reset finality => exact SequentialKeyCache.consecutive_sequential

theorem consecutive_of_reachable {config : Config} {genesis_epoch : Nat} {s : FinalityWithNull}
    (hr : Reachable (Initial config genesis_epoch) Step s) : s.cached_data.Consecutive := by
  refine Reachable.invariant (I := fun s => s.cached_data.Consecutive) ?_ ?_ hr
  · rintro s₀ ⟨f, rfl⟩
    exact SequentialKeyCache.consecutive_sequential
  · intro s₁ s₂ hs hstep
    exact consecutive_step hs hstep

/-- While the cache stays above the committed height, a proposal the provider makes is above the
committed height, within the proposal range of it and at most the top of the cache, holds a
non-null cached block with the proposed hash, and passes the provider's own `check_proposal`. -/
theorem nextProposal_spec {s : FinalityWithNull} (hs : s.CacheAboveCommitted)
    {p : IPCParentFinality} (hp : s.nextProposal = .ok (some p)) :
    s.checkProposal p = true ∧
      (∃ f, s.last_committed_finality = some f ∧ f.height < p.height ∧
        p.height ≤ f.height + s.config.maxProposalRange) ∧
      (∃ latest, s.latestHeightInCache = some latest ∧ p.height ≤ latest) ∧
      ∃ payload, s.cached_data.getValue p.height = some (some payload) ∧
        payload.block_hash = p.block_hash := by
  obtain ⟨f, hf, hlow⟩ := hs
  obtain ⟨hprop, hhash⟩ := nextProposal_eq_some hp
  obtain ⟨f', latest, fnn, hf', hlatest, hfnn, hdelay, hq, hne⟩ := proposeNextHeight_eq_some hprop
  rw [hf] at hf'
  cases hf'
  obtain ⟨lower₁, -, -, hfnn_le, -⟩ := firstNonNullBlock_spec hfnn
  obtain ⟨lower, hlower, hlo, hq_le, payload, hpayload⟩ := firstNonNullBlock_spec hq
  -- The proposal is at least the cache's lower bound, hence at least the committed height.
  have habove : f.height < p.height := lt_of_le_of_ne ((hlow lower hlower).trans hlo) hne
  have hbelow : p.height ≤ min (f.height + s.config.maxProposalRange) latest := by omega
  have hlat : p.height ≤ latest := hbelow.trans (min_le_right _ _)
  -- Away from the committed height the hash comes from the cache.
  have hcache : s.blockHashAtHeight p.height = some payload.block_hash := by
    simp [blockHashAtHeight, hf, hne, getAtHeight, hpayload]
  have hsame : payload.block_hash = p.block_hash := by
    rw [hcache] at hhash
    exact Option.some.inj hhash
  refine ⟨?_, ⟨f, hf, habove, le_of_le_of_eq (hbelow.trans (min_le_left _ _)) rfl⟩,
    ⟨latest, hlatest, hlat⟩, payload, hpayload, hsame⟩
  have hheight : s.checkHeight p = true := by
    simp [checkHeight, hf, not_le.mpr habove, hlatest, hlat]
  have hblock : s.checkBlockHash p = true := by
    simp [checkBlockHash, hcache, hsame]
  simp [checkProposal, hheight, hblock]

/-- In every state the syncer and the interpreter lead the provider to, a proposal it makes is
above the committed height and within the proposal range of it, holds a non-null cached block
with the proposed hash, and passes the provider's own `check_proposal`. -/
theorem nextProposal_passes_check {config : Config} {genesis_epoch : Nat} {s : FinalityWithNull}
    (hr : Reachable (Initial config genesis_epoch) Step s) {p : IPCParentFinality}
    (hp : s.nextProposal = .ok (some p)) :
    s.checkProposal p = true ∧
      (∃ f, s.last_committed_finality = some f ∧ f.height < p.height ∧
        p.height ≤ f.height + s.config.maxProposalRange) ∧
      ∃ payload, s.cached_data.getValue p.height = some (some payload) ∧
        payload.block_hash = p.block_hash := by
  obtain ⟨hcheck, hrange, -, hpayload⟩ := nextProposal_spec (cacheAboveCommitted_of_reachable hr) hp
  exact ⟨hcheck, hrange, hpayload⟩

/-- A provider created at committed height 10 and fed block 11, with no proposal delay, proposes
height 11, and the proposal passes its check. -/
theorem nextProposal_passes_check_at_eleven :
    let s : FinalityWithNull :=
      ⟨⟨none, some 0⟩, 0, ⟨1, [(11, some ⟨[11], [], []⟩)]⟩, some ⟨10, [10]⟩⟩
    Reachable (Initial ⟨none, some 0⟩ 0) Step s ∧ s.nextProposal = .ok (some ⟨11, [11]⟩) ∧
      (s.checkProposal ⟨11, [11]⟩ = true ∧
        (∃ f, s.last_committed_finality = some f ∧ f.height < 11 ∧
          11 ≤ f.height + s.config.maxProposalRange) ∧
        ∃ payload, s.cached_data.getValue 11 = some (some payload) ∧
          payload.block_hash = [11]) := by
  intro s
  have hr : Reachable (Initial ⟨none, some 0⟩ 0) Step s :=
    (Reachable.of_init ⟨⟨10, [10]⟩, rfl⟩).tail
      (@Step.new_parent_view (new ⟨none, some 0⟩ 0 (some ⟨10, [10]⟩)) s 11
        (some ⟨[11], [], []⟩) (fun f hf => by cases hf; decide) rfl)
  have hp : s.nextProposal = .ok (some ⟨11, [11]⟩) := by decide
  exact ⟨hr, hp, nextProposal_passes_check hr hp⟩

/-- Fed blocks without the syncer's discipline, the provider breaks both halves of the claim.
Reset to height 50 and fed blocks 6 to 8, it proposes height 6 and its own check rejects it.
Created at height 0 and fed block 1, the default delay of 2 takes the `u64` subtraction below
zero. -/
theorem nextProposal_fails_after_reset_or_at_genesis :
    ((do
      let s ← (new ⟨none, none⟩ 0 (some ⟨0, [0]⟩)).newParentView 5 (some ⟨[5], [], []⟩)
      let s ← (s.reset ⟨50, [50]⟩).newParentView 6 (some ⟨[6], [], []⟩)
      let s ← s.newParentView 7 (some ⟨[7], [], []⟩)
      let s ← s.newParentView 8 (some ⟨[8], [], []⟩)
      pure (s.nextProposal, s.checkProposal ⟨6, [6]⟩)) :
        Except Error (Except String (Option IPCParentFinality) × Bool)) =
      .ok (.ok (some ⟨6, [6]⟩), false) ∧
    (((new ⟨none, none⟩ 0 (some ⟨0, [0]⟩)).newParentView 1 (some ⟨[1], [], []⟩)).map
        nextProposal) = .ok (.error "attempt to subtract with overflow") := by
  decide

end FinalityWithNull

end Delorean.Topdown
