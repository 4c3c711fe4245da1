import Delorean.Chain.Interpreter
import Delorean.Topdown.Finality
import Delorean.Gateway.Ledger
import Delorean.Gateway.TopDownFinality

/-!
# Top-down execution in the child

`fendermint_vm_interpreter::fvm::topdown` and the `TopDownExec` arm of the chain interpreter's
`deliver`. A block of the child that carries the finality of parent block `N` commits it in the
gateway, and then executes the side effects of the parent blocks from the one of the previous
finality up to `N - 1`: for deferred execution chains, `N - 1` is the latest state known for sure.
The interpreter fetches the validator changes and the top-down messages of every height of that
window from the parent finality provider (`validator_changes_from`, `top_down_msgs_from`), stores
the changes in the gateway's tracker, mints the messages' value and has the gateway apply them as
coming from its parent (`execute_topdown_msgs`). With no finality committed before, the window
starts at the provider's genesis epoch.

The windows of two consecutive finalities abut: the next one starts at the height where the last
one stopped short. So a run of deliveries fetches every parent height from the first window's
start up to the last finality's height, each once and in order, records all their changes in the
tracker with one `recordRequests`, and applies all their messages with one `applyMessages`
(`deliverTopDownExec_run`). The proof goes from one delivery (`deliverTopDownExec_eq_ok`), through
the relation `Delivered` that one delivery establishes and that composes along the run
(`Delivered.trans`), to a run of them by induction on the finalities.

The provider is what the parent chain answers at each height: its cache, or the parent's RPC
behind it, are not modelled, nor the STM updates of the provider and the vote tally after the
execution. A change request and an envelope arrive in the types of the facets: their `try_from`
conversions are not modelled. The conversion of the finality checks the block hash's length, as
the source does, into the facet's `bytes32`.
-/

namespace Delorean.Fvm

open Delorean.Gateway (GatewayState Env IpcEnvelope SubnetID SupplyKind totalValue applyMessages)
open Delorean.Gateway.TopDownFinality (ParentFinality GatewayActorStorage StakingChangeRequest
  recordRequests lastHeight lastHeight_concat le_lastHeight)
open Delorean.Topdown (IPCParentFinality)

/-- The facet's `bytes32` block hash. -/
abbrev FacetBlockHash := Vector UInt8 32

/-- What the parent finality provider answers the interpreter. -/
structure ParentViewProvider (Address E : Type) where
  /-- `is_enabled`. -/
  enabled : Bool
  /-- `genesis_epoch`: the parent height the child starts from. -/
  genesisEpoch : Nat
  /-- `validator_changes`: the validator changes of the parent block at a height. -/
  validatorChanges : Nat → Except E (List (StakingChangeRequest Address))
  /-- `top_down_msgs`: the top-down messages of the parent block at a height. -/
  topDownMsgs : Nat → Except E (List (IpcEnvelope Address))

/-- The parts of the child's execution state that the top-down execution reads and writes: the
gateway's top-down finality storage and its value-flow storage, and the circulating supply. -/
structure ChildState (Address Hash : Type) where
  finality : GatewayActorStorage Address FacetBlockHash
  ledger : GatewayState Address Hash
  circSupply : Nat

/-- What `GatewayCaller::commit_parent_finality` fails with. -/
inductive CommitError (Address : Type) where
  /-- "invalid block hash length, expecting 32", from the finality's conversion. -/
  | InvalidBlockHashLength
  /-- A revert of the top-down finality facet. -/
  | TopDownFinalityFacet (reason : Gateway.TopDownFinality.Revert Address)

/-- What the `TopDownExec` arm of `deliver` fails with, under the context the source gives. -/
inductive Error (Address E : Type) where
  /-- "cannot execute IPC top-down message: parent provider disabled". -/
  | ParentProviderDisabled
  /-- "failed to commit finality". -/
  | CommitFinality (cause : CommitError Address)
  /-- "failed to fetch validator changes". -/
  | FetchValidatorChanges (cause : E)
  /-- "failed to store validator changes". -/
  | StoreValidatorChanges (reason : Gateway.TopDownFinality.Revert Address)
  /-- "failed to fetch top down messages". -/
  | FetchTopDownMsgs (cause : E)
  /-- "failed to execute top down messages". -/
  | ExecuteTopDownMsgs (reason : Gateway.Revert)

section Conversion

variable {Address : Type}

/-- `TryFrom<IPCParentFinality> for top_down_finality_facet::ParentFinality`: the block hash must
have 32 bytes. -/
def tryFromFinality (value : IPCParentFinality) :
    Except (CommitError Address) (ParentFinality FacetBlockHash) :=
  if h : value.block_hash.length ≠ 32 then .error .InvalidBlockHashLength
  else .ok ⟨value.height, ⟨value.block_hash.toArray, by simpa using h⟩⟩

/-- `From<top_down_finality_facet::ParentFinality> for IPCParentFinality`. -/
def fromFacetFinality (value : ParentFinality FacetBlockHash) : IPCParentFinality :=
  ⟨value.height, value.blockHash.toList⟩

end Conversion

section Caller

variable {Address Hash E : Type} [DecidableEq Address] [Inhabited Address]

namespace GatewayCaller

/-- `commit_parent_finality`: commit the finality in the facet, and return the finality committed
before, if any. -/
def commitParentFinality (st : ChildState Address Hash) (finality : IPCParentFinality) :
    Except (CommitError Address) (ChildState Address Hash × Option IPCParentFinality) := do
  let evmFinality ← tryFromFinality finality
  let (storage, hasCommitted, prevFinality) ←
    (st.finality.commitParentFinalityFacet evmFinality).mapError .TopDownFinalityFacet
  pure ({ st with finality := storage },
    if !hasCommitted then none else some (fromFacetFinality prevFinality))

/-- `store_validator_changes`: no call for no change. -/
def storeValidatorChanges (st : ChildState Address Hash)
    (changes : List (StakingChangeRequest Address)) :
    Except (Gateway.TopDownFinality.Revert Address) (ChildState Address Hash) :=
  if changes.isEmpty then pure st
  else do
    let storage ← st.finality.storeValidatorChanges changes
    pure { st with finality := storage }

end GatewayCaller

/-- `commit_finality`: commit the finality, and return the height of the finality committed
before, or the genesis epoch when there is none. -/
def commitFinality (st : ChildState Address Hash) (finality : IPCParentFinality)
    (provider : ParentViewProvider Address E) :
    Except (CommitError Address) (ChildState Address Hash × Nat × Option IPCParentFinality) := do
  let (st, prev) ← GatewayCaller.commitParentFinality st finality
  match prev with
  | some prevFinality => pure (st, prevFinality.height, some prevFinality)
  | none => pure (st, provider.genesisEpoch, none)

end Caller

section Fetch

variable {Address E : Type}

/-- The loop of `validator_changes_from` and `top_down_msgs_from`: query every height from `from`
to `to`, both included, and append what each returns. -/
def collectFrom {α : Type} (query : Nat → Except E (List α)) (from_ to_ : Nat) : Except E (List α) :=
  (List.range' from_ (to_ + 1 - from_)).foldlM (fun v h => do let r ← query h; pure (v ++ r)) []

/-- `validator_changes_from`. -/
def validatorChangesFrom (provider : ParentViewProvider Address E) (from_ to_ : Nat) :
    Except E (List (StakingChangeRequest Address)) :=
  collectFrom provider.validatorChanges from_ to_

/-- `top_down_msgs_from`. -/
def topDownMsgsFrom (provider : ParentViewProvider Address E) (from_ to_ : Nat) :
    Except E (List (IpcEnvelope Address)) :=
  collectFrom provider.topDownMsgs from_ to_

end Fetch

section Deliver

variable {Address Hash E : Type} [DecidableEq Address] [Inhabited Address] [DecidableEq Hash]
  (env : Env Address Hash) (execute : IpcEnvelope Address → SupplyKind → Bool × List UInt8)
  (provider : ParentViewProvider Address E)

/-- The `TopDownExec` arm of `ChainMessageInterpreter::deliver`: commit the finality, then
execute the side effects of the parent heights from the previous finality's up to the one below
this finality's. -/
def deliverTopDownExec (st : ChildState Address Hash) (p : Chain.ParentFinality) :
    Except (Error Address E) (ChildState Address Hash) := do
  if !provider.enabled then throw .ParentProviderDisabled
  let finality : IPCParentFinality := ⟨p.height, p.block_hash⟩
  let (st, prevHeight, _) ← (commitFinality st finality provider).mapError .CommitFinality
  -- The commitment of the finality for block `N` triggers the execution of all side effects up
  -- till `N - 1`.
  let executionFr := prevHeight
  let executionTo := finality.height - 1
  let validatorChanges ←
    (validatorChangesFrom provider executionFr executionTo).mapError .FetchValidatorChanges
  let st ← (GatewayCaller.storeValidatorChanges st validatorChanges).mapError .StoreValidatorChanges
  let msgs ← (topDownMsgsFrom provider executionFr executionTo).mapError .FetchTopDownMsgs
  let (ledger, circSupply) ←
    (Gateway.executeTopdownMsgs env execute st.ledger st.circSupply msgs).mapError
      .ExecuteTopDownMsgs
  pure { st with ledger, circSupply }

end Deliver

/-! ## The conversion and the calls -/

section ConversionLemmas

variable {Address : Type}

/-- A converted finality has the height and the bytes it was converted from. -/
theorem tryFromFinality_eq_ok {value : IPCParentFinality} {f : ParentFinality FacetBlockHash}
    (h : (tryFromFinality value : Except (CommitError Address) _) = .ok f) :
    f.height = value.height ∧ fromFacetFinality f = value := by
  unfold tryFromFinality at h
  split_ifs at h with hlen
  rw [Except.ok.injEq] at h
  subst h
  exact ⟨rfl, by simp [fromFacetFinality]⟩

end ConversionLemmas

section FetchLemmas

variable {E : Type}

/-- The fetch loop succeeds as the queries of its heights do, in order, and returns what they
return, concatenated. -/
theorem collectFrom_eq_ok_iff {α : Type} {query : Nat → Except E (List α)} {from_ to_ : Nat}
    {v : List α} :
    collectFrom query from_ to_ = .ok v ↔
      ∃ rs, (List.range' from_ (to_ + 1 - from_)).mapM query = .ok rs ∧ v = rs.flatten := by
  rw [collectFrom, Except.foldlM_append_eq_ok_iff]
  simp only [List.nil_append]

end FetchLemmas

/-- Where the next window of parent heights starts: at the height of the last committed
finality, or at the genesis epoch when none is committed. -/
def windowStart {Hash : Type} (genesisEpoch : Nat) (log : List (ParentFinality Hash)) : Nat :=
  (log.getLast?.map (·.height)).getD genesisEpoch

@[simp]
theorem windowStart_concat {Hash : Type} (genesisEpoch : Nat) (log : List (ParentFinality Hash))
    (f : ParentFinality Hash) : windowStart genesisEpoch (log ++ [f]) = f.height := by
  simp [windowStart]

/-- Two abutting windows of heights are one. -/
theorem range'_sub_append {a b c : Nat} (hab : a ≤ b) (hbc : b ≤ c) :
    List.range' a (b - a) ++ List.range' b (c - b) = List.range' a (c - a) := by
  have h := @List.range'_append_1 a (b - a) (c - b)
  rw [show a + (b - a) = b by omega, show b - a + (c - b) = c - a by omega] at h
  exact h

section CallerLemmas

variable {Address Hash E : Type} [DecidableEq Address] [Inhabited Address]
  {st st' : ChildState Address Hash} {log : List (ParentFinality FacetBlockHash)}

omit [DecidableEq Address] [Inhabited Address] in
/-- On a storage that stands for a log, a commit that succeeds converts the finality, appends it
above the log's last height, writes nothing else, and returns the log's last finality. -/
theorem GatewayCaller.commitParentFinality_eq_ok (hlog : st.finality.Agrees log)
    {finality : IPCParentFinality} {prev : Option IPCParentFinality}
    (h : GatewayCaller.commitParentFinality st finality = .ok (st', prev)) :
    ∃ f, (tryFromFinality finality : Except (CommitError Address) _) = .ok f ∧
      lastHeight log < f.height ∧
      st' = { st with finality := { st.finality with
        finalitiesMap := Function.update st.finality.finalitiesMap f.height f
        latestParentHeight := f.height } } ∧
      prev = log.getLast?.map fromFacetFinality := by
  unfold GatewayCaller.commitParentFinality at h
  obtain ⟨f, hf, h⟩ := Except.bind_eq_ok.1 h
  obtain ⟨⟨storage, hasCommitted, prevFinality⟩, hcommit, h⟩ := Except.bind_eq_ok.1 h
  obtain ⟨hlt, rfl, rfl, rfl⟩ :=
    GatewayActorStorage.commitParentFinalityFacet_eq_ok (Except.mapError_eq_ok.1 hcommit)
  dsimp only at h
  rw [Except.pure_eq_ok, Except.ok.injEq, Prod.mk.injEq] at h
  obtain ⟨rfl, rfl⟩ := h
  refine ⟨f, hf, hlog.latest ▸ hlt, rfl, ?_⟩
  -- the previous finality is returned exactly when the log is not empty
  rw [hlog.latest_finality, hlog.hasCommitted]
  rcases List.eq_nil_or_concat log with rfl | ⟨l, g, rfl⟩
  · rfl
  · simp

omit [DecidableEq Address] [Inhabited Address] in
/-- On a storage that stands for a log, `commit_finality` commits as the facet does and returns
where the window starts. -/
theorem commitFinality_eq_ok (hlog : st.finality.Agrees log) {finality : IPCParentFinality}
    {provider : ParentViewProvider Address E} {prevHeight : Nat} {prev : Option IPCParentFinality}
    (h : commitFinality st finality provider = .ok (st', prevHeight, prev)) :
    ∃ f, (tryFromFinality finality : Except (CommitError Address) _) = .ok f ∧
      lastHeight log < f.height ∧
      st' = { st with finality := { st.finality with
        finalitiesMap := Function.update st.finality.finalitiesMap f.height f
        latestParentHeight := f.height } } ∧
      prevHeight = windowStart provider.genesisEpoch log := by
  unfold commitFinality at h
  obtain ⟨⟨st₁, prev₁⟩, hcommit, h⟩ := Except.bind_eq_ok.1 h
  obtain ⟨f, hf, hlt, rfl, rfl⟩ := GatewayCaller.commitParentFinality_eq_ok hlog hcommit
  refine ⟨f, hf, hlt, ?_⟩
  -- the previous height is the last finality's, or the genesis epoch
  unfold windowStart
  cases hl : log.getLast? with
  | none =>
    simp only [hl, Option.map_none, Except.pure_eq_ok, Except.ok.injEq, Prod.mk.injEq] at h
    exact ⟨h.1.symm, h.2.1.symm⟩
  | some g =>
    simp only [hl, Option.map_some, Except.pure_eq_ok, Except.ok.injEq, Prod.mk.injEq] at h
    exact ⟨h.1.symm, h.2.1.symm⟩

omit [DecidableEq Address] in
/-- `store_validator_changes` accepts exactly the changes numbered on from the tracker's next
configuration number, and records them; with no change, nothing is called. -/
theorem GatewayCaller.storeValidatorChanges_eq_ok {changes : List (StakingChangeRequest Address)}
    (h : GatewayCaller.storeValidatorChanges st changes = .ok st') :
    changes.map (·.configurationNumber) =
        List.range' st.finality.validatorsTracker.changes.nextConfigurationNumber changes.length ∧
      st' = { st with finality := { st.finality with validatorsTracker :=
        { st.finality.validatorsTracker with
          changes := recordRequests st.finality.validatorsTracker.changes changes } } } := by
  unfold GatewayCaller.storeValidatorChanges at h
  split_ifs at h with hempty
  · rw [List.isEmpty_iff.1 hempty]
    rw [Except.pure_eq_ok, Except.ok.injEq] at h
    subst h
    exact ⟨rfl, rfl⟩
  · obtain ⟨storage, hstore, h⟩ := Except.bind_eq_ok.1 h
    obtain ⟨hnumbers, rfl⟩ := GatewayActorStorage.storeValidatorChanges_eq_ok_iff.1 hstore
    rw [Except.pure_eq_ok, Except.ok.injEq] at h
    exact ⟨hnumbers, h.symm⟩

end CallerLemmas

/-! ## The side effects of a run of deliveries -/

section Run

variable {Address Hash E : Type} [DecidableEq Address] [Inhabited Address] [DecidableEq Hash]
  (env : Env Address Hash) (execute : IpcEnvelope Address → SupplyKind → Bool × List UInt8)
  (provider : ParentViewProvider Address E)

/-- What deliveries did from `st` to `st'` over the parent heights `heights`: the validator changes
and the messages of each height fetched once, in order; the changes, numbered on from the
tracker's next configuration number, recorded in the tracker; the messages applied by the
gateway as coming from its parent, and their value added to the circulating supply; the
memberships left as they were. -/
structure Delivered (st st' : ChildState Address Hash) (heights : List Nat) : Prop where
  changes : ∃ cs, heights.mapM provider.validatorChanges = .ok cs ∧
    cs.flatten.map (·.configurationNumber) =
      List.range' st.finality.validatorsTracker.changes.nextConfigurationNumber cs.flatten.length ∧
    st'.finality.validatorsTracker = { st.finality.validatorsTracker with
      changes := recordRequests st.finality.validatorsTracker.changes cs.flatten }
  msgs : ∃ ms parent, heights.mapM provider.topDownMsgs = .ok ms ∧
    st.ledger.networkName.getParentSubnet = .ok parent ∧
    applyMessages env execute parent st.ledger ms.flatten = .ok st'.ledger ∧
    st'.circSupply = st.circSupply + totalValue ms.flatten
  memberships : st'.finality.currentMembership = st.finality.currentMembership ∧
    st'.finality.lastMembership = st.finality.lastMembership

variable {env execute provider}

/-- Deliveries over two lists of heights, one after the other, delivered their concatenation. -/
theorem Delivered.trans {st₁ st₂ st₃ : ChildState Address Hash} {heights₁ heights₂ : List Nat}
    (h₁ : Delivered env execute provider st₁ st₂ heights₁)
    (h₂ : Delivered env execute provider st₂ st₃ heights₂) :
    Delivered env execute provider st₁ st₃ (heights₁ ++ heights₂) := by
  obtain ⟨⟨cs₁, hcs₁, hnumbers₁, htracker₁⟩, ⟨ms₁, parent, hms₁, hparent, happly₁, hcirc₁⟩,
    hcurrent₁, hlast₁⟩ := h₁
  obtain ⟨⟨cs₂, hcs₂, hnumbers₂, htracker₂⟩, ⟨ms₂, parent₂, hms₂, hparent₂, happly₂, hcirc₂⟩,
    hcurrent₂, hlast₂⟩ := h₂
  -- the second batch comes from the same parent: applying the first keeps the subnet's name
  have hname : st₂.ledger.networkName = st₁.ledger.networkName :=
    Gateway.networkName_applyMessages env execute happly₁
  have hsame : parent = parent₂ := by
    rw [hname, hparent] at hparent₂
    exact Except.ok.inj hparent₂
  subst hsame
  -- the second batch is numbered on from where the first stopped
  have hnext : st₂.finality.validatorsTracker.changes.nextConfigurationNumber =
      st₁.finality.validatorsTracker.changes.nextConfigurationNumber + cs₁.flatten.length := by
    rw [htracker₁, Gateway.TopDownFinality.nextConfigurationNumber_recordRequests]
  refine ⟨⟨cs₁ ++ cs₂, by rw [List.mapM_append, hcs₁, hcs₂]; rfl, ?_, ?_⟩,
    ⟨ms₁ ++ ms₂, parent, by rw [List.mapM_append, hms₁, hms₂]; rfl, hparent, ?_, ?_⟩,
    hcurrent₂.trans hcurrent₁, hlast₂.trans hlast₁⟩
  · rw [List.flatten_append, List.map_append, hnumbers₁, hnumbers₂, hnext, List.length_append]
    exact List.range'_append_1
  · rw [htracker₂, htracker₁, List.flatten_append, Gateway.TopDownFinality.recordRequests_append]
  · rw [List.flatten_append, Gateway.applyMessages_append, happly₁, Except.ok_bind, happly₂]
  · rw [hcirc₂, hcirc₁, List.flatten_append, Gateway.totalValue_append]
    omega

/-- One delivery, on a storage that stands for a log of finalities: the finality, converted,
goes above the log's last height and is appended to it, and the side effects of the window from
the log's last height, or the genesis epoch, up to the finality's height are delivered. -/
theorem deliverTopDownExec_eq_ok {st st' : ChildState Address Hash}
    {log : List (ParentFinality FacetBlockHash)} (hlog : st.finality.Agrees log)
    {p : Chain.ParentFinality} (h : deliverTopDownExec env execute provider st p = .ok st') :
    ∃ f, (tryFromFinality ⟨p.height, p.block_hash⟩ : Except (CommitError Address) _) = .ok f ∧
      lastHeight log < p.height ∧ st'.finality.Agrees (log ++ [f]) ∧
      Delivered env execute provider st st'
        (List.range' (windowStart provider.genesisEpoch log)
          (p.height - windowStart provider.genesisEpoch log)) := by
  unfold deliverTopDownExec at h
  dsimp only at h
  split_ifs at h with henabled
  · cases h
  -- the commit, the two fetches around the store, and the execution, in order
  obtain ⟨⟨st₁, prevHeight, prev⟩, hcommit, h⟩ := Except.bind_eq_ok.1 h
  obtain ⟨f, hf, hlt, rfl, rfl⟩ := commitFinality_eq_ok hlog (Except.mapError_eq_ok.1 hcommit)
  obtain ⟨changes, hchanges, h⟩ := Except.bind_eq_ok.1 h
  obtain ⟨st₂, hstore, h⟩ := Except.bind_eq_ok.1 h
  obtain ⟨msgs, hmsgs, h⟩ := Except.bind_eq_ok.1 h
  obtain ⟨⟨ledger, circSupply⟩, hexec, h⟩ := Except.bind_eq_ok.1 h
  rw [Except.pure_eq_ok, Except.ok.injEq] at h
  subst h
  obtain ⟨hnumbers, rfl⟩ := GatewayCaller.storeValidatorChanges_eq_ok (Except.mapError_eq_ok.1 hstore)
  obtain ⟨hcirc, parent, hparent, happly⟩ :=
    Gateway.executeTopdownMsgs_eq_ok env execute (Except.mapError_eq_ok.1 hexec)
  have hheight : f.height = p.height := (tryFromFinality_eq_ok hf).1
  -- the loops run from the window's start to the height below the finality's, which is positive
  have hwindow : p.height - 1 + 1 - windowStart provider.genesisEpoch log =
      p.height - windowStart provider.genesisEpoch log := by
    omega
  obtain ⟨cs, hcs, rfl⟩ := collectFrom_eq_ok_iff.1 (Except.mapError_eq_ok.1 hchanges)
  obtain ⟨ms, hms, rfl⟩ := collectFrom_eq_ok_iff.1 (Except.mapError_eq_ok.1 hmsgs)
  rw [hwindow] at hcs hms
  refine ⟨f, hf, hheight ▸ hlt, ?_, ⟨⟨cs, hcs, hnumbers, rfl⟩, ⟨ms, parent, hms, hparent, happly, hcirc⟩,
    rfl, rfl⟩⟩
  -- only the commit wrote the finalities
  exact (hlog.commit hlt).congr rfl rfl

/-- A run of deliveries on a storage that stands for a log: the finalities, converted, are
appended to the log, and the side effects of every parent height from the first window's start up
to the last finality's height are delivered. The induction is on the finalities after the first;
from the second on, the log is not empty and each window starts where the last one stopped. -/
theorem deliverTopDownExec_run :
    ∀ {ps : List Chain.ParentFinality} {p : Chain.ParentFinality} {st st' : ChildState Address Hash}
      {log : List (ParentFinality FacetBlockHash)}, st.finality.Agrees log →
      (log = [] → provider.genesisEpoch ≤ p.height) →
      (p :: ps).foldlM (deliverTopDownExec env execute provider) st = .ok st' →
      ∃ fs, (p :: ps).mapM (fun p =>
          (tryFromFinality ⟨p.height, p.block_hash⟩ : Except (CommitError Address) _)) = .ok fs ∧
        st'.finality.Agrees (log ++ fs) ∧
        Delivered env execute provider st st'
          (List.range' (windowStart provider.genesisEpoch log)
            (st'.finality.latestParentHeight - windowStart provider.genesisEpoch log))
  | [], p, st, st', log, hlog, _, h => by
    rw [List.foldlM_cons, Except.bind_eq_ok] at h
    obtain ⟨st₁, h₁, h⟩ := h
    rw [List.foldlM_nil, Except.pure_eq_ok, Except.ok.injEq] at h
    subst h
    obtain ⟨f, hf, -, hagrees, hdelivered⟩ := deliverTopDownExec_eq_ok hlog h₁
    have hlatest : st₁.finality.latestParentHeight = p.height := by
      rw [hagrees.latest, lastHeight_concat, (tryFromFinality_eq_ok hf).1]
    refine ⟨[f], by rw [List.mapM_cons, hf]; rfl, hagrees, hlatest ▸ hdelivered⟩
  | q :: ps, p, st, st', log, hlog, hgenesis, h => by
    rw [List.foldlM_cons, Except.bind_eq_ok] at h
    obtain ⟨st₁, h₁, h⟩ := h
    obtain ⟨f, hf, hlt, hagrees₁, hdelivered₁⟩ := deliverTopDownExec_eq_ok hlog h₁
    obtain ⟨fs, hfs, hagrees, hdelivered⟩ :=
      deliverTopDownExec_run hagrees₁ (fun hnil => absurd hnil (by simp)) h
    have hheight : f.height = p.height := (tryFromFinality_eq_ok hf).1
    -- the first window starts at or below the first finality's height ...
    have hstart : windowStart provider.genesisEpoch log ≤ p.height := by
      rcases List.eq_nil_or_concat log with rfl | ⟨l, g, rfl⟩
      · exact hgenesis rfl
      · rw [List.concat_eq_append, lastHeight_concat] at hlt
        rw [List.concat_eq_append, windowStart_concat]
        exact hlt.le
    -- ... and the second one starts there, at or below the last finality's
    have hend : p.height ≤ st'.finality.latestParentHeight := by
      rw [hagrees.latest, ← hheight]
      exact le_lastHeight hagrees.sorted (by simp)
    rw [windowStart_concat, hheight] at hdelivered
    refine ⟨f :: fs, by rw [List.mapM_cons, hf, Except.ok_bind, hfs]; rfl, by simpa using hagrees, ?_⟩
    rw [← range'_sub_append hstart hend]
    exact hdelivered₁.trans hdelivered

omit [DecidableEq Address] [Inhabited Address] in
/-- On a storage that stands for a log, the window starts at the latest height, or at the genesis
epoch when it is zero: the heights of the log are positive. -/
theorem windowStart_of_agrees {Hash : Type} [Inhabited Hash] {s : GatewayActorStorage Address Hash}
    {log : List (ParentFinality Hash)} (hlog : s.Agrees log) (genesisEpoch : Nat) :
    windowStart genesisEpoch log =
      if s.latestParentHeight = 0 then genesisEpoch else s.latestParentHeight := by
  rw [hlog.latest]
  rcases List.eq_nil_or_concat log with rfl | ⟨l, g, rfl⟩
  · rfl
  · have hpos : 0 < g.height := hlog.pos g (by simp)
    rw [List.concat_eq_append, windowStart_concat, lastHeight_concat, if_neg (by omega)]

/-- Over every run of top-down executions on the child, from every storage of its gateway that the
facet's calls reach from the constructor, each parent height's side effects are delivered once and
in order: the finalities go, converted, above the ones committed before and in order, and the run
delivers the validator changes and the messages of every parent height from the latest committed
finality's (the genesis epoch's, when none is) up to the last finality's, as `Delivered` says. -/
theorem deliverTopDownExec_each_height_once {H : Type} [DecidableEq H]
    {hashValidators : List (Staking.Validator Address) → H} {st st' : ChildState Address Hash}
    {p : Chain.ParentFinality} {ps : List Chain.ParentFinality}
    (hreach : Reachable (GatewayActorStorage.Initial hashValidators)
      (GatewayActorStorage.Step hashValidators) st.finality)
    (hgenesis : st.finality.latestParentHeight = 0 → provider.genesisEpoch ≤ p.height)
    (h : (p :: ps).foldlM (deliverTopDownExec env execute provider) st = .ok st') :
    (∃ log fs, st.finality.Agrees log ∧
      (p :: ps).mapM (fun p =>
        (tryFromFinality ⟨p.height, p.block_hash⟩ : Except (CommitError Address) _)) = .ok fs ∧
      st'.finality.Agrees (log ++ fs)) ∧
    Delivered env execute provider st st'
      (List.range' (if st.finality.latestParentHeight = 0 then provider.genesisEpoch
          else st.finality.latestParentHeight)
        (st'.finality.latestParentHeight - if st.finality.latestParentHeight = 0 then
          provider.genesisEpoch else st.finality.latestParentHeight)) := by
  obtain ⟨log, hlog⟩ := GatewayActorStorage.agrees_of_reachable hashValidators hreach
  have hempty : log = [] → provider.genesisEpoch ≤ p.height := fun hnil =>
    hgenesis (by rw [hlog.latest, hnil, Gateway.TopDownFinality.lastHeight_nil])
  obtain ⟨fs, hfs, hagrees, hdelivered⟩ := deliverTopDownExec_run hlog hempty h
  rw [windowStart_of_agrees hlog] at hdelivered
  exact ⟨⟨log, fs, hlog, hfs, hagrees⟩, hdelivered⟩

/-- A child `/7` whose gateway was just constructed executes the finalities of parent heights five
and eight, with its genesis epoch at three: the parent's one change is a deposit of five by
validator `2` at height four, and its one message a transfer of three to address `9` of the child
at height six, which the child executes and answers with a receipt. -/
theorem deliverTopDownExec_each_height_once_two :
    let env : Env Nat Nat := ⟨fun _ => .Native, fun _ => 0, fun _ _ _ => [], fun _ => [], fun _ => true⟩
    let execute : IpcEnvelope Nat → SupplyKind → Bool × List UInt8 := fun _ _ => (true, [])
    let provider : ParentViewProvider Nat Unit :=
      ⟨true, 3, fun h => if h = 4 then .ok [⟨⟨.Deposit, 2, [], 5⟩, 1⟩] else .ok [],
        fun h => if h = 6 then .ok [⟨.Transfer, ⟨⟨1, [7]⟩, 9⟩, ⟨⟨1, []⟩, 5⟩, 0, 3, []⟩] else .ok []⟩
    let st : ChildState Nat Nat :=
      ⟨⟨0, fun _ => .zero, ⟨.empty .Collateral 4, .initial⟩, ⟨[], 0⟩, ⟨[], 0⟩⟩,
        ⟨⟨1, [7]⟩, 0, 0, [], ∅, [], [], 0, false, false⟩, 100⟩
    let p : Chain.ParentFinality := ⟨5, List.replicate 32 0⟩
    let ps : List Chain.ParentFinality := [⟨8, List.replicate 32 1⟩]
    ∃ st', (p :: ps).foldlM (deliverTopDownExec env execute provider) st = .ok st' ∧
      Reachable (GatewayActorStorage.Initial (id : List (Staking.Validator Nat) → _))
        (GatewayActorStorage.Step id) st.finality ∧
      (st.finality.latestParentHeight = 0 → provider.genesisEpoch ≤ p.height) ∧
      (∃ log fs, st.finality.Agrees log ∧
        (p :: ps).mapM (fun p =>
          (tryFromFinality ⟨p.height, p.block_hash⟩ : Except (CommitError Nat) _)) = .ok fs ∧
        st'.finality.Agrees (log ++ fs)) ∧
      Delivered env execute provider st st'
        (List.range' (if st.finality.latestParentHeight = 0 then provider.genesisEpoch
            else st.finality.latestParentHeight)
          (st'.finality.latestParentHeight - if st.finality.latestParentHeight = 0 then
            provider.genesisEpoch else st.finality.latestParentHeight)) := by
  intro env execute provider st p ps
  have hreach : Reachable (GatewayActorStorage.Initial (id : List (Staking.Validator Nat) → _))
      (GatewayActorStorage.Step id) st.finality :=
    GatewayActorStorage.reachable_new _ 4 []
  have hgenesis : st.finality.latestParentHeight = 0 → provider.genesisEpoch ≤ p.height :=
    fun _ => by decide
  obtain ⟨st', hrun⟩ : ∃ st', (p :: ps).foldlM (deliverTopDownExec env execute provider) st = .ok st' :=
    ⟨_, rfl⟩
  exact ⟨st', hrun, hreach, hgenesis, deliverTopDownExec_each_height_once hreach hgenesis hrun⟩

end Run

end Delorean.Fvm
