import Delorean.Fvm.Checkpoint
import Delorean.Gateway.Checkpoints
import Delorean.Gateway.TopDownFinality
import Delorean.Topdown.Tally

/-!
# The end of a block: checkpoints and the validator set

`fendermint_vm_interpreter::fvm::checkpoint::maybe_create_checkpoint`, the `end` of the FVM and
of the chain interpreters, and the conversion of the power updates that `finalize_block` returns
to CometBFT. At the end of a block of a child subnet whose gateway is deployed, when a batch of
bottom-up messages is due at the block's height or the height is a multiple of the checkpoint
period, the interpreter reads the current power table from the gateway's membership, has the
gateway apply the pending validator changes (`applyFinalityChanges`), burns the value of the
batch's messages from the circulating supply, and creates the checkpoint in the gateway with the
Merkle root and the total power of the current table: these are the validators who sign it. When
the changes gave a new membership, it returns the diff between the two power tables (`power_diff`);
the chain interpreter hands the diff to the vote tally of the parent finality, and CometBFT
applies it to its validator set.

The node is the execution state, the tally and CometBFT's validator set (`Node`), and its steps
are the end of a block and the other calls that reach these parts: the next block's height and
hash, the top-down finality calls of the system actor other than `applyFinalityChanges`, every call
of the checkpointing facet, and the tally's own operations. Over every run the gateway's two
storages stay states that their facets reach, and CometBFT and the tally give every validator the
power of the gateway's current membership (`Synced`): the membership only changes in
`applyFinalityChanges`, when the configuration number it returns is not zero, and then the diff
takes every power from the old table to the new one, zero powers included
(`powerAt_lastWrite_powerDiff`).

The public key's serialization, its parsing from the membership's metadata, the Merkle root of a
power table, the hash of a checkpoint and the hash of a validator list are parameters. The
asynchronous broadcast of signatures after the checkpoint, the FVM's gas and the events are not
modelled.
-/

namespace Delorean.Fvm

open Delorean.Gateway (SubnetID IpcEnvelope)
open Delorean.Gateway.Checkpointing (BottomUpCheckpoint CheckpointStorage)
open Delorean.Gateway.TopDownFinality (GatewayActorStorage Membership ParentFinality
  StakingChangeRequest Revert)
open Delorean.Topdown.Voting (VoteTally StmResult)

/-! ## Collateral to power -/

/-- `TokenAmount::DECIMALS`. -/
def tokenDecimals : Nat := 18

/-- The `decimals` of `Collateral::atto_per_power`: the number of decimals a unit of power stands
for, fewer than the token's for a positive scale (saturating at zero) and more for a negative one.
The negative branch computes `DECIMALS as i8 + d.abs()` in `i8`, which wraps in a release build
from a scale of -110 down (and `d.abs()` of -128 is -128 again), and casts the result to `u32`,
which sign-extends a negative value. -/
def attoPerPowerDecimals (scale : Int8) : Nat :=
  if 0 ≤ scale then tokenDecimals - scale.toInt.toNat
  else ((tokenDecimals.toInt8 + -scale).toInt % 2 ^ 32).toNat

/- The source's own test values, the last scale that does not wrap, and the first that does. -/
example : attoPerPowerDecimals 0 = 18 ∧ attoPerPowerDecimals 3 = 15 ∧
    attoPerPowerDecimals (-1) = 19 ∧ attoPerPowerDecimals (-109) = 127 ∧
    attoPerPowerDecimals (-110) = 2 ^ 32 - 128 := by
  decide

/-- `Collateral::atto_per_power`: ten to the number of decimals a unit of power stands for. -/
def attoPerPower (scale : Int8) : Nat := 10 ^ attoPerPowerDecimals scale

/-- `Collateral::into_power`: the collateral in atto over `atto_per_power`, rounded away from zero
so that a little collateral still gives some power, and clipped to `u64::MAX`. -/
def intoPower (collateral : Nat) (scale : Int8) : Nat :=
  let attoPerPower := attoPerPower scale
  let power := (collateral + attoPerPower - 1) / attoPerPower
  min power (2 ^ 64 - 1)

/- One FIL at the default scale is one unit of power, and so is one atto. -/
example : intoPower (10 ^ 18) 0 = 1 ∧ intoPower 1 0 = 1 := by decide

section Membership

variable {Address PublicKey : Type} (parseSlice : List UInt8 → Option PublicKey)

/-- `membership_to_power_table`: each validator of the membership whose metadata parses as a
public key, with the power of its collateral; a validator with other metadata is skipped. -/
def membershipToPowerTable (m : Membership Address) (power_scale : Int8) : PowerTable PublicKey :=
  ⟨m.validators.filterMap fun v =>
    (parseSlice v.metadata).map fun pk => ⟨pk, intoPower v.weight power_scale⟩⟩

end Membership

/-! ## The execution state and the gateway caller -/

/-- The parts of `FvmExecState` that the end of a block reads and writes: the block's height and
hash, the power scale, whether the gateway actor is deployed, the storage of the gateway's
top-down finality and checkpointing facets, and the circulating supply. -/
structure FvmExecState (Address Hash : Type) where
  blockHeight : Int
  blockHash : Option Hash
  powerScale : Int8
  gatewayEnabled : Bool
  finality : GatewayActorStorage Address Hash
  checkpoints : CheckpointStorage Address Hash
  circSupply : Int

/-- The reasons `create_bottom_up_checkpoint` fails. -/
inductive CreateCheckpointError (Address : Type) where
  /-- "failed to create validator tree" -/
  | ValidatorTree
  /-- The checkpointing facet reverts. -/
  | Checkpointing (e : Gateway.Checkpointing.Error Address)

/-- The reasons `maybe_create_checkpoint` fails. -/
inductive CheckpointError (Address : Type) where
  /-- "block height is not u64" -/
  | BlockHeightNotU64
  /-- "block hash not set" -/
  | BlockHashNotSet
  /-- "failed to apply validator changes" -/
  | ApplyValidatorChanges (e : Revert Address)
  /-- "failed to store checkpoint" -/
  | StoreCheckpoint (e : CreateCheckpointError Address)

namespace GatewayCaller

variable {Address Hash PublicKey : Type}

/-- `current_power_table`: the current membership's configuration number and its power table. -/
def currentPowerTable (parseSlice : List UInt8 → Option PublicKey)
    (state : FvmExecState Address Hash) : Nat × PowerTable PublicKey :=
  (state.finality.currentMembership.configurationNumber,
    membershipToPowerTable parseSlice state.finality.currentMembership state.powerScale)

variable [DecidableEq Address] [Inhabited Address]

/-- `apply_validator_changes`: the facet's `applyFinalityChanges`, which returns the configuration
number adopted, or zero when no change was pending. -/
def applyValidatorChanges {H : Type} [DecidableEq H] (hashValidators : List (Staking.Validator Address) → H)
    (state : FvmExecState Address Hash) : Except (Revert Address) (FvmExecState Address Hash × Nat) := do
  let (finality, configurationNumber) ← state.finality.applyFinalityChanges hashValidators
  return ({ state with finality }, configurationNumber)

/-- The total power of a table, saturating at `U256::MAX`. -/
def totalPower (power_table : List (Validator PublicKey)) : Nat :=
  power_table.foldl (fun p v => min (p + v.power) (2 ^ 256 - 1)) 0

/-- `create_bottom_up_checkpoint`: the Merkle tree of the power table, which can fail, then the
facet's `createBottomUpCheckpoint` with its root and the table's total power. -/
def createBottomUpCheckpoint (validatorTreeRoot : List (Validator PublicKey) → Option Hash)
    (hashCheckpoint : BottomUpCheckpoint Address Hash → Hash) (state : FvmExecState Address Hash)
    (checkpoint : BottomUpCheckpoint Address Hash) (power_table : List (Validator PublicKey)) :
    Except (CreateCheckpointError Address) (FvmExecState Address Hash) := do
  let some root := validatorTreeRoot power_table | throw .ValidatorTree
  let checkpoints ← (state.checkpoints.createBottomUpCheckpoint hashCheckpoint checkpoint root
    (totalPower power_table)).mapError .Checkpointing
  return { state with checkpoints }

end GatewayCaller

/-! ## `maybe_create_checkpoint` and the ends of a block -/

section End

variable {Address Hash PublicKey Key H : Type} [DecidableEq Address] [Inhabited Address]
  [DecidableEq PublicKey] [DecidableEq Key] [DecidableEq H]
  (serialize : PublicKey → Key) (parseSlice : List UInt8 → Option PublicKey)
  (hashValidators : List (Staking.Validator Address) → H)
  (validatorTreeRoot : List (Validator PublicKey) → Option Hash)
  (hashCheckpoint : BottomUpCheckpoint Address Hash → Hash)

/-- `should_create_checkpoint`: in a child subnet with the gateway deployed, the messages of the
batch at the height and the subnet's id, when the batch exists or the height is a multiple of the
checkpoint period. -/
def shouldCreateCheckpoint (state : FvmExecState Address Hash) (height : Nat) :
    Option (List (IpcEnvelope Address) × SubnetID Address) :=
  if !state.gatewayEnabled then none
  else
    let id := state.checkpoints.batches.networkName
    -- the root subnet has no parent to send checkpoints to
    if id.route.isEmpty then none
    else
      let batch := (state.checkpoints.batches.getBottomUpMsgBatch height).2
      if batch.blockHeight ≠ 0 then some (batch.msgs, id)
      else if height % state.checkpoints.batches.bottomUpCheckPeriod = 0 then some (batch.msgs, id)
      else none

/-- `tokens_to_burn`: the value of the messages leaving the subnet. -/
def tokensToBurn (msgs : List (IpcEnvelope Address)) : Nat :=
  msgs.foldl (fun total msg => total + msg.value) 0

/-- `maybe_create_checkpoint`: at a checkpoint height, apply the validator changes, burn the value
of the batch's messages, create the checkpoint for the current power table to sign, and return it
with the power updates of the new membership, if there is one. -/
def maybeCreateCheckpoint (state : FvmExecState Address Hash) :
    Except (CheckpointError Address)
      (FvmExecState Address Hash × Option (BottomUpCheckpoint Address Hash × PowerUpdates PublicKey)) := do
  let height ← if state.blockHeight < 0 then throw .BlockHeightNotU64 else pure state.blockHeight.toNat
  let block_hash ← match state.blockHash with
    | some block_hash => pure block_hash
    | none => throw .BlockHashNotSet
  match shouldCreateCheckpoint state height with
  | none => return (state, none)
  | some (msgs, subnet_id) =>
    -- the current power table comes from the ledger, not CometBFT
    let curr_power_table := (GatewayCaller.currentPowerTable parseSlice state).2
    let (state, next_configuration_number) ←
      (GatewayCaller.applyValidatorChanges hashValidators state).mapError .ApplyValidatorChanges
    let state := { state with circSupply := state.circSupply - tokensToBurn msgs }
    let checkpoint : BottomUpCheckpoint Address Hash :=
      ⟨subnet_id, height, block_hash, next_configuration_number, msgs⟩
    -- the validators of the current power table sign this checkpoint
    let state ← (GatewayCaller.createBottomUpCheckpoint validatorTreeRoot hashCheckpoint state
      checkpoint curr_power_table.validators).mapError .StoreCheckpoint
    let power_updates := if next_configuration_number = 0 then ⟨[]⟩
      else powerDiff serialize curr_power_table (GatewayCaller.currentPowerTable parseSlice state).2
    return (state, some (checkpoint, power_updates))

/-- `FvmMessageInterpreter::end`: the power updates of the checkpoint created, if any. -/
def fvmEnd (state : FvmExecState Address Hash) :
    Except (CheckpointError Address) (FvmExecState Address Hash × PowerUpdates PublicKey) := do
  let (state, checkpoint) ← maybeCreateCheckpoint serialize parseSlice hashValidators
    validatorTreeRoot hashCheckpoint state
  match checkpoint with
  | some (_, updates) => return (state, updates)
  | none => return (state, ⟨[]⟩)

/-- `ChainMessageInterpreter::end`: the FVM's end, after which the vote tally of the parent
finality learns the powers that changed, by public key. -/
def chainEnd {V : Type} [DecidableEq V] (votes : VoteTally PublicKey V)
    (state : FvmExecState Address Hash) :
    Except (CheckpointError Address)
      ((VoteTally PublicKey V × FvmExecState Address Hash) × PowerUpdates PublicKey) := do
  let (state, out) ← fvmEnd serialize parseSlice hashValidators validatorTreeRoot hashCheckpoint state
  let votes := if !out.updates.isEmpty then
      votes.updatePowerTable (out.updates.map fun v => (v.public_key, v.power))
    else votes
  return ((votes, state), out)

end End

/-- `to_validator_updates`: each validator with its power as CometBFT's `vote::Power`, which is a
non-negative `i64`; a larger power does not convert, and `finalize_block` fails. -/
def toValidatorUpdates {PublicKey : Type} (validators : List (Validator PublicKey)) :
    Except String (List (Validator PublicKey)) :=
  validators.mapM fun v =>
    if v.power ≤ 2 ^ 63 - 1 then .ok v else .error "failed to convert validator updates"

/-! ## One lemma per function -/

section Spec

variable {Address Hash PublicKey Key H : Type} [DecidableEq Address] [Inhabited Address]
  [DecidableEq PublicKey] [DecidableEq Key] [DecidableEq H]
  {serialize : PublicKey → Key} {parseSlice : List UInt8 → Option PublicKey}
  {hashValidators : List (Staking.Validator Address) → H}
  {validatorTreeRoot : List (Validator PublicKey) → Option Hash}
  {hashCheckpoint : BottomUpCheckpoint Address Hash → Hash}
  {state state' : FvmExecState Address Hash}

omit [DecidableEq PublicKey] [DecidableEq Key] in
theorem GatewayCaller.applyValidatorChanges_eq_ok {n : Nat}
    (h : GatewayCaller.applyValidatorChanges hashValidators state = .ok (state', n)) :
    state.finality.applyFinalityChanges hashValidators = .ok (state'.finality, n) ∧
      state' = { state with finality := state'.finality } := by
  obtain ⟨⟨finality, m⟩, happly, h⟩ := Except.bind_eq_ok.1 h
  dsimp only at h
  rw [Except.pure_eq_ok, Except.ok.injEq, Prod.mk.injEq] at h
  obtain ⟨rfl, rfl⟩ := h
  exact ⟨happly, rfl⟩

omit [DecidableEq Address] [Inhabited Address] [DecidableEq PublicKey] [DecidableEq Key]
  [DecidableEq H] in
theorem GatewayCaller.createBottomUpCheckpoint_eq_ok {checkpoint : BottomUpCheckpoint Address Hash}
    {power_table : List (Validator PublicKey)}
    (h : GatewayCaller.createBottomUpCheckpoint validatorTreeRoot hashCheckpoint state checkpoint
      power_table = .ok state') :
    ∃ root, validatorTreeRoot power_table = some root ∧
      state.checkpoints.createBottomUpCheckpoint hashCheckpoint checkpoint root
        (GatewayCaller.totalPower power_table) = .ok state'.checkpoints ∧
      state' = { state with checkpoints := state'.checkpoints } := by
  unfold GatewayCaller.createBottomUpCheckpoint at h
  cases hroot : validatorTreeRoot power_table with
  | none =>
    rw [hroot] at h
    cases h
  | some root =>
    rw [hroot] at h
    dsimp only at h
    obtain ⟨checkpoints, hcreate, h⟩ := Except.bind_eq_ok.1 h
    rw [Except.pure_eq_ok, Except.ok.injEq] at h
    subst h
    exact ⟨root, rfl, Except.mapError_eq_ok.1 hcreate, rfl⟩

/-- The two ways `maybe_create_checkpoint` succeeds: no checkpoint is due and nothing changes, or
the validator changes are applied, the checkpoint is created, and the updates are the diff to the
new membership's power table when a configuration was adopted. -/
theorem maybeCreateCheckpoint_eq_ok
    {r : Option (BottomUpCheckpoint Address Hash × PowerUpdates PublicKey)}
    (h : maybeCreateCheckpoint serialize parseSlice hashValidators validatorTreeRoot hashCheckpoint
      state = .ok (state', r)) :
    (state' = state ∧ r = none) ∨
      ∃ checkpoint membershipRootHash membershipWeight configurationNumber,
        state.finality.applyFinalityChanges hashValidators =
          .ok (state'.finality, configurationNumber) ∧
        state.checkpoints.createBottomUpCheckpoint hashCheckpoint checkpoint membershipRootHash
          membershipWeight = .ok state'.checkpoints ∧
        state'.powerScale = state.powerScale ∧
        r = some (checkpoint, if configurationNumber = 0 then ⟨[]⟩
          else powerDiff serialize (GatewayCaller.currentPowerTable parseSlice state).2
            (GatewayCaller.currentPowerTable parseSlice state').2) := by
  unfold maybeCreateCheckpoint at h
  dsimp only at h
  -- the height and the hash are checked first
  split_ifs at h with hheight
  · cases h
  rw [Except.pure_eq_ok, Except.ok_bind] at h
  cases hhash : state.blockHash with
  | none =>
    rw [hhash] at h
    cases h
  | some block_hash =>
  rw [hhash] at h
  dsimp only at h
  rw [Except.pure_eq_ok, Except.ok_bind] at h
  split at h
  · -- no checkpoint is due
    rw [Except.pure_eq_ok, Except.ok.injEq, Prod.mk.injEq] at h
    exact .inl ⟨h.1.symm, h.2.symm⟩
  · rename_i msgs subnet_id _
    obtain ⟨⟨state₁, configurationNumber⟩, happly, h⟩ := Except.bind_eq_ok.1 h
    dsimp only at h
    obtain ⟨state₂, hcreate, h⟩ := Except.bind_eq_ok.1 h
    rw [Except.pure_eq_ok, Except.ok.injEq, Prod.mk.injEq] at h
    obtain ⟨rfl, rfl⟩ := h
    obtain ⟨hfinality, hstate₁⟩ :=
      GatewayCaller.applyValidatorChanges_eq_ok (Except.mapError_eq_ok.1 happly)
    obtain ⟨root, -, hcheckpoint, hstate₂⟩ :=
      GatewayCaller.createBottomUpCheckpoint_eq_ok (Except.mapError_eq_ok.1 hcreate)
    -- the state after the checkpoint is the state after the changes, with new checkpoints
    have hfinality₂ : state₂.finality = state₁.finality := by rw [hstate₂]
    have hscale₂ : state₂.powerScale = state.powerScale := by rw [hstate₂, hstate₁]
    have hcheckpoints₁ : state₁.checkpoints = state.checkpoints := by rw [hstate₁]
    dsimp only at hcheckpoint
    rw [hcheckpoints₁] at hcheckpoint
    refine .inr ⟨_, root, _, configurationNumber, ?_, hcheckpoint, hscale₂, rfl⟩
    rw [hfinality₂]
    exact hfinality

/-- The two ways the FVM's end succeeds: no checkpoint is due, and it returns no update, or the
checkpoint is created and it returns the updates of `maybe_create_checkpoint`. -/
theorem fvmEnd_eq_ok {updates : PowerUpdates PublicKey}
    (h : fvmEnd serialize parseSlice hashValidators validatorTreeRoot hashCheckpoint state =
      .ok (state', updates)) :
    (state' = state ∧ updates = ⟨[]⟩) ∨
      ∃ checkpoint membershipRootHash membershipWeight configurationNumber,
        state.finality.applyFinalityChanges hashValidators =
          .ok (state'.finality, configurationNumber) ∧
        state.checkpoints.createBottomUpCheckpoint hashCheckpoint checkpoint membershipRootHash
          membershipWeight = .ok state'.checkpoints ∧
        state'.powerScale = state.powerScale ∧
        updates = if configurationNumber = 0 then ⟨[]⟩
          else powerDiff serialize (GatewayCaller.currentPowerTable parseSlice state).2
            (GatewayCaller.currentPowerTable parseSlice state').2 := by
  obtain ⟨⟨state₁, r⟩, hmaybe, h⟩ := Except.bind_eq_ok.1 h
  rcases maybeCreateCheckpoint_eq_ok hmaybe with
    ⟨rfl, rfl⟩ | ⟨checkpoint, root, weight, n, hfinality, hcheckpoint, hscale, rfl⟩
  · dsimp only at h
    rw [Except.pure_eq_ok, Except.ok.injEq, Prod.mk.injEq] at h
    exact .inl ⟨h.1.symm, h.2.symm⟩
  · dsimp only at h
    rw [Except.pure_eq_ok, Except.ok.injEq, Prod.mk.injEq] at h
    obtain ⟨rfl, rfl⟩ := h
    exact .inr ⟨checkpoint, root, weight, n, hfinality, hcheckpoint, hscale, rfl⟩

/-- The chain interpreter's end is the FVM's, and after it the tally weighs each validator as the
last update to its public key says, and as before when no update names it. -/
theorem chainEnd_eq_ok {V : Type} [DecidableEq V] {votes votes' : VoteTally PublicKey V}
    {updates : PowerUpdates PublicKey}
    (h : chainEnd serialize parseSlice hashValidators validatorTreeRoot hashCheckpoint votes state =
      .ok ((votes', state'), updates)) :
    fvmEnd serialize parseSlice hashValidators validatorTreeRoot hashCheckpoint state =
        .ok (state', updates) ∧
      ∀ pk, votes'.weightOf pk =
        (AList.lastWrite (updates.updates.map fun v => (v.public_key, v.power)) pk).getD
          (votes.weightOf pk) := by
  obtain ⟨⟨state₁, out⟩, hend, h⟩ := Except.bind_eq_ok.1 h
  dsimp only at h
  rw [Except.pure_eq_ok, Except.ok.injEq, Prod.mk.injEq, Prod.mk.injEq] at h
  obtain ⟨⟨rfl, rfl⟩, rfl⟩ := h
  refine ⟨hend, fun pk => ?_⟩
  split_ifs with hempty
  · exact VoteTally.weightOf_updatePowerTable _ _ pk
  · -- an empty diff leaves the tally alone, as no update names anyone
    have hnil : out.updates = [] := by simpa using hempty
    rw [hnil]
    rfl

omit [DecidableEq PublicKey] in
/-- A conversion that succeeds gives back the validators as they were. -/
theorem toValidatorUpdates_eq_ok {validators validators' : List (Validator PublicKey)}
    (h : toValidatorUpdates validators = .ok validators') : validators' = validators := by
  unfold toValidatorUpdates at h
  -- each validator converts to itself
  have heach : List.Forall₂ (fun v w => w = v) validators validators' :=
    (Except.forall₂_of_mapM_eq_ok h).imp fun v w hv => by
      split_ifs at hv
      exact (Except.ok.inj hv).symm
  clear h
  induction heach with
  | nil => rfl
  | cons hvw _ ih => rw [hvw, ih]

end Spec

/-! ## The node over its runs -/

/-- The node: its execution state, the vote tally of the parent finality, and the validator set
CometBFT runs with. -/
structure Node (Address Hash PublicKey V : Type) where
  state : FvmExecState Address Hash
  votes : VoteTally PublicKey V
  comet : PowerTable PublicKey

namespace Node

variable {Address Hash PublicKey Key H Sig V : Type} [DecidableEq Address] [Inhabited Address]
  [Inhabited Hash] [DecidableEq PublicKey] [DecidableEq Key] [DecidableEq H] [DecidableEq V]
  (serialize : PublicKey → Key) (parseSlice : List UInt8 → Option PublicKey)
  (hashValidators : List (Staking.Validator Address) → H)
  (validatorTreeRoot : List (Validator PublicKey) → Option Hash)
  (hashCheckpoint : BottomUpCheckpoint Address Hash → Hash)
  (tryRecover : Hash → Sig → Option Address) (verify : List Hash → Hash → Address → Nat → Bool)

/-- A node as genesis and the syncer's launch leave it: the gateway's two storages as its
constructor leaves them, CometBFT running with the power table of the genesis membership, and the
tally set to the ledger's current power table. -/
def Initial (n : Node Address Hash PublicKey V) : Prop :=
  GatewayActorStorage.Initial hashValidators n.state.finality ∧
    CheckpointStorage.Initial n.state.checkpoints ∧
    n.comet = (GatewayCaller.currentPowerTable parseSlice n.state).2 ∧
    n.votes.power_table = VoteTally.powerTableOf
      ((GatewayCaller.currentPowerTable parseSlice n.state).2.validators.map fun v =>
        (v.public_key, v.power))

/-- What the node does to the parts of it modelled here. The end of a block is the chain
interpreter's end, after which `finalize_block` converts the updates and CometBFT applies them. -/
inductive Step : Node Address Hash PublicKey V → Node Address Hash PublicKey V → Prop
  | endBlock {n : Node Address Hash PublicKey V} {votes : VoteTally PublicKey V}
      {state : FvmExecState Address Hash} {updates : PowerUpdates PublicKey}
      {validatorUpdates : List (Validator PublicKey)}
      (hend : chainEnd serialize parseSlice hashValidators validatorTreeRoot hashCheckpoint n.votes
        n.state = .ok ((votes, state), updates))
      (hconvert : toValidatorUpdates updates.updates = .ok validatorUpdates) :
      Step n ⟨state, votes, powerUpdate serialize n.comet ⟨validatorUpdates⟩⟩
  /-- The next block starts, at its height and with its hash. -/
  | beginBlock {n : Node Address Hash PublicKey V} (blockHeight : Int) (blockHash : Option Hash) :
      Step n { n with state := { n.state with blockHeight, blockHash } }
  /-- The top-down execution commits a parent finality. -/
  | commitParentFinality {n : Node Address Hash PublicKey V}
      {finality' : GatewayActorStorage Address Hash} (finality : ParentFinality Hash)
      (h : n.state.finality.apply hashValidators (.commitParentFinality finality) = .ok finality') :
      Step n { n with state := { n.state with finality := finality' } }
  /-- The top-down execution stores the parent's validator changes. -/
  | storeValidatorChanges {n : Node Address Hash PublicKey V}
      {finality' : GatewayActorStorage Address Hash}
      (changeRequests : List (StakingChangeRequest Address))
      (h : n.state.finality.apply hashValidators (.storeValidatorChanges changeRequests) =
        .ok finality') :
      Step n { n with state := { n.state with finality := finality' } }
  /-- A call to the checkpointing facet, such as a validator's signature. -/
  | checkpointing {n : Node Address Hash PublicKey V} {checkpoints : CheckpointStorage Address Hash}
      (call : Gateway.Checkpointing.Call Address Hash Sig)
      (h : n.state.checkpoints.apply tryRecover verify hashCheckpoint call = .ok checkpoints) :
      Step n { n with state := { n.state with checkpoints } }
  /-- The syncer adds a parent block to the tally. -/
  | addBlock {n : Node Address Hash PublicKey V} {votes : VoteTally PublicKey V}
      (block_height : Nat) (block_hash : Option V)
      (h : n.votes.addBlock block_height block_hash = .ok votes) : Step n { n with votes }
  /-- A gossiped vote. -/
  | addVote {n : Node Address Hash PublicKey V} {votes : VoteTally PublicKey V}
      (validator_key : PublicKey) (block_height : Nat) (block_hash : V) (added : Bool)
      (h : n.votes.addVote validator_key block_height block_hash = .commit votes added) :
      Step n { n with votes }
  /-- A proposal looks for a quorum. -/
  | findQuorum {n : Node Address Hash PublicKey V} :
      Step n { n with votes := n.votes.pauseVotesUntilFindQuorum.findQuorum.1 }
  /-- A finality is set in the tally. -/
  | setFinalized {n : Node Address Hash PublicKey V} (block_height : Nat) (block_hash : V) :
      Step n { n with votes := n.votes.setFinalized block_height block_hash }

/-- The node's invariant: each of the gateway's storages is a state its facet reaches, and CometBFT
and the tally give every validator the power of the gateway's current membership. -/
structure Synced (n : Node Address Hash PublicKey V) : Prop where
  finality : Reachable (GatewayActorStorage.Initial hashValidators)
    (GatewayActorStorage.Step hashValidators) n.state.finality
  checkpoints : Reachable CheckpointStorage.Initial
    (CheckpointStorage.Step tryRecover verify hashCheckpoint) n.state.checkpoints
  comet : ∀ k, n.comet.powerAt serialize k =
    (GatewayCaller.currentPowerTable parseSlice n.state).2.powerAt serialize k
  votes : ∀ pk, n.votes.weightOf pk =
    (GatewayCaller.currentPowerTable parseSlice n.state).2.powerAt serialize (serialize pk)

section Runs

variable {serialize parseSlice hashValidators validatorTreeRoot hashCheckpoint tryRecover verify}

omit [DecidableEq V] in
/-- A step that leaves the membership, the power scale, CometBFT and the tally's power table alone,
and leaves each storage at a state its facet reaches, keeps the node synced. -/
theorem Synced.congr {n n' : Node Address Hash PublicKey V}
    (hs : n.Synced serialize parseSlice hashValidators hashCheckpoint tryRecover verify)
    (hfinality : Reachable (GatewayActorStorage.Initial hashValidators)
      (GatewayActorStorage.Step hashValidators) n'.state.finality)
    (hcheckpoints : Reachable CheckpointStorage.Initial
      (CheckpointStorage.Step tryRecover verify hashCheckpoint) n'.state.checkpoints)
    (htable : (GatewayCaller.currentPowerTable parseSlice n'.state).2 =
      (GatewayCaller.currentPowerTable parseSlice n.state).2)
    (hcomet : n'.comet = n.comet) (hvotes : n'.votes.power_table = n.votes.power_table) :
    n'.Synced serialize parseSlice hashValidators hashCheckpoint tryRecover verify where
  finality := hfinality
  checkpoints := hcheckpoints
  comet k := by
    rw [hcomet, htable]
    exact hs.comet k
  votes pk := by
    rw [htable, ← hs.votes pk]
    unfold VoteTally.weightOf
    rw [hvotes]

/-- Over a top-down finality storage that its facet reaches, the end of a block moves each of the
gateway's storages by one step of its facet, or not at all, and returns updates that take every
power of the current membership's table to its power in the membership after the block. -/
theorem fvmEnd_spec {state state' : FvmExecState Address Hash} {updates : PowerUpdates PublicKey}
    (hfinality : Reachable (GatewayActorStorage.Initial hashValidators)
      (GatewayActorStorage.Step hashValidators) state.finality)
    (hcheckpoints : Reachable CheckpointStorage.Initial
      (CheckpointStorage.Step tryRecover verify hashCheckpoint) state.checkpoints)
    (h : fvmEnd serialize parseSlice hashValidators validatorTreeRoot hashCheckpoint state =
      .ok (state', updates)) :
    Reachable (GatewayActorStorage.Initial hashValidators)
        (GatewayActorStorage.Step hashValidators) state'.finality ∧
      Reachable CheckpointStorage.Initial
        (CheckpointStorage.Step tryRecover verify hashCheckpoint) state'.checkpoints ∧
      ∀ k, (AList.lastWrite (updates.updates.map (powerWrite serialize)) k).getD
          ((GatewayCaller.currentPowerTable parseSlice state).2.powerAt serialize k) =
        (GatewayCaller.currentPowerTable parseSlice state').2.powerAt serialize k := by
  rcases fvmEnd_eq_ok h with ⟨rfl, rfl⟩ |
    ⟨checkpoint, root, weight, n, happly, hcreate, hscale, rfl⟩
  · exact ⟨hfinality, hcheckpoints, fun _ => rfl⟩
  have ht := GatewayActorStorage.tracks_of_reachable hashValidators hfinality
  refine ⟨hfinality.tail ⟨.applyFinalityChanges, ?_⟩,
    hcheckpoints.tail ⟨.createBottomUpCheckpoint checkpoint root weight, hcreate⟩, fun k => ?_⟩
  · -- the facet's call returns the storage that `applyFinalityChanges` leaves
    show (do let r ← state.finality.applyFinalityChanges hashValidators; return r.1) = _
    rw [happly]
    rfl
  rcases ht.applyFinalityChanges_eq_ok hashValidators happly with
    ⟨-, hnone⟩ | ⟨hpending, validatorsTracker, -, hadopted⟩
  · -- nothing was pending: the number is zero and the membership the same
    rw [Prod.mk.injEq] at hnone
    obtain ⟨hsame, rfl⟩ := hnone
    have htable : (GatewayCaller.currentPowerTable parseSlice state').2 =
        (GatewayCaller.currentPowerTable parseSlice state).2 := by
      unfold GatewayCaller.currentPowerTable
      rw [hsame, hscale]
    rw [if_pos rfl, htable]
    rfl
  · -- a configuration was adopted, numbered one below the next, so at least the start, which
    -- is one above the current membership's number
    have hcurrent := ht.current
    rw [Prod.mk.injEq] at hadopted
    obtain ⟨-, hn⟩ := hadopted
    have hne : n ≠ 0 := by omega
    rw [if_neg hne]
    exact powerAt_lastWrite_powerDiff serialize _ _ k

/-- The end of a block keeps the node synced: CometBFT and the tally apply the same updates, and
these take the current membership's powers to the next one's. -/
theorem Synced.endBlock (hserialize : Function.Injective serialize)
    {n : Node Address Hash PublicKey V}
    (hs : n.Synced serialize parseSlice hashValidators hashCheckpoint tryRecover verify)
    {votes : VoteTally PublicKey V} {state : FvmExecState Address Hash}
    {updates : PowerUpdates PublicKey} {validatorUpdates : List (Validator PublicKey)}
    (hend : chainEnd serialize parseSlice hashValidators validatorTreeRoot hashCheckpoint n.votes
      n.state = .ok ((votes, state), updates))
    (hconvert : toValidatorUpdates updates.updates = .ok validatorUpdates) :
    Synced serialize parseSlice hashValidators hashCheckpoint tryRecover verify
      ⟨state, votes, powerUpdate serialize n.comet ⟨validatorUpdates⟩⟩ := by
  obtain ⟨hfvm, hweights⟩ := chainEnd_eq_ok hend
  obtain ⟨hfinality, hcheckpoints, htakes⟩ := fvmEnd_spec hs.finality hs.checkpoints hfvm
  rw [toValidatorUpdates_eq_ok hconvert]
  refine ⟨hfinality, hcheckpoints, fun k => ?_, fun pk => ?_⟩
  · show (powerUpdate serialize n.comet updates).powerAt serialize k = _
    rw [powerAt_powerUpdate, hs.comet k]
    exact htakes k
  · -- the tally is keyed by the public key, CometBFT by its serialization
    show votes.weightOf pk = _
    rw [hweights pk, ← lastWrite_powerWrite_serialize serialize hserialize, hs.votes pk]
    exact htakes (serialize pk)

theorem Synced.step (hserialize : Function.Injective serialize) {n n' : Node Address Hash PublicKey V}
    (hs : n.Synced serialize parseSlice hashValidators hashCheckpoint tryRecover verify)
    (hstep : Step serialize parseSlice hashValidators validatorTreeRoot hashCheckpoint tryRecover
      verify n n') :
    n'.Synced serialize parseSlice hashValidators hashCheckpoint tryRecover verify := by
  cases hstep with
  | endBlock hend hconvert => exact hs.endBlock hserialize hend hconvert
  | beginBlock blockHeight blockHash => exact hs.congr hs.finality hs.checkpoints rfl rfl rfl
  | commitParentFinality finality h =>
    have hreach := hs.finality.tail ⟨_, h⟩
    obtain ⟨-, rfl⟩ := GatewayActorStorage.apply_commitParentFinality hashValidators h
    exact hs.congr hreach hs.checkpoints rfl rfl rfl
  | storeValidatorChanges changeRequests h =>
    have hreach := hs.finality.tail ⟨_, h⟩
    rw [GatewayActorStorage.apply_storeValidatorChanges hashValidators h] at hreach ⊢
    exact hs.congr hreach hs.checkpoints rfl rfl rfl
  | checkpointing call h => exact hs.congr hs.finality (hs.checkpoints.tail ⟨call, h⟩) rfl rfl rfl
  | addBlock block_height block_hash h =>
    obtain ⟨-, -, -, -, rfl⟩ := VoteTally.addBlock_eq_ok h
    exact hs.congr hs.finality hs.checkpoints rfl rfl rfl
  | addVote validator_key block_height block_hash added h =>
    -- a vote commits the old tally, or the old one with the vote recorded
    rcases VoteTally.addVote_eq_commit h with ⟨-, rfl, -⟩ | ⟨-, -, -, -, rfl⟩
    · exact hs.congr hs.finality hs.checkpoints rfl rfl rfl
    · exact hs.congr hs.finality hs.checkpoints rfl rfl rfl
  | findQuorum =>
    exact hs.congr hs.finality hs.checkpoints rfl rfl (by rw [VoteTally.findQuorum_fst]; rfl)
  | setFinalized block_height block_hash => exact hs.congr hs.finality hs.checkpoints rfl rfl rfl

omit [DecidableEq V] in
theorem synced_initial (hserialize : Function.Injective serialize)
    {n : Node Address Hash PublicKey V} (h : n.Initial parseSlice hashValidators) :
    n.Synced serialize parseSlice hashValidators hashCheckpoint tryRecover verify := by
  obtain ⟨hfinality, hcheckpoints, hcomet, hvotes⟩ := h
  refine ⟨.of_init hfinality, .of_init hcheckpoints, fun k => by rw [hcomet], fun pk => ?_⟩
  unfold VoteTally.weightOf
  rw [hvotes, VoteTally.lookup_powerTableOf, powerAt_serialize serialize hserialize]

theorem synced_of_reachable (hserialize : Function.Injective serialize)
    {n : Node Address Hash PublicKey V}
    (hr : Reachable (Initial parseSlice hashValidators)
      (Step serialize parseSlice hashValidators validatorTreeRoot hashCheckpoint tryRecover verify) n) :
    n.Synced serialize parseSlice hashValidators hashCheckpoint tryRecover verify :=
  Reachable.invariant
    (I := fun n => n.Synced serialize parseSlice hashValidators hashCheckpoint tryRecover verify)
    (fun _ h => synced_initial hserialize h) (fun _ _ hs hstep => hs.step hserialize hstep) hr

/-- Over every run of the node from genesis, the gateway's top-down finality and checkpointing
storages are states their facets reach, and CometBFT's validator set and the tally of the parent
finality's votes give every validator the power the gateway's current membership gives it, zero
when the membership does not hold it. The serialization of public keys is injective. -/
theorem validator_powers_follow_membership (hserialize : Function.Injective serialize)
    {n : Node Address Hash PublicKey V}
    (hr : Reachable (Initial parseSlice hashValidators)
      (Step serialize parseSlice hashValidators validatorTreeRoot hashCheckpoint tryRecover verify) n) :
    Reachable (GatewayActorStorage.Initial hashValidators)
        (GatewayActorStorage.Step hashValidators) n.state.finality ∧
      Reachable CheckpointStorage.Initial
        (CheckpointStorage.Step tryRecover verify hashCheckpoint) n.state.checkpoints ∧
      (∀ k, n.comet.powerAt serialize k =
        (GatewayCaller.currentPowerTable parseSlice n.state).2.powerAt serialize k) ∧
      ∀ pk, n.votes.weightOf pk =
        (GatewayCaller.currentPowerTable parseSlice n.state).2.powerAt serialize (serialize pk) := by
  have hs := synced_of_reachable hserialize hr
  exact ⟨hs.finality, hs.checkpoints, hs.comet, hs.votes⟩

/-- A child subnet of `/7` starts with one validator of collateral ten atto, whose metadata the
parser reads as key one with power one. The parent's finality at height five and a deposit of
five atto by validator two, with empty metadata, are committed; block four then ends at the
checkpoint period. The deposit is adopted as configuration one, which holds validator two alone;
the checkpoint at height four is created, and CometBFT and the tally move the power from key one
to key zero. -/
theorem validator_powers_follow_membership_deposit :
    let serialize : Nat → Nat := id
    let parseSlice : List UInt8 → Option Nat := fun metadata => some metadata.length
    let hashValidators : List (Staking.Validator Nat) → List (Staking.Validator Nat) := id
    let validatorTreeRoot : List (Validator Nat) → Option Nat := fun table => some table.length
    let hashCheckpoint : BottomUpCheckpoint Nat Nat → Nat := fun c => c.blockHeight + 100
    let tryRecover : Nat → Nat → Option Nat := fun _ signature => some signature
    let verify : List Nat → Nat → Nat → Nat → Bool := fun _ _ _ _ => true
    ∃ n : Node Nat Nat Nat Nat,
      Reachable (Initial parseSlice hashValidators)
        (Step serialize parseSlice hashValidators validatorTreeRoot hashCheckpoint tryRecover verify)
        n ∧
      n.state.checkpoints.bottomUpCheckpointExists 4 = true ∧
      n.state.finality.currentMembership = ⟨[⟨5, 2, []⟩], 1⟩ ∧
      n.comet.powerAt serialize 0 = 1 ∧ n.comet.powerAt serialize 1 = 0 ∧
      n.votes.weightOf 0 = 1 ∧ n.votes.weightOf 1 = 0 ∧
      Reachable (GatewayActorStorage.Initial hashValidators)
        (GatewayActorStorage.Step hashValidators) n.state.finality ∧
      Reachable CheckpointStorage.Initial
        (CheckpointStorage.Step tryRecover verify hashCheckpoint) n.state.checkpoints ∧
      (∀ k, n.comet.powerAt serialize k =
        (GatewayCaller.currentPowerTable parseSlice n.state).2.powerAt serialize k) ∧
      ∀ pk, n.votes.weightOf pk =
        (GatewayCaller.currentPowerTable parseSlice n.state).2.powerAt serialize (serialize pk) := by
  intro serialize parseSlice hashValidators validatorTreeRoot hashCheckpoint tryRecover verify
  have hserialize : Function.Injective serialize := Function.injective_id
  have hpower : intoPower 10 0 = 1 ∧ intoPower 5 0 = 1 := by decide
  obtain ⟨s₁, s₂, s₃, h₁, h₂, h₃, -, hcurrent, hmembership⟩ := GatewayActorStorage.deposit_run
  have hinit : Reachable (Initial parseSlice hashValidators)
      (Step serialize parseSlice hashValidators validatorTreeRoot hashCheckpoint tryRecover verify)
      (⟨⟨0, none, 0, true,
          ⟨0, fun _ => .zero, ⟨.empty .Collateral 4, .initial⟩, ⟨[⟨10, 1, [5]⟩], 0⟩, ⟨[], 0⟩⟩,
          ⟨⟨⟨1, [7]⟩, 0, 4, 10, OrdMap.empty, by decide⟩, Gateway.QuorumMap.empty,
            fun _ => CheckpointStorage.zeroCheckpoint, 66⟩, 0⟩,
        VoteTally.new [(1, 1)] (0, 0), ⟨[⟨1, 1⟩]⟩⟩ : Node Nat Nat Nat Nat) :=
    .of_init ⟨⟨4, [⟨10, 1, [5]⟩], GatewayActorStorage.new_eq hashValidators 4 _⟩,
      ⟨rfl, fun _ => rfl⟩, by decide, rfl⟩
  -- the parent's finality and the deposit are committed, and block four starts
  have hblock := ((hinit.tail (.commitParentFinality _ h₁)).tail
    (.storeValidatorChanges _ h₂)).tail (.beginBlock 4 (some 3))
  -- the end of block four adopts the deposit and creates the checkpoint
  have hfvm : (fvmEnd serialize parseSlice hashValidators validatorTreeRoot hashCheckpoint
      (⟨4, some 3, 0, true, s₂, ⟨⟨⟨1, [7]⟩, 0, 4, 10, OrdMap.empty, by decide⟩,
        Gateway.QuorumMap.empty, fun _ => CheckpointStorage.zeroCheckpoint, 66⟩, 0⟩ :
          FvmExecState Nat Nat)).map
      (fun r => (r.1.finality, r.1.powerScale, r.1.checkpoints.bottomUpCheckpointExists 4, r.2)) =
      .ok (s₃, 0, true, ⟨[⟨1, 0⟩, ⟨0, 1⟩]⟩) := by
    have hdiff : powerDiff serialize ⟨[⟨1, 1⟩]⟩ ⟨[⟨0, 1⟩]⟩ = ⟨[⟨1, 0⟩, ⟨0, 1⟩]⟩ := rfl
    simp [fvmEnd, maybeCreateCheckpoint, shouldCreateCheckpoint, GatewayCaller.currentPowerTable,
      GatewayCaller.applyValidatorChanges, h₃, hmembership, hcurrent, hpower, hdiff,
      membershipToPowerTable, GatewayCaller.createBottomUpCheckpoint,
      CheckpointStorage.createBottomUpCheckpoint, GatewayCaller.totalPower, Except.mapError,
      Except.map, CheckpointStorage.bottomUpCheckpointExists, Gateway.QuorumMap.createQuorumInfo,
      Gateway.QuorumMap.empty, CheckpointStorage.storeBottomUpCheckpoint, tokensToBurn,
      CheckpointStorage.zeroCheckpoint, Gateway.BatchStorage.getBottomUpMsgBatch, serialize, parseSlice,
      hashValidators, validatorTreeRoot, hashCheckpoint]
  cases hf : fvmEnd serialize parseSlice hashValidators validatorTreeRoot hashCheckpoint
      (⟨4, some 3, 0, true, s₂, ⟨⟨⟨1, [7]⟩, 0, 4, 10, OrdMap.empty, by decide⟩,
        Gateway.QuorumMap.empty, fun _ => CheckpointStorage.zeroCheckpoint, 66⟩, 0⟩ :
          FvmExecState Nat Nat) with
  | error e => simp [hf, Except.map] at hfvm
  | ok r =>
    obtain ⟨state, updates⟩ := r
    simp only [hf, Except.map, Except.ok.injEq, Prod.mk.injEq] at hfvm
    obtain ⟨hfinality, hscale, hcheckpoint, rfl⟩ := hfvm
    obtain ⟨votes, hend⟩ : ∃ votes, chainEnd serialize parseSlice hashValidators validatorTreeRoot
        hashCheckpoint (VoteTally.new [(1, 1)] (0, 0))
          (⟨4, some 3, 0, true, s₂, ⟨⟨⟨1, [7]⟩, 0, 4, 10, OrdMap.empty, by decide⟩,
            Gateway.QuorumMap.empty, fun _ => CheckpointStorage.zeroCheckpoint, 66⟩, 0⟩ :
              FvmExecState Nat Nat) = .ok ((votes, state), ⟨[⟨1, 0⟩, ⟨0, 1⟩]⟩) :=
      ⟨_, by rw [chainEnd, hf]; rfl⟩
    have hr := hblock.tail (.endBlock hend rfl)
    obtain ⟨hfinalities, hcheckpoints, hcomet, hvotes⟩ :=
      validator_powers_follow_membership hserialize hr
    -- the deposit's validator now holds all the power, under the key of its empty metadata
    have htable : (GatewayCaller.currentPowerTable parseSlice state).2 = ⟨[⟨0, 1⟩]⟩ := by
      simp [GatewayCaller.currentPowerTable, membershipToPowerTable, hfinality, hmembership,
        hscale, hpower, parseSlice]
    refine ⟨_, hr, hcheckpoint, hfinality ▸ hmembership, ?_, ?_, ?_, ?_, hfinalities, hcheckpoints,
      hcomet, hvotes⟩
    · rw [hcomet, htable]; rfl
    · rw [hcomet, htable]; rfl
    · rw [hvotes, htable]; rfl
    · rw [hvotes, htable]; rfl

end Runs

end Node

end Delorean.Fvm
