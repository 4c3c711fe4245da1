import Delorean.Gateway.Batching
import Delorean.Gateway.Quorum
import Delorean.Lib.Except

/-!
# The checkpointing facet of the child's gateway

`CheckpointingFacet` keeps the bottom-up checkpoints that the child's validators sign. At the end
of a checkpoint period fendermint calls `createBottomUpCheckpoint` as the system actor: the facet
refuses a height that already holds a checkpoint, opens a quorum for it in the `QuorumMap`
(`LibQuorum.createQuorumInfo`) under the hash of the checkpoint, and stores the checkpoint under
its height. The validators send their signatures to `addCheckpointSignature`, which refuses a
height below the retention height (`isHeightAlreadyProcessed`) or without a checkpoint before it
hands the signature to `addQuorumSignature`. `pruneBottomUpCheckpoints` deletes the checkpoints
and the batches from the retention height up to a new one, then prunes the quorums.

The facet keeps each checkpoint and its quorum together (`Paired`): above the retention height a
quorum is stored exactly at the heights that hold a checkpoint, and its hash is the hash of that
checkpoint, so a signature counted at a height is a signature of the checkpoint stored there.
The existence check of `createBottomUpCheckpoint` is what the runs of `LibQuorum` assume of their
`create` step, that a quorum is only opened at a height without one: every successful call of the
facet is a `QuorumMap.Step` (`Paired.step`), and the books of the quorum map hold over the facet's
runs (`quorum_signs_stored_checkpoint`).

`keccak256(abi.encode(checkpoint))` is the parameter `hashCheckpoint`. A deleted slot of the
storage reads as zero: a deleted batch is written as the zero batch, and a deleted checkpoint as
the zero checkpoint.
-/

namespace Delorean.Gateway

namespace QuorumMap

variable {Address Hash : Type}

/-- `isHeightAlreadyProcessed`: a height below the retention height has been pruned. -/
def isHeightAlreadyProcessed (self : QuorumMap Address Hash) (height : Nat) :
    Except (QuorumError Address) Unit :=
  if height < self.retentionHeight then .error .QuorumAlreadyProcessed else .ok ()

end QuorumMap

namespace Checkpointing

/-- `BottomUpCheckpoint`. -/
structure BottomUpCheckpoint (Address Hash : Type) where
  subnetID : SubnetID Address
  blockHeight : Nat
  blockHash : Hash
  nextConfigurationNumber : Nat
  msgs : List (IpcEnvelope Address)
  deriving DecidableEq, Repr

/-- The reasons the facet reverts with: its own, and those of `LibQuorum`. -/
inductive Error (Address : Type) where
  | CheckpointAlreadyExists
  | CheckpointNotCreated
  | Quorum (e : QuorumError Address)
  deriving DecidableEq, Repr

/-- The fields of `GatewayActorStorage` that the facet reads and writes. -/
structure CheckpointStorage (Address Hash : Type) where
  batches : BatchStorage Address
  checkpointQuorumMap : QuorumMap Address Hash
  /-- `bottomUpCheckpoints`; an unwritten or deleted height reads the zero checkpoint. -/
  bottomUpCheckpoints : Nat → BottomUpCheckpoint Address Hash
  majorityPercentage : Nat

namespace CheckpointStorage

variable {Address Hash Sig : Type} [Inhabited Hash]

/-- The checkpoint an unwritten or deleted height reads. -/
def zeroCheckpoint : BottomUpCheckpoint Address Hash := ⟨⟨0, []⟩, 0, default, 0, []⟩

/-- `bottomUpCheckpointExists`. -/
def bottomUpCheckpointExists (s : CheckpointStorage Address Hash) (epoch : Nat) : Bool :=
  (s.bottomUpCheckpoints epoch).blockHeight != 0

/-- `getBottomUpCheckpoint`: the checkpoint at a height, and whether it exists. -/
def getBottomUpCheckpoint (s : CheckpointStorage Address Hash) (epoch : Nat) :
    Bool × BottomUpCheckpoint Address Hash :=
  let checkpoint := s.bottomUpCheckpoints epoch
  (checkpoint.blockHeight != 0, checkpoint)

/-- `storeBottomUpCheckpoint`: write the checkpoint's fields under its height, and push its
messages onto the ones stored there. -/
def storeBottomUpCheckpoint (s : CheckpointStorage Address Hash)
    (checkpoint : BottomUpCheckpoint Address Hash) : CheckpointStorage Address Hash :=
  let b := s.bottomUpCheckpoints checkpoint.blockHeight
  { s with
    bottomUpCheckpoints := Function.update s.bottomUpCheckpoints checkpoint.blockHeight
      { checkpoint with msgs := b.msgs ++ checkpoint.msgs } }

/-- One height of the loop of `pruneBottomUpCheckpoints`: delete its checkpoint and its batch. -/
def deleteHeight (s : CheckpointStorage Address Hash) (h : Nat) : CheckpointStorage Address Hash :=
  { s with
    bottomUpCheckpoints := Function.update s.bottomUpCheckpoints h zeroCheckpoint
    batches := { s.batches with
      bottomUpMsgBatches := s.batches.bottomUpMsgBatches.insert h BatchStorage.zeroBatch } }

/-- `pruneBottomUpCheckpoints`: delete the checkpoints and batches from the retention height up to
the new one, then prune the quorums, which refuses a retention height that does not rise. -/
def pruneBottomUpCheckpoints (s : CheckpointStorage Address Hash) (newRetentionHeight : Nat) :
    Except (Error Address) (CheckpointStorage Address Hash) := do
  let retentionHeight := s.checkpointQuorumMap.retentionHeight
  let s := (List.range' retentionHeight (newRetentionHeight - retentionHeight)).foldl deleteHeight s
  let checkpointQuorumMap ←
    (s.checkpointQuorumMap.pruneQuorums newRetentionHeight).mapError Error.Quorum
  pure { s with checkpointQuorumMap }

variable (hashCheckpoint : BottomUpCheckpoint Address Hash → Hash)

/-- `createBottomUpCheckpoint`: refuse a height that holds a checkpoint, open the quorum of the
checkpoint's hash with the membership's root and weight, and store the checkpoint. -/
def createBottomUpCheckpoint (s : CheckpointStorage Address Hash)
    (checkpoint : BottomUpCheckpoint Address Hash) (membershipRootHash : Hash)
    (membershipWeight : Nat) : Except (Error Address) (CheckpointStorage Address Hash) := do
  if s.bottomUpCheckpointExists checkpoint.blockHeight then throw .CheckpointAlreadyExists
  let checkpointQuorumMap ← (s.checkpointQuorumMap.createQuorumInfo checkpoint.blockHeight
    (hashCheckpoint checkpoint) membershipRootHash membershipWeight s.majorityPercentage).mapError
      Error.Quorum
  pure ({ s with checkpointQuorumMap }.storeBottomUpCheckpoint checkpoint)

variable [DecidableEq Address] (tryRecover : Hash → Sig → Option Address)
  (verify : List Hash → Hash → Address → Nat → Bool)

/-- `addCheckpointSignature`: refuse a pruned height and a height without a checkpoint, then add
the signature to the height's quorum. -/
def addCheckpointSignature (s : CheckpointStorage Address Hash) (height : Nat)
    (membershipProof : List Hash) (weight : Nat) (signature : Sig) :
    Except (Error Address) (CheckpointStorage Address Hash) := do
  (s.checkpointQuorumMap.isHeightAlreadyProcessed height).mapError Error.Quorum
  let (checkpointExists, _) := s.getBottomUpCheckpoint height
  if !checkpointExists then throw .CheckpointNotCreated
  let checkpointQuorumMap ← (s.checkpointQuorumMap.addQuorumSignature tryRecover verify height
    membershipProof weight signature).mapError Error.Quorum
  pure { s with checkpointQuorumMap }

end CheckpointStorage

/-- A call to the facet: the system actor's `createBottomUpCheckpoint` and
`pruneBottomUpCheckpoints`, and anyone's `addCheckpointSignature`. -/
inductive Call (Address Hash Sig : Type) where
  | createBottomUpCheckpoint (checkpoint : BottomUpCheckpoint Address Hash)
      (membershipRootHash : Hash) (membershipWeight : Nat)
  | pruneBottomUpCheckpoints (newRetentionHeight : Nat)
  | addCheckpointSignature (height : Nat) (membershipProof : List Hash) (weight : Nat)
      (signature : Sig)

namespace CheckpointStorage

variable {Address Hash Sig : Type} [Inhabited Hash] [DecidableEq Address]
  (tryRecover : Hash → Sig → Option Address) (verify : List Hash → Hash → Address → Nat → Bool)
  (hashCheckpoint : BottomUpCheckpoint Address Hash → Hash)

/-- What a call does to the storage. -/
def apply (s : CheckpointStorage Address Hash) :
    Call Address Hash Sig → Except (Error Address) (CheckpointStorage Address Hash)
  | .createBottomUpCheckpoint checkpoint membershipRootHash membershipWeight =>
    s.createBottomUpCheckpoint hashCheckpoint checkpoint membershipRootHash membershipWeight
  | .pruneBottomUpCheckpoints newRetentionHeight => s.pruneBottomUpCheckpoints newRetentionHeight
  | .addCheckpointSignature height membershipProof weight signature =>
    s.addCheckpointSignature tryRecover verify height membershipProof weight signature

/-- The storage as the gateway's constructor leaves it: no checkpoint, and the quorum map at
retention height one. -/
def Initial (s : CheckpointStorage Address Hash) : Prop :=
  s.checkpointQuorumMap = QuorumMap.empty ∧ ∀ h, s.bottomUpCheckpoints h = zeroCheckpoint

/-- A successful call. -/
def Step (s s' : CheckpointStorage Address Hash) : Prop :=
  ∃ call, s.apply tryRecover verify hashCheckpoint call = .ok s'

end CheckpointStorage

/-! ## One lemma per call -/

namespace CheckpointStorage

section Spec

variable {Address Hash Sig : Type} [Inhabited Hash] {s s' : CheckpointStorage Address Hash}

omit [Inhabited Hash] in
@[simp]
theorem checkpointQuorumMap_storeBottomUpCheckpoint (checkpoint : BottomUpCheckpoint Address Hash) :
    (s.storeBottomUpCheckpoint checkpoint).checkpointQuorumMap = s.checkpointQuorumMap := rfl

@[simp]
theorem checkpointQuorumMap_deleteHeight (h : Nat) :
    (s.deleteHeight h).checkpointQuorumMap = s.checkpointQuorumMap := rfl

/-- The loop of `pruneBottomUpCheckpoints` deletes the checkpoints of its heights and leaves the
quorum map alone. -/
theorem foldl_deleteHeight (heights : List Nat) (s : CheckpointStorage Address Hash) :
    (heights.foldl deleteHeight s).checkpointQuorumMap = s.checkpointQuorumMap ∧
      ∀ h, (heights.foldl deleteHeight s).bottomUpCheckpoints h =
        if h ∈ heights then zeroCheckpoint else s.bottomUpCheckpoints h := by
  induction heights generalizing s with
  | nil => simp
  | cons h₀ heights ih =>
    obtain ⟨hquorum, hcheckpoints⟩ := ih (s.deleteHeight h₀)
    refine ⟨hquorum, fun h => ?_⟩
    rw [List.foldl_cons, hcheckpoints]
    by_cases hh : h = h₀
    · simp [hh, deleteHeight]
    · simp [hh, deleteHeight]

variable (hashCheckpoint : BottomUpCheckpoint Address Hash → Hash)

omit [Inhabited Hash] in
/-- The one way `createBottomUpCheckpoint` succeeds: the height holds no checkpoint, the quorum is
opened, and the checkpoint is stored. -/
theorem createBottomUpCheckpoint_eq_ok {checkpoint : BottomUpCheckpoint Address Hash}
    {membershipRootHash : Hash} {membershipWeight : Nat}
    (h : s.createBottomUpCheckpoint hashCheckpoint checkpoint membershipRootHash membershipWeight =
      .ok s') :
    s.bottomUpCheckpointExists checkpoint.blockHeight = false ∧
      ∃ q, s.checkpointQuorumMap.createQuorumInfo checkpoint.blockHeight (hashCheckpoint checkpoint)
          membershipRootHash membershipWeight s.majorityPercentage = .ok q ∧
        s' = { s with checkpointQuorumMap := q }.storeBottomUpCheckpoint checkpoint := by
  unfold createBottomUpCheckpoint at h
  dsimp only at h
  split_ifs at h with hexists
  · cases h
  obtain ⟨q, hq, h⟩ := Except.bind_eq_ok.1 h
  rw [Except.pure_eq_ok, Except.ok.injEq] at h
  exact ⟨by simpa using hexists, q, Except.mapError_eq_ok.1 hq, h.symm⟩

/-- The one way `pruneBottomUpCheckpoints` succeeds: the quorums are pruned, and the checkpoints
from the retention height up to the new one are deleted. -/
theorem pruneBottomUpCheckpoints_eq_ok {newRetentionHeight : Nat}
    (h : s.pruneBottomUpCheckpoints newRetentionHeight = .ok s') :
    s.checkpointQuorumMap.pruneQuorums newRetentionHeight = .ok s'.checkpointQuorumMap ∧
      ∀ k, s'.bottomUpCheckpoints k =
        if s.checkpointQuorumMap.retentionHeight ≤ k ∧ k < newRetentionHeight then zeroCheckpoint
        else s.bottomUpCheckpoints k := by
  unfold pruneBottomUpCheckpoints at h
  dsimp only at h
  obtain ⟨hquorum, hcheckpoints⟩ := foldl_deleteHeight (List.range' s.checkpointQuorumMap.retentionHeight
    (newRetentionHeight - s.checkpointQuorumMap.retentionHeight)) s
  obtain ⟨q, hq, h⟩ := Except.bind_eq_ok.1 h
  rw [Except.pure_eq_ok, Except.ok.injEq] at h
  subst h
  rw [hquorum] at hq
  refine ⟨Except.mapError_eq_ok.1 hq, fun k => ?_⟩
  rw [hcheckpoints]
  -- the loop runs over `[retentionHeight, newRetentionHeight)`
  simp only [List.mem_range'_1]
  congr 1
  exact propext ⟨fun h => ⟨h.1, by omega⟩, fun h => ⟨h.1, by omega⟩⟩

variable [DecidableEq Address] {tryRecover : Hash → Sig → Option Address}
  {verify : List Hash → Hash → Address → Nat → Bool}

/-- The one way `addCheckpointSignature` succeeds: the height is retained and holds a checkpoint,
and the quorum takes the signature. -/
theorem addCheckpointSignature_eq_ok {height weight : Nat} {membershipProof : List Hash}
    {signature : Sig}
    (h : s.addCheckpointSignature tryRecover verify height membershipProof weight signature =
      .ok s') :
    s.checkpointQuorumMap.retentionHeight ≤ height ∧ s.bottomUpCheckpointExists height = true ∧
      ∃ q, s.checkpointQuorumMap.addQuorumSignature tryRecover verify height membershipProof weight
          signature = .ok q ∧ s' = { s with checkpointQuorumMap := q } := by
  unfold addCheckpointSignature at h
  obtain ⟨u, hprocessed, h⟩ := Except.bind_eq_ok.1 h
  have hretained : s.checkpointQuorumMap.retentionHeight ≤ height := by
    unfold QuorumMap.isHeightAlreadyProcessed at hprocessed
    split_ifs at hprocessed with hlt
    · cases hprocessed
    · exact Nat.le_of_not_lt hlt
  dsimp only [getBottomUpCheckpoint] at h
  split_ifs at h with hexists
  · cases h
  obtain ⟨q, hq, h⟩ := Except.bind_eq_ok.1 h
  rw [Except.pure_eq_ok, Except.ok.injEq] at h
  exact ⟨hretained, by simpa [bottomUpCheckpointExists] using hexists, q,
    Except.mapError_eq_ok.1 hq, h.symm⟩

end Spec

/-! ## A checkpoint and its quorum stay together -/

section Paired

variable {Address Hash Sig : Type} [Inhabited Hash]
  (hashCheckpoint : BottomUpCheckpoint Address Hash → Hash)

/-- A height's checkpoint and quorum go together: a slot without a checkpoint reads zero, a stored
checkpoint sits under its own height, and above the retention height a quorum is stored exactly
where a checkpoint is, under the checkpoint's hash. -/
structure PairedAt (s : CheckpointStorage Address Hash) (h : Nat) : Prop where
  zero : (s.bottomUpCheckpoints h).blockHeight = 0 → s.bottomUpCheckpoints h = zeroCheckpoint
  height_eq : (s.bottomUpCheckpoints h).blockHeight ≠ 0 → (s.bottomUpCheckpoints h).blockHeight = h
  stored_iff : s.checkpointQuorumMap.retentionHeight ≤ h →
    ((s.checkpointQuorumMap.quorumInfo h).isSome ↔ (s.bottomUpCheckpoints h).blockHeight ≠ 0)
  hash_eq : ∀ info, s.checkpointQuorumMap.retentionHeight ≤ h →
    s.checkpointQuorumMap.quorumInfo h = some info → info.hash = hashCheckpoint (s.bottomUpCheckpoints h)

/-- Every height's checkpoint and quorum go together, and the retention height is positive. -/
structure Paired (s : CheckpointStorage Address Hash) : Prop where
  retention_pos : 0 < s.checkpointQuorumMap.retentionHeight
  at_height : ∀ h, PairedAt hashCheckpoint s h

variable {hashCheckpoint} {s s' : CheckpointStorage Address Hash}

/-- A height pairs its checkpoint and its quorum as long as both are left as they were, and the
retention height does not fall below it. -/
theorem PairedAt.congr {h : Nat} (hp : PairedAt hashCheckpoint s h)
    (hret : s'.checkpointQuorumMap.retentionHeight ≤ h → s.checkpointQuorumMap.retentionHeight ≤ h)
    (hinfo : s'.checkpointQuorumMap.quorumInfo h = s.checkpointQuorumMap.quorumInfo h)
    (hcheckpoint : s'.bottomUpCheckpoints h = s.bottomUpCheckpoints h) :
    PairedAt hashCheckpoint s' h :=
  ⟨by rw [hcheckpoint]; exact hp.zero, by rw [hcheckpoint]; exact hp.height_eq,
    fun hh => by rw [hinfo, hcheckpoint]; exact hp.stored_iff (hret hh),
    fun info hh => by rw [hinfo, hcheckpoint]; exact hp.hash_eq info (hret hh)⟩

variable (hashCheckpoint) in
theorem paired_initial (hs : s.Initial) : s.Paired hashCheckpoint := by
  obtain ⟨hquorum, hcheckpoints⟩ := hs
  refine ⟨by simp [hquorum, QuorumMap.empty], fun h => ⟨fun _ => hcheckpoints h, fun hh => ?_,
    fun _ => ?_, fun info _ hinfo => ?_⟩⟩
  · simp [hcheckpoints, zeroCheckpoint] at hh
  · simp [hquorum, hcheckpoints, QuorumMap.empty, zeroCheckpoint]
  · simp [hquorum, QuorumMap.empty] at hinfo

/-- A height above the retention height without a checkpoint has no quorum. -/
theorem Paired.quorumInfo_eq_none (hp : s.Paired hashCheckpoint) {h : Nat}
    (hh : s.checkpointQuorumMap.retentionHeight ≤ h) (hexists : s.bottomUpCheckpointExists h = false) :
    s.checkpointQuorumMap.quorumInfo h = none := by
  have hzero : (s.bottomUpCheckpoints h).blockHeight = 0 := by
    simpa [bottomUpCheckpointExists] using hexists
  have hnone := mt ((hp.at_height h).stored_iff hh).1 (by simp [hzero])
  simpa using hnone

/-- `createBottomUpCheckpoint` opens its quorum at a height without one, and keeps the checkpoints
and the quorums together. -/
theorem Paired.createBottomUpCheckpoint [DecidableEq Address] (tryRecover : Hash → Sig → Option Address)
    (verify : List Hash → Hash → Address → Nat → Bool) (hp : s.Paired hashCheckpoint)
    {checkpoint : BottomUpCheckpoint Address Hash} {membershipRootHash : Hash} {membershipWeight : Nat}
    (h : s.createBottomUpCheckpoint hashCheckpoint checkpoint membershipRootHash membershipWeight =
      .ok s') :
    QuorumMap.Step tryRecover verify s.checkpointQuorumMap s'.checkpointQuorumMap ∧
      s'.Paired hashCheckpoint := by
  obtain ⟨hexists, q, hq, rfl⟩ := createBottomUpCheckpoint_eq_ok hashCheckpoint h
  obtain ⟨hretained, -, hqeq⟩ := QuorumMap.createQuorumInfo_eq_ok hq
  have hfresh := hp.quorumInfo_eq_none hretained hexists
  -- the slot was empty, so the stored checkpoint is the one given
  have hslot : s.bottomUpCheckpoints checkpoint.blockHeight = zeroCheckpoint :=
    (hp.at_height _).zero (by simpa [bottomUpCheckpointExists] using hexists)
  have hstored : ({ s with checkpointQuorumMap := q }.storeBottomUpCheckpoint checkpoint).bottomUpCheckpoints =
      Function.update s.bottomUpCheckpoints checkpoint.blockHeight checkpoint := by
    simp only [storeBottomUpCheckpoint, hslot, zeroCheckpoint, List.nil_append]
  have hpos : checkpoint.blockHeight ≠ 0 := by
    have := hp.retention_pos
    omega
  refine ⟨.create _ _ _ _ _ hfresh hq, by simpa [hqeq] using hp.retention_pos, fun k => ?_⟩
  by_cases hk : k = checkpoint.blockHeight
  · -- the new checkpoint and its quorum
    subst hk
    refine ⟨fun hzero => ?_, fun _ => ?_, fun _ => ?_, fun info _ hinfo => ?_⟩
    · simp [hstored] at hzero
      exact absurd hzero hpos
    · simp [hstored]
    · rw [hstored]
      simp [hqeq, hpos]
    · simp only [checkpointQuorumMap_storeBottomUpCheckpoint, hqeq, Function.update_self,
        Option.some.injEq] at hinfo
      simp [hstored, ← hinfo]
  · exact (hp.at_height k).congr (by simp [hqeq]) (by simp [hqeq, hk])
      (by rw [hstored, Function.update_of_ne hk])

/-- `pruneBottomUpCheckpoints` deletes the checkpoints with the quorums they go with. -/
theorem Paired.pruneBottomUpCheckpoints [DecidableEq Address] (tryRecover : Hash → Sig → Option Address)
    (verify : List Hash → Hash → Address → Nat → Bool) (hp : s.Paired hashCheckpoint)
    {newRetentionHeight : Nat} (h : s.pruneBottomUpCheckpoints newRetentionHeight = .ok s') :
    QuorumMap.Step tryRecover verify s.checkpointQuorumMap s'.checkpointQuorumMap ∧
      s'.Paired hashCheckpoint := by
  obtain ⟨hq, hcheckpoints⟩ := pruneBottomUpCheckpoints_eq_ok h
  obtain ⟨hlt, hret, -, hinfo, -⟩ := QuorumMap.pruneQuorums_eq_ok hq
  refine ⟨.prune _ hq, by omega, fun k => ?_⟩
  by_cases hdel : s.checkpointQuorumMap.retentionHeight ≤ k ∧ k < newRetentionHeight
  · -- a deleted height: no checkpoint, and below the new retention height
    have hzero : s'.bottomUpCheckpoints k = zeroCheckpoint := by rw [hcheckpoints, if_pos hdel]
    refine ⟨fun _ => hzero, fun hh => by simp [hzero, zeroCheckpoint] at hh, fun hh => ?_,
      fun _ hh => ?_⟩
    · omega
    · omega
  · -- any other height is left as it was, and the new retention height is above the old one
    exact (hp.at_height k).congr (by omega) (by rw [hinfo, if_neg hdel])
      (by rw [hcheckpoints, if_neg hdel])

/-- `addCheckpointSignature` signs the quorum of a stored checkpoint, whose hash it keeps. -/
theorem Paired.addCheckpointSignature [DecidableEq Address] {tryRecover : Hash → Sig → Option Address}
    {verify : List Hash → Hash → Address → Nat → Bool} (hp : s.Paired hashCheckpoint)
    {height weight : Nat} {membershipProof : List Hash} {signature : Sig}
    (h : s.addCheckpointSignature tryRecover verify height membershipProof weight signature =
      .ok s') :
    QuorumMap.Step tryRecover verify s.checkpointQuorumMap s'.checkpointQuorumMap ∧
      s'.Paired hashCheckpoint := by
  obtain ⟨hretained, hexists, q, hq, rfl⟩ := addCheckpointSignature_eq_ok h
  obtain ⟨-, -, -, -, hret, -, hcases⟩ := QuorumMap.addQuorumSignature_eq_ok hq
  -- the height holds a checkpoint, so its quorum is stored and the signature is counted there
  obtain ⟨info, hinfo⟩ : ∃ info, s.checkpointQuorumMap.quorumInfo height = some info :=
    Option.isSome_iff_exists.1 (((hp.at_height height).stored_iff hretained).2
      (by simpa [bottomUpCheckpointExists] using hexists))
  obtain ⟨info', hquorum, hhash⟩ : ∃ info', q.quorumInfo =
      Function.update s.checkpointQuorumMap.quorumInfo height (some info') ∧ info'.hash = info.hash := by
    rcases hcases with ⟨-, -, -, -, hq'⟩ | ⟨-, -, hq'⟩
    · exact ⟨_, hq', by simp [hinfo]⟩
    · exact ⟨_, hq', by simp [hinfo]⟩
  refine ⟨.add _ _ _ _ hq, by rw [hret]; exact hp.retention_pos, fun k => ?_⟩
  by_cases hk : k = height
  · subst hk
    have hp' := hp.at_height k
    refine ⟨hp'.zero, hp'.height_eq, fun _ => ?_, fun info'' _ hinfo'' => ?_⟩
    · simpa [hquorum] using (hp'.stored_iff hretained).1 (by simp [hinfo])
    · simp only [hquorum, Function.update_self, Option.some.injEq] at hinfo''
      rw [← hinfo'', hhash]
      exact hp'.hash_eq info hretained hinfo
  · exact (hp.at_height k).congr (by rw [hret]; exact id) (by rw [hquorum, Function.update_of_ne hk]) rfl

/-- Every successful call of the facet is a step of `LibQuorum`'s runs, and keeps the checkpoints
and the quorums together. -/
theorem Paired.step [DecidableEq Address] {tryRecover : Hash → Sig → Option Address}
    {verify : List Hash → Hash → Address → Nat → Bool} (hp : s.Paired hashCheckpoint)
    (hstep : Step tryRecover verify hashCheckpoint s s') :
    QuorumMap.Step tryRecover verify s.checkpointQuorumMap s'.checkpointQuorumMap ∧
      s'.Paired hashCheckpoint := by
  obtain ⟨call, h⟩ := hstep
  cases call with
  | createBottomUpCheckpoint checkpoint membershipRootHash membershipWeight =>
    exact hp.createBottomUpCheckpoint tryRecover verify h
  | pruneBottomUpCheckpoints newRetentionHeight => exact hp.pruneBottomUpCheckpoints tryRecover verify h
  | addCheckpointSignature height membershipProof weight signature => exact hp.addCheckpointSignature h

end Paired

/-! ## What holds over every run -/

section Runs

variable {Address Hash Sig : Type} [Inhabited Hash] [DecidableEq Address]
  {tryRecover : Hash → Sig → Option Address} {verify : List Hash → Hash → Address → Nat → Bool}
  {hashCheckpoint : BottomUpCheckpoint Address Hash → Hash}

/-- The facet's runs are runs of `LibQuorum` from the empty map, and keep the checkpoints and the
quorums together. -/
theorem paired_of_reachable {s : CheckpointStorage Address Hash}
    (hr : Reachable Initial (Step tryRecover verify hashCheckpoint) s) :
    s.Paired hashCheckpoint ∧
      Reachable (· = QuorumMap.empty) (QuorumMap.Step tryRecover verify) s.checkpointQuorumMap := by
  refine Reachable.invariant
    (I := fun s => s.Paired hashCheckpoint ∧
      Reachable (· = QuorumMap.empty) (QuorumMap.Step tryRecover verify) s.checkpointQuorumMap)
    (fun s hs => ⟨paired_initial hashCheckpoint hs, .of_init hs.1⟩) (fun s s' hi hstep => ?_) hr
  obtain ⟨hquorum, hpaired⟩ := hi.1.step hstep
  exact ⟨hpaired, hi.2.tail hquorum⟩

/-- Over every run of the checkpointing facet from the gateway's constructor, the quorum map
keeps its books, and above the retention height a height holds a checkpoint exactly when it holds
a quorum under that checkpoint's hash, so every signature the quorum counts is over the checkpoint
stored at its height. A valid Merkle proof of a signatory's weight is taken to prove its weight in
the membership. -/
theorem quorum_signs_stored_checkpoint (weightOf : Hash → Address → Nat)
    (hverify : ∀ proof root signatory weight, verify proof root signatory weight = true →
      weightOf root signatory = weight)
    {s : CheckpointStorage Address Hash}
    (hr : Reachable Initial (Step tryRecover verify hashCheckpoint) s) :
    QuorumMap.Wf weightOf s.checkpointQuorumMap ∧
      ∀ h, s.checkpointQuorumMap.retentionHeight ≤ h →
        (s.bottomUpCheckpointExists h = true ↔
          ∃ info, s.checkpointQuorumMap.quorumInfo h = some info ∧
            info.hash = hashCheckpoint (s.bottomUpCheckpoints h)) := by
  obtain ⟨hp, hquorum⟩ := paired_of_reachable hr
  refine ⟨QuorumMap.wf_of_reachable tryRecover verify weightOf hverify hquorum, fun h hh => ?_⟩
  constructor
  · intro hexists
    obtain ⟨info, hinfo⟩ := Option.isSome_iff_exists.1 (((hp.at_height h).stored_iff hh).2
      (by simpa [bottomUpCheckpointExists] using hexists))
    exact ⟨info, hinfo, (hp.at_height h).hash_eq info hh hinfo⟩
  · rintro ⟨info, hinfo, -⟩
    have hstored := ((hp.at_height h).stored_iff hh).1 (by simp [hinfo])
    simpa [bottomUpCheckpointExists] using hstored

/-- A gateway of child `/7` just constructed creates a checkpoint at height four, with a
membership of weight ten, and validator `1`, of weight ten, signs it: the run is one of the facet's,
the checkpoint is stored, and the quorum at height four is over it. -/
theorem quorum_signs_stored_checkpoint_four :
    let weightOf : Nat → Nat → Nat := fun _ _ => 10
    let verify : List Nat → Nat → Nat → Nat → Bool :=
      fun _ root signatory weight => weight == weightOf root signatory
    let tryRecover : Nat → Nat → Option Nat := fun _ signature => some signature
    let hashCheckpoint : BottomUpCheckpoint Nat Nat → Nat := fun c => c.blockHeight + 100
    ∃ s, Reachable Initial (Step tryRecover verify hashCheckpoint) s ∧
      s.bottomUpCheckpointExists 4 = true ∧
      QuorumMap.Wf weightOf s.checkpointQuorumMap ∧
      ∀ h, s.checkpointQuorumMap.retentionHeight ≤ h →
        (s.bottomUpCheckpointExists h = true ↔
          ∃ info, s.checkpointQuorumMap.quorumInfo h = some info ∧
            info.hash = hashCheckpoint (s.bottomUpCheckpoints h)) := by
  intro weightOf verify tryRecover hashCheckpoint
  have hverify : ∀ proof root signatory weight, verify proof root signatory weight = true →
      weightOf root signatory = weight := fun _ _ _ _ h => (beq_iff_eq.1 h).symm
  -- The states are written out rather than bound by `let`, so that `rfl` computes each call.
  have hinit : Reachable Initial (Step tryRecover verify hashCheckpoint)
      (⟨⟨⟨1, [7]⟩, 0, 4, 10, OrdMap.empty, by decide⟩, QuorumMap.empty,
        fun _ => zeroCheckpoint, 66⟩ : CheckpointStorage Nat Nat) :=
    .of_init ⟨rfl, fun _ => rfl⟩
  have hr := hinit.tail ⟨.createBottomUpCheckpoint ⟨⟨1, [7]⟩, 4, 0, 0, []⟩ 0 10, rfl⟩ |>.tail
    ⟨.addCheckpointSignature 4 [] 10 1, rfl⟩
  exact ⟨_, hr, rfl, quorum_signs_stored_checkpoint weightOf hverify hr⟩

end Runs

end CheckpointStorage

end Checkpointing

end Delorean.Gateway
