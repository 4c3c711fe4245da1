import Delorean.Lib.Except

/-!
# Submitting bottom-up checkpoints

A child subnet's validators sign each bottom-up checkpoint, and a relayer submits it to the
subnet actor in the parent with the signatories and their signatures
(`SubnetActorCheckpointingFacet.submitCheckpoint`). The facet checks the checkpoint's height and
size, then that the signatures carry a majority of the active validators' power
(`validateActiveQuorumSignatures`): each signatory must be active, its signature must recover to
it, and the powers of the signatories, position by position, must reach the threshold
(`MultisignatureChecker.isValidWeightedMultiSignature`).

Addresses, hashes and signatures are types of the model; `ECDSA.tryRecover` and the hash of an
encoded checkpoint are parameters. A revert is an `Except` error with the revert's reason.
Amounts are natural numbers: the sums of powers are taken not to overflow `uint256`.
-/

namespace Delorean.Subnet

/-- `MultisignatureChecker.Error`. -/
inductive MultisigError where
  | Nil
  | InvalidArrayLength
  | EmptySignatures
  | InvalidSignatory
  | InvalidSignature
  | WeightsSumLessThanThreshold
  deriving DecidableEq, Repr

/-- The reasons the checkpointing facet reverts with. -/
inductive Revert (Address : Type) where
  | EnforcedPause
  | MaxMsgsPerBatchExceeded
  | BottomUpCheckpointAlreadySubmitted
  | CannotSubmitFutureCheckpoint
  | InvalidCheckpointEpoch
  | NotValidator (validator : Address)
  | InvalidSignatureErr (err : MultisigError)
  /-- A Solidity panic; `0x12` is a division by zero. -/
  | Panic (code : Nat)
  deriving DecidableEq, Repr

/-- `PermissionMode`. -/
inductive PermissionMode where
  | Collateral
  | Federated
  | Static
  deriving DecidableEq, Repr

/-- The fields of `ValidatorInfo` that power is read from. -/
structure ValidatorInfo where
  federatedPower : Nat
  confirmedCollateral : Nat
  deriving DecidableEq, Repr

/-- The parts of `ValidatorSet` the facet reads: the permission mode, each address's
information (a mapping, zero for an unknown address), and the addresses of the active queue. -/
structure ValidatorSet (Address : Type) where
  permissionMode : PermissionMode
  validators : Address → ValidatorInfo
  activeValidators : List Address

/-- `BottomUpCheckpoint`, over the type of its messages. -/
structure BottomUpCheckpoint (Msg : Type) where
  blockHeight : Nat
  nextConfigurationNumber : Nat
  msgs : List Msg

/-- The storage of the subnet actor that `submitCheckpoint` reads and writes. -/
structure SubnetActorState (Address Msg : Type) where
  paused : Bool
  maxMsgsPerBottomUpBatch : Nat
  lastBottomUpCheckpointHeight : Nat
  bottomUpCheckPeriod : Nat
  majorityPercentage : Nat
  validatorSet : ValidatorSet Address
  committedCheckpoints : Nat → Option (BottomUpCheckpoint Msg)

namespace ValidatorSet

variable {Address : Type} [DecidableEq Address] (vs : ValidatorSet Address)

/-- `getPower`: the federated power in federated mode, the confirmed collateral otherwise. -/
def getPower (validator : Address) : Nat :=
  match vs.permissionMode with
  | .Federated => (vs.validators validator).federatedPower
  | _ => (vs.validators validator).confirmedCollateral

/-- `isActiveValidator`. -/
def isActiveValidator (validator : Address) : Bool := decide (validator ∈ vs.activeValidators)

/-- `getTotalActivePower`: the power of every active validator. -/
def getTotalActivePower : Nat := (vs.activeValidators.map vs.getPower).sum

/-- `getTotalPowerOfValidators`: the power of each address, reverting at the first one that is
not active. -/
def getTotalPowerOfValidators (addresses : List Address) : Except (Revert Address) (List Nat) :=
  addresses.mapM fun a =>
    if !vs.isActiveValidator a then .error (.NotValidator a) else .ok (vs.getPower a)

end ValidatorSet

section Multisig

variable {Address Hash Sig : Type} [DecidableEq Address]
  (tryRecover : Hash → Sig → Option Address)

/-- The loop of `isValidWeightedMultiSignature` from position `i` on, with the weight summed so
far: every signature must recover to the signatory at its position, and each position adds its
weight. -/
def multisigLoop (hash : Hash) :
    List (Address × Nat × Sig) → Nat → Except MultisigError Nat
  | [], weight => .ok weight
  | (signatory, w, signature) :: rest, weight =>
    match tryRecover hash signature with
    | none => .error .InvalidSignature
    | some recovered =>
      if recovered ≠ signatory then .error .InvalidSignatory
      else multisigLoop hash rest (weight + w)

/-- `MultisignatureChecker.isValidWeightedMultiSignature`. -/
def isValidWeightedMultiSignature (signatories : List Address) (weights : List Nat)
    (threshold : Nat) (hash : Hash) (signatures : List Sig) : Bool × MultisigError :=
  if signatures.length = 0 then (false, .EmptySignatures)
  else if signatures.length ≠ signatories.length ∨ signatures.length ≠ weights.length then
    (false, .InvalidArrayLength)
  else
    match multisigLoop tryRecover hash (signatories.zip (weights.zip signatures)) 0 with
    | .error err => (false, err)
    | .ok weight => if weight ≥ threshold then (true, .Nil) else (false, .WeightsSumLessThanThreshold)

variable {Msg : Type}

/-- `validateActiveQuorumSignatures`: every signatory is active, and their signatures carry
`majorityPercentage` percent of the active power. -/
def validateActiveQuorumSignatures (s : SubnetActorState Address Msg) (signatories : List Address)
    (hash : Hash) (signatures : List Sig) : Except (Revert Address) Unit := do
  let collaterals ← s.validatorSet.getTotalPowerOfValidators signatories
  let activeCollateral := s.validatorSet.getTotalActivePower
  let threshold := activeCollateral * s.majorityPercentage / 100
  let (valid, err) :=
    isValidWeightedMultiSignature tryRecover signatories collaterals threshold hash signatures
  if !valid then .error (.InvalidSignatureErr err) else .ok ()

/-- `LibGateway.getNextEpoch`: the next multiple of the period above the height, read as a
`uint64`. -/
def getNextEpoch (blockNumber checkPeriod : Nat) : Except (Revert Address) Nat :=
  if checkPeriod = 0 then .error (.Panic 0x12)
  else .ok ((blockNumber % 2 ^ 64 / checkPeriod + 1) * checkPeriod)

/-- `ensureValidCheckpoint`: not too many messages, above the last checkpoint, and at the next
checkpoint height unless the batch is full. -/
def ensureValidCheckpoint (s : SubnetActorState Address Msg) (checkpoint : BottomUpCheckpoint Msg) :
    Except (Revert Address) Unit := do
  if checkpoint.msgs.length > s.maxMsgsPerBottomUpBatch then .error .MaxMsgsPerBatchExceeded
  else if checkpoint.blockHeight ≤ s.lastBottomUpCheckpointHeight then
    .error .BottomUpCheckpointAlreadySubmitted
  else
    let nextCheckpointHeight ← getNextEpoch s.lastBottomUpCheckpointHeight s.bottomUpCheckPeriod
    if checkpoint.blockHeight > nextCheckpointHeight then .error .CannotSubmitFutureCheckpoint
    else if checkpoint.blockHeight = nextCheckpointHeight then .ok ()
    else if checkpoint.msgs.length = s.maxMsgsPerBottomUpBatch then .ok ()
    else .error .InvalidCheckpointEpoch

/-- `submitCheckpoint`, up to its calls into the gateway and the staking library: check the
checkpoint and its signatures, then record it as the last one. -/
def submitCheckpoint (hashCheckpoint : BottomUpCheckpoint Msg → Hash)
    (s : SubnetActorState Address Msg) (checkpoint : BottomUpCheckpoint Msg)
    (signatories : List Address) (signatures : List Sig) :
    Except (Revert Address) (SubnetActorState Address Msg) := do
  if s.paused then .error .EnforcedPause
  else
    ensureValidCheckpoint s checkpoint
    let checkpointHash := hashCheckpoint checkpoint
    validateActiveQuorumSignatures tryRecover s signatories checkpointHash signatures
    pure { s with
      committedCheckpoints := Function.update s.committedCheckpoints checkpoint.blockHeight
        (some checkpoint)
      lastBottomUpCheckpointHeight := checkpoint.blockHeight }

/-! ### What an accepted set of signatures carries -/

/-- The loop succeeds only if every signature recovers to the signatory at its position, and then
it adds up the weights of all positions. The induction follows the loop. -/
theorem multisigLoop_eq_ok {hash : Hash} :
    ∀ {triples : List (Address × Nat × Sig)} {weight total : Nat},
      multisigLoop tryRecover hash triples weight = .ok total →
        (∀ t ∈ triples, tryRecover hash t.2.2 = some t.1) ∧
          total = weight + (triples.map fun t => t.2.1).sum
  | [], weight, total, h => by
    simp only [multisigLoop, Except.ok.injEq] at h
    simp [h]
  | (signatory, w, signature) :: rest, weight, total, h => by
    unfold multisigLoop at h
    cases hrec : tryRecover hash signature with
    | none => simp [hrec] at h
    | some recovered =>
      simp only [hrec] at h
      split_ifs at h with hne
      have hsig : recovered = signatory := not_not.mp hne
      obtain ⟨hall, htotal⟩ := multisigLoop_eq_ok h
      refine ⟨fun t ht => ?_, by simp [htotal, Nat.add_assoc]⟩
      rcases List.mem_cons.mp ht with rfl | ht
      · simp [hrec, hsig]
      · exact hall t ht

/-- `isValidWeightedMultiSignature` accepts only as many signatures as signatories and weights,
each recovering to the signatory at its position, with weights summing to the threshold. -/
theorem isValidWeightedMultiSignature_eq_true {signatories : List Address} {weights : List Nat}
    {threshold : Nat} {hash : Hash} {signatures : List Sig} {err : MultisigError}
    (h : isValidWeightedMultiSignature tryRecover signatories weights threshold hash signatures =
      (true, err)) :
    signatures.length = signatories.length ∧ signatures.length = weights.length ∧
      (∀ t ∈ signatories.zip (weights.zip signatures), tryRecover hash t.2.2 = some t.1) ∧
      threshold ≤ ((signatories.zip (weights.zip signatures)).map fun t => t.2.1).sum := by
  unfold isValidWeightedMultiSignature at h
  by_cases hzero : signatures.length = 0
  · simp [hzero] at h
  by_cases hlen : signatures.length ≠ signatories.length ∨ signatures.length ≠ weights.length
  · rw [if_neg hzero, if_pos hlen] at h
    cases h
  rw [if_neg hzero, if_neg hlen] at h
  rw [not_or, not_ne_iff, not_ne_iff] at hlen
  cases hloop : multisigLoop tryRecover hash (signatories.zip (weights.zip signatures)) 0 with
  | error e => simp [hloop] at h
  | ok weight =>
    simp only [hloop] at h
    -- Only a weight at the threshold is accepted.
    by_cases hge : weight ≥ threshold
    · obtain ⟨hall, htotal⟩ := multisigLoop_eq_ok tryRecover hloop
      exact ⟨hlen.1, hlen.2, hall, by omega⟩
    · rw [if_neg hge] at h
      cases h

omit [DecidableEq Address] in
/-- Zipping lists of one length keeps the middle one whole. -/
theorem map_weights_zip {signatories : List Address} {weights : List Nat} {signatures : List Sig}
    (h₁ : signatures.length = signatories.length) (h₂ : signatures.length = weights.length) :
    ((signatories.zip (weights.zip signatures)).map fun t => t.2.1) = weights := by
  have hcomp : (fun t : Address × Nat × Sig => t.2.1) = Prod.fst ∘ Prod.snd := rfl
  rw [hcomp, ← List.map_map, List.map_snd_zip (by simp; omega), List.map_fst_zip (by omega)]

/-- The powers `getTotalPowerOfValidators` returns are those of the addresses, all active. -/
theorem getTotalPowerOfValidators_eq_ok {vs : ValidatorSet Address} :
    ∀ {addresses : List Address} {powers : List Nat},
      vs.getTotalPowerOfValidators addresses = .ok powers →
        (∀ a ∈ addresses, vs.isActiveValidator a = true) ∧ powers = addresses.map vs.getPower
  | [], powers, h => by
    simp only [ValidatorSet.getTotalPowerOfValidators, List.mapM_nil, Except.pure_eq_ok,
      Except.ok.injEq] at h
    simp [h]
  | a :: rest, powers, h => by
    unfold ValidatorSet.getTotalPowerOfValidators at h
    rw [List.mapM_cons, Except.bind_eq_ok] at h
    obtain ⟨p, hp, h⟩ := h
    rw [Except.bind_eq_ok] at h
    obtain ⟨ps, hps, h⟩ := h
    simp only [Except.pure_eq_ok, Except.ok.injEq] at h
    subst h
    have hactive : vs.isActiveValidator a = true := by
      by_contra hna
      have hfalse : vs.isActiveValidator a = false := by simpa using hna
      simp [hfalse] at hp
    have hpower : p = vs.getPower a := by
      simp only [hactive, Bool.not_true, Bool.false_eq_true, if_false, Except.ok.injEq] at hp
      exact hp.symm
    obtain ⟨hall, hmap⟩ := getTotalPowerOfValidators_eq_ok hps
    refine ⟨fun b hb => ?_, by simp [hpower, hmap]⟩
    rcases List.mem_cons.mp hb with rfl | hb
    · exact hactive
    · exact hall b hb

/-- What `validateActiveQuorumSignatures` guarantees: every signatory is active, the signature at
each position recovers to the signatory there, and the powers of the positions add up to the
majority threshold. A signatory counts once for every position it holds. -/
theorem validateActiveQuorumSignatures_eq_ok {s : SubnetActorState Address Msg}
    {signatories : List Address} {hash : Hash} {signatures : List Sig}
    (h : validateActiveQuorumSignatures tryRecover s signatories hash signatures = .ok ()) :
    (∀ a ∈ signatories, s.validatorSet.isActiveValidator a = true) ∧
      (∀ p ∈ signatories.zip signatures, tryRecover hash p.2 = some p.1) ∧
      s.validatorSet.getTotalActivePower * s.majorityPercentage / 100 ≤
        (signatories.map s.validatorSet.getPower).sum := by
  unfold validateActiveQuorumSignatures at h
  rw [Except.bind_eq_ok] at h
  obtain ⟨collaterals, hcoll, h⟩ := h
  obtain ⟨hactive, rfl⟩ := getTotalPowerOfValidators_eq_ok hcoll
  cases hvalid : isValidWeightedMultiSignature tryRecover signatories
      (signatories.map s.validatorSet.getPower)
      (s.validatorSet.getTotalActivePower * s.majorityPercentage / 100) hash signatures with
  | mk valid err =>
    simp only [hvalid] at h
    cases valid
    · simp at h
    obtain ⟨hlen₁, hlen₂, hrec, hsum⟩ := isValidWeightedMultiSignature_eq_true tryRecover hvalid
    refine ⟨hactive, fun p hp => ?_, ?_⟩
    · -- A pair of the signatory and its signature sits in the zip with the weight between.
      obtain ⟨i, hi, rfl⟩ := List.getElem_of_mem hp
      have hlt : i < signatories.length := by simp at hi; omega
      have hmem : (signatories[i], (s.validatorSet.getPower signatories[i], signatures[i])) ∈
          signatories.zip ((signatories.map s.validatorSet.getPower).zip signatures) := by
        refine List.mem_iff_getElem.mpr ⟨i, by simp; omega, ?_⟩
        simp
      simpa using hrec _ hmem
    · rwa [map_weights_zip hlen₁ hlen₂] at hsum

/-- With distinct signatories, an accepted set of signatures does carry a majority: the distinct
active validators with a valid signature hold at least the threshold. -/
theorem validateActiveQuorumSignatures_distinct_majority {s : SubnetActorState Address Msg}
    {signatories : List Address} {hash : Hash} {signatures : List Sig}
    (hnodup : signatories.Nodup)
    (h : validateActiveQuorumSignatures tryRecover s signatories hash signatures = .ok ()) :
    s.validatorSet.getTotalActivePower * s.majorityPercentage / 100 ≤
      ∑ v ∈ signatories.toFinset, s.validatorSet.getPower v := by
  obtain ⟨-, -, hsum⟩ := validateActiveQuorumSignatures_eq_ok tryRecover h
  rwa [List.sum_toFinset _ hnodup]

end Multisig

/-- Four active validators of power one and a 67% majority: validators 1 and 2, each with its
own signature, are accepted and hold the threshold of two. -/
theorem validateActiveQuorumSignatures_distinct_pair :
    let vs : ValidatorSet Nat := ⟨.Collateral, fun _ => ⟨0, 1⟩, [1, 2, 3, 4]⟩
    let s : SubnetActorState Nat Unit := ⟨false, 10, 0, 10, 67, vs, fun _ => none⟩
    let tryRecover : Unit → Nat → Option Nat := fun _ sig => some sig
    [1, 2].Nodup ∧ validateActiveQuorumSignatures tryRecover s [1, 2] () [1, 2] = .ok () ∧
      s.validatorSet.getTotalActivePower * s.majorityPercentage / 100 ≤
        ∑ v ∈ ([1, 2] : List Nat).toFinset, s.validatorSet.getPower v := by
  intro vs s tryRecover
  have hnodup : ([1, 2] : List Nat).Nodup := by decide
  have hvalid : validateActiveQuorumSignatures tryRecover s [1, 2] () [1, 2] = .ok () := by decide
  exact ⟨hnodup, hvalid, validateActiveQuorumSignatures_distinct_majority tryRecover hnodup hvalid⟩

/-- Four active validators of power one and a 67% majority, so a threshold of two. Validator 1
alone does not reach it, but the same validator listed twice with the same signature does, and
the checkpoint is accepted with one distinct signer holding power one. Recovery is injective
here: a signature recovers to the address it is. -/
theorem submitCheckpoint_counts_repeated_signatory :
    let vs : ValidatorSet Nat := ⟨.Collateral, fun _ => ⟨0, 1⟩, [1, 2, 3, 4]⟩
    let s : SubnetActorState Nat Unit := ⟨false, 10, 0, 10, 67, vs, fun _ => none⟩
    let checkpoint : BottomUpCheckpoint Unit := ⟨10, 0, []⟩
    let tryRecover : Unit → Nat → Option Nat := fun _ sig => some sig
    (submitCheckpoint tryRecover (fun _ => ()) s checkpoint [1] [1]).toBool = false ∧
      (submitCheckpoint tryRecover (fun _ => ()) s checkpoint [1, 1] [1, 1]).toBool = true ∧
      ∑ v ∈ ([1, 1] : List Nat).toFinset, vs.getPower v < vs.getTotalActivePower * 67 / 100 := by
  decide

end Delorean.Subnet
