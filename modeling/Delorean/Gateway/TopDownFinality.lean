import Delorean.Staking.SubnetActor
import Delorean.Lib.Reach

/-!
# The child gateway's top-down finality

`TopDownFinalityFacet` is how a child subnet's gateway follows its parent. The interpreter, as
the system actor, commits each parent finality it executes (`commitParentFinality`), stores the
staking changes the parent recorded up to it (`storeValidatorChanges`), and when it cuts a
bottom-up checkpoint confirms them and adopts the resulting power table as the membership
(`applyFinalityChanges`). Its storage is the part of `GatewayActorStorage` modelled here: the
finalities by parent height and the latest height, the tracker of the parent's validators (a
validator set and a change log, `ParentValidatorsTracker`), and the current and last
memberships.

Two facts hold over every run from the constructor.

- The finality storage is an append-only log of the committed finalities (`Agrees`): their
  heights are positive and increase, the latest height is the last one's, and the map holds each
  under its height and the zero finality elsewhere. A commit is accepted exactly when it is above
  the last one, appends it, and returns the last one (`commitParentFinalityFacet_of_agrees`), so
  what is committed for a height is never rewritten (`finalities_append_only`).
- The membership follows the tracker (`Tracks`): its configuration number is one below the
  log's start, and once a change set has been applied it is the power table of the tracker's
  active validators, numbered above the last membership. So `applyFinalityChanges` never reaches
  `updateMembership`'s early returns or its `OldConfigurationNumber` revert: it confirms every
  stored change and adopts the new table (`applyFinalityChanges_of_reachable`).

The tracker starts empty, with the permission mode storage starts with, `Collateral`: the
constructor writes only its active limit and configuration numbers. The genesis validators are
only the genesis membership, so the first change set applied replaces them by the validators its
changes confirm (`deposit_run`).

`keccak256 (abi.encode validators)` in `membershipEqual` is a parameter, `hashValidators`. The
`systemActorOnly` check of the three calls and the `MembershipUpdated` event are left out.
Heights and configuration numbers are natural numbers; the `uint64` subtraction of
`applyFinalityChanges` stays above zero since the next configuration number never falls below
one.
-/

namespace Delorean.Gateway.TopDownFinality

open Delorean.Staking (Validator ValidatorSet StakingChange StakingChangeLog)

/-- The reasons the facet reverts with: the gateway's own, and those of the staking library
that its tracker runs. -/
inductive Revert (Address : Type) where
  | ParentFinalityAlreadyCommitted
  | OldConfigurationNumber
  | LibStaking (reason : Staking.Revert Address)
  deriving DecidableEq, Repr

/-- `ParentFinality`. -/
structure ParentFinality (Hash : Type) where
  height : Nat
  blockHash : Hash
  deriving DecidableEq, Repr

/-- The finality a height never committed reads: zero height and hash. -/
def ParentFinality.zero {Hash : Type} [Inhabited Hash] : ParentFinality Hash := ⟨0, default⟩

/-- `Membership`. -/
structure Membership (Address : Type) where
  validators : List (Validator Address)
  configurationNumber : Nat
  deriving DecidableEq, Repr

/-- `StakingChangeRequest`, with its change's payload decoded. -/
structure StakingChangeRequest (Address : Type) where
  change : StakingChange Address
  configurationNumber : Nat
  deriving DecidableEq, Repr

/-- `ParentValidatorsTracker`. -/
structure ParentValidatorsTracker (Address : Type) where
  validators : ValidatorSet Address
  changes : StakingChangeLog Address

/-- The fields of `GatewayActorStorage` that the facet reads and writes. -/
structure GatewayActorStorage (Address Hash : Type) where
  latestParentHeight : Nat
  finalitiesMap : Nat → ParentFinality Hash
  validatorsTracker : ParentValidatorsTracker Address
  currentMembership : Membership Address
  lastMembership : Membership Address

/-! ## The tracker of the parent's validators -/

namespace ParentValidatorsTracker

variable {Address : Type} [DecidableEq Address] [Inhabited Address]

/-- `storeChange`: record the request's change, and revert unless the log numbers it as the
request does. -/
def storeChange (self : ParentValidatorsTracker Address)
    (changeRequest : StakingChangeRequest Address) :
    Except (Staking.Revert Address) (ParentValidatorsTracker Address) :=
  let recorded := self.changes.recordChange changeRequest.change.validator changeRequest.change.op
    changeRequest.change.metadata changeRequest.change.amount
  if recorded.2 ≠ changeRequest.configurationNumber then .error .InvalidConfigurationNumber
  else .ok { self with changes := recorded.1 }

/-- `batchStoreChange`: store the requests in order; a revert of one reverts them all. -/
def batchStoreChange (self : ParentValidatorsTracker Address) :
    List (StakingChangeRequest Address) →
      Except (Staking.Revert Address) (ParentValidatorsTracker Address)
  | [] => .ok self
  | changeRequest :: changeRequests => do
    let self ← self.storeChange changeRequest
    batchStoreChange self changeRequests

/-- `confirmChange` of `LibValidatorTracking`: the log's confirmation, each change applied to the
tracked validator set. -/
def confirmChange (self : ParentValidatorsTracker Address) (configurationNumber : Nat) :
    Except (Staking.Revert Address) (ParentValidatorsTracker Address) := do
  let r ← StakingChangeLog.confirmChanges ValidatorSet.applyChange self.changes self.validators
    configurationNumber
  return ⟨r.2, r.1⟩

end ParentValidatorsTracker

/-! ## Memberships -/

section Membership

variable {Address H : Type} [DecidableEq H] (hashValidators : List (Validator Address) → H)

/-- `membershipTotalWeight`. -/
def membershipTotalWeight (self : Membership Address) : Nat :=
  (self.validators.map fun v => v.weight).sum

/-- `membershipEqual`, with `keccak256 (abi.encode validators)` as `hashValidators`. -/
def membershipEqual (mb1 mb2 : Membership Address) : Bool :=
  if mb1.configurationNumber ≠ mb2.configurationNumber then false
  else if membershipTotalWeight mb1 ≠ membershipTotalWeight mb2 then false
  else if mb1.validators.length ≠ mb2.validators.length then false
  else decide (hashValidators mb1.validators = hashValidators mb2.validators)

/-- The loop of `updateMembership` that copies the new validators into storage, from index `i`
on: an index the stored array has is overwritten, any other is pushed. -/
def copyValidators {V : Type} (storeLength : Nat) : List V → List V → Nat → List V
  | stored, [], _ => stored
  | stored, v :: input, i =>
    copyValidators storeLength (if i < storeLength then stored.set i v else stored ++ [v]) input
      (i + 1)

/-- The loop of `updateMembership` that pops `n` stored validators. -/
def popValidators {V : Type} : List V → Nat → List V
  | stored, 0 => stored
  | stored, n + 1 => popValidators stored.dropLast n

/-- The power table `applyFinalityChanges` builds: each active validator, with its confirmed
collateral and federated power as its weight, and its metadata. -/
def powerTable [DecidableEq Address] [Inhabited Address] (vs : ValidatorSet Address) :
    List (Validator Address) :=
  vs.listActiveValidators.map fun addr =>
    let info := vs.validators addr
    ⟨info.confirmedCollateral + info.federatedPower, addr, info.metadata⟩

end Membership

/-! ## The facet -/

namespace GatewayActorStorage

variable {Address Hash H : Type} [DecidableEq Address] [Inhabited Address] [Inhabited Hash]
  [DecidableEq H] (hashValidators : List (Validator Address) → H)

/-- `getParentFinality`. -/
def getParentFinality (s : GatewayActorStorage Address Hash) (blockNumber : Nat) :
    ParentFinality Hash :=
  s.finalitiesMap blockNumber

/-- `getLatestParentFinality`. -/
def getLatestParentFinality (s : GatewayActorStorage Address Hash) : ParentFinality Hash :=
  s.getParentFinality s.latestParentHeight

/-- `commitParentFinality` of `LibGateway`: revert unless the finality is above the latest
height; store it under its height, make it the latest, and return the latest one before. -/
def commitParentFinality (s : GatewayActorStorage Address Hash) (finality : ParentFinality Hash) :
    Except (Revert Address) (GatewayActorStorage Address Hash × ParentFinality Hash) :=
  let lastHeight := s.latestParentHeight
  if lastHeight ≥ finality.height then .error .ParentFinalityAlreadyCommitted
  else
    let lastFinality := s.finalitiesMap lastHeight
    .ok ({ s with
      finalitiesMap := Function.update s.finalitiesMap finality.height finality
      latestParentHeight := finality.height }, lastFinality)

/-- The facet's `commitParentFinality`: also whether a finality was committed before, read off
the previous one's height. -/
def commitParentFinalityFacet (s : GatewayActorStorage Address Hash)
    (finality : ParentFinality Hash) :
    Except (Revert Address) (GatewayActorStorage Address Hash × Bool × ParentFinality Hash) := do
  let r ← s.commitParentFinality finality
  return (r.1, r.2.height != 0, r.2)

/-- `storeValidatorChanges`. -/
def storeValidatorChanges (s : GatewayActorStorage Address Hash)
    (changeRequests : List (StakingChangeRequest Address)) :
    Except (Revert Address) (GatewayActorStorage Address Hash) := do
  let validatorsTracker ←
    (s.validatorsTracker.batchStoreChange changeRequests).mapError .LibStaking
  return { s with validatorsTracker }

/-- What `updateMembership` writes: the current membership becomes the last, and the copy loops
store the new one as the current. -/
def replaceMembership (s : GatewayActorStorage Address Hash) (membership : Membership Address) :
    GatewayActorStorage Address Hash :=
  let inputLength := membership.validators.length
  let storeLength := s.currentMembership.validators.length
  let copied := copyValidators storeLength s.currentMembership.validators membership.validators 0
  { s with
    lastMembership := s.currentMembership
    currentMembership :=
      ⟨if storeLength > inputLength then popValidators copied (storeLength - inputLength)
        else copied, membership.configurationNumber⟩ }

/-- `updateMembership`. -/
def updateMembership (s : GatewayActorStorage Address Hash) (membership : Membership Address) :
    Except (Revert Address) (GatewayActorStorage Address Hash) :=
  -- the checks apply after the genesis membership, the one numbered zero
  if s.currentMembership.configurationNumber ≠ 0 then
    if membership.configurationNumber = s.lastMembership.configurationNumber then .ok s
    else if membership.configurationNumber < s.lastMembership.configurationNumber then
      .error .OldConfigurationNumber
    else if membershipEqual hashValidators membership s.currentMembership then .ok s
    else .ok (s.replaceMembership membership)
  else .ok (s.replaceMembership membership)

/-- `applyFinalityChanges`: confirm every stored change and adopt the power table as the
membership; return the configuration number confirmed, or zero when none was pending. -/
def applyFinalityChanges (s : GatewayActorStorage Address Hash) :
    Except (Revert Address) (GatewayActorStorage Address Hash × Nat) :=
  let configurationNumber := s.validatorsTracker.changes.nextConfigurationNumber - 1
  if configurationNumber + 1 = s.validatorsTracker.changes.startConfigurationNumber then
    .ok (s, 0)
  else do
    let validatorsTracker ←
      (s.validatorsTracker.confirmChange configurationNumber).mapError .LibStaking
    let s ← ({ s with validatorsTracker } : GatewayActorStorage Address Hash).updateMembership
      hashValidators ⟨powerTable validatorsTracker.validators, configurationNumber⟩
    return (s, configurationNumber)

/-- The facet's storage as the gateway's constructor leaves it: no finality, an empty tracker
with the active limit and both configuration numbers at one, and the genesis validators as the
membership numbered zero. -/
def new (activeValidatorsLimit : Nat) (genesisValidators : List (Validator Address)) :
    Except (Revert Address) (GatewayActorStorage Address Hash) :=
  updateMembership hashValidators
    ⟨0, fun _ => .zero, ⟨.empty .Collateral activeValidatorsLimit, .initial⟩, ⟨[], 0⟩, ⟨[], 0⟩⟩
    ⟨genesisValidators, 0⟩

end GatewayActorStorage

/-- A call of the system actor to the facet. -/
inductive Call (Address Hash : Type) where
  | commitParentFinality (finality : ParentFinality Hash)
  | storeValidatorChanges (changeRequests : List (StakingChangeRequest Address))
  | applyFinalityChanges

/-- The changes a call stores in the tracker, in order. -/
def Call.storedChanges {Address Hash : Type} : Call Address Hash → List (StakingChange Address)
  | .storeValidatorChanges changeRequests => changeRequests.map (·.change)
  | .commitParentFinality _ | .applyFinalityChanges => []

namespace GatewayActorStorage

variable {Address Hash H : Type} [DecidableEq Address] [Inhabited Address] [Inhabited Hash]
  [DecidableEq H] (hashValidators : List (Validator Address) → H)

/-- What a call does to the storage. -/
def apply (s : GatewayActorStorage Address Hash) :
    Call Address Hash → Except (Revert Address) (GatewayActorStorage Address Hash)
  | .commitParentFinality finality => do
    let r ← s.commitParentFinalityFacet finality
    return r.1
  | .storeValidatorChanges changeRequests => s.storeValidatorChanges changeRequests
  | .applyFinalityChanges => do
    let r ← s.applyFinalityChanges hashValidators
    return r.1

/-- The storage the constructor leaves, for some active limit and genesis validators. -/
def Initial (s : GatewayActorStorage Address Hash) : Prop :=
  ∃ activeValidatorsLimit genesisValidators,
    new hashValidators activeValidatorsLimit genesisValidators = .ok s

/-- A successful call. -/
def Step (s s' : GatewayActorStorage Address Hash) : Prop :=
  ∃ call, s.apply hashValidators call = .ok s'

end GatewayActorStorage

/-! ## What each call does -/

section Copy

variable {V : Type}

/-- The copy loop from index `pre.length` on, over a stored array whose first `pre.length`
entries are already overwritten, overwrites or pushes the rest of the input. -/
theorem copyValidators_append (stored pre input : List V) :
    copyValidators stored.length (pre ++ stored.drop pre.length) input pre.length =
      pre ++ input ++ stored.drop (pre.length + input.length) := by
  induction input generalizing pre with
  | nil => simp [copyValidators]
  | cons v input ih =>
    have hstep : (if pre.length < stored.length then (pre ++ stored.drop pre.length).set pre.length v
        else pre ++ stored.drop pre.length ++ [v]) = pre ++ [v] ++ stored.drop (pre.length + 1) := by
      split_ifs with hlt
      · -- an index the stored array has: its entry is overwritten
        rw [List.set_append_right _ _ (Nat.le_refl _), Nat.sub_self, List.drop_eq_getElem_cons hlt]
        simp only [List.set_cons_zero, List.append_assoc, List.singleton_append]
      · -- past the stored array: the entry is pushed
        rw [List.drop_eq_nil_of_le (by omega), List.drop_eq_nil_of_le (by omega)]
        simp
    have ih' := ih (pre ++ [v])
    simp only [List.length_append, List.length_singleton] at ih'
    rw [copyValidators, hstep, ih', show pre.length + 1 + input.length =
      pre.length + (input.length + 1) by omega]
    simp

/-- `n` pops leave the stored array less its last `n` entries. -/
theorem popValidators_eq_take (stored : List V) (n : Nat) :
    popValidators stored n = stored.take (stored.length - n) := by
  induction n generalizing stored with
  | zero => simp [popValidators]
  | succ n ih =>
    rw [popValidators, ih, List.dropLast_eq_take, List.length_take, List.take_take]
    congr 1
    omega

end Copy

namespace GatewayActorStorage

section Replace

variable {Address Hash : Type}

/-- The copy and the pops of `updateMembership` store exactly the new validators. -/
@[simp]
theorem replaceMembership_currentMembership (s : GatewayActorStorage Address Hash)
    (membership : Membership Address) :
    (s.replaceMembership membership).currentMembership = membership := by
  have hcopy := copyValidators_append s.currentMembership.validators [] membership.validators
  simp only [List.nil_append, List.length_nil, List.drop_zero, Nat.zero_add] at hcopy
  simp only [replaceMembership, hcopy]
  split_ifs with hlonger
  · -- the stored array was longer: the pops take off what the copy left past the input
    have hlength : membership.validators.length =
        (membership.validators ++ s.currentMembership.validators.drop membership.validators.length).length -
          (s.currentMembership.validators.length - membership.validators.length) := by
      simp only [List.length_append, List.length_drop]
      omega
    rw [popValidators_eq_take, List.take_left' hlength]
  · rw [List.drop_eq_nil_of_le (by omega), List.append_nil]

@[simp]
theorem replaceMembership_lastMembership (s : GatewayActorStorage Address Hash)
    (membership : Membership Address) :
    (s.replaceMembership membership).lastMembership = s.currentMembership := rfl

@[simp]
theorem replaceMembership_validatorsTracker (s : GatewayActorStorage Address Hash)
    (membership : Membership Address) :
    (s.replaceMembership membership).validatorsTracker = s.validatorsTracker := rfl

@[simp]
theorem replaceMembership_latestParentHeight (s : GatewayActorStorage Address Hash)
    (membership : Membership Address) :
    (s.replaceMembership membership).latestParentHeight = s.latestParentHeight := rfl

@[simp]
theorem replaceMembership_finalitiesMap (s : GatewayActorStorage Address Hash)
    (membership : Membership Address) :
    (s.replaceMembership membership).finalitiesMap = s.finalitiesMap := rfl

/-- `updateMembership`'s write, field by field. -/
theorem replaceMembership_eq (s : GatewayActorStorage Address Hash) (membership : Membership Address) :
    s.replaceMembership membership =
      { s with lastMembership := s.currentMembership, currentMembership := membership } := by
  have h := replaceMembership_currentMembership s membership
  simp only [replaceMembership] at h ⊢
  rw [h]

end Replace

end GatewayActorStorage

section MembershipLemmas

variable {Address : Type}

/-- The power table of a well-formed set lists each active validator once, at most the active
limit of them, each weighted by its confirmed collateral and federated power. -/
theorem powerTable_of_wf [DecidableEq Address] [Inhabited Address] {vs : ValidatorSet Address}
    (hw : vs.Wf) :
    ((powerTable vs).map (·.addr)).Nodup ∧ (powerTable vs).length ≤ vs.activeLimit ∧
      ∀ v ∈ powerTable vs, vs.activeValidators.contains v.addr = true ∧
        v.weight = (vs.validators v.addr).confirmedCollateral + (vs.validators v.addr).federatedPower := by
  have haddrs : (powerTable vs).map (·.addr) = vs.listActiveValidators := by
    simp [powerTable, Function.comp_def]
  refine ⟨haddrs ▸ ValidatorSet.nodup_listActiveValidators hw.active_indexed, ?_, ?_⟩
  · simpa [powerTable] using hw.active_le
  · intro v hv
    obtain ⟨a, ha, rfl⟩ := List.mem_map.1 hv
    exact ⟨(ValidatorSet.mem_listActiveValidators hw.active_indexed a).1 ha, rfl⟩

end MembershipLemmas

/-! ### The tracker -/

/-- The log after the requests' changes are recorded in order, as `batchStoreChange` leaves it. -/
def recordRequests {Address : Type} [Inhabited Address] (changes : StakingChangeLog Address)
    (changeRequests : List (StakingChangeRequest Address)) : StakingChangeLog Address :=
  changeRequests.foldl (fun changes changeRequest =>
    (changes.recordChange changeRequest.change.validator changeRequest.change.op
      changeRequest.change.metadata changeRequest.change.amount).1) changes

section Record

variable {Address : Type} [Inhabited Address]

theorem recordRequests_cons (changes : StakingChangeLog Address)
    (changeRequest : StakingChangeRequest Address) (changeRequests : List (StakingChangeRequest Address)) :
    recordRequests changes (changeRequest :: changeRequests) =
      recordRequests (changes.recordChange changeRequest.change.validator changeRequest.change.op
        changeRequest.change.metadata changeRequest.change.amount).1 changeRequests := rfl

/-- Recording two lists of requests one after the other is recording their concatenation. -/
theorem recordRequests_append (changes : StakingChangeLog Address)
    (changeRequests changeRequests' : List (StakingChangeRequest Address)) :
    recordRequests changes (changeRequests ++ changeRequests') =
      recordRequests (recordRequests changes changeRequests) changeRequests' :=
  List.foldl_append

@[simp]
theorem nextConfigurationNumber_recordRequests (changes : StakingChangeLog Address)
    (changeRequests : List (StakingChangeRequest Address)) :
    (recordRequests changes changeRequests).nextConfigurationNumber =
      changes.nextConfigurationNumber + changeRequests.length := by
  induction changeRequests generalizing changes with
  | nil => rfl
  | cons changeRequest changeRequests ih =>
    rw [recordRequests_cons, ih]
    simp only [StakingChangeLog.recordChange, List.length_cons]
    omega

@[simp]
theorem startConfigurationNumber_recordRequests (changes : StakingChangeLog Address)
    (changeRequests : List (StakingChangeRequest Address)) :
    (recordRequests changes changeRequests).startConfigurationNumber =
      changes.startConfigurationNumber := by
  induction changeRequests generalizing changes with
  | nil => rfl
  | cons changeRequest changeRequests ih =>
    rw [recordRequests_cons, ih]
    rfl

/-- Recording writes only at the next number and past it. -/
theorem getChange_recordRequests_of_lt (changes : StakingChangeLog Address)
    (changeRequests : List (StakingChangeRequest Address)) {n : Nat}
    (hn : n < changes.nextConfigurationNumber) :
    (recordRequests changes changeRequests).getChange n = changes.getChange n := by
  induction changeRequests generalizing changes with
  | nil => rfl
  | cons changeRequest changeRequests ih =>
    rw [recordRequests_cons, ih _ (by simp only [StakingChangeLog.recordChange]; omega)]
    simp [StakingChangeLog.getChange, StakingChangeLog.recordChange,
      Function.update_of_ne (Nat.ne_of_lt hn)]

/-- The `i`-th request's change is recorded `i` numbers past the log's next. -/
theorem getChange_recordRequests (changes : StakingChangeLog Address)
    (changeRequests : List (StakingChangeRequest Address)) (i : Nat) (hi : i < changeRequests.length) :
    (recordRequests changes changeRequests).getChange (changes.nextConfigurationNumber + i) =
      changeRequests[i].change := by
  induction changeRequests generalizing changes i with
  | nil => simp at hi
  | cons changeRequest changeRequests ih =>
    rw [recordRequests_cons]
    cases i with
    | zero =>
      rw [getChange_recordRequests_of_lt _ _ (by simp [StakingChangeLog.recordChange])]
      simp [StakingChangeLog.getChange, StakingChangeLog.recordChange]
    | succ i =>
      have hnext : changes.nextConfigurationNumber + (i + 1) =
          (changes.recordChange changeRequest.change.validator changeRequest.change.op
            changeRequest.change.metadata changeRequest.change.amount).1.nextConfigurationNumber + i := by
        simp only [StakingChangeLog.recordChange]
        omega
      rw [hnext, ih _ i (by simpa using hi)]
      rfl

end Record

namespace ParentValidatorsTracker

variable {Address : Type} [DecidableEq Address] [Inhabited Address]

omit [DecidableEq Address] in
/-- `storeChange` accepts a request numbered as the log's next change, and records it. -/
theorem storeChange_eq_ok_iff {self self' : ParentValidatorsTracker Address}
    {changeRequest : StakingChangeRequest Address} :
    self.storeChange changeRequest = .ok self' ↔
      changeRequest.configurationNumber = self.changes.nextConfigurationNumber ∧
        self' = { self with changes := recordRequests self.changes [changeRequest] } := by
  unfold storeChange
  by_cases h : self.changes.nextConfigurationNumber = changeRequest.configurationNumber
  · simp [StakingChangeLog.recordChange, h, recordRequests, eq_comm]
  · simp [StakingChangeLog.recordChange, h, Ne.symm h]

omit [DecidableEq Address] in
/-- `batchStoreChange` accepts exactly the requests numbered one after another from the log's
next configuration number, and records them in order. -/
theorem batchStoreChange_eq_ok_iff {self self' : ParentValidatorsTracker Address}
    {changeRequests : List (StakingChangeRequest Address)} :
    self.batchStoreChange changeRequests = .ok self' ↔
      changeRequests.map (·.configurationNumber) =
          List.range' self.changes.nextConfigurationNumber changeRequests.length ∧
        self' = { self with changes := recordRequests self.changes changeRequests } := by
  induction changeRequests generalizing self with
  | nil => simp [batchStoreChange, recordRequests, eq_comm]
  | cons changeRequest changeRequests ih =>
    rw [batchStoreChange, Except.bind_eq_ok, List.length_cons, List.range'_succ, List.map_cons,
      List.cons.injEq]
    constructor
    · rintro ⟨self₁, h₁, h₂⟩
      obtain ⟨hnumber, rfl⟩ := storeChange_eq_ok_iff.1 h₁
      obtain ⟨hnumbers, rfl⟩ := ih.1 h₂
      exact ⟨⟨hnumber, by simpa using hnumbers⟩, rfl⟩
    · rintro ⟨⟨hnumber, hnumbers⟩, rfl⟩
      exact ⟨_, storeChange_eq_ok_iff.2 ⟨hnumber, rfl⟩, ih.2 ⟨by simpa using hnumbers, rfl⟩⟩

/-- A confirmation from the start on moves the start past the number and keeps the next one. -/
theorem confirmChange_numbers {self self' : ParentValidatorsTracker Address}
    {configurationNumber : Nat}
    (hle : self.changes.startConfigurationNumber ≤ configurationNumber)
    (h : self.confirmChange configurationNumber = .ok self') :
    self'.changes.nextConfigurationNumber = self.changes.nextConfigurationNumber ∧
      self'.changes.startConfigurationNumber = configurationNumber + 1 := by
  obtain ⟨r, hr, h⟩ := Except.bind_eq_ok.1 h
  rw [Except.pure_eq_ok, Except.ok.injEq] at h
  subst h
  exact StakingChangeLog.confirmChanges_numbers hle hr

/-- A confirmation keeps the tracked set well formed. -/
theorem wf_confirmChange {self self' : ParentValidatorsTracker Address} {configurationNumber : Nat}
    (hw : self.validators.Wf) (h : self.confirmChange configurationNumber = .ok self') :
    self'.validators.Wf := by
  obtain ⟨r, hr, h⟩ := Except.bind_eq_ok.1 h
  rw [Except.pure_eq_ok, Except.ok.injEq] at h
  subst h
  exact StakingChangeLog.confirmChanges_invariant (fun vs => vs.Wf)
    (fun _ _ _ hw h => hw.applyChange h) hw hr

/-- A confirmation from the start on applies the stored changes from the start up to the number,
in order, to the tracked set. -/
theorem confirmChange_foldlM {self self' : ParentValidatorsTracker Address}
    {configurationNumber : Nat} (hle : self.changes.startConfigurationNumber ≤ configurationNumber)
    (h : self.confirmChange configurationNumber = .ok self') :
    ((List.range' self.changes.startConfigurationNumber
        (configurationNumber + 1 - self.changes.startConfigurationNumber)).map
          self.changes.getChange).foldlM ValidatorSet.applyChange self.validators =
      .ok self'.validators := by
  obtain ⟨r, hr, h⟩ := Except.bind_eq_ok.1 h
  rw [Except.pure_eq_ok, Except.ok.injEq] at h
  subst h
  exact StakingChangeLog.confirmChanges_foldlM hle hr

end ParentValidatorsTracker

/-! ### The facet's calls -/

namespace GatewayActorStorage

variable {Address Hash H : Type} [DecidableEq Address] [Inhabited Address] [Inhabited Hash]
  [DecidableEq H] (hashValidators : List (Validator Address) → H)

omit [DecidableEq Address] [Inhabited Address] [Inhabited Hash] in
/-- A finality above the latest height is stored under its height and made the latest, and the
latest one before is returned. -/
theorem commitParentFinality_of_lt (s : GatewayActorStorage Address Hash)
    {finality : ParentFinality Hash} (h : s.latestParentHeight < finality.height) :
    s.commitParentFinality finality =
      .ok ({ s with
        finalitiesMap := Function.update s.finalitiesMap finality.height finality
        latestParentHeight := finality.height }, s.finalitiesMap s.latestParentHeight) := by
  simp [commitParentFinality, Nat.not_le.2 h]

omit [DecidableEq Address] [Inhabited Address] [Inhabited Hash] in
/-- A finality at or below the latest height reverts. -/
theorem commitParentFinality_of_le (s : GatewayActorStorage Address Hash)
    {finality : ParentFinality Hash} (h : finality.height ≤ s.latestParentHeight) :
    s.commitParentFinality finality = .error .ParentFinalityAlreadyCommitted := by
  simp [commitParentFinality, h]

omit [DecidableEq Address] [Inhabited Address] [Inhabited Hash] in
/-- The facet's commit succeeds only above the latest height; it writes the finality and the
latest height, and returns the latest finality before and whether its height is not zero. -/
theorem commitParentFinalityFacet_eq_ok {s s' : GatewayActorStorage Address Hash}
    {finality prev : ParentFinality Hash} {hasCommitted : Bool}
    (h : s.commitParentFinalityFacet finality = .ok (s', hasCommitted, prev)) :
    s.latestParentHeight < finality.height ∧
      s' = { s with
        finalitiesMap := Function.update s.finalitiesMap finality.height finality
        latestParentHeight := finality.height } ∧
      prev = s.finalitiesMap s.latestParentHeight ∧ hasCommitted = (prev.height != 0) := by
  by_cases hlt : s.latestParentHeight < finality.height
  · simp only [commitParentFinalityFacet, commitParentFinality_of_lt s hlt, Except.ok_bind,
      Except.pure_eq_ok, Except.ok.injEq, Prod.mk.injEq] at h
    obtain ⟨rfl, rfl, rfl⟩ := h
    exact ⟨hlt, rfl, rfl, rfl⟩
  · rw [commitParentFinalityFacet, commitParentFinality_of_le s (Nat.not_lt.1 hlt)] at h
    cases h

omit [DecidableEq Address] [Inhabited Hash] in
/-- `storeValidatorChanges` accepts exactly the requests numbered on from the tracker's next
configuration number, and records them; nothing else is written. -/
theorem storeValidatorChanges_eq_ok_iff {s s' : GatewayActorStorage Address Hash}
    {changeRequests : List (StakingChangeRequest Address)} :
    s.storeValidatorChanges changeRequests = .ok s' ↔
      changeRequests.map (·.configurationNumber) =
          List.range' s.validatorsTracker.changes.nextConfigurationNumber changeRequests.length ∧
        s' = { s with validatorsTracker := { s.validatorsTracker with
          changes := recordRequests s.validatorsTracker.changes changeRequests } } := by
  unfold storeValidatorChanges
  rw [Except.bind_eq_ok]
  constructor
  · rintro ⟨validatorsTracker, h₁, h₂⟩
    obtain ⟨hnumbers, rfl⟩ := ParentValidatorsTracker.batchStoreChange_eq_ok_iff.1
      (Except.mapError_eq_ok.1 h₁)
    rw [Except.pure_eq_ok, Except.ok.injEq] at h₂
    exact ⟨hnumbers, h₂.symm⟩
  · rintro ⟨hnumbers, rfl⟩
    exact ⟨_, Except.mapError_eq_ok.2 (ParentValidatorsTracker.batchStoreChange_eq_ok_iff.2
      ⟨hnumbers, rfl⟩), rfl⟩

omit [DecidableEq Address] [Inhabited Address] [Inhabited Hash] in
/-- A membership is stored when it is the first after the genesis one, or when it is numbered
above the last membership and apart from the current one. -/
theorem updateMembership_of_fresh (s : GatewayActorStorage Address Hash)
    (membership : Membership Address)
    (hfresh : s.currentMembership.configurationNumber ≠ 0 →
      s.lastMembership.configurationNumber < membership.configurationNumber ∧
        membership.configurationNumber ≠ s.currentMembership.configurationNumber) :
    s.updateMembership hashValidators membership = .ok (s.replaceMembership membership) := by
  unfold updateMembership
  by_cases hgenesis : s.currentMembership.configurationNumber = 0
  · simp [hgenesis]
  · obtain ⟨hlast, hcurrent⟩ := hfresh hgenesis
    have hequal : membershipEqual hashValidators membership s.currentMembership = false := by
      simp [membershipEqual, hcurrent]
    simp [hgenesis, hequal, hlast.ne', Nat.not_lt.2 hlast.le]

end GatewayActorStorage

/-! ## The finality log

What the finality storage is for: the log of the finalities committed so far, oldest first,
each above the one before. -/

section Log

variable {Hash : Type}

/-- The latest height of a log of committed finalities: its last one's, zero when empty. -/
def lastHeight (log : List (ParentFinality Hash)) : Nat := (log.getLast?.map (·.height)).getD 0

@[simp]
theorem lastHeight_nil : lastHeight ([] : List (ParentFinality Hash)) = 0 := rfl

@[simp]
theorem lastHeight_concat (log : List (ParentFinality Hash)) (finality : ParentFinality Hash) :
    lastHeight (log ++ [finality]) = finality.height := by
  simp [lastHeight]

/-- In a log of increasing heights no height is above the last. -/
theorem le_lastHeight {log : List (ParentFinality Hash)}
    (hsorted : log.Pairwise fun a b => a.height < b.height) {f : ParentFinality Hash}
    (hf : f ∈ log) : f.height ≤ lastHeight log := by
  obtain ⟨l₁, l₂, rfl⟩ := List.append_of_mem hf
  rcases List.eq_nil_or_concat l₂ with rfl | ⟨l₃, g, rfl⟩
  · simp
  · -- the last one is `g`, which comes after `f`
    have hlog : l₁ ++ f :: l₃.concat g = (l₁ ++ f :: l₃) ++ [g] := by simp
    rw [hlog] at hsorted ⊢
    rw [lastHeight_concat]
    exact Nat.le_of_lt ((List.pairwise_append.1 hsorted).2.2 f (by simp) g (List.mem_singleton_self g))

end Log

namespace GatewayActorStorage

section Agrees

variable {Address Hash : Type} [Inhabited Hash]

/-- The finality storage stands for a log of committed finalities, oldest first: their heights
are positive and increase, the latest height is the last one's, and the map holds each under its
height and the zero finality at every other height. -/
structure Agrees (s : GatewayActorStorage Address Hash) (log : List (ParentFinality Hash)) :
    Prop where
  sorted : log.Pairwise fun a b => a.height < b.height
  pos : ∀ f ∈ log, 0 < f.height
  latest : s.latestParentHeight = lastHeight log
  finalities : ∀ h, s.finalitiesMap h = (log.find? fun f => f.height = h).getD .zero

variable {s s' : GatewayActorStorage Address Hash} {log : List (ParentFinality Hash)}

/-- Whether a storage stands for a log depends only on its finalities. -/
theorem Agrees.congr (h : s.Agrees log) (hlatest : s'.latestParentHeight = s.latestParentHeight)
    (hfinalities : s'.finalitiesMap = s.finalitiesMap) : s'.Agrees log :=
  ⟨h.sorted, h.pos, hlatest.trans h.latest, fun n => by rw [hfinalities, h.finalities n]⟩

/-- The latest finality is the log's last one, or the zero finality when the log is empty. -/
theorem Agrees.latest_finality (h : s.Agrees log) :
    s.finalitiesMap s.latestParentHeight = log.getLast?.getD .zero := by
  rw [h.finalities, h.latest]
  rcases List.eq_nil_or_concat log with rfl | ⟨l, f, rfl⟩
  · rfl
  · -- only the last one has the last height
    have hbefore : ∀ g ∈ l, g.height < f.height := fun g hg =>
      (List.pairwise_append.1 (by simpa using h.sorted)).2.2 g hg f (List.mem_singleton_self f)
    have hnone : (l.find? fun g => g.height = f.height) = none :=
      List.find?_eq_none.2 fun g hg => by simpa using (hbefore g hg).ne
    simp [hnone]

/-- Committing above the last height appends the finality to the log. -/
theorem Agrees.commit (h : s.Agrees log) {finality : ParentFinality Hash}
    (hlt : lastHeight log < finality.height) :
    ({ s with
      finalitiesMap := Function.update s.finalitiesMap finality.height finality
      latestParentHeight := finality.height } : GatewayActorStorage Address Hash).Agrees
        (log ++ [finality]) := by
  have hbelow : ∀ g ∈ log, g.height < finality.height := fun g hg =>
    lt_of_le_of_lt (le_lastHeight h.sorted hg) hlt
  refine ⟨List.pairwise_append.2 ⟨h.sorted, List.pairwise_singleton _ _,
    fun g hg f hf => (List.mem_singleton.1 hf) ▸ hbelow g hg⟩, ?_, by simp, fun n => ?_⟩
  · intro f hf
    rcases List.mem_append.1 hf with hf | hf
    · exact h.pos f hf
    · rw [List.mem_singleton.1 hf]
      omega
  · by_cases hn : n = finality.height
    · -- the new height: no finality of the log is there yet
      subst hn
      have hnone : (log.find? fun g => g.height = finality.height) = none :=
        List.find?_eq_none.2 fun g hg => by simpa using (hbelow g hg).ne
      simp [hnone]
    · simp [Function.update_of_ne hn, h.finalities n, List.find?_append, Ne.symm hn]

/-- A log a later storage extends has its new finalities above its last height. -/
theorem Agrees.lastHeight_lt {ext : List (ParentFinality Hash)} (h' : s'.Agrees (log ++ ext))
    {f : ParentFinality Hash} (hf : f ∈ ext) : lastHeight log < f.height := by
  rcases List.eq_nil_or_concat log with rfl | ⟨l, g, rfl⟩
  · exact h'.pos f (by simpa using hf)
  · -- `g` is the log's last, and every new finality comes after it
    rw [List.concat_eq_append, lastHeight_concat]
    rw [List.concat_eq_append] at h'
    exact (List.pairwise_append.1 h'.sorted).2.2 g (by simp) f hf

/-- A storage that extends the log reads the same finality at every height up to its last. -/
theorem Agrees.finalitiesMap_eq_of_le {ext : List (ParentFinality Hash)} (h : s.Agrees log)
    (h' : s'.Agrees (log ++ ext)) {n : Nat} (hn : n ≤ lastHeight log) :
    s'.finalitiesMap n = s.finalitiesMap n := by
  have hnone : (ext.find? fun f => f.height = n) = none :=
    List.find?_eq_none.2 fun f hf => by simpa using (lt_of_le_of_lt hn (h'.lastHeight_lt hf)).ne'
  rw [h'.finalities, h.finalities, List.find?_append, hnone, Option.or_none]

/-- The latest finality has a non-zero height exactly when the log is not empty. -/
theorem Agrees.hasCommitted (h : s.Agrees log) :
    ((log.getLast?.getD .zero).height != 0) = !log.isEmpty := by
  rcases List.eq_nil_or_concat log with rfl | ⟨l, g, rfl⟩
  · rfl
  · have hg : (g.height != 0) = true := bne_iff_ne.2 (Nat.pos_iff_ne_zero.1 (h.pos g (by simp)))
    simp [hg, List.concat_eq_append]

/-- On a storage that stands for a log, the facet's commit is the log's: above the last height it
appends the finality and returns the last one and whether there was one; at or below it, it
reverts. -/
theorem Agrees.commitParentFinalityFacet (h : s.Agrees log) (finality : ParentFinality Hash) :
    (lastHeight log < finality.height → ∃ s',
      s.commitParentFinalityFacet finality = .ok (s', !log.isEmpty, log.getLast?.getD .zero) ∧
        s'.Agrees (log ++ [finality])) ∧
    (finality.height ≤ lastHeight log →
      s.commitParentFinalityFacet finality = .error .ParentFinalityAlreadyCommitted) := by
  refine ⟨fun hlt => ⟨_, ?_, h.commit hlt⟩, fun hle => ?_⟩
  · simp only [GatewayActorStorage.commitParentFinalityFacet,
      commitParentFinality_of_lt s (h.latest ▸ hlt), Except.ok_bind, h.latest_finality,
      h.hasCommitted]
    rfl
  · simp only [GatewayActorStorage.commitParentFinalityFacet,
      commitParentFinality_of_le s (h.latest ▸ hle), Except.error_bind]

end Agrees

/-! ## The membership follows the tracker -/

section Tracks

variable {Address Hash H : Type} [DecidableEq Address] [Inhabited Address] [Inhabited Hash]
  [DecidableEq H] (hashValidators : List (Validator Address) → H)

/-- The membership follows the tracker: its number is one below the log's start, the start is at
most the next number, and once a change set has been applied the membership is the power table of
the tracked set, numbered above the last membership. The tracked set is well formed. -/
structure Tracks (s : GatewayActorStorage Address Hash) : Prop where
  start_le : s.validatorsTracker.changes.startConfigurationNumber ≤
    s.validatorsTracker.changes.nextConfigurationNumber
  current : s.currentMembership.configurationNumber + 1 =
    s.validatorsTracker.changes.startConfigurationNumber
  applied : s.currentMembership.configurationNumber ≠ 0 →
    s.currentMembership.validators = powerTable s.validatorsTracker.validators ∧
      s.lastMembership.configurationNumber < s.currentMembership.configurationNumber
  wf : s.validatorsTracker.validators.Wf

variable {s s' : GatewayActorStorage Address Hash}

omit [Inhabited Hash] in
/-- With changes pending, `applyFinalityChanges` on a storage whose membership follows the
tracker is the confirmation followed by the new membership: `updateMembership` never takes an
early return or reverts. -/
theorem Tracks.applyFinalityChanges_eq (ht : s.Tracks)
    (hpending : s.validatorsTracker.changes.startConfigurationNumber <
      s.validatorsTracker.changes.nextConfigurationNumber) :
    s.applyFinalityChanges hashValidators = (do
      let validatorsTracker ← (s.validatorsTracker.confirmChange
        (s.validatorsTracker.changes.nextConfigurationNumber - 1)).mapError .LibStaking
      return (({ s with validatorsTracker } : GatewayActorStorage Address Hash).replaceMembership
          ⟨powerTable validatorsTracker.validators,
            s.validatorsTracker.changes.nextConfigurationNumber - 1⟩,
        s.validatorsTracker.changes.nextConfigurationNumber - 1)) := by
  have hcurrent := ht.current
  unfold applyFinalityChanges
  rw [if_neg (by omega)]
  congr 1
  funext validatorsTracker
  -- the new number is above the current one, itself above the last once it is not genesis
  rw [updateMembership_of_fresh hashValidators
    ({ s with validatorsTracker } : GatewayActorStorage Address Hash) _ fun hne =>
      ⟨lt_of_lt_of_le (ht.applied hne).2 (by simp only; omega), by simp only; omega⟩]
  rfl

omit [Inhabited Hash] in
/-- On a storage whose membership follows the tracker, `applyFinalityChanges` returns zero and
changes nothing when no change is pending; otherwise it confirms every stored change, up to one
below the next number, moves the current membership to the last, and adopts the power table of
the confirmed set under that number. -/
theorem Tracks.applyFinalityChanges_eq_ok (ht : s.Tracks)
    {r : GatewayActorStorage Address Hash × Nat} (h : s.applyFinalityChanges hashValidators = .ok r) :
    (s.validatorsTracker.changes.startConfigurationNumber =
        s.validatorsTracker.changes.nextConfigurationNumber ∧ r = (s, 0)) ∨
      (s.validatorsTracker.changes.startConfigurationNumber <
          s.validatorsTracker.changes.nextConfigurationNumber ∧
        ∃ validatorsTracker, s.validatorsTracker.confirmChange
            (s.validatorsTracker.changes.nextConfigurationNumber - 1) = .ok validatorsTracker ∧
          r = (({ s with validatorsTracker } : GatewayActorStorage Address Hash).replaceMembership
              ⟨powerTable validatorsTracker.validators,
                s.validatorsTracker.changes.nextConfigurationNumber - 1⟩,
            s.validatorsTracker.changes.nextConfigurationNumber - 1)) := by
  have hcurrent := ht.current
  have hle := ht.start_le
  rcases Nat.lt_or_eq_of_le hle with hpending | hnone
  · rw [ht.applyFinalityChanges_eq hashValidators hpending, Except.bind_eq_ok] at h
    obtain ⟨validatorsTracker, hconfirm, h⟩ := h
    rw [Except.pure_eq_ok, Except.ok.injEq] at h
    exact .inr ⟨hpending, validatorsTracker, Except.mapError_eq_ok.1 hconfirm, h.symm⟩
  · unfold applyFinalityChanges at h
    rw [if_pos (by omega), Except.ok.injEq] at h
    exact .inl ⟨hnone, h.symm⟩

omit [Inhabited Hash] in
/-- On a storage whose membership follows the tracker, `applyFinalityChanges` reverts only with
a reason of the staking library: never `OldConfigurationNumber`. -/
theorem Tracks.applyFinalityChanges_eq_error (ht : s.Tracks) {e : Revert Address}
    (h : s.applyFinalityChanges hashValidators = .error e) : ∃ reason, e = .LibStaking reason := by
  have hcurrent := ht.current
  have hle := ht.start_le
  rcases Nat.lt_or_eq_of_le hle with hpending | hnone
  · rw [ht.applyFinalityChanges_eq hashValidators hpending] at h
    cases hconfirm : s.validatorsTracker.confirmChange
        (s.validatorsTracker.changes.nextConfigurationNumber - 1) with
    | error reason =>
      rw [hconfirm] at h
      exact ⟨reason, (Except.error.inj h).symm⟩
    | ok validatorsTracker =>
      rw [hconfirm] at h
      cases h
  · unfold applyFinalityChanges at h
    rw [if_pos (by omega)] at h
    cases h

end Tracks

end GatewayActorStorage

/-! ## Runs from the constructor -/

namespace GatewayActorStorage

variable {Address Hash H : Type} [DecidableEq Address] [Inhabited Address] [DecidableEq H]
  (hashValidators : List (Validator Address) → H)

variable {s s' : GatewayActorStorage Address Hash}

/-! ### What a successful call writes -/

omit [DecidableEq Address] [Inhabited Address] in
/-- `updateMembership` writes only the memberships. -/
theorem updateMembership_frame {membership : Membership Address}
    (h : s.updateMembership hashValidators membership = .ok s') :
    s'.latestParentHeight = s.latestParentHeight ∧ s'.finalitiesMap = s.finalitiesMap ∧
      s'.validatorsTracker = s.validatorsTracker := by
  unfold updateMembership at h
  split_ifs at h <;> (rw [Except.ok.injEq] at h; rw [← h]; exact ⟨rfl, rfl, rfl⟩)

/-- `applyFinalityChanges` writes only the tracker and the memberships. -/
theorem applyFinalityChanges_frame {n : Nat} (h : s.applyFinalityChanges hashValidators = .ok (s', n)) :
    s'.latestParentHeight = s.latestParentHeight ∧ s'.finalitiesMap = s.finalitiesMap := by
  unfold applyFinalityChanges at h
  dsimp only at h
  split_ifs at h
  · rw [Except.ok.injEq, Prod.mk.injEq] at h
    rw [← h.1]
    exact ⟨rfl, rfl⟩
  · obtain ⟨validatorsTracker, -, h⟩ := Except.bind_eq_ok.1 h
    obtain ⟨s₁, hs₁, h⟩ := Except.bind_eq_ok.1 h
    rw [Except.pure_eq_ok, Except.ok.injEq, Prod.mk.injEq] at h
    obtain ⟨hlatest, hfinalities, -⟩ := updateMembership_frame hashValidators hs₁
    rw [← h.1]
    exact ⟨hlatest, hfinalities⟩

theorem apply_commitParentFinality {finality : ParentFinality Hash}
    (h : s.apply hashValidators (.commitParentFinality finality) = .ok s') :
    s.latestParentHeight < finality.height ∧
      s' = { s with
        finalitiesMap := Function.update s.finalitiesMap finality.height finality
        latestParentHeight := finality.height } := by
  rcases Nat.lt_or_ge s.latestParentHeight finality.height with hlt | hle
  · simp only [apply, commitParentFinalityFacet, commitParentFinality_of_lt s hlt, Except.ok_bind,
      Except.pure_eq_ok, Except.ok.injEq] at h
    exact ⟨hlt, h.symm⟩
  · simp only [apply, commitParentFinalityFacet, commitParentFinality_of_le s hle,
      Except.error_bind] at h
    cases h

theorem apply_storeValidatorChanges {changeRequests : List (StakingChangeRequest Address)}
    (h : s.apply hashValidators (.storeValidatorChanges changeRequests) = .ok s') :
    s' = { s with validatorsTracker := { s.validatorsTracker with
      changes := recordRequests s.validatorsTracker.changes changeRequests } } :=
  (storeValidatorChanges_eq_ok_iff.1 h).2

theorem apply_applyFinalityChanges (h : s.apply hashValidators .applyFinalityChanges = .ok s') :
    ∃ n, s.applyFinalityChanges hashValidators = .ok (s', n) := by
  obtain ⟨r, hr, h⟩ := Except.bind_eq_ok.1 h
  rw [Except.pure_eq_ok, Except.ok.injEq] at h
  exact ⟨r.2, h ▸ hr⟩

/-! ### The membership follows the tracker over every run -/

/-- Confirming the pending changes and adopting their power table keeps the membership following
the tracker. -/
theorem Tracks.confirmed (ht : s.Tracks)
    (hpending : s.validatorsTracker.changes.startConfigurationNumber <
      s.validatorsTracker.changes.nextConfigurationNumber)
    {validatorsTracker : ParentValidatorsTracker Address}
    (hconfirm : s.validatorsTracker.confirmChange
      (s.validatorsTracker.changes.nextConfigurationNumber - 1) = .ok validatorsTracker) :
    (({ s with validatorsTracker } : GatewayActorStorage Address Hash).replaceMembership
      ⟨powerTable validatorsTracker.validators,
        s.validatorsTracker.changes.nextConfigurationNumber - 1⟩).Tracks := by
  have hcurrent := ht.current
  obtain ⟨hnext, hstart⟩ := ParentValidatorsTracker.confirmChange_numbers (by omega) hconfirm
  rw [replaceMembership_eq]
  refine ⟨by simp only; omega, by simp only; omega, fun _ => ⟨rfl, by simp only; omega⟩, ?_⟩
  exact ParentValidatorsTracker.wf_confirmChange ht.wf hconfirm

/-- Every call keeps the membership following the tracker. -/
theorem Tracks.step (ht : s.Tracks) (h : Step hashValidators s s') : s'.Tracks := by
  obtain ⟨call, h⟩ := h
  cases call with
  | commitParentFinality finality =>
    obtain ⟨-, rfl⟩ := apply_commitParentFinality hashValidators h
    exact ⟨ht.start_le, ht.current, ht.applied, ht.wf⟩
  | storeValidatorChanges changeRequests =>
    -- recording moves the next number on and leaves the start and the tracked set
    rw [apply_storeValidatorChanges hashValidators h]
    refine ⟨?_, ?_, ht.applied, ht.wf⟩
    · simp only [startConfigurationNumber_recordRequests, nextConfigurationNumber_recordRequests]
      exact Nat.le_add_right_of_le ht.start_le
    · simpa using ht.current
  | applyFinalityChanges =>
    obtain ⟨n, hn⟩ := apply_applyFinalityChanges hashValidators h
    rcases ht.applyFinalityChanges_eq_ok hashValidators hn with ⟨-, hr⟩ | ⟨hpending, _, hconfirm, hr⟩
    · rw [(Prod.mk.inj hr).1]
      exact ht
    · rw [(Prod.mk.inj hr).1]
      exact ht.confirmed hpending hconfirm

variable [Inhabited Hash]

omit [DecidableEq Address] in
/-- The constructor's storage: no finality, an empty tracker, and the genesis membership. -/
theorem new_eq (activeValidatorsLimit : Nat) (genesisValidators : List (Validator Address)) :
    (new hashValidators activeValidatorsLimit genesisValidators :
        Except (Revert Address) (GatewayActorStorage Address Hash)) =
      .ok ⟨0, fun _ => .zero, ⟨.empty .Collateral activeValidatorsLimit, .initial⟩,
        ⟨genesisValidators, 0⟩, ⟨[], 0⟩⟩ := by
  unfold new
  rw [updateMembership_of_fresh _ _ _ fun h => absurd rfl h, replaceMembership_eq]

/-- The constructor's storage is reachable. -/
theorem reachable_new (activeValidatorsLimit : Nat) (genesisValidators : List (Validator Address)) :
    Reachable (Initial hashValidators) (Step hashValidators)
      (⟨0, fun _ => .zero, ⟨.empty .Collateral activeValidatorsLimit, .initial⟩,
        ⟨genesisValidators, 0⟩, ⟨[], 0⟩⟩ : GatewayActorStorage Address Hash) :=
  Reachable.of_init ⟨activeValidatorsLimit, genesisValidators,
    new_eq hashValidators activeValidatorsLimit genesisValidators⟩

theorem tracks_new {activeValidatorsLimit : Nat} {genesisValidators : List (Validator Address)}
    (h : new hashValidators activeValidatorsLimit genesisValidators = .ok s) : s.Tracks := by
  rw [new_eq, Except.ok.injEq] at h
  subst h
  exact ⟨Nat.le_refl _, rfl, fun h => absurd rfl h, ValidatorSet.wf_empty _ _⟩

theorem tracks_of_reachable
    (h : Reachable (Initial hashValidators) (Step hashValidators) s) : s.Tracks := by
  refine Reachable.invariant (fun s₀ hinit => ?_) (fun _ _ ht hs => ht.step hashValidators hs) h
  obtain ⟨_, _, hnew⟩ := hinit
  exact tracks_new hashValidators hnew

/-! ### The finality log over every run -/

omit [DecidableEq Address] in
theorem agrees_new {activeValidatorsLimit : Nat} {genesisValidators : List (Validator Address)}
    (h : new hashValidators activeValidatorsLimit genesisValidators = .ok s) : s.Agrees [] := by
  rw [new_eq, Except.ok.injEq] at h
  subst h
  exact ⟨List.Pairwise.nil, fun _ hf => absurd hf List.not_mem_nil, rfl, fun _ => rfl⟩

/-- Every call extends the log the finality storage stands for: a commit by its finality, the
others by nothing. -/
theorem Agrees.step {log : List (ParentFinality Hash)} (hlog : s.Agrees log)
    (h : Step hashValidators s s') : ∃ ext, s'.Agrees (log ++ ext) := by
  obtain ⟨call, h⟩ := h
  cases call with
  | commitParentFinality finality =>
    obtain ⟨hlt, rfl⟩ := apply_commitParentFinality hashValidators h
    exact ⟨[finality], hlog.commit (hlog.latest ▸ hlt)⟩
  | storeValidatorChanges changeRequests =>
    rw [apply_storeValidatorChanges hashValidators h]
    refine ⟨[], ?_⟩
    rw [List.append_nil]
    exact hlog.congr rfl rfl
  | applyFinalityChanges =>
    obtain ⟨n, hn⟩ := apply_applyFinalityChanges hashValidators h
    obtain ⟨hlatest, hfinalities⟩ := applyFinalityChanges_frame hashValidators hn
    refine ⟨[], ?_⟩
    rw [List.append_nil]
    exact hlog.congr hlatest hfinalities

theorem agrees_of_reachable
    (h : Reachable (Initial hashValidators) (Step hashValidators) s) : ∃ log, s.Agrees log := by
  refine Reachable.invariant (I := fun s => ∃ log, s.Agrees log) (fun s₀ hinit => ?_)
    (fun _ _ hlog hs => ?_) h
  · obtain ⟨_, _, hnew⟩ := hinit
    exact ⟨[], agrees_new hashValidators hnew⟩
  · obtain ⟨log, hlog⟩ := hlog
    obtain ⟨ext, hext⟩ := hlog.step hashValidators hs
    exact ⟨log ++ ext, hext⟩

/-- A storage that stands for a log, and every later one of a run for an extension of it. -/
theorem Agrees.run {log : List (ParentFinality Hash)} (hlog : s.Agrees log)
    (hrun : Relation.ReflTransGen (Step hashValidators) s s') : ∃ ext, s'.Agrees (log ++ ext) := by
  induction hrun with
  | refl => exact ⟨[], by rw [List.append_nil]; exact hlog⟩
  | tail _ hs ih =>
    obtain ⟨ext, hext⟩ := ih
    obtain ⟨ext', hext'⟩ := hext.step hashValidators hs
    exact ⟨ext ++ ext', by rw [← List.append_assoc]; exact hext'⟩

/-! ### The tracker replays the stored changes -/

/-- The tracker replays a history of stored changes: the `n`-th change of the history is numbered
`n`; applying the ones below the log's start, in order, to the empty set of the constructor gives
the tracked set, and the ones from the start on are pending under their numbers. -/
structure Replays (s : GatewayActorStorage Address Hash) (activeLimit : Nat)
    (hist : List (StakingChange Address)) : Prop where
  next : s.validatorsTracker.changes.nextConfigurationNumber = hist.length + 1
  pending : ∀ i (hi : i < hist.length), s.validatorsTracker.changes.startConfigurationNumber ≤ i + 1 →
    s.validatorsTracker.changes.getChange (i + 1) = hist[i]
  applied : (hist.take (s.validatorsTracker.changes.startConfigurationNumber - 1)).foldlM
    ValidatorSet.applyChange (.empty .Collateral activeLimit) = .ok s.validatorsTracker.validators

variable {activeLimit : Nat} {hist : List (StakingChange Address)}

theorem replays_new {genesisValidators : List (Validator Address)}
    (h : new hashValidators activeLimit genesisValidators = .ok s) : s.Replays activeLimit [] := by
  rw [new_eq, Except.ok.injEq] at h
  subst h
  exact ⟨rfl, fun i hi => absurd hi (Nat.not_lt_zero i), rfl⟩

omit [Inhabited Hash] in
/-- Storing requests appends their changes to the history: they are recorded from the next number
on, past every change stored before, and nothing is applied. -/
theorem Replays.store (ht : s.Tracks) (hr : s.Replays activeLimit hist)
    (changeRequests : List (StakingChangeRequest Address)) :
    ({ s with validatorsTracker := { s.validatorsTracker with
      changes := recordRequests s.validatorsTracker.changes changeRequests } } :
        GatewayActorStorage Address Hash).Replays activeLimit
      (hist ++ changeRequests.map (·.change)) := by
  have hnext := hr.next
  have hle := ht.start_le
  refine ⟨?_, fun i hi hstart => ?_, ?_⟩
  · simp only [nextConfigurationNumber_recordRequests, List.length_append, List.length_map]
    omega
  · simp only [startConfigurationNumber_recordRequests] at hstart
    by_cases hold : i < hist.length
    · -- a change stored before: recording writes past it
      rw [List.getElem_append_left hold, getChange_recordRequests_of_lt _ _ (by omega)]
      exact hr.pending i hold hstart
    · -- a new one, `i - hist.length` numbers past the log's next
      have hj : i - hist.length < changeRequests.length := by
        simp only [List.length_append, List.length_map] at hi
        omega
      have hi' : i + 1 = s.validatorsTracker.changes.nextConfigurationNumber + (i - hist.length) := by
        omega
      rw [List.getElem_append_right (by omega), List.getElem_map, hi',
        getChange_recordRequests _ _ _ hj]
  · simp only [startConfigurationNumber_recordRequests]
    rw [List.take_append_of_le_length (by omega)]
    exact hr.applied

omit [Inhabited Hash] in
/-- Confirming the pending changes applies the rest of the history to the tracked set, and leaves
nothing pending. -/
theorem Replays.confirmed (ht : s.Tracks) (hr : s.Replays activeLimit hist)
    (hpending : s.validatorsTracker.changes.startConfigurationNumber <
      s.validatorsTracker.changes.nextConfigurationNumber)
    {validatorsTracker : ParentValidatorsTracker Address}
    (hconfirm : s.validatorsTracker.confirmChange
      (s.validatorsTracker.changes.nextConfigurationNumber - 1) = .ok validatorsTracker) :
    (({ s with validatorsTracker } : GatewayActorStorage Address Hash).replaceMembership
      ⟨powerTable validatorsTracker.validators,
        s.validatorsTracker.changes.nextConfigurationNumber - 1⟩).Replays activeLimit hist := by
  have hnext := hr.next
  have hcurrent := ht.current
  obtain ⟨hnext', hstart'⟩ := ParentValidatorsTracker.confirmChange_numbers (by omega) hconfirm
  have hfold := ParentValidatorsTracker.confirmChange_foldlM (by omega) hconfirm
  -- the changes the confirmation applies are the history past the ones applied before
  have hdrop : (List.range' s.validatorsTracker.changes.startConfigurationNumber
      (s.validatorsTracker.changes.nextConfigurationNumber - 1 + 1 -
        s.validatorsTracker.changes.startConfigurationNumber)).map
        s.validatorsTracker.changes.getChange =
      hist.drop (s.validatorsTracker.changes.startConfigurationNumber - 1) := by
    refine List.ext_getElem (by simp only [List.length_map, List.length_range', List.length_drop]; omega)
      fun k hk₁ hk₂ => ?_
    rw [List.getElem_map, List.getElem_range', List.getElem_drop]
    rw [List.length_drop] at hk₂
    have hk := hr.pending (s.validatorsTracker.changes.startConfigurationNumber - 1 + k) (by omega)
      (by omega)
    rw [show s.validatorsTracker.changes.startConfigurationNumber - 1 + k + 1 =
      s.validatorsTracker.changes.startConfigurationNumber + 1 * k by omega] at hk
    exact hk
  refine ⟨by simp only [replaceMembership_validatorsTracker]; omega, fun i hi hstart => ?_, ?_⟩
  · simp only [replaceMembership_validatorsTracker] at hstart
    omega
  · simp only [replaceMembership_validatorsTracker, hstart']
    rw [show s.validatorsTracker.changes.nextConfigurationNumber - 1 + 1 - 1 = hist.length by omega,
      List.take_length, ← List.take_append_drop (s.validatorsTracker.changes.startConfigurationNumber - 1) hist,
      List.foldlM_append, hr.applied, Except.ok_bind, ← hdrop]
    exact hfold

omit [Inhabited Hash] in
/-- Every call extends the history the tracker replays by the changes it stores. -/
theorem Replays.step (ht : s.Tracks) (hr : s.Replays activeLimit hist) {call : Call Address Hash}
    (h : s.apply hashValidators call = .ok s') :
    s'.Replays activeLimit (hist ++ call.storedChanges) := by
  cases call with
  | commitParentFinality finality =>
    obtain ⟨-, rfl⟩ := apply_commitParentFinality hashValidators h
    simp only [Call.storedChanges, List.append_nil]
    exact ⟨hr.next, hr.pending, hr.applied⟩
  | storeValidatorChanges changeRequests =>
    rw [apply_storeValidatorChanges hashValidators h]
    exact hr.store ht changeRequests
  | applyFinalityChanges =>
    obtain ⟨n, hn⟩ := apply_applyFinalityChanges hashValidators h
    simp only [Call.storedChanges, List.append_nil]
    rcases ht.applyFinalityChanges_eq_ok hashValidators hn with ⟨-, hr'⟩ |
      ⟨hpending, _, hconfirm, hr'⟩
    · rw [(Prod.mk.inj hr').1]
      exact hr
    · rw [(Prod.mk.inj hr').1]
      exact hr.confirmed ht hpending hconfirm

omit [Inhabited Hash] in
/-- A run of calls extends the history by the changes its calls store, in order. The induction is
on the calls; `Tracks` rides along, as the confirmation's step needs it. -/
theorem Replays.run :
    ∀ {calls : List (Call Address Hash)} {s s' : GatewayActorStorage Address Hash}
      {hist : List (StakingChange Address)}, s.Tracks → s.Replays activeLimit hist →
      calls.foldlM (fun s call => s.apply hashValidators call) s = .ok s' →
      s'.Tracks ∧ s'.Replays activeLimit (hist ++ calls.flatMap Call.storedChanges)
  | [], s, s', hist, ht, hr, h => by
    rw [List.foldlM_nil, Except.pure_eq_ok, Except.ok.injEq] at h
    subst h
    rw [List.flatMap_nil, List.append_nil]
    exact ⟨ht, hr⟩
  | call :: calls, s, s', hist, ht, hr, h => by
    rw [List.foldlM_cons, Except.bind_eq_ok] at h
    obtain ⟨s₁, h₁, h⟩ := h
    obtain ⟨ht', hr'⟩ := Replays.run (ht.step hashValidators ⟨call, h₁⟩)
      (hr.step hashValidators ht h₁) h
    rw [List.flatMap_cons, ← List.append_assoc]
    exact ⟨ht', hr'⟩

/-! ## What holds over every run -/

/-- Over every run from the constructor the finality storage only grows: a reachable storage
stands for a log of committed finalities with positive, increasing heights, every later storage of
the run stands for an extension of that log, and every height up to the latest reads the same
finality ever after. -/
theorem finalities_append_only
    (hreach : Reachable (Initial hashValidators) (Step hashValidators) s)
    (hrun : Relation.ReflTransGen (Step hashValidators) s s') :
    ∃ log ext, s.Agrees log ∧ s'.Agrees (log ++ ext) ∧
      ∀ n ≤ s.latestParentHeight, s'.finalitiesMap n = s.finalitiesMap n := by
  obtain ⟨log, hlog⟩ := agrees_of_reachable hashValidators hreach
  obtain ⟨ext, hext⟩ := hlog.run hashValidators hrun
  exact ⟨log, ext, hlog, hext, fun n hn => hlog.finalitiesMap_eq_of_le hext (hlog.latest ▸ hn)⟩

/-- A gateway constructed with an active limit of four and no genesis validator commits the
finality of parent height five. -/
theorem finalities_append_only_commit :
    let s₀ : GatewayActorStorage Nat Nat :=
      ⟨0, fun _ => .zero, ⟨.empty .Collateral 4, .initial⟩, ⟨[], 0⟩, ⟨[], 0⟩⟩
    let s₁ : GatewayActorStorage Nat Nat :=
      { s₀ with finalitiesMap := Function.update s₀.finalitiesMap 5 ⟨5, 7⟩, latestParentHeight := 5 }
    Reachable (Initial (id : List (Validator Nat) → List (Validator Nat))) (Step id) s₀ ∧
      Relation.ReflTransGen (Step (id : List (Validator Nat) → List (Validator Nat))) s₀ s₁ ∧
      ∃ log ext, s₀.Agrees log ∧ s₁.Agrees (log ++ ext) ∧
        ∀ n ≤ s₀.latestParentHeight, s₁.finalitiesMap n = s₀.finalitiesMap n := by
  intro s₀ s₁
  have hreach : Reachable (Initial (id : List (Validator Nat) → List (Validator Nat))) (Step id) s₀ :=
    reachable_new _ 4 []
  have hrun : Relation.ReflTransGen (Step (id : List (Validator Nat) → List (Validator Nat))) s₀ s₁ :=
    .single ⟨.commitParentFinality ⟨5, 7⟩, rfl⟩
  exact ⟨hreach, hrun, finalities_append_only id hreach hrun⟩

/-- The run the examples below take: a gateway constructed with an active limit of four and
validator `1`, of weight ten, as its genesis membership commits the finality of parent height
five, stores a deposit of five by validator `2` as change one, and applies it, which adopts
validator `2` alone as membership one. -/
theorem deposit_run :
    ∃ s₁ s₂ s₃ : GatewayActorStorage Nat Nat,
      (⟨0, fun _ => .zero, ⟨.empty .Collateral 4, .initial⟩, ⟨[⟨10, 1, [5]⟩], 0⟩, ⟨[], 0⟩⟩ :
        GatewayActorStorage Nat Nat).apply (id : List (Validator Nat) → List (Validator Nat))
          (.commitParentFinality ⟨5, 7⟩) = .ok s₁ ∧
      s₁.apply (id : List (Validator Nat) → List (Validator Nat))
        (.storeValidatorChanges [⟨⟨.Deposit, 2, [], 5⟩, 1⟩]) = .ok s₂ ∧
      s₂.applyFinalityChanges id = .ok (s₃, 1) ∧ s₂.latestParentHeight = 5 ∧
      s₂.currentMembership = ⟨[⟨10, 1, [5]⟩], 0⟩ ∧ s₃.currentMembership = ⟨[⟨5, 2, []⟩], 1⟩ := by
  -- The three calls are computed together, and their results are read off the run.
  have hrun : (do
      let s₁ ← (⟨0, fun _ => .zero, ⟨.empty .Collateral 4, .initial⟩, ⟨[⟨10, 1, [5]⟩], 0⟩,
        ⟨[], 0⟩⟩ : GatewayActorStorage Nat Nat).apply id (.commitParentFinality ⟨5, 7⟩)
      let s₂ ← s₁.apply id (.storeValidatorChanges [⟨⟨.Deposit, 2, [], 5⟩, 1⟩])
      let r ← s₂.applyFinalityChanges id
      return (s₂.latestParentHeight, s₂.currentMembership, r.1.currentMembership, r.2)) =
        (.ok (5, ⟨[⟨10, 1, [5]⟩], 0⟩, ⟨[⟨5, 2, []⟩], 1⟩, 1) :
          Except (Revert Nat) (Nat × Membership Nat × Membership Nat × Nat)) := by
    simp [apply, commitParentFinalityFacet, commitParentFinality, storeValidatorChanges,
      ParentValidatorsTracker.batchStoreChange, ParentValidatorsTracker.storeChange,
      StakingChangeLog.recordChange, applyFinalityChanges, ParentValidatorsTracker.confirmChange,
      StakingChangeLog.confirmChanges, StakingChangeLog.confirmLoop, ValidatorSet.applyChange,
      ValidatorSet.confirmDeposit, ValidatorSet.increaseReshuffle, Staking.MinPQ.insert,
      Staking.PQ.insert, Staking.PQ.swim, updateMembership, replaceMembership_eq, powerTable,
      ValidatorSet.listActiveValidators, StakingChangeLog.initial, StakingChangeLog.getChange,
      StakingChangeLog.purgeChange, ValidatorSet.empty, Staking.MinPQ.contains, Staking.PQ.contains,
      Staking.MinPQ.getSize, Staking.MinPQ.getAddress, Staking.PQ.empty, Except.mapError,
      Staking.ValidatorInfo.zero]
  obtain ⟨s₁, h₁, hrun⟩ := Except.bind_eq_ok.1 hrun
  obtain ⟨s₂, h₂, hrun⟩ := Except.bind_eq_ok.1 hrun
  obtain ⟨⟨s₃, n⟩, h₃, hrun⟩ := Except.bind_eq_ok.1 hrun
  simp only [Except.pure_eq_ok, Except.ok.injEq, Prod.mk.injEq] at hrun
  obtain ⟨hlatest, hcurrent, hmembership, rfl⟩ := hrun
  exact ⟨s₁, s₂, s₃, h₁, h₂, h₃, hlatest, hcurrent, hmembership⟩

/-- From every reachable storage, `commitParentFinality` is the commit of the log of finalities
the storage stands for: a finality above the last committed height is appended, and the call
returns the last committed finality (the zero one when there is none) and whether there was one;
a finality at or below that height reverts with `ParentFinalityAlreadyCommitted`. -/
theorem commitParentFinalityFacet_of_reachable
    (hreach : Reachable (Initial hashValidators) (Step hashValidators) s) :
    ∃ log, s.Agrees log ∧ ∀ finality : ParentFinality Hash,
      (lastHeight log < finality.height → ∃ s',
        s.commitParentFinalityFacet finality = .ok (s', !log.isEmpty, log.getLast?.getD .zero) ∧
          s'.Agrees (log ++ [finality])) ∧
      (finality.height ≤ lastHeight log →
        s.commitParentFinalityFacet finality = .error .ParentFinalityAlreadyCommitted) := by
  obtain ⟨log, hlog⟩ := agrees_of_reachable hashValidators hreach
  exact ⟨log, hlog, hlog.commitParentFinalityFacet⟩

/-- The commit after the finality of parent height five and a stored deposit: a finality at or
below height five reverts, and one above it is appended. -/
theorem commitParentFinalityFacet_after_deposit :
    ∃ s : GatewayActorStorage Nat Nat,
      Reachable (Initial (id : List (Validator Nat) → List (Validator Nat))) (Step id) s ∧
      s.latestParentHeight = 5 ∧
      ∃ log, s.Agrees log ∧ ∀ finality : ParentFinality Nat,
        (lastHeight log < finality.height → ∃ s',
          s.commitParentFinalityFacet finality = .ok (s', !log.isEmpty, log.getLast?.getD .zero) ∧
            s'.Agrees (log ++ [finality])) ∧
        (finality.height ≤ lastHeight log →
          s.commitParentFinalityFacet finality = .error .ParentFinalityAlreadyCommitted) := by
  obtain ⟨s₁, s₂, -, h₁, h₂, -, hlatest, -, -⟩ := deposit_run
  have hreach := ((reachable_new id 4 [⟨10, 1, [5]⟩]).tail ⟨_, h₁⟩).tail ⟨_, h₂⟩
  exact ⟨s₂, hreach, hlatest, commitParentFinalityFacet_of_reachable id hreach⟩

/-- Over every run from the constructor the membership follows the tracker: the log's start is at
most its next number and one above the membership's number, and once a change set has been
applied the current membership is the power table of the tracked validators, numbered above the
last membership: each active validator once, at most the active limit of them, each weighted by
its confirmed collateral and federated power. -/
theorem membership_of_reachable
    (hreach : Reachable (Initial hashValidators) (Step hashValidators) s) :
    s.validatorsTracker.changes.startConfigurationNumber ≤
        s.validatorsTracker.changes.nextConfigurationNumber ∧
      s.currentMembership.configurationNumber + 1 =
        s.validatorsTracker.changes.startConfigurationNumber ∧
      (s.currentMembership.configurationNumber ≠ 0 →
        s.currentMembership.validators = powerTable s.validatorsTracker.validators ∧
        s.lastMembership.configurationNumber < s.currentMembership.configurationNumber ∧
        (s.currentMembership.validators.map (·.addr)).Nodup ∧
        s.currentMembership.validators.length ≤ s.validatorsTracker.validators.activeLimit ∧
        ∀ v ∈ s.currentMembership.validators,
          s.validatorsTracker.validators.activeValidators.contains v.addr = true ∧
            v.weight = (s.validatorsTracker.validators.validators v.addr).confirmedCollateral +
              (s.validatorsTracker.validators.validators v.addr).federatedPower) := by
  have ht := tracks_of_reachable hashValidators hreach
  refine ⟨ht.start_le, ht.current, fun hne => ?_⟩
  obtain ⟨hvalidators, hlast⟩ := ht.applied hne
  rw [hvalidators]
  exact ⟨rfl, hlast, powerTable_of_wf ht.wf⟩

/-- The membership after the deposit is applied: validator `2` alone, as membership one. -/
theorem membership_after_deposit :
    ∃ s : GatewayActorStorage Nat Nat,
      Reachable (Initial (id : List (Validator Nat) → List (Validator Nat))) (Step id) s ∧
      s.currentMembership = ⟨[⟨5, 2, []⟩], 1⟩ ∧
      s.validatorsTracker.changes.startConfigurationNumber ≤
        s.validatorsTracker.changes.nextConfigurationNumber ∧
      s.currentMembership.configurationNumber + 1 =
        s.validatorsTracker.changes.startConfigurationNumber ∧
      (s.currentMembership.configurationNumber ≠ 0 →
        s.currentMembership.validators = powerTable s.validatorsTracker.validators ∧
        s.lastMembership.configurationNumber < s.currentMembership.configurationNumber ∧
        (s.currentMembership.validators.map (·.addr)).Nodup ∧
        s.currentMembership.validators.length ≤ s.validatorsTracker.validators.activeLimit ∧
        ∀ v ∈ s.currentMembership.validators,
          s.validatorsTracker.validators.activeValidators.contains v.addr = true ∧
            v.weight = (s.validatorsTracker.validators.validators v.addr).confirmedCollateral +
              (s.validatorsTracker.validators.validators v.addr).federatedPower) := by
  obtain ⟨s₁, s₂, s₃, h₁, h₂, h₃, -, -, hmembership⟩ := deposit_run
  have happly : s₂.apply id .applyFinalityChanges = .ok s₃ := by
    show (do let r ← s₂.applyFinalityChanges id; return r.1) = .ok s₃
    rw [h₃]
    rfl
  have hreach := (((reachable_new id 4 [⟨10, 1, [5]⟩]).tail ⟨_, h₁⟩).tail ⟨_, h₂⟩).tail ⟨_, happly⟩
  exact ⟨s₃, hreach, hmembership, membership_of_reachable id hreach⟩

/-- From every reachable storage, `applyFinalityChanges` returns zero and changes nothing when no
change is pending; otherwise it returns the number one below the next, which is positive, after
which no change is pending, the current membership is the power table of the tracked validators
under that number, and the last membership is the one that was current. It reverts only with a
reason of the staking library, never with `OldConfigurationNumber`. -/
theorem applyFinalityChanges_of_reachable
    (hreach : Reachable (Initial hashValidators) (Step hashValidators) s) :
    (∀ s' n, s.applyFinalityChanges hashValidators = .ok (s', n) →
      (s.validatorsTracker.changes.startConfigurationNumber =
          s.validatorsTracker.changes.nextConfigurationNumber ∧ n = 0 ∧ s' = s) ∨
      (n = s.validatorsTracker.changes.nextConfigurationNumber - 1 ∧ 0 < n ∧
        s'.validatorsTracker.changes.startConfigurationNumber =
          s.validatorsTracker.changes.nextConfigurationNumber ∧
        s'.validatorsTracker.changes.nextConfigurationNumber =
          s.validatorsTracker.changes.nextConfigurationNumber ∧
        s'.currentMembership = ⟨powerTable s'.validatorsTracker.validators, n⟩ ∧
        s'.lastMembership = s.currentMembership)) ∧
    ∀ e, s.applyFinalityChanges hashValidators = .error e → ∃ reason, e = .LibStaking reason := by
  have ht := tracks_of_reachable hashValidators hreach
  refine ⟨fun s' n h => ?_, fun e h => ht.applyFinalityChanges_eq_error hashValidators h⟩
  rcases ht.applyFinalityChanges_eq_ok hashValidators h with ⟨hnone, hr⟩ |
    ⟨hpending, validatorsTracker, hconfirm, hr⟩
  · obtain ⟨rfl, rfl⟩ := Prod.mk.inj hr
    exact .inl ⟨hnone, rfl, rfl⟩
  · obtain ⟨rfl, rfl⟩ := Prod.mk.inj hr
    have hcurrent := ht.current
    obtain ⟨hnext, hstart⟩ := ParentValidatorsTracker.confirmChange_numbers (by omega) hconfirm
    refine .inr ⟨rfl, by omega, ?_, ?_, ?_, ?_⟩
    · simp only [replaceMembership_validatorsTracker, hstart]
      omega
    · simp only [replaceMembership_validatorsTracker, hnext]
    · simp
    · simp

/-- `applyFinalityChanges` with the deposit pending: it adopts configuration number one. -/
theorem applyFinalityChanges_pending_deposit :
    ∃ s : GatewayActorStorage Nat Nat,
      Reachable (Initial (id : List (Validator Nat) → List (Validator Nat))) (Step id) s ∧
      (∃ s', s.applyFinalityChanges id = .ok (s', 1)) ∧
      (∀ s' n, s.applyFinalityChanges id = .ok (s', n) →
        (s.validatorsTracker.changes.startConfigurationNumber =
            s.validatorsTracker.changes.nextConfigurationNumber ∧ n = 0 ∧ s' = s) ∨
        (n = s.validatorsTracker.changes.nextConfigurationNumber - 1 ∧ 0 < n ∧
          s'.validatorsTracker.changes.startConfigurationNumber =
            s.validatorsTracker.changes.nextConfigurationNumber ∧
          s'.validatorsTracker.changes.nextConfigurationNumber =
            s.validatorsTracker.changes.nextConfigurationNumber ∧
          s'.currentMembership = ⟨powerTable s'.validatorsTracker.validators, n⟩ ∧
          s'.lastMembership = s.currentMembership)) ∧
      ∀ e, s.applyFinalityChanges id = .error e → ∃ reason, e = .LibStaking reason := by
  obtain ⟨s₁, s₂, s₃, h₁, h₂, h₃, -, -, -⟩ := deposit_run
  have hreach := ((reachable_new id 4 [⟨10, 1, [5]⟩]).tail ⟨_, h₁⟩).tail ⟨_, h₂⟩
  exact ⟨s₂, hreach, ⟨s₃, h₃⟩, applyFinalityChanges_of_reachable id hreach⟩

/-- Over every run of the facet's calls from the constructor, the tracker replays the changes the
run stores: the `n`-th change stored is numbered `n`; applying the ones below the log's start
(the confirmed ones), in order, to the constructor's empty set gives the tracked set, whose power
table is the current membership once a change set has been applied; the ones from the start on
are pending under their numbers. -/
theorem tracker_replays_stored_changes {activeValidatorsLimit : Nat}
    {genesisValidators : List (Validator Address)} {s₀ s : GatewayActorStorage Address Hash}
    {calls : List (Call Address Hash)}
    (hnew : new hashValidators activeValidatorsLimit genesisValidators = .ok s₀)
    (hrun : calls.foldlM (fun s call => s.apply hashValidators call) s₀ = .ok s) :
    s.validatorsTracker.changes.nextConfigurationNumber =
        (calls.flatMap Call.storedChanges).length + 1 ∧
      (∀ i (hi : i < (calls.flatMap Call.storedChanges).length),
        s.validatorsTracker.changes.startConfigurationNumber ≤ i + 1 →
          s.validatorsTracker.changes.getChange (i + 1) = (calls.flatMap Call.storedChanges)[i]) ∧
      ((calls.flatMap Call.storedChanges).take
          (s.validatorsTracker.changes.startConfigurationNumber - 1)).foldlM
        ValidatorSet.applyChange (.empty .Collateral activeValidatorsLimit) =
          .ok s.validatorsTracker.validators ∧
      (s.currentMembership.configurationNumber ≠ 0 →
        s.currentMembership.validators = powerTable s.validatorsTracker.validators) := by
  obtain ⟨ht, hr⟩ := Replays.run hashValidators (tracks_new hashValidators hnew)
    (replays_new hashValidators hnew) hrun
  rw [List.nil_append] at hr
  exact ⟨hr.next, hr.pending, hr.applied, fun hne => (ht.applied hne).1⟩

/-- A gateway constructed with an active limit of four and no genesis validator stores a deposit
of five by validator `2` and applies it. -/
theorem tracker_replays_stored_changes_deposit :
    let calls : List (Call Nat Nat) :=
      [.storeValidatorChanges [⟨⟨.Deposit, 2, [], 5⟩, 1⟩], .applyFinalityChanges]
    ∃ s₀ s, new id 4 [] = .ok s₀ ∧ calls.foldlM (fun s call => s.apply id call) s₀ = .ok s ∧
      s.validatorsTracker.changes.nextConfigurationNumber =
          (calls.flatMap Call.storedChanges).length + 1 ∧
        (∀ i (hi : i < (calls.flatMap Call.storedChanges).length),
          s.validatorsTracker.changes.startConfigurationNumber ≤ i + 1 →
            s.validatorsTracker.changes.getChange (i + 1) = (calls.flatMap Call.storedChanges)[i]) ∧
        ((calls.flatMap Call.storedChanges).take
            (s.validatorsTracker.changes.startConfigurationNumber - 1)).foldlM
          ValidatorSet.applyChange (.empty .Collateral 4) = .ok s.validatorsTracker.validators ∧
        (s.currentMembership.configurationNumber ≠ 0 →
          s.currentMembership.validators = powerTable s.validatorsTracker.validators) := by
  intro calls
  have hnew : (new id 4 [] : Except (Revert Nat) (GatewayActorStorage Nat Nat)) =
      .ok ⟨0, fun _ => .zero, ⟨.empty .Collateral 4, .initial⟩, ⟨[], 0⟩, ⟨[], 0⟩⟩ :=
    new_eq _ 4 []
  obtain ⟨s, hrun⟩ : ∃ s, calls.foldlM (fun s call => s.apply id call)
      (⟨0, fun _ => .zero, ⟨.empty .Collateral 4, .initial⟩, ⟨[], 0⟩, ⟨[], 0⟩⟩ :
        GatewayActorStorage Nat Nat) = .ok s := by
    cases hX : calls.foldlM (fun s call => s.apply id call)
        (⟨0, fun _ => .zero, ⟨.empty .Collateral 4, .initial⟩, ⟨[], 0⟩, ⟨[], 0⟩⟩ :
          GatewayActorStorage Nat Nat) with
    | ok s => exact ⟨s, rfl⟩
    | error e =>
      simp [calls, apply, storeValidatorChanges, ParentValidatorsTracker.batchStoreChange,
        ParentValidatorsTracker.storeChange, StakingChangeLog.recordChange, applyFinalityChanges,
        ParentValidatorsTracker.confirmChange, StakingChangeLog.confirmChanges,
        StakingChangeLog.confirmLoop, ValidatorSet.applyChange, ValidatorSet.confirmDeposit,
        ValidatorSet.increaseReshuffle, Staking.MinPQ.insert, Staking.PQ.insert, Staking.PQ.swim,
        updateMembership, replaceMembership_eq, powerTable, ValidatorSet.listActiveValidators,
        StakingChangeLog.initial, StakingChangeLog.getChange, StakingChangeLog.purgeChange,
        ValidatorSet.empty, Staking.MinPQ.contains, Staking.PQ.contains, Staking.MinPQ.getSize,
        Staking.MinPQ.getAddress, Staking.PQ.empty, Except.mapError,
        Staking.ValidatorInfo.zero] at hX
  exact ⟨_, s, hnew, hrun, tracker_replays_stored_changes id hnew hrun⟩

end GatewayActorStorage

end Delorean.Gateway.TopDownFinality
