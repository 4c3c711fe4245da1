import Delorean.Staking.SubnetActor
import Delorean.Lib.Reach

/-!
# The subnet actor over its runs

A run of the subnet actor is a sequence of calls to its facets, each of which either succeeds or
reverts and leaves the state as it was, together with the confirmations that the submitted
checkpoints run (`confirmChange`). `Call` lists them, `StakingState.apply` routes a call to the
function that models it, and `StakingState.Step` is a successful call among those a run allows.
A run starts from the actor as its constructor leaves it (`StakingState.Initial`).

Two invariants hold over the runs, each read off the calls' inversion lemmas:

- the validator set stays well formed, over every run of every call
  (`validatorSet_wf_of_reachable`): its two queues keep their index and are disjoint, the active
  queue has at most `activeLimit` addresses, and it is full while any address waits;
- the genesis funds keep their books over every run without `leave`
  (`genesisBooks_of_reachable`): the keys are the addresses with a genesis balance, each once, and
  the genesis supply is the sum of their balances. `preFund` and `preRelease` keep them by the
  lemmas of `Delorean.Lib.Balances`, and the other calls do not write the genesis funds. `leave`
  breaks them (`leave_refunds_genesis_balance_twice`).
-/

namespace Delorean.Staking

/-- A call to the subnet actor's facets, or the confirmation of the change log that a submitted
checkpoint runs. -/
inductive Call (Address : Type) where
  | preFund (sender : Address) (value : Nat)
  | preRelease (sender : Address) (amount : Nat)
  | join (sender : Address) (value : Nat) (publicKey : List UInt8)
  | stake (sender : Address) (value : Nat)
  | unstake (sender : Address) (amount : Nat)
  | leave (sender : Address)
  | setFederatedPower (sender : Address) (validators : List Address)
      (publicKeys : List (List UInt8)) (powers : List Nat)
  | claim (sender : Address) (blockNumber : Nat)
  | confirmChange (configurationNumber blockNumber : Nat)
  deriving DecidableEq, Repr

/-- Whether the call is a `leave`. -/
def Call.isLeave {Address : Type} : Call Address → Bool
  | .leave _ => true
  | _ => false

namespace SubnetActor

/-- The books of the genesis funds: the keys are the addresses with a genesis balance, each
once, and the genesis supply is the sum of their balances. -/
structure GenesisBooks {Address : Type} (actor : SubnetActor Address) : Prop where
  nodup : actor.genesisBalanceKeys.Nodup
  mem_keys : ∀ a, a ∈ actor.genesisBalanceKeys ↔ actor.genesisBalance a ≠ 0
  supply : actor.genesisCircSupply = (actor.genesisBalanceKeys.map actor.genesisBalance).sum

end SubnetActor

namespace StakingState

variable {Address : Type} [DecidableEq Address] [Inhabited Address]
  (addressOfKey : List UInt8 → Address)

/-- What a call does: the function of the facet the diamond routes it to. -/
def apply (st : StakingState Address) :
    Call Address → Except (Revert Address) (StakingState Address)
  | .preFund sender value => st.preFund sender value
  | .preRelease sender amount => st.preRelease sender amount
  | .join sender value publicKey => st.join addressOfKey sender value publicKey
  | .stake sender value => st.stake sender value
  | .unstake sender amount => st.unstake sender amount
  | .leave sender => st.leave sender
  | .setFederatedPower sender validators publicKeys powers =>
    st.setFederatedPowerFacet addressOfKey sender validators publicKeys powers
  | .claim sender blockNumber => st.claim sender blockNumber
  | .confirmChange configurationNumber blockNumber => st.confirmChange configurationNumber blockNumber

/-- The states the constructor leaves: the actor as `create` builds it, with any gateway. -/
def Initial (st : StakingState Address) : Prop :=
  ∃ owner permissionMode activeLimit lockingDuration minActivationCollateral minValidators,
    SubnetActor.create owner permissionMode activeLimit lockingDuration minActivationCollateral
      minValidators = .ok st.actor

/-- A successful call among those a run allows. -/
def Step (allowed : Call Address → Prop) (st st' : StakingState Address) : Prop :=
  ∃ call, allowed call ∧ st.apply addressOfKey call = .ok st'

/-- The genesis funds: each address's genesis balance, the keys, and the genesis supply. -/
def genesisFunds (st : StakingState Address) : (Address → Nat) × List Address × Nat :=
  (st.actor.genesisBalance, st.actor.genesisBalanceKeys, st.actor.genesisCircSupply)

variable {st st' : StakingState Address}

omit [DecidableEq Address] in
/-- The constructor's actor: an empty validator set and no genesis funds. -/
theorem actor_of_initial (h : Initial st) :
    ∃ permissionMode activeLimit,
      st.actor.validatorSet = .empty permissionMode activeLimit ∧
      st.actor.genesisBalance = (fun _ => 0) ∧ st.actor.genesisBalanceKeys = [] ∧
      st.actor.genesisCircSupply = 0 := by
  obtain ⟨owner, permissionMode, activeLimit, lockingDuration, minActivationCollateral,
    minValidators, hcreate⟩ := h
  unfold SubnetActor.create at hcreate
  by_cases hinvalid : permissionMode ≠ .Federated ∧ minActivationCollateral = 0
  · rw [if_pos hinvalid] at hcreate
    cases hcreate
  rw [if_neg hinvalid, Except.ok.injEq] at hcreate
  rw [← hcreate]
  exact ⟨permissionMode, activeLimit, rfl, rfl, rfl, rfl⟩

/-! ## The validator set stays well formed -/

section Wf

/-- A confirmed deposit keeps the set well formed. -/
theorem wf_depositWithConfirm (hw : st.actor.validatorSet.Wf) {validator : Address} {amount : Nat}
    (h : st.depositWithConfirm validator amount = .ok st') : st'.actor.validatorSet.Wf := by
  obtain ⟨validatorSet, hconfirm, rfl⟩ := depositWithConfirm_eq_ok.1 h
  exact (hw.recordDeposit validator amount).confirmDeposit hconfirm

/-- A confirmed withdrawal keeps the set well formed. -/
theorem wf_withdrawWithConfirm (hw : st.actor.validatorSet.Wf) {validator : Address}
    {amount : Nat} (h : st.withdrawWithConfirm validator amount = .ok st') :
    st'.actor.validatorSet.Wf := by
  obtain ⟨validatorSet₁, validatorSet, h₁, h₂, -, rfl⟩ := withdrawWithConfirm_eq_ok.1 h
  exact (hw.recordWithdraw h₁).confirmWithdraw h₂

omit [Inhabited Address] in
/-- A recorded withdrawal keeps the set well formed. -/
theorem wf_withdraw (hw : st.actor.validatorSet.Wf) {validator : Address} {amount : Nat}
    (h : st.withdraw validator amount = .ok st') : st'.actor.validatorSet.Wf := by
  obtain ⟨validatorSet, h₁, rfl⟩ := withdraw_eq_ok.1 h
  exact hw.recordWithdraw h₁

/-- Setting the genesis powers keeps the set well formed: each power is confirmed in turn. -/
theorem wf_preBootstrapSetFederatedPower (hw : st.actor.validatorSet.Wf)
    {validators : List Address} {publicKeys : List (List UInt8)} {powers : List Nat}
    (h : st.preBootstrapSetFederatedPower addressOfKey validators publicKeys powers = .ok st') :
    st'.actor.validatorSet.Wf := by
  obtain ⟨-, st₁, hloop, h⟩ := preBootstrapSetFederatedPower_eq_ok addressOfKey h
  have hw₁ : st₁.actor.validatorSet.Wf := by
    refine preBootstrapLoop_invariant addressOfKey (fun s => s.actor.validatorSet.Wf)
      (fun s s₁ validator publicKey power hs h₁ => ?_) hw hloop
    obtain ⟨validatorSet, hconfirm, rfl⟩ := setFederatedPowerWithConfirm_eq_ok.1 h₁
    exact (hs.setMetadata validator publicKey).confirmFederatedPower hconfirm
  obtain ⟨-, -, -, -, rfl⟩ := register_eq_ok.1 h
  exact hw₁

/-- Confirming the change log keeps the set well formed: each change is applied to it in turn. -/
theorem wf_confirmChange (hw : st.actor.validatorSet.Wf) {configurationNumber blockNumber : Nat}
    (h : st.confirmChange configurationNumber blockNumber = .ok st') : st'.actor.validatorSet.Wf := by
  obtain ⟨r, hr, rfl⟩ := confirmChange_eq_ok h
  refine StakingChangeLog.confirmChanges_invariant (fun s => s.actor.validatorSet.Wf)
    (fun s change s' hs hstep => ?_) hw hr
  obtain ⟨validatorSet, happly, releaseQueue, balance, hactor⟩ := confirmChangeStep_eq_ok hstep
  rw [hactor]
  exact hs.applyChange happly

/-- Every call keeps the validator set well formed. -/
theorem wf_apply (hw : st.actor.validatorSet.Wf) {call : Call Address}
    (h : st.apply addressOfKey call = .ok st') : st'.actor.validatorSet.Wf := by
  cases call with
  | preFund sender value =>
    obtain ⟨-, -, rfl⟩ := preFund_eq_ok.1 h
    exact hw
  | preRelease sender amount =>
    obtain ⟨-, -, -, -, -, rfl⟩ := preRelease_eq_ok.1 h
    exact hw
  | join sender value publicKey =>
    cases hboot : st.actor.bootstrapped
    · -- Before bootstrap the deposit is confirmed, and the bootstrap leaves the set.
      obtain ⟨-, -, -, -, st₁, hdeposit, hbootstrap⟩ :=
        join_eq_ok_of_not_bootstrapped addressOfKey hboot h
      obtain ⟨bootstrapped, balance, hactor⟩ := actor_bootstrapSubnetIfNeeded hbootstrap
      rw [hactor]
      exact wf_depositWithConfirm (by exact hw.setMetadata sender publicKey) hdeposit
    · obtain ⟨-, -, -, -, -, rfl⟩ := join_eq_ok_of_bootstrapped addressOfKey hboot h
      exact hw.recordDeposit sender value
  | stake sender value =>
    cases hboot : st.actor.bootstrapped
    · obtain ⟨-, -, -, st₁, hdeposit, hbootstrap⟩ := stake_eq_ok_of_not_bootstrapped hboot h
      obtain ⟨bootstrapped, balance, hactor⟩ := actor_bootstrapSubnetIfNeeded hbootstrap
      rw [hactor]
      exact wf_depositWithConfirm (by exact hw) hdeposit
    · obtain ⟨-, -, -, rfl⟩ := stake_eq_ok_of_bootstrapped hboot h
      exact hw.recordDeposit sender value
  | unstake sender amount =>
    obtain ⟨-, -, -, ⟨-, h⟩ | ⟨-, h⟩⟩ := unstake_eq_ok h
    · exact wf_withdrawWithConfirm hw h
    · exact wf_withdraw hw h
  | leave sender =>
    cases hboot : st.actor.bootstrapped
    · -- The refund of the genesis balance leaves the set; the withdrawal is confirmed.
      obtain ⟨-, st₁, hrefund, h⟩ := leave_eq_ok_of_not_bootstrapped hboot h
      have hw₁ : st₁.actor.validatorSet.Wf := by
        rcases hrefund with ⟨-, rfl⟩ | ⟨-, -, hrefund⟩
        · exact hw
        · obtain ⟨-, rfl⟩ := sendValue_eq_ok.1 hrefund
          exact hw
      exact wf_withdrawWithConfirm hw₁ h
    · obtain ⟨-, -, h⟩ := leave_eq_ok_of_bootstrapped hboot h
      exact wf_withdraw hw h
  | setFederatedPower sender validators publicKeys powers =>
    obtain ⟨-, -, -, -, ⟨-, h⟩ | ⟨-, h⟩⟩ := setFederatedPowerFacet_eq_ok addressOfKey h
    · exact wf_preBootstrapSetFederatedPower addressOfKey hw h
    · obtain ⟨changeSet, rfl⟩ := postBootstrapLoop_changeSet addressOfKey h
      exact hw
  | claim sender blockNumber =>
    obtain ⟨claimed, -, -, rfl⟩ := claimCollateral_eq_ok.1 h
    exact hw
  | confirmChange configurationNumber blockNumber => exact wf_confirmChange hw h

/-- Over every run of the calls, from the constructor on, the validator set is well formed: its
two queues keep their index and are disjoint, the active queue has at most `activeLimit`
addresses, and it is full while any address waits. -/
theorem validatorSet_wf_of_reachable
    (hr : Reachable Initial (Step addressOfKey fun _ => True) st) : st.actor.validatorSet.Wf := by
  refine @Reachable.invariant _ _ _ (fun s : StakingState Address => s.actor.validatorSet.Wf)
    (fun s hs => ?_) (fun s s' hw hstep => ?_) _ hr
  · obtain ⟨permissionMode, activeLimit, hset, -⟩ := actor_of_initial hs
    rw [hset]
    exact ValidatorSet.wf_empty permissionMode activeLimit
  · obtain ⟨call, -, h⟩ := hstep
    exact wf_apply addressOfKey hw h

/-- A collateral subnet that needs a collateral of 10 and one validator: validator 1 joins with
10, which bootstraps it, and the set it leaves is well formed. -/
theorem validatorSet_wf_after_join :
    let addressOfKey : List UInt8 → Nat := fun publicKey => (publicKey.getLastD 0).toNat
    let st₀ : StakingState Nat :=
      ⟨⟨.empty .Collateral 2, .initial, ⟨0, fun _ => .empty⟩, false, [], fun _ => 0, [], 0, 10, 1,
        9, 0⟩, ⟨0, 2, 0, none⟩, fun _ => 0⟩
    ∃ st, st₀.apply addressOfKey (.join 1 10 (List.replicate 65 1)) = .ok st ∧
      Reachable Initial (Step addressOfKey fun _ => True) st ∧ st.actor.bootstrapped = true ∧
      st.actor.validatorSet.Wf := by
  intro addressOfKey st₀
  -- Validator 1 joins with the whole minimum collateral, which bootstraps the subnet.
  have hrun : ((st₀.apply addressOfKey (.join 1 10 (List.replicate 65 1))).map
      fun st => st.actor.bootstrapped) = .ok true := by
    decide +kernel
  obtain ⟨st₁, hjoin⟩ : ∃ st₁, st₀.apply addressOfKey (.join 1 10 (List.replicate 65 1)) = .ok st₁ := by
    cases h : st₀.apply addressOfKey (.join 1 10 (List.replicate 65 1)) with
    | ok st₁ => exact ⟨st₁, rfl⟩
    | error e =>
      rw [h] at hrun
      cases hrun
  have hr : Reachable Initial (Step addressOfKey fun _ => True) st₁ :=
    (Reachable.of_init (show Initial st₀ from ⟨9, .Collateral, 2, 0, 10, 1, rfl⟩)).tail
      ⟨_, trivial, hjoin⟩
  rw [hjoin] at hrun
  exact ⟨st₁, hjoin, hr, by simpa [Except.map] using hrun, validatorSet_wf_of_reachable addressOfKey hr⟩

end Wf

/-! ## The books of the genesis funds -/

section GenesisBooks

omit [DecidableEq Address] [Inhabited Address] in
/-- The books depend on the genesis funds only. -/
theorem genesisBooks_of_genesisFunds (hb : st.actor.GenesisBooks)
    (h : st'.genesisFunds = st.genesisFunds) : st'.actor.GenesisBooks := by
  simp only [genesisFunds, Prod.mk.injEq] at h
  obtain ⟨hbalance, hkeys, hsupply⟩ := h
  refine ⟨?_, fun a => ?_, ?_⟩
  · rw [hkeys]
    exact hb.nodup
  · rw [hkeys, hbalance]
    exact hb.mem_keys a
  · rw [hkeys, hbalance, hsupply]
    exact hb.supply

omit [Inhabited Address] in
/-- `preFund` keeps the books: a sender with no balance yet becomes a key, and the supply grows
by the value, as the sender's balance does. -/
theorem genesisBooks_preFund (hb : st.actor.GenesisBooks) {sender : Address} {value : Nat}
    (h : st.preFund sender value = .ok st') : st'.actor.GenesisBooks := by
  obtain ⟨hvalue, -, rfl⟩ := preFund_eq_ok.1 h
  by_cases hzero : st.actor.genesisBalance sender = 0
  · -- A new key: the sum over the old keys does not see the write.
    have hnew : sender ∉ st.actor.genesisBalanceKeys := fun hmem => (hb.mem_keys sender).1 hmem hzero
    refine ⟨?_, fun a => ?_, ?_⟩
    · dsimp only
      rw [if_pos hzero]
      exact hb.nodup.append (List.nodup_singleton sender) (by simpa using hnew)
    · dsimp only
      rw [if_pos hzero]
      by_cases ha : a = sender
      · subst ha
        simp [hvalue]
      · simp [ha, hb.mem_keys a]
    · dsimp only
      rw [if_pos hzero, List.map_append, List.sum_append, List.sum_map_update_of_not_mem hnew,
        ← hb.supply]
      simp [hzero]
  · -- A key already: the write replaces its balance in the sum.
    have hmem : sender ∈ st.actor.genesisBalanceKeys := (hb.mem_keys sender).2 hzero
    have hsum := List.sum_map_update_of_mem hb.nodup hmem st.actor.genesisBalance
      (st.actor.genesisBalance sender + value)
    refine ⟨?_, fun a => ?_, ?_⟩
    · dsimp only
      rw [if_neg hzero]
      exact hb.nodup
    · dsimp only
      rw [if_neg hzero]
      by_cases ha : a = sender
      · subst ha
        simp [hmem, hzero]
      · simp [ha, hb.mem_keys a]
    · dsimp only
      rw [if_neg hzero, hb.supply]
      omega

omit [Inhabited Address] in
/-- `preRelease` keeps the books: the supply shrinks by the amount, as the sender's balance does,
and a sender left with no balance stops being a key. -/
theorem genesisBooks_preRelease (hb : st.actor.GenesisBooks) {sender : Address} {amount : Nat}
    (h : st.preRelease sender amount = .ok st') : st'.actor.GenesisBooks := by
  obtain ⟨hamount, -, hle, hsupply, -, rfl⟩ := preRelease_eq_ok.1 h
  have hmem : sender ∈ st.actor.genesisBalanceKeys := (hb.mem_keys sender).2 (by omega)
  by_cases hzero : st.actor.genesisBalance sender - amount = 0
  · -- The key is removed by swap-and-pop: the other keys stay, and the sum loses the balance.
    have hperm := rmAddressFromBalanceKey_perm st.actor.genesisBalanceKeys sender
    have hgone : sender ∉ st.actor.genesisBalanceKeys.erase sender := hb.nodup.not_mem_erase
    have hsum := List.sum_map_erase st.actor.genesisBalance hmem
    refine ⟨?_, fun a => ?_, ?_⟩
    · dsimp only
      rw [if_pos hzero]
      exact hperm.nodup_iff.2 (hb.nodup.erase sender)
    · dsimp only
      rw [if_pos hzero, hperm.mem_iff, hb.nodup.mem_erase_iff]
      by_cases ha : a = sender
      · subst ha
        simp [hzero]
      · simp [ha, hb.mem_keys a]
    · dsimp only
      rw [if_pos hzero, (hperm.map _).sum_eq, List.sum_map_update_of_not_mem hgone]
      rw [hb.supply] at hsupply ⊢
      omega
  · -- The key stays, and the write replaces its balance in the sum.
    have hsum := List.sum_map_update_of_mem hb.nodup hmem st.actor.genesisBalance
      (st.actor.genesisBalance sender - amount)
    refine ⟨?_, fun a => ?_, ?_⟩
    · dsimp only
      rw [if_neg hzero]
      exact hb.nodup
    · dsimp only
      rw [if_neg hzero]
      by_cases ha : a = sender
      · subst ha
        simp [hmem, hzero]
      · simp [ha, hb.mem_keys a]
    · dsimp only
      rw [if_neg hzero]
      rw [hb.supply] at hsupply ⊢
      omega

omit [DecidableEq Address] [Inhabited Address] in
/-- The bootstrap check does not write the genesis funds. -/
theorem genesisFunds_bootstrapSubnetIfNeeded (h : st.bootstrapSubnetIfNeeded = .ok st') :
    st'.genesisFunds = st.genesisFunds := by
  obtain ⟨bootstrapped, balance, hactor⟩ := actor_bootstrapSubnetIfNeeded h
  simp only [genesisFunds, hactor]

/-- Setting the genesis powers does not write the genesis funds. -/
theorem genesisFunds_preBootstrapSetFederatedPower {validators : List Address}
    {publicKeys : List (List UInt8)} {powers : List Nat}
    (h : st.preBootstrapSetFederatedPower addressOfKey validators publicKeys powers = .ok st') :
    st'.genesisFunds = st.genesisFunds := by
  obtain ⟨-, st₁, hloop, h⟩ := preBootstrapSetFederatedPower_eq_ok addressOfKey h
  have hfunds : st₁.genesisFunds = st.genesisFunds := by
    refine preBootstrapLoop_invariant addressOfKey (fun s => s.genesisFunds = st.genesisFunds)
      (fun s s₁ validator publicKey power hs h₁ => ?_) rfl hloop
    obtain ⟨validatorSet, -, rfl⟩ := setFederatedPowerWithConfirm_eq_ok.1 h₁
    exact hs
  obtain ⟨-, -, -, -, rfl⟩ := register_eq_ok.1 h
  exact hfunds

/-- Confirming the change log does not write the genesis funds. -/
theorem genesisFunds_confirmChange {configurationNumber blockNumber : Nat}
    (h : st.confirmChange configurationNumber blockNumber = .ok st') :
    st'.genesisFunds = st.genesisFunds := by
  obtain ⟨r, hr, rfl⟩ := confirmChange_eq_ok h
  refine StakingChangeLog.confirmChanges_invariant (fun s => s.genesisFunds = st.genesisFunds)
    (fun s change s' hs hstep => ?_) rfl hr
  obtain ⟨validatorSet, -, releaseQueue, balance, hactor⟩ := confirmChangeStep_eq_ok hstep
  simp only [genesisFunds, hactor] at hs ⊢
  exact hs

/-- Every call but `leave` keeps the books of the genesis funds: `preFund` and `preRelease` keep
them, and the other calls do not write the funds. -/
theorem genesisBooks_apply (hb : st.actor.GenesisBooks) {call : Call Address}
    (hleave : call.isLeave = false) (h : st.apply addressOfKey call = .ok st') :
    st'.actor.GenesisBooks := by
  cases call with
  | preFund sender value => exact genesisBooks_preFund hb h
  | preRelease sender amount => exact genesisBooks_preRelease hb h
  | join sender value publicKey =>
    refine genesisBooks_of_genesisFunds hb ?_
    cases hboot : st.actor.bootstrapped
    · obtain ⟨-, -, -, -, st₁, hdeposit, hbootstrap⟩ :=
        join_eq_ok_of_not_bootstrapped addressOfKey hboot h
      obtain ⟨validatorSet, -, rfl⟩ := depositWithConfirm_eq_ok.1 hdeposit
      exact (genesisFunds_bootstrapSubnetIfNeeded hbootstrap).trans rfl
    · obtain ⟨-, -, -, -, -, rfl⟩ := join_eq_ok_of_bootstrapped addressOfKey hboot h
      rfl
  | stake sender value =>
    refine genesisBooks_of_genesisFunds hb ?_
    cases hboot : st.actor.bootstrapped
    · obtain ⟨-, -, -, st₁, hdeposit, hbootstrap⟩ := stake_eq_ok_of_not_bootstrapped hboot h
      obtain ⟨validatorSet, -, rfl⟩ := depositWithConfirm_eq_ok.1 hdeposit
      exact (genesisFunds_bootstrapSubnetIfNeeded hbootstrap).trans rfl
    · obtain ⟨-, -, -, rfl⟩ := stake_eq_ok_of_bootstrapped hboot h
      rfl
  | unstake sender amount =>
    refine genesisBooks_of_genesisFunds hb ?_
    obtain ⟨-, -, -, ⟨-, h⟩ | ⟨-, h⟩⟩ := unstake_eq_ok h
    · obtain ⟨validatorSet₁, validatorSet, -, -, -, rfl⟩ := withdrawWithConfirm_eq_ok.1 h
      rfl
    · obtain ⟨validatorSet, -, rfl⟩ := withdraw_eq_ok.1 h
      rfl
  | leave sender => cases hleave
  | setFederatedPower sender validators publicKeys powers =>
    refine genesisBooks_of_genesisFunds hb ?_
    obtain ⟨-, -, -, -, ⟨-, h⟩ | ⟨-, h⟩⟩ := setFederatedPowerFacet_eq_ok addressOfKey h
    · exact genesisFunds_preBootstrapSetFederatedPower addressOfKey h
    · obtain ⟨changeSet, rfl⟩ := postBootstrapLoop_changeSet addressOfKey h
      rfl
  | claim sender blockNumber =>
    refine genesisBooks_of_genesisFunds hb ?_
    obtain ⟨claimed, -, -, rfl⟩ := claimCollateral_eq_ok.1 h
    rfl
  | confirmChange configurationNumber blockNumber =>
    exact genesisBooks_of_genesisFunds hb (genesisFunds_confirmChange h)

/-- Over every run without `leave`, from the constructor on, the genesis funds keep their books:
the keys are the addresses with a genesis balance, each once, and the genesis supply is the sum
of their balances. -/
theorem genesisBooks_of_reachable
    (hr : Reachable Initial (Step addressOfKey fun call => call.isLeave = false) st) :
    st.actor.GenesisBooks := by
  refine @Reachable.invariant _ _ _ (fun s : StakingState Address => s.actor.GenesisBooks)
    (fun s hs => ?_) (fun s s' hb hstep => ?_) _ hr
  · obtain ⟨permissionMode, activeLimit, -, hbalance, hkeys, hsupply⟩ := actor_of_initial hs
    refine ⟨?_, fun a => ?_, ?_⟩
    · rw [hkeys]
      exact List.nodup_nil
    · simp [hkeys, hbalance]
    · simp [hkeys, hsupply]
  · obtain ⟨call, hleave, h⟩ := hstep
    exact genesisBooks_apply addressOfKey hb hleave h

/-- Address 1 funds 5 and releases 2 of it: the books of the genesis funds hold. -/
theorem genesisBooks_after_preFund_preRelease :
    let addressOfKey : List UInt8 → Nat := fun publicKey => (publicKey.getLastD 0).toNat
    let st₀ : StakingState Nat :=
      ⟨⟨.empty .Collateral 2, .initial, ⟨0, fun _ => .empty⟩, false, [], fun _ => 0, [], 0, 10, 1,
        9, 0⟩, ⟨0, 2, 0, none⟩, fun _ => 0⟩
    ∃ st₁ st₂, st₀.apply addressOfKey (.preFund 1 5) = .ok st₁ ∧
      st₁.apply addressOfKey (.preRelease 1 2) = .ok st₂ ∧
      Reachable Initial (Step addressOfKey fun call => call.isLeave = false) st₂ ∧
      st₂.actor.GenesisBooks := by
  intro addressOfKey st₀
  -- Address 1 funds 5 and releases 2 of it.
  have hr := ((Reachable.of_init (show Initial st₀ from ⟨9, .Collateral, 2, 0, 10, 1, rfl⟩)).tail
    (show Step addressOfKey (fun call => call.isLeave = false) st₀ _ from ⟨.preFund 1 5, rfl, rfl⟩)).tail
    ⟨.preRelease 1 2, rfl, rfl⟩
  exact ⟨_, _, rfl, rfl, hr, genesisBooks_of_reachable addressOfKey hr⟩

end GenesisBooks

end StakingState

end Delorean.Staking
