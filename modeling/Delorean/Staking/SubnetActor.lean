import Delorean.Staking.ChangeLog
import Delorean.Lib.Balances

/-!
# The subnet actor's staking

The subnet actor in the parent holds its subnet's validators. Before the subnet bootstraps, a
join or a stake is confirmed at once (`depositWithConfirm`), its collateral stays with the actor,
and the first deposit of each validator is appended to the genesis validators; the subnet
bootstraps once the confirmed collateral and the number of active validators reach their minimums
(`bootstrapSubnetIfNeeded`), registering in the gateway with the collateral and the genesis
supply. A federated subnet bootstraps when its owner first sets the federated powers
(`preBootstrapSetFederatedPower`), registering with the genesis supply alone. After bootstrap the
calls only record changes (`deposit`, `withdraw`, `setFederatedPower`), and a submitted
checkpoint confirms them (`confirmChange`), moving the collateral to or from the gateway.

The state is `StakingState`: the actor's storage, the gateway's record of the subnet, and the
value the actor has sent to each address. A call's value is added to the actor's balance when it
runs, and a revert is an `Except` error that leaves the state as it was. The address of a public
key, `keccak256` of its last 64 bytes, is the parameter `addressOfKey`.

What the genesis validators say is not what the validator set holds. Their weights are the first
deposit of each validator: a later stake before bootstrap raises the validator's power but not its
genesis weight (`stake_keeps_genesisValidators`). A join in federated mode before bootstrap
confirms a deposit, which puts the validator in the active queue with the federated power it had,
which before bootstrap is none (`join_federated_active`); and the owner's first `setFederatedPower` registers the subnet
with the genesis supply alone, so that the collateral such joins brought is never the gateway's
stake (`stake_setFederatedPowerFacet`). And `leave` compares the leaving validator's genesis
balance with zero where it should clear it (`s.genesisBalance[msg.sender] == 0;`): the supply and
the keys forget the balance, and the validator can release it again (`leave_keeps_genesisBalance`).

Each call has an inversion lemma that says when it succeeds and what it writes (`register_eq_ok`,
`depositWithConfirm_eq_ok`, `join_eq_ok_of_not_bootstrapped`, ...), and the results above are
read off them.

Not modelled: pausing and killing (the subnet is neither paused nor killed), the bootstrap nodes
that `leave` deletes, and the gateway's other subnets and registry; amounts are natural numbers
below `2 ^ 256`, which is not checked.
-/

namespace Delorean.Staking

/-- `ERR_PERMISSIONED_AND_BOOTSTRAPPED`. -/
def errPermissionedAndBootstrapped : String :=
  "Method not allowed if permissioned is enabled and subnet bootstrapped"

/-- `ERR_VALIDATOR_JOINED`. -/
def errValidatorJoined : String := "Method not allowed if validator has already joined"

/-- `ERR_VALIDATOR_NOT_JOINED`. -/
def errValidatorNotJoined : String := "Method not allowed if validator has not joined"

/-- `ERR_CHILD_SUBNET_NOT_ALLOWED`. -/
def errChildSubnetNotAllowed : String := "Subnet does not allow child subnets"

/-- `VALIDATOR_SECP256K1_PUBLIC_KEY_LENGTH`. -/
def validatorSecp256k1PublicKeyLength : Nat := 65

/-- `Validator`: an entry of the genesis validators and of a membership. -/
structure Validator (Address : Type) where
  weight : Nat
  addr : Address
  metadata : List UInt8
  deriving DecidableEq, Repr

/-- The fields of the gateway's `Subnet` record that the staking calls write. -/
structure GatewaySubnet where
  stake : Nat
  circSupply : Nat
  deriving DecidableEq, Repr

/-- The gateway as the subnet actor's calls see it: the length of its network's route and the
depth it allows, its balance, and the subnet's record, `none` until the subnet registers. -/
structure Gateway where
  routeLength : Nat
  maxTreeDepth : Nat
  balance : Nat
  subnet : Option GatewaySubnet
  deriving DecidableEq, Repr

/-- The storage of the subnet actor that its staking calls read and write, with its owner and
its balance. -/
structure SubnetActor (Address : Type) where
  validatorSet : ValidatorSet Address
  changeSet : StakingChangeLog Address
  releaseQueue : StakingReleaseQueue Address
  bootstrapped : Bool
  genesisValidators : List (Validator Address)
  genesisBalance : Address → Nat
  genesisBalanceKeys : List Address
  genesisCircSupply : Nat
  minActivationCollateral : Nat
  minValidators : Nat
  owner : Address
  balance : Nat

/-- The subnet actor, the gateway, and the value the actor has sent to each address. -/
structure StakingState (Address : Type) where
  actor : SubnetActor Address
  gateway : Gateway
  received : Address → Nat

namespace SubnetActor

variable {Address : Type} [DecidableEq Address] [Inhabited Address]

/-- The constructor of `SubnetActorDiamond`, on the parameters the staking calls read: a federated
subnet needs no collateral, and another needs some. -/
def create (owner : Address) (permissionMode : Subnet.PermissionMode) (activeLimit : Nat)
    (lockingDuration minActivationCollateral minValidators : Nat) :
    Except (Revert Address) (SubnetActor Address) :=
  if permissionMode ≠ .Federated ∧ minActivationCollateral = 0 then .error .InvalidCollateral
  else
    .ok { validatorSet := .empty permissionMode activeLimit
          changeSet := .initial
          releaseQueue := ⟨lockingDuration, fun _ => .empty⟩
          bootstrapped := false
          genesisValidators := []
          genesisBalance := fun _ => 0
          genesisBalanceKeys := []
          genesisCircSupply := 0
          minActivationCollateral :=
            if permissionMode = .Federated then 0 else minActivationCollateral
          minValidators
          owner
          balance := 0 }

/-- `enforceCollateralValidation`. -/
def enforceCollateralValidation (self : SubnetActor Address) : Except (Revert Address) Unit :=
  if self.validatorSet.permissionMode ≠ .Collateral then
    .error (.MethodNotAllowed errPermissionedAndBootstrapped)
  else .ok ()

/-- `enforceFederatedValidation`. -/
def enforceFederatedValidation (self : SubnetActor Address) : Except (Revert Address) Unit :=
  if self.validatorSet.permissionMode ≠ .Federated then
    .error (.MethodNotAllowed errPermissionedAndBootstrapped)
  else .ok ()

/-- `isValidator`, which is `hasStaked`: the validator has total collateral. -/
def isValidator (self : SubnetActor Address) (addr : Address) : Bool :=
  (self.validatorSet.validators addr).totalCollateral != 0

omit [DecidableEq Address] [Inhabited Address] in
/-- `enforceCollateralValidation` passes in collateral mode only. -/
theorem enforceCollateralValidation_eq_ok {actor : SubnetActor Address} {u : Unit} :
    actor.enforceCollateralValidation = .ok u ↔ actor.validatorSet.permissionMode = .Collateral := by
  unfold SubnetActor.enforceCollateralValidation
  by_cases hmode : actor.validatorSet.permissionMode = .Collateral
  · rw [if_neg (not_not.2 hmode)]
    exact ⟨fun _ => hmode, fun _ => rfl⟩
  · rw [if_pos hmode]
    exact ⟨nofun, fun h => absurd h hmode⟩

omit [DecidableEq Address] [Inhabited Address] in
/-- `enforceFederatedValidation` passes in federated mode only. -/
theorem enforceFederatedValidation_eq_ok {actor : SubnetActor Address} {u : Unit} :
    actor.enforceFederatedValidation = .ok u ↔ actor.validatorSet.permissionMode = .Federated := by
  unfold SubnetActor.enforceFederatedValidation
  by_cases hmode : actor.validatorSet.permissionMode = .Federated
  · rw [if_neg (not_not.2 hmode)]
    exact ⟨fun _ => hmode, fun _ => rfl⟩
  · rw [if_pos hmode]
    exact ⟨nofun, fun h => absurd h hmode⟩

end SubnetActor

/-- `rmAddressFromBalanceKey`: the first occurrence of the address takes the last key, and the
last key is popped. -/
def rmAddressFromBalanceKey {Address : Type} [DecidableEq Address] (keys : List Address)
    (addr : Address) : List Address :=
  match keys.findIdx? (· == addr) with
  | some i => (keys.set i (keys.getLastD addr)).dropLast
  | none => keys

/-- `rmAddressFromBalanceKey` removes the address's first occurrence, up to the order of the
other keys. -/
theorem rmAddressFromBalanceKey_perm {Address : Type} [DecidableEq Address] (keys : List Address)
    (addr : Address) : (rmAddressFromBalanceKey keys addr).Perm (keys.erase addr) := by
  unfold rmAddressFromBalanceKey
  split
  · -- The first occurrence is at `i`: swap-and-pop there is erasing it.
    rename_i i hi
    have hlt := (List.findIdx?_eq_some_iff_findIdx_eq.1 hi).1
    have hidx : keys.idxOf? addr = some i := hi
    rw [List.erase_eq_eraseIdx, hidx]
    exact List.dropLast_set_getLastD_perm hlt addr
  · -- No occurrence: nothing to erase.
    rename_i hnone
    have hmem : addr ∉ keys := fun h => by
      simpa using List.findIdx?_eq_none_iff.1 hnone addr h
    rw [List.erase_of_not_mem hmem]

namespace StakingState

variable {Address : Type} [DecidableEq Address] [Inhabited Address]
  (addressOfKey : List UInt8 → Address)

/-! ## Value transfers and the gateway -/

/-- A call's value arrives in the actor's balance. -/
def receive (st : StakingState Address) (value : Nat) : StakingState Address :=
  { st with actor := { st.actor with balance := st.actor.balance + value } }

/-- `Address.sendValue` from the actor. -/
def sendValue (st : StakingState Address) (recipient : Address) (amount : Nat) :
    Except (Revert Address) (StakingState Address) :=
  if st.actor.balance < amount then .error .InsufficientBalance
  else
    .ok { st with
      actor := { st.actor with balance := st.actor.balance - amount }
      received := Function.update st.received recipient (st.received recipient + amount) }

/-- The actor calls the gateway with a value, which its balance must cover. -/
def payGateway (st : StakingState Address) (value : Nat) :
    Except (Revert Address) (StakingState Address) :=
  if st.actor.balance < value then .error .InsufficientBalance
  else
    .ok { st with
      actor := { st.actor with balance := st.actor.balance - value }
      gateway := { st.gateway with balance := st.gateway.balance + value } }

/-- `GatewayManagerFacet.register`, called by the actor with `value`: the value beyond the
genesis supply is the subnet's stake. -/
def register (st : StakingState Address) (value genesisCircSupply : Nat) :
    Except (Revert Address) (StakingState Address) := do
  let st ← st.payGateway value
  if st.gateway.routeLength + 1 ≥ st.gateway.maxTreeDepth then
    .error (.MethodNotAllowed errChildSubnetNotAllowed)
  else if value < genesisCircSupply then .error .NotEnoughFunds
  else if st.gateway.subnet.isSome then .error .AlreadyRegisteredSubnet
  else
    .ok { st with
      gateway := { st.gateway with subnet := some ⟨value - genesisCircSupply, genesisCircSupply⟩ } }

/-- `GatewayManagerFacet.addStake`, called by the actor with `value`. -/
def addStake (st : StakingState Address) (value : Nat) :
    Except (Revert Address) (StakingState Address) := do
  let st ← st.payGateway value
  if value = 0 then .error .NotEnoughFunds
  else
    match st.gateway.subnet with
    | none => .error .NotRegisteredSubnet
    | some subnet =>
      .ok { st with
        gateway := { st.gateway with subnet := some { subnet with stake := subnet.stake + value } } }

/-- `GatewayManagerFacet.releaseStake`: the gateway sends the amount back to the actor. -/
def releaseStake (st : StakingState Address) (amount : Nat) :
    Except (Revert Address) (StakingState Address) :=
  if amount = 0 then .error .CannotReleaseZero
  else
    match st.gateway.subnet with
    | none => .error .NotRegisteredSubnet
    | some subnet =>
      if subnet.stake < amount then .error .NotEnoughFundsToRelease
      else if st.gateway.balance < amount then .error .InsufficientBalance
      else
        .ok { st with
          gateway := { st.gateway with
            subnet := some { subnet with stake := subnet.stake - amount }
            balance := st.gateway.balance - amount }
          actor := { st.actor with balance := st.actor.balance + amount } }

/-! ## `LibStaking` -/

/-- `setMetadataWithConfirm`. -/
def setMetadataWithConfirm (st : StakingState Address) (validator : Address)
    (metadata : List UInt8) : StakingState Address :=
  { st with
    actor := { st.actor with validatorSet := st.actor.validatorSet.setMetadata validator metadata } }

/-- `setFederatedPowerWithConfirm`. -/
def setFederatedPowerWithConfirm (st : StakingState Address) (validator : Address) (power : Nat) :
    Except (Revert Address) (StakingState Address) := do
  let validatorSet ← st.actor.validatorSet.confirmFederatedPower validator power
  return { st with actor := { st.actor with validatorSet } }

/-- `depositWithConfirm`: record and confirm the deposit, and before bootstrap add the validator
to the genesis validators, with its confirmed collateral, unless it is one already. -/
def depositWithConfirm (st : StakingState Address) (validator : Address) (amount : Nat) :
    Except (Revert Address) (StakingState Address) := do
  let validatorSet ←
    (st.actor.validatorSet.recordDeposit validator amount).confirmDeposit validator amount
  let actor := { st.actor with validatorSet }
  if !actor.bootstrapped then
    if actor.genesisValidators.any (·.addr == validator) then return { st with actor }
    else
      let info := validatorSet.validators validator
      return { st with
        actor := { actor with
          genesisValidators :=
            actor.genesisValidators ++ [⟨info.confirmedCollateral, validator, info.metadata⟩] } }
  else return { st with actor }

/-- `withdrawWithConfirm`: record and confirm the withdrawal, and pay it at once. -/
def withdrawWithConfirm (st : StakingState Address) (validator : Address) (amount : Nat) :
    Except (Revert Address) (StakingState Address) := do
  let validatorSet ← st.actor.validatorSet.recordWithdraw validator amount
  let validatorSet ← validatorSet.confirmWithdraw validator amount
  { st with actor := { st.actor with validatorSet } }.sendValue validator amount

/-- `setFederatedPower` of `LibStaking`: record the change. -/
def setFederatedPower (st : StakingState Address) (validator : Address) (metadata : List UInt8)
    (amount : Nat) : StakingState Address :=
  { st with
    actor := { st.actor with
      changeSet := st.actor.changeSet.federatedPowerRequest validator metadata amount } }

/-- `setValidatorMetadata`: record the change. -/
def setValidatorMetadata (st : StakingState Address) (validator : Address)
    (metadata : List UInt8) : StakingState Address :=
  { st with
    actor := { st.actor with changeSet := st.actor.changeSet.metadataRequest validator metadata } }

/-- `deposit`: record the change and the validator's total collateral. -/
def deposit (st : StakingState Address) (validator : Address) (amount : Nat) :
    StakingState Address :=
  { st with
    actor := { st.actor with
      changeSet := st.actor.changeSet.depositRequest validator amount
      validatorSet := st.actor.validatorSet.recordDeposit validator amount } }

/-- `withdraw`: record the change and the validator's total collateral. -/
def withdraw (st : StakingState Address) (validator : Address) (amount : Nat) :
    Except (Revert Address) (StakingState Address) := do
  let validatorSet ← st.actor.validatorSet.recordWithdraw validator amount
  return { st with
    actor := { st.actor with
      changeSet := st.actor.changeSet.withdrawRequest validator amount
      validatorSet } }

/-- `claimCollateral` at block `blockNumber`: pay the matured releases. -/
def claimCollateral (st : StakingState Address) (validator : Address) (blockNumber : Nat) :
    Except (Revert Address) (StakingState Address) := do
  let claimed ← st.actor.releaseQueue.claim validator blockNumber
  { st with actor := { st.actor with releaseQueue := claimed.1 } }.sendValue validator claimed.2

/-- What a confirmed change does at the parent, at block `blockNumber`: what it does to the
validator set, and then for a withdrawal a release and the gateway's `releaseStake`, for a
deposit the gateway's `addStake`. -/
def confirmChangeStep (blockNumber : Nat) (st : StakingState Address)
    (change : StakingChange Address) : Except (Revert Address) (StakingState Address) := do
  let validatorSet ← st.actor.validatorSet.applyChange change
  let st := { st with actor := { st.actor with validatorSet } }
  match change.op with
  | .Withdraw => do
    let releaseQueue ←
      st.actor.releaseQueue.addNewRelease change.validator change.amount blockNumber
    { st with actor := { st.actor with releaseQueue } }.releaseStake change.amount
  | .Deposit => st.addStake change.amount
  | .SetMetadata => return st
  | .SetFederatedPower => return st

/-- `confirmChange` of `LibStaking`, at block `blockNumber`. -/
def confirmChange (st : StakingState Address) (configurationNumber blockNumber : Nat) :
    Except (Revert Address) (StakingState Address) := do
  let r ← StakingChangeLog.confirmChanges (confirmChangeStep blockNumber) st.actor.changeSet st
    configurationNumber
  return { r.2 with actor := { r.2.actor with changeSet := r.1 } }

/-! ## `LibSubnetActor` -/

/-- `publicKeyToAddress`: its `assert` on the length is a panic. -/
def publicKeyToAddress (publicKey : List UInt8) : Except (Revert Address) Address :=
  if publicKey.length ≠ validatorSecp256k1PublicKeyLength then .error (.Panic 0x01)
  else .ok (addressOfKey publicKey)

/-- `bootstrapSubnetIfNeeded`: once the confirmed collateral and the active validators reach their
minimums, bootstrap and register with the collateral and the genesis supply. -/
def bootstrapSubnetIfNeeded (st : StakingState Address) :
    Except (Revert Address) (StakingState Address) :=
  let totalCollateral := st.actor.validatorSet.totalConfirmedCollateral
  if totalCollateral ≥ st.actor.minActivationCollateral ∧
      st.actor.validatorSet.activeValidators.getSize ≥ st.actor.minValidators then
    { st with actor := { st.actor with bootstrapped := true } }.register
      (totalCollateral + st.actor.genesisCircSupply) st.actor.genesisCircSupply
  else .ok st

/-- The loop of `preBootstrapSetFederatedPower` over the validators, their keys and their powers. -/
def preBootstrapLoop (st : StakingState Address) :
    List (Address × List UInt8 × Nat) → Except (Revert Address) (StakingState Address)
  | [] => .ok st
  | (validator, publicKey, power) :: rest => do
    let convertedAddress ← publicKeyToAddress addressOfKey publicKey
    if convertedAddress ≠ validator then .error .NotOwnerOfPublicKey
    -- A validator enters the genesis set once: it has no power when first added.
    else if st.actor.validatorSet.getPower validator > 0 then .error .DuplicatedGenesisValidator
    else
      let st := st.setMetadataWithConfirm validator publicKey
      let st ← st.setFederatedPowerWithConfirm validator power
      let st := { st with
        actor := { st.actor with
          genesisValidators := st.actor.genesisValidators ++ [⟨power, validator, publicKey⟩] } }
      preBootstrapLoop st rest

/-- `preBootstrapSetFederatedPower`: set the genesis validators' powers, bootstrap, and register
with the genesis supply. The facet has checked that the three lists have one length. -/
def preBootstrapSetFederatedPower (st : StakingState Address) (validators : List Address)
    (publicKeys : List (List UInt8)) (powers : List Nat) :
    Except (Revert Address) (StakingState Address) :=
  if validators.length ≤ st.actor.minValidators then .error .NotEnoughGenesisValidators
  else do
    let st ← st.preBootstrapLoop addressOfKey (validators.zip (publicKeys.zip powers))
    let st := { st with actor := { st.actor with bootstrapped := true } }
    st.register st.actor.genesisCircSupply st.actor.genesisCircSupply

/-- The loop of `postBootstrapSetFederatedPower`. -/
def postBootstrapLoop (st : StakingState Address) :
    List (Address × List UInt8 × Nat) → Except (Revert Address) (StakingState Address)
  | [] => .ok st
  | (validator, publicKey, power) :: rest => do
    let convertedAddress ← publicKeyToAddress addressOfKey publicKey
    if convertedAddress ≠ validator then .error .NotOwnerOfPublicKey
    else postBootstrapLoop (st.setFederatedPower validator publicKey power) rest

/-- `postBootstrapSetFederatedPower`: record each power change. -/
def postBootstrapSetFederatedPower (st : StakingState Address) (validators : List Address)
    (publicKeys : List (List UInt8)) (powers : List Nat) :
    Except (Revert Address) (StakingState Address) :=
  st.postBootstrapLoop addressOfKey (validators.zip (publicKeys.zip powers))

/-! ## `SubnetActorManagerFacet` and `claim` -/

/-- `preFund`: add to the sender's genesis balance and to the genesis supply. -/
def preFund (st : StakingState Address) (sender : Address) (value : Nat) :
    Except (Revert Address) (StakingState Address) :=
  if value = 0 then .error .NotEnoughFunds
  else if st.actor.bootstrapped then .error .SubnetAlreadyBootstrapped
  else
    let st := st.receive value
    let keys :=
      if st.actor.genesisBalance sender = 0 then st.actor.genesisBalanceKeys ++ [sender]
      else st.actor.genesisBalanceKeys
    .ok { st with
      actor := { st.actor with
        genesisBalanceKeys := keys
        genesisBalance :=
          Function.update st.actor.genesisBalance sender (st.actor.genesisBalance sender + value)
        genesisCircSupply := st.actor.genesisCircSupply + value } }

/-- `preRelease`: take back part of the sender's genesis balance. -/
def preRelease (st : StakingState Address) (sender : Address) (amount : Nat) :
    Except (Revert Address) (StakingState Address) :=
  if amount = 0 then .error .NotEnoughFunds
  else if st.actor.bootstrapped then .error .SubnetAlreadyBootstrapped
  else if st.actor.genesisBalance sender < amount then .error .NotEnoughBalance
  else if st.actor.genesisCircSupply < amount then .error (.Panic 0x11)
  else
    let balance := st.actor.genesisBalance sender - amount
    let keys :=
      if balance = 0 then rmAddressFromBalanceKey st.actor.genesisBalanceKeys sender
      else st.actor.genesisBalanceKeys
    { st with
      actor := { st.actor with
        genesisBalance := Function.update st.actor.genesisBalance sender balance
        genesisCircSupply := st.actor.genesisCircSupply - amount
        genesisBalanceKeys := keys } }.sendValue sender amount

/-- `setFederatedPower` of the facet, by the owner of a federated subnet. -/
def setFederatedPowerFacet (st : StakingState Address) (sender : Address)
    (validators : List Address) (publicKeys : List (List UInt8)) (powers : List Nat) :
    Except (Revert Address) (StakingState Address) :=
  if sender ≠ st.actor.owner then .error .NotOwner
  else do
    st.actor.enforceFederatedValidation
    if validators.length ≠ powers.length then .error .InvalidFederationPayload
    else if validators.length ≠ publicKeys.length then .error .InvalidFederationPayload
    else if st.actor.bootstrapped then
      st.postBootstrapSetFederatedPower addressOfKey validators publicKeys powers
    else st.preBootstrapSetFederatedPower addressOfKey validators publicKeys powers

/-- `join`: before bootstrap the deposit is confirmed at once and may bootstrap the subnet;
after it, the deposit is recorded. -/
def join (st : StakingState Address) (sender : Address) (value : Nat) (publicKey : List UInt8) :
    Except (Revert Address) (StakingState Address) := do
  if st.actor.bootstrapped then st.actor.enforceCollateralValidation
  if value = 0 then .error .CollateralIsZero
  else if st.actor.isValidator sender then .error (.MethodNotAllowed errValidatorJoined)
  else if publicKey.length ≠ validatorSecp256k1PublicKeyLength then .error .InvalidPublicKeyLength
  else
    let convertedAddress ← publicKeyToAddress addressOfKey publicKey
    if convertedAddress ≠ sender then .error .NotOwnerOfPublicKey
    else
      let st := st.receive value
      if !st.actor.bootstrapped then
        let st := st.setMetadataWithConfirm sender publicKey
        let st ← st.depositWithConfirm sender value
        st.bootstrapSubnetIfNeeded
      else
        let st := st.setValidatorMetadata sender publicKey
        return st.deposit sender value

/-- `stake`: like `join`'s deposit, for a validator that has joined. -/
def stake (st : StakingState Address) (sender : Address) (value : Nat) :
    Except (Revert Address) (StakingState Address) := do
  st.actor.enforceCollateralValidation
  if value = 0 then .error .CollateralIsZero
  else if !st.actor.isValidator sender then .error (.MethodNotAllowed errValidatorNotJoined)
  else
    let st := st.receive value
    if !st.actor.bootstrapped then
      let st ← st.depositWithConfirm sender value
      st.bootstrapSubnetIfNeeded
    else return st.deposit sender value

/-- `unstake`: take back part of the collateral, at once before bootstrap. -/
def unstake (st : StakingState Address) (sender : Address) (amount : Nat) :
    Except (Revert Address) (StakingState Address) := do
  st.actor.enforceCollateralValidation
  if amount = 0 then .error .CannotReleaseZero
  else
    let collateral := (st.actor.validatorSet.validators sender).totalCollateral
    if collateral = 0 then .error (.NotValidator sender)
    else if collateral ≤ amount then .error .NotEnoughCollateral
    else if !st.actor.bootstrapped then st.withdrawWithConfirm sender amount
    else st.withdraw sender amount

/-- `leave`: take back all the collateral, and before bootstrap the genesis balance. Its
`s.genesisBalance[msg.sender] == 0;` is a comparison whose result is dropped: the balance is not
cleared. -/
def leave (st : StakingState Address) (sender : Address) :
    Except (Revert Address) (StakingState Address) := do
  if st.actor.bootstrapped then st.actor.enforceCollateralValidation
  let amount := (st.actor.validatorSet.validators sender).totalCollateral
  if amount = 0 then .error (.NotValidator sender)
  else if !st.actor.bootstrapped then
    let genesisBalance := st.actor.genesisBalance sender
    let st ←
      if genesisBalance ≠ 0 then
        if st.actor.genesisCircSupply < genesisBalance then .error (.Panic 0x11)
        else
          let st := { st with
            actor := { st.actor with
              genesisCircSupply := st.actor.genesisCircSupply - genesisBalance
              genesisBalanceKeys := rmAddressFromBalanceKey st.actor.genesisBalanceKeys sender } }
          st.sendValue sender genesisBalance
      else pure st
    st.withdrawWithConfirm sender amount
  else st.withdraw sender amount

/-- `SubnetActorRewardFacet.claim` at block `blockNumber`. -/
def claim (st : StakingState Address) (sender : Address) (blockNumber : Nat) :
    Except (Revert Address) (StakingState Address) :=
  st.claimCollateral sender blockNumber

/-! ## What the calls do -/

section Calls

variable {st st' : StakingState Address}

/-! ### Value transfers and the gateway -/

omit [Inhabited Address] in
/-- `sendValue` succeeds when the actor's balance covers the amount, and moves it to the
recipient. -/
theorem sendValue_eq_ok {recipient : Address} {amount : Nat} :
    st.sendValue recipient amount = .ok st' ↔ amount ≤ st.actor.balance ∧
      st' = { st with
        actor := { st.actor with balance := st.actor.balance - amount }
        received := Function.update st.received recipient (st.received recipient + amount) } := by
  unfold sendValue
  by_cases hlt : st.actor.balance < amount
  · rw [if_pos hlt]
    exact ⟨nofun, fun h => absurd h.1 (by omega)⟩
  · rw [if_neg hlt, Except.ok.injEq, eq_comm]
    exact ⟨fun h => ⟨by omega, h⟩, fun h => h.2⟩

omit [DecidableEq Address] [Inhabited Address] in
/-- `payGateway` succeeds when the actor's balance covers the value, and moves it to the
gateway. -/
theorem payGateway_eq_ok {value : Nat} :
    st.payGateway value = .ok st' ↔ value ≤ st.actor.balance ∧
      st' = { st with
        actor := { st.actor with balance := st.actor.balance - value }
        gateway := { st.gateway with balance := st.gateway.balance + value } } := by
  unfold payGateway
  by_cases hlt : st.actor.balance < value
  · rw [if_pos hlt]
    exact ⟨nofun, fun h => absurd h.1 (by omega)⟩
  · rw [if_neg hlt, Except.ok.injEq, eq_comm]
    exact ⟨fun h => ⟨by omega, h⟩, fun h => h.2⟩

omit [DecidableEq Address] [Inhabited Address] in
/-- `register` succeeds when the actor pays the value, the tree allows a child, the value covers
the genesis supply and the subnet is new; it records the rest of the value as the stake. -/
theorem register_eq_ok {value genesisCircSupply : Nat} :
    st.register value genesisCircSupply = .ok st' ↔
      value ≤ st.actor.balance ∧ st.gateway.routeLength + 1 < st.gateway.maxTreeDepth ∧
        genesisCircSupply ≤ value ∧ st.gateway.subnet = none ∧
        st' = { st with
          actor := { st.actor with balance := st.actor.balance - value }
          gateway := { st.gateway with
            balance := st.gateway.balance + value
            subnet := some ⟨value - genesisCircSupply, genesisCircSupply⟩ } } := by
  unfold register
  rw [Except.bind_eq_ok]
  constructor
  · rintro ⟨st₁, h₁, h₂⟩
    obtain ⟨hle, rfl⟩ := payGateway_eq_ok.1 h₁
    dsimp only at h₂
    split_ifs at h₂ with hdepth hsupply hsome
    rw [Except.ok.injEq] at h₂
    subst h₂
    refine ⟨hle, by omega, by omega, by simpa using hsome, rfl⟩
  · rintro ⟨hle, hdepth, hsupply, hnone, rfl⟩
    refine ⟨_, payGateway_eq_ok.2 ⟨hle, rfl⟩, ?_⟩
    dsimp only
    rw [if_neg (by omega), if_neg (by omega), if_neg (by simp [hnone])]

omit [DecidableEq Address] [Inhabited Address] in
/-- `addStake` succeeds when the actor pays a non-zero value for a registered subnet, which
gains the value as stake. -/
theorem addStake_eq_ok {value : Nat} :
    st.addStake value = .ok st' ↔ value ≤ st.actor.balance ∧ value ≠ 0 ∧
      ∃ subnet, st.gateway.subnet = some subnet ∧
        st' = { st with
          actor := { st.actor with balance := st.actor.balance - value }
          gateway := { st.gateway with
            balance := st.gateway.balance + value
            subnet := some { subnet with stake := subnet.stake + value } } } := by
  unfold addStake
  rw [Except.bind_eq_ok]
  constructor
  · rintro ⟨st₁, h₁, h₂⟩
    obtain ⟨hle, rfl⟩ := payGateway_eq_ok.1 h₁
    dsimp only at h₂
    split_ifs at h₂ with hzero
    split at h₂
    · cases h₂
    · rename_i subnet hsubnet
      rw [Except.ok.injEq] at h₂
      exact ⟨hle, hzero, subnet, hsubnet, h₂.symm⟩
  · rintro ⟨hle, hzero, subnet, hsubnet, rfl⟩
    refine ⟨_, payGateway_eq_ok.2 ⟨hle, rfl⟩, ?_⟩
    dsimp only
    rw [if_neg hzero, hsubnet]

omit [DecidableEq Address] [Inhabited Address] in
/-- `releaseStake` succeeds for a non-zero amount that the subnet's stake and the gateway's
balance cover, and sends it back to the actor. -/
theorem releaseStake_eq_ok {amount : Nat} :
    st.releaseStake amount = .ok st' ↔ amount ≠ 0 ∧
      ∃ subnet, st.gateway.subnet = some subnet ∧ amount ≤ subnet.stake ∧
        amount ≤ st.gateway.balance ∧
        st' = { st with
          gateway := { st.gateway with
            subnet := some { subnet with stake := subnet.stake - amount }
            balance := st.gateway.balance - amount }
          actor := { st.actor with balance := st.actor.balance + amount } } := by
  unfold releaseStake
  by_cases hzero : amount = 0
  · rw [if_pos hzero]
    exact ⟨nofun, fun h => absurd hzero h.1⟩
  rw [if_neg hzero]
  cases hsubnet : st.gateway.subnet with
  | none => exact ⟨nofun, fun ⟨_, _, hs, _⟩ => nomatch hs⟩
  | some subnet =>
    dsimp only
    by_cases hstake : subnet.stake < amount
    · rw [if_pos hstake]
      refine ⟨nofun, fun ⟨_, s, hs, hle, _⟩ => ?_⟩
      cases hs
      omega
    by_cases hbalance : st.gateway.balance < amount
    · rw [if_neg hstake, if_pos hbalance]
      exact ⟨nofun, fun ⟨_, _, _, _, hle, _⟩ => by omega⟩
    rw [if_neg hstake, if_neg hbalance, Except.ok.injEq, eq_comm]
    constructor
    · intro h
      exact ⟨hzero, subnet, rfl, by omega, by omega, h⟩
    · rintro ⟨-, s, hs, -, -, h⟩
      cases hs
      exact h

omit [DecidableEq Address] [Inhabited Address] in
/-- `bootstrapSubnetIfNeeded` leaves the actor as it was but for its flag and its balance. -/
theorem actor_bootstrapSubnetIfNeeded (h : st.bootstrapSubnetIfNeeded = .ok st') :
    ∃ bootstrapped balance, st'.actor = { st.actor with bootstrapped, balance } := by
  unfold bootstrapSubnetIfNeeded at h
  dsimp only at h
  split_ifs at h
  · obtain ⟨-, -, -, -, rfl⟩ := register_eq_ok.1 h
    exact ⟨_, _, rfl⟩
  · rw [Except.ok.injEq] at h
    subst h
    exact ⟨_, _, rfl⟩

/-! ### The calls of `LibStaking` -/

/-- `depositWithConfirm` succeeds when the validator set confirms the recorded deposit; before
bootstrap it appends a validator not yet in the genesis list, with its confirmed collateral. -/
theorem depositWithConfirm_eq_ok {validator : Address} {amount : Nat} :
    st.depositWithConfirm validator amount = .ok st' ↔
      ∃ validatorSet,
        (st.actor.validatorSet.recordDeposit validator amount).confirmDeposit validator amount =
          .ok validatorSet ∧
        st' = { st with
          actor := { st.actor with
            validatorSet
            genesisValidators :=
              if !st.actor.bootstrapped && !st.actor.genesisValidators.any (·.addr == validator) then
                st.actor.genesisValidators ++
                  [⟨(validatorSet.validators validator).confirmedCollateral, validator,
                    (validatorSet.validators validator).metadata⟩]
              else st.actor.genesisValidators } } := by
  unfold depositWithConfirm
  rw [Except.bind_eq_ok]
  refine exists_congr fun validatorSet => and_congr_right fun _ => ?_
  cases hb : st.actor.bootstrapped <;> cases hg : st.actor.genesisValidators.any (·.addr == validator)
  all_goals simp [hb, hg, eq_comm]

/-- `withdrawWithConfirm` succeeds when the validator set records and confirms the withdrawal
and the actor can pay it; the validator receives the amount. -/
theorem withdrawWithConfirm_eq_ok {validator : Address} {amount : Nat} :
    st.withdrawWithConfirm validator amount = .ok st' ↔
      ∃ validatorSet₁ validatorSet,
        st.actor.validatorSet.recordWithdraw validator amount = .ok validatorSet₁ ∧
        validatorSet₁.confirmWithdraw validator amount = .ok validatorSet ∧
        amount ≤ st.actor.balance ∧
        st' = { st with
          actor := { st.actor with validatorSet, balance := st.actor.balance - amount }
          received := Function.update st.received validator (st.received validator + amount) } := by
  unfold withdrawWithConfirm
  simp only [Except.bind_eq_ok, sendValue_eq_ok]
  constructor
  · rintro ⟨validatorSet₁, h₁, validatorSet, h₂, hle, rfl⟩
    exact ⟨validatorSet₁, validatorSet, h₁, h₂, hle, rfl⟩
  · rintro ⟨validatorSet₁, validatorSet, h₁, h₂, hle, rfl⟩
    exact ⟨validatorSet₁, h₁, validatorSet, h₂, hle, rfl⟩

/-- `setFederatedPowerWithConfirm` succeeds when the validator set confirms the power. -/
theorem setFederatedPowerWithConfirm_eq_ok {validator : Address} {power : Nat} :
    st.setFederatedPowerWithConfirm validator power = .ok st' ↔
      ∃ validatorSet,
        st.actor.validatorSet.confirmFederatedPower validator power = .ok validatorSet ∧
        st' = { st with actor := { st.actor with validatorSet } } := by
  unfold setFederatedPowerWithConfirm
  rw [Except.bind_eq_ok]
  refine exists_congr fun validatorSet => and_congr_right fun _ => ?_
  rw [Except.pure_eq_ok, Except.ok.injEq, eq_comm]

omit [Inhabited Address] in
/-- `withdraw` succeeds when the validator set records the withdrawal, which the change log
then holds. -/
theorem withdraw_eq_ok {validator : Address} {amount : Nat} :
    st.withdraw validator amount = .ok st' ↔
      ∃ validatorSet, st.actor.validatorSet.recordWithdraw validator amount = .ok validatorSet ∧
        st' = { st with
          actor := { st.actor with
            changeSet := st.actor.changeSet.withdrawRequest validator amount
            validatorSet } } := by
  unfold withdraw
  rw [Except.bind_eq_ok]
  refine exists_congr fun validatorSet => and_congr_right fun _ => ?_
  rw [Except.pure_eq_ok, Except.ok.injEq, eq_comm]

omit [Inhabited Address] in
/-- `claimCollateral` succeeds when the release queue pays the validator and the actor's balance
covers the payment. -/
theorem claimCollateral_eq_ok {validator : Address} {blockNumber : Nat} :
    st.claimCollateral validator blockNumber = .ok st' ↔
      ∃ claimed, st.actor.releaseQueue.claim validator blockNumber = .ok claimed ∧
        claimed.2 ≤ st.actor.balance ∧
        st' = { st with
          actor := { st.actor with releaseQueue := claimed.1, balance := st.actor.balance - claimed.2 }
          received := Function.update st.received validator (st.received validator + claimed.2) } := by
  unfold claimCollateral
  rw [Except.bind_eq_ok]
  exact exists_congr fun claimed => and_congr_right fun _ => sendValue_eq_ok

/-- A confirmed change applies to the validator set; what it then does with the collateral
writes only the release queue and the actor's balance. -/
theorem confirmChangeStep_eq_ok {blockNumber : Nat} {change : StakingChange Address}
    (h : confirmChangeStep blockNumber st change = .ok st') :
    ∃ validatorSet, st.actor.validatorSet.applyChange change = .ok validatorSet ∧
      ∃ releaseQueue balance,
        st'.actor = { st.actor with validatorSet, releaseQueue, balance } := by
  unfold confirmChangeStep at h
  obtain ⟨validatorSet, happly, h⟩ := Except.bind_eq_ok.1 h
  refine ⟨validatorSet, happly, ?_⟩
  dsimp only at h
  split at h
  · -- A withdrawal is released, and the gateway sends the stake back.
    obtain ⟨releaseQueue, -, h⟩ := Except.bind_eq_ok.1 h
    obtain ⟨-, -, -, -, -, rfl⟩ := releaseStake_eq_ok.1 h
    exact ⟨releaseQueue, _, rfl⟩
  · -- A deposit is sent to the gateway.
    obtain ⟨-, -, -, -, rfl⟩ := addStake_eq_ok.1 h
    exact ⟨_, _, rfl⟩
  · rw [Except.pure_eq_ok, Except.ok.injEq] at h
    subst h
    exact ⟨_, _, rfl⟩
  · rw [Except.pure_eq_ok, Except.ok.injEq] at h
    subst h
    exact ⟨_, _, rfl⟩

/-- `confirmChange` succeeds when the confirmation of the change log does, and stores the log it
leaves. -/
theorem confirmChange_eq_ok {configurationNumber blockNumber : Nat}
    (h : st.confirmChange configurationNumber blockNumber = .ok st') :
    ∃ r, StakingChangeLog.confirmChanges (confirmChangeStep blockNumber) st.actor.changeSet st
        configurationNumber = .ok r ∧
      st' = { r.2 with actor := { r.2.actor with changeSet := r.1 } } := by
  unfold confirmChange at h
  obtain ⟨r, hr, h⟩ := Except.bind_eq_ok.1 h
  rw [Except.pure_eq_ok, Except.ok.injEq] at h
  exact ⟨r, hr, h.symm⟩

/-! ### The loops of `LibSubnetActor` -/

/-- What every validator's step keeps, the loop of `preBootstrapSetFederatedPower` keeps: the
step writes the metadata, confirms the power, and appends the genesis entry. -/
theorem preBootstrapLoop_invariant (I : StakingState Address → Prop)
    (hstep : ∀ (st st₁ : StakingState Address) validator publicKey power, I st →
      (st.setMetadataWithConfirm validator publicKey).setFederatedPowerWithConfirm validator power =
        .ok st₁ →
      I { st₁ with
        actor := { st₁.actor with
          genesisValidators := st₁.actor.genesisValidators ++ [⟨power, validator, publicKey⟩] } })
    {entries : List (Address × List UInt8 × Nat)} (hst : I st)
    (h : st.preBootstrapLoop addressOfKey entries = .ok st') : I st' := by
  induction entries generalizing st with
  | nil =>
    rw [preBootstrapLoop, Except.ok.injEq] at h
    exact h ▸ hst
  | cons entry rest ih =>
    obtain ⟨validator, publicKey, power⟩ := entry
    rw [preBootstrapLoop, Except.bind_eq_ok] at h
    obtain ⟨convertedAddress, -, h⟩ := h
    split_ifs at h
    rw [Except.bind_eq_ok] at h
    obtain ⟨st₁, h₁, h₂⟩ := h
    exact ih (hstep _ _ _ _ _ hst h₁) h₂

/-- The loop of `preBootstrapSetFederatedPower` writes the validators' metadata, powers and
genesis entries only: the gateway, the actor's balance and flag, the genesis supply and the
confirmed collateral stay. -/
theorem preBootstrapLoop_frame {entries : List (Address × List UInt8 × Nat)}
    (h : st.preBootstrapLoop addressOfKey entries = .ok st') :
    st'.gateway = st.gateway ∧ st'.actor.balance = st.actor.balance ∧
      st'.actor.bootstrapped = st.actor.bootstrapped ∧
      st'.actor.genesisCircSupply = st.actor.genesisCircSupply ∧
      st'.actor.validatorSet.totalConfirmedCollateral =
        st.actor.validatorSet.totalConfirmedCollateral := by
  refine preBootstrapLoop_invariant addressOfKey
    (fun s => s.gateway = st.gateway ∧ s.actor.balance = st.actor.balance ∧
      s.actor.bootstrapped = st.actor.bootstrapped ∧
      s.actor.genesisCircSupply = st.actor.genesisCircSupply ∧
      s.actor.validatorSet.totalConfirmedCollateral =
        st.actor.validatorSet.totalConfirmedCollateral)
    (fun s s₁ validator publicKey power hs h₁ => ?_) ⟨rfl, rfl, rfl, rfl, rfl⟩ h
  -- A validator's step confirms its power, which leaves the confirmed collateral.
  obtain ⟨validatorSet, hconfirm, rfl⟩ := setFederatedPowerWithConfirm_eq_ok.1 h₁
  obtain ⟨-, -, htotal, -⟩ := ValidatorSet.confirmFederatedPower_info hconfirm
  obtain ⟨hgateway, hbalance, hbootstrapped, hsupply, htotal'⟩ := hs
  exact ⟨hgateway, hbalance, hbootstrapped, hsupply, htotal.trans htotal'⟩

omit [Inhabited Address] in
/-- The loop of `postBootstrapSetFederatedPower` only records changes. -/
theorem postBootstrapLoop_changeSet {entries : List (Address × List UInt8 × Nat)}
    (h : st.postBootstrapLoop addressOfKey entries = .ok st') :
    ∃ changeSet, st' = { st with actor := { st.actor with changeSet } } := by
  -- Induction on the entries, one recorded change at a time.
  induction entries generalizing st with
  | nil =>
    rw [postBootstrapLoop, Except.ok.injEq] at h
    exact ⟨st.actor.changeSet, h.symm⟩
  | cons entry rest ih =>
    obtain ⟨validator, publicKey, power⟩ := entry
    rw [postBootstrapLoop, Except.bind_eq_ok] at h
    obtain ⟨convertedAddress, -, h⟩ := h
    split_ifs at h
    obtain ⟨changeSet, rfl⟩ := ih h
    exact ⟨changeSet, rfl⟩

/-- `preBootstrapSetFederatedPower` succeeds for more validators than the minimum when its loop
succeeds and the subnet then registers with the genesis supply. -/
theorem preBootstrapSetFederatedPower_eq_ok {validators : List Address}
    {publicKeys : List (List UInt8)} {powers : List Nat}
    (h : st.preBootstrapSetFederatedPower addressOfKey validators publicKeys powers = .ok st') :
    st.actor.minValidators < validators.length ∧
      ∃ st₁, st.preBootstrapLoop addressOfKey (validators.zip (publicKeys.zip powers)) = .ok st₁ ∧
        { st₁ with actor := { st₁.actor with bootstrapped := true } }.register
          st₁.actor.genesisCircSupply st₁.actor.genesisCircSupply = .ok st' := by
  unfold preBootstrapSetFederatedPower at h
  split_ifs at h with hmin
  exact ⟨by omega, Except.bind_eq_ok.1 h⟩

/-- `preBootstrapSetFederatedPower` bootstraps the subnet and registers it with the genesis supply
alone: the gateway's stake is zero, whatever collateral the validator set has confirmed. -/
theorem stake_preBootstrapSetFederatedPower {validators : List Address}
    {publicKeys : List (List UInt8)} {powers : List Nat}
    (h : st.preBootstrapSetFederatedPower addressOfKey validators publicKeys powers = .ok st') :
    st'.actor.bootstrapped = true ∧ st'.gateway.subnet = some ⟨0, st.actor.genesisCircSupply⟩ ∧
      st'.actor.validatorSet.totalConfirmedCollateral =
        st.actor.validatorSet.totalConfirmedCollateral := by
  obtain ⟨-, st₁, hloop, h⟩ := preBootstrapSetFederatedPower_eq_ok addressOfKey h
  obtain ⟨-, -, -, hsupply, htotal⟩ := preBootstrapLoop_frame addressOfKey hloop
  obtain ⟨-, -, -, -, rfl⟩ := register_eq_ok.1 h
  exact ⟨rfl, by simp [hsupply], htotal⟩

/-! ### The facets -/

/-- The owner's `setFederatedPower` succeeds in federated mode for lists of one length: before
bootstrap it sets the genesis powers, after it records the changes. -/
theorem setFederatedPowerFacet_eq_ok {sender : Address} {validators : List Address}
    {publicKeys : List (List UInt8)} {powers : List Nat}
    (h : st.setFederatedPowerFacet addressOfKey sender validators publicKeys powers = .ok st') :
    sender = st.actor.owner ∧ st.actor.validatorSet.permissionMode = .Federated ∧
      validators.length = powers.length ∧ validators.length = publicKeys.length ∧
      (st.actor.bootstrapped = false ∧
          st.preBootstrapSetFederatedPower addressOfKey validators publicKeys powers = .ok st' ∨
        st.actor.bootstrapped = true ∧
          st.postBootstrapSetFederatedPower addressOfKey validators publicKeys powers = .ok st') := by
  unfold setFederatedPowerFacet at h
  split_ifs at h with howner hpowers hkeys hboot
  all_goals obtain ⟨_, hmode, h⟩ := Except.bind_eq_ok.1 h
  · cases h
  · cases h
  · exact ⟨not_not.1 howner, SubnetActor.enforceFederatedValidation_eq_ok.1 hmode,
      not_not.1 hpowers, not_not.1 hkeys, .inr ⟨hboot, h⟩⟩
  · exact ⟨not_not.1 howner, SubnetActor.enforceFederatedValidation_eq_ok.1 hmode,
      not_not.1 hpowers, not_not.1 hkeys, .inl ⟨by simpa using hboot, h⟩⟩

/-- Before bootstrap, the owner's `setFederatedPower` registers the subnet with a stake of zero,
whatever collateral the validator set has confirmed. -/
theorem stake_setFederatedPowerFacet {sender : Address} {validators : List Address}
    {publicKeys : List (List UInt8)} {powers : List Nat} (hboot : st.actor.bootstrapped = false)
    (h : st.setFederatedPowerFacet addressOfKey sender validators publicKeys powers = .ok st') :
    st'.actor.bootstrapped = true ∧ st'.gateway.subnet = some ⟨0, st.actor.genesisCircSupply⟩ ∧
      st'.actor.validatorSet.totalConfirmedCollateral =
        st.actor.validatorSet.totalConfirmedCollateral := by
  obtain ⟨-, -, -, -, ⟨-, h⟩ | ⟨hboot', -⟩⟩ := setFederatedPowerFacet_eq_ok addressOfKey h
  · exact stake_preBootstrapSetFederatedPower addressOfKey h
  · rw [hboot] at hboot'
    cases hboot'

/-- A federated subnet with three active places that needs two validators: validator 1 joins with
10, which does not bootstrap it, and the owner sets three validators' powers to 1, which does. The
gateway registers the subnet with a stake of 0, and the validator set has confirmed 10. -/
theorem federated_bootstrap_stake_differs :
    let run : Except (Revert Nat) (StakingState Nat) := do
      let addressOfKey : List UInt8 → Nat := fun publicKey => (publicKey.getLastD 0).toNat
      let actor ← SubnetActor.create 9 .Federated 3 0 0 2
      let st ← StakingState.join addressOfKey ⟨actor, ⟨0, 2, 0, none⟩, fun _ => 0⟩ 1 10
        (List.replicate 65 1)
      StakingState.setFederatedPowerFacet addressOfKey st 9 [2, 3, 4]
        [List.replicate 65 2, List.replicate 65 3, List.replicate 65 4] [1, 1, 1]
    (run.map fun st => (st.actor.bootstrapped, st.gateway.subnet.map (·.stake),
        st.actor.validatorSet.totalConfirmedCollateral)) = .ok (true, some 0, 10) := by
  intro run
  let addressOfKey : List UInt8 → Nat := fun publicKey => (publicKey.getLastD 0).toNat
  -- validator 1's join confirms its 10 and does not bootstrap the subnet
  have hjoined : ((do
      let actor ← SubnetActor.create 9 .Federated 3 0 0 2
      StakingState.join addressOfKey ⟨actor, ⟨0, 2, 0, none⟩, fun _ => 0⟩ 1 10
        (List.replicate 65 1)).map fun st : StakingState Nat =>
      (st.actor.bootstrapped, st.actor.validatorSet.totalConfirmedCollateral)) = .ok (false, 10) := by
    decide +kernel
  have hrun : (run.map fun _ => ()) = .ok () := by decide +kernel
  obtain ⟨st', hst', -⟩ := Except.map_eq_ok.1 hrun
  obtain ⟨actor, hcreate, hst'⟩ := Except.bind_eq_ok.1 hst'
  obtain ⟨st, hjoin, hset⟩ := Except.bind_eq_ok.1 hst'
  rw [hcreate, Except.ok_bind, hjoin, Except.ok_map, Except.ok.injEq, Prod.mk.injEq] at hjoined
  obtain ⟨hboot, hcollateral⟩ := hjoined
  -- the owner's setFederatedPower then registers the subnet with a stake of zero
  obtain ⟨hboot', hsubnet, hcollateral'⟩ := stake_setFederatedPowerFacet addressOfKey hboot hset
  show ((do let actor ← SubnetActor.create 9 .Federated 3 0 0 2; _).map _) = _
  rw [hcreate, Except.ok_bind, hjoin, Except.ok_bind, hset, Except.ok_map, hboot', hsubnet,
    hcollateral', hcollateral]
  rfl

omit [Inhabited Address] in
/-- `preFund` succeeds before bootstrap for a non-zero value, which joins the sender's genesis
balance and the supply; a sender with no balance yet becomes a key. -/
theorem preFund_eq_ok {sender : Address} {value : Nat} :
    st.preFund sender value = .ok st' ↔ value ≠ 0 ∧ st.actor.bootstrapped = false ∧
      st' = { st with
        actor := { st.actor with
          balance := st.actor.balance + value
          genesisBalanceKeys :=
            if st.actor.genesisBalance sender = 0 then st.actor.genesisBalanceKeys ++ [sender]
            else st.actor.genesisBalanceKeys
          genesisBalance :=
            Function.update st.actor.genesisBalance sender (st.actor.genesisBalance sender + value)
          genesisCircSupply := st.actor.genesisCircSupply + value } } := by
  unfold preFund
  by_cases hzero : value = 0
  · rw [if_pos hzero]
    exact ⟨nofun, fun h => absurd hzero h.1⟩
  rw [if_neg hzero]
  cases hboot : st.actor.bootstrapped
  · rw [if_neg Bool.false_ne_true, Except.ok.injEq, eq_comm]
    exact ⟨fun h => ⟨hzero, rfl, h⟩, fun h => h.2.2⟩
  · exact ⟨nofun, fun h => nomatch h.2.1⟩

omit [Inhabited Address] in
/-- `preRelease` succeeds before bootstrap for a non-zero amount that the sender's genesis
balance, the supply and the actor's balance cover; a sender left with no balance stops being a
key. -/
theorem preRelease_eq_ok {sender : Address} {amount : Nat} :
    st.preRelease sender amount = .ok st' ↔ amount ≠ 0 ∧ st.actor.bootstrapped = false ∧
      amount ≤ st.actor.genesisBalance sender ∧ amount ≤ st.actor.genesisCircSupply ∧
      amount ≤ st.actor.balance ∧
      st' = { st with
        actor := { st.actor with
          genesisBalance :=
            Function.update st.actor.genesisBalance sender (st.actor.genesisBalance sender - amount)
          genesisCircSupply := st.actor.genesisCircSupply - amount
          genesisBalanceKeys :=
            if st.actor.genesisBalance sender - amount = 0 then
              rmAddressFromBalanceKey st.actor.genesisBalanceKeys sender
            else st.actor.genesisBalanceKeys
          balance := st.actor.balance - amount }
        received := Function.update st.received sender (st.received sender + amount) } := by
  unfold preRelease
  by_cases hzero : amount = 0
  · rw [if_pos hzero]
    exact ⟨nofun, fun h => absurd hzero h.1⟩
  rw [if_neg hzero]
  cases hboot : st.actor.bootstrapped
  swap
  · exact ⟨nofun, fun h => nomatch h.2.1⟩
  rw [if_neg Bool.false_ne_true]
  by_cases hbalance : st.actor.genesisBalance sender < amount
  · rw [if_pos hbalance]
    exact ⟨nofun, fun h => absurd h.2.2.1 (by omega)⟩
  rw [if_neg hbalance]
  by_cases hsupply : st.actor.genesisCircSupply < amount
  · rw [if_pos hsupply]
    exact ⟨nofun, fun h => absurd h.2.2.2.1 (by omega)⟩
  rw [if_neg hsupply, sendValue_eq_ok]
  exact ⟨fun ⟨hle, h⟩ => ⟨hzero, rfl, by omega, by omega, hle, h⟩,
    fun ⟨_, _, _, _, hle, h⟩ => ⟨hle, h⟩⟩

/-- Before bootstrap, a join succeeds when its checks pass, the deposit is confirmed and the
bootstrap check passes. -/
theorem join_eq_ok_of_not_bootstrapped {sender : Address} {value : Nat} {publicKey : List UInt8}
    (hboot : st.actor.bootstrapped = false)
    (h : st.join addressOfKey sender value publicKey = .ok st') :
    value ≠ 0 ∧ st.actor.isValidator sender = false ∧
      publicKey.length = validatorSecp256k1PublicKeyLength ∧ addressOfKey publicKey = sender ∧
      ∃ st₁, ((st.receive value).setMetadataWithConfirm sender publicKey).depositWithConfirm sender
          value = .ok st₁ ∧ st₁.bootstrapSubnetIfNeeded = .ok st' := by
  unfold join at h
  -- A call's value does not bootstrap the subnet.
  have hflag : (!(st.receive value).actor.bootstrapped) = true := by simp [receive, hboot]
  simp only [hboot, Bool.false_eq_true, if_false, hflag, if_true] at h
  split_ifs at h with hvalue hvalid hlen
  rw [Except.bind_eq_ok] at h
  obtain ⟨convertedAddress, hconvert, h⟩ := h
  rw [publicKeyToAddress, if_neg hlen, Except.ok.injEq] at hconvert
  subst hconvert
  by_cases hne : addressOfKey publicKey = sender
  · rw [if_neg (not_not.2 hne)] at h
    exact ⟨hvalue, by simpa using hvalid, by simpa using hlen, hne, Except.bind_eq_ok.1 h⟩
  · rw [if_pos hne] at h
    cases h

/-- After bootstrap, a join succeeds in collateral mode when its checks pass, and records the
metadata and the deposit. -/
theorem join_eq_ok_of_bootstrapped {sender : Address} {value : Nat} {publicKey : List UInt8}
    (hboot : st.actor.bootstrapped = true)
    (h : st.join addressOfKey sender value publicKey = .ok st') :
    st.actor.validatorSet.permissionMode = .Collateral ∧ value ≠ 0 ∧
      st.actor.isValidator sender = false ∧
      publicKey.length = validatorSecp256k1PublicKeyLength ∧ addressOfKey publicKey = sender ∧
      st' = ((st.receive value).setValidatorMetadata sender publicKey).deposit sender value := by
  unfold join at h
  rw [if_pos hboot, Except.bind_eq_ok] at h
  obtain ⟨_, hmode, h⟩ := h
  have hcollateral := SubnetActor.enforceCollateralValidation_eq_ok.1 hmode
  have hflag : (!(st.receive value).actor.bootstrapped) = false := by simp [receive, hboot]
  simp only [hflag, Bool.false_eq_true, if_false] at h
  split_ifs at h with hvalue hvalid hlen
  rw [Except.bind_eq_ok] at h
  obtain ⟨convertedAddress, hconvert, h⟩ := h
  rw [publicKeyToAddress, if_neg hlen, Except.ok.injEq] at hconvert
  subst hconvert
  by_cases hne : addressOfKey publicKey = sender
  · rw [if_neg (not_not.2 hne), Except.pure_eq_ok, Except.ok.injEq] at h
    exact ⟨hcollateral, hvalue, by simpa using hvalid, by simpa using hlen, hne, h.symm⟩
  · rw [if_pos hne] at h
    cases h

/-- Before bootstrap in federated mode, a join confirms the deposit: the validator enters the
active queue while the queue has room, with the federated power it had, which the deposit does
not change. -/
theorem join_federated_active {sender : Address} {value : Nat} {publicKey : List UInt8}
    (hw : st.actor.validatorSet.Wf) (hboot : st.actor.bootstrapped = false)
    (hmode : st.actor.validatorSet.permissionMode = .Federated)
    (hroom : st.actor.validatorSet.activeValidators.getSize < st.actor.validatorSet.activeLimit)
    (h : st.join addressOfKey sender value publicKey = .ok st') :
    st'.actor.validatorSet.activeValidators.contains sender = true ∧
      st'.actor.validatorSet.getPower sender = st.actor.validatorSet.getPower sender := by
  obtain ⟨-, -, -, -, st₁, hdeposit, hbootstrap⟩ :=
    join_eq_ok_of_not_bootstrapped addressOfKey hboot h
  obtain ⟨validatorSet, hconfirm, rfl⟩ := depositWithConfirm_eq_ok.1 hdeposit
  obtain ⟨bootstrapped, balance, hactor⟩ := actor_bootstrapSubnetIfNeeded hbootstrap
  rw [hactor]
  have hw₁ := (hw.setMetadata sender publicKey).recordDeposit sender value
  refine ⟨ValidatorSet.contains_confirmDeposit hw₁ hconfirm (.inr hroom), ?_⟩
  have hmode₁ : ((st.actor.validatorSet.setMetadata sender publicKey).recordDeposit sender
      value).permissionMode = .Federated := hmode
  rw [ValidatorSet.getPower_confirmDeposit hconfirm]
  simp [setMetadataWithConfirm, receive, hmode₁]

/-- A federated subnet with room for one active validator and two needed to bootstrap: validator 1
joins with 10 before bootstrap. It is an active validator whose power is zero. -/
theorem federated_join_active_without_power :
    let run : Except (Revert Nat) (StakingState Nat) := do
      let addressOfKey : List UInt8 → Nat := fun publicKey => (publicKey.getLastD 0).toNat
      let actor ← SubnetActor.create 9 .Federated 1 0 0 2
      StakingState.join addressOfKey ⟨actor, ⟨0, 2, 0, none⟩, fun _ => 0⟩ 1 10
        (List.replicate 65 1)
    (run.map fun st => (st.actor.validatorSet.activeValidators.contains 1,
        st.actor.validatorSet.getPower 1)) = .ok (true, 0) := by
  intro run
  let addressOfKey : List UInt8 → Nat := fun publicKey => (publicKey.getLastD 0).toNat
  have hrun : (run.map fun _ => ()) = .ok () := by decide +kernel
  obtain ⟨st', hst', -⟩ := Except.map_eq_ok.1 hrun
  obtain ⟨actor, hcreate, hjoin⟩ := Except.bind_eq_ok.1 hst'
  -- the new actor has an empty validator set with one active place, and is not bootstrapped
  obtain rfl := (Except.ok.inj hcreate).symm
  obtain ⟨hactive, hpower⟩ := join_federated_active addressOfKey
    (ValidatorSet.wf_empty .Federated 1) rfl rfl (by decide) hjoin
  rw [hst', Except.ok_map, hactive, hpower]
  rfl

/-- Before bootstrap, a stake succeeds in collateral mode when its checks pass, the deposit is
confirmed and the bootstrap check passes. -/
theorem stake_eq_ok_of_not_bootstrapped {sender : Address} {value : Nat}
    (hboot : st.actor.bootstrapped = false) (h : st.stake sender value = .ok st') :
    st.actor.validatorSet.permissionMode = .Collateral ∧ value ≠ 0 ∧
      st.actor.isValidator sender = true ∧
      ∃ st₁, (st.receive value).depositWithConfirm sender value = .ok st₁ ∧
        st₁.bootstrapSubnetIfNeeded = .ok st' := by
  unfold stake at h
  rw [Except.bind_eq_ok] at h
  obtain ⟨_, hmode, h⟩ := h
  have hcollateral : st.actor.validatorSet.permissionMode = .Collateral := by
    by_contra hne
    rw [SubnetActor.enforceCollateralValidation, if_pos hne] at hmode
    cases hmode
  have hflag : (!(st.receive value).actor.bootstrapped) = true := by simp [receive, hboot]
  simp only [hflag, if_true] at h
  split_ifs at h with hvalue hvalid
  exact ⟨hcollateral, hvalue, by simpa using hvalid, Except.bind_eq_ok.1 h⟩

/-- After bootstrap, a stake succeeds in collateral mode for a validator, and records the
deposit. -/
theorem stake_eq_ok_of_bootstrapped {sender : Address} {value : Nat}
    (hboot : st.actor.bootstrapped = true) (h : st.stake sender value = .ok st') :
    st.actor.validatorSet.permissionMode = .Collateral ∧ value ≠ 0 ∧
      st.actor.isValidator sender = true ∧ st' = (st.receive value).deposit sender value := by
  unfold stake at h
  rw [Except.bind_eq_ok] at h
  obtain ⟨_, hmode, h⟩ := h
  have hcollateral := SubnetActor.enforceCollateralValidation_eq_ok.1 hmode
  have hflag : (!(st.receive value).actor.bootstrapped) = false := by simp [receive, hboot]
  simp only [hflag, Bool.false_eq_true, if_false] at h
  split_ifs at h with hvalue hvalid
  rw [Except.pure_eq_ok, Except.ok.injEq] at h
  exact ⟨hcollateral, hvalue, by simpa using hvalid, h.symm⟩

/-- Before bootstrap, a validator of the genesis list that stakes more keeps its genesis weight,
while its power grows by the stake. -/
theorem stake_keeps_genesisValidators {sender : Address} {value : Nat}
    (hboot : st.actor.bootstrapped = false)
    (hgenesis : st.actor.genesisValidators.any (·.addr == sender) = true)
    (h : st.stake sender value = .ok st') :
    st'.actor.genesisValidators = st.actor.genesisValidators ∧
      st'.actor.validatorSet.getPower sender = st.actor.validatorSet.getPower sender + value := by
  obtain ⟨hmode, -, -, st₁, hdeposit, hbootstrap⟩ := stake_eq_ok_of_not_bootstrapped hboot h
  obtain ⟨validatorSet, hconfirm, rfl⟩ := depositWithConfirm_eq_ok.1 hdeposit
  obtain ⟨bootstrapped, balance, hactor⟩ := actor_bootstrapSubnetIfNeeded hbootstrap
  have hmode₁ : (st.actor.validatorSet.recordDeposit sender value).permissionMode = .Collateral :=
    hmode
  rw [hactor]
  refine ⟨by simp [receive, hgenesis], ?_⟩
  rw [ValidatorSet.getPower_confirmDeposit hconfirm]
  simp [receive, hmode₁]

/-- A collateral subnet that needs a collateral of 10 and one validator: validator 1 joins with 5,
which does not bootstrap it, and stakes 5 more, which does. The subnet bootstraps with validator 1
active at power 10, and its genesis validators give validator 1 the weight 5 of its join. -/
theorem bootstrap_genesis_weight_differs :
    let run : Except (Revert Nat) (StakingState Nat) := do
      let addressOfKey : List UInt8 → Nat := fun publicKey => (publicKey.getLastD 0).toNat
      let actor ← SubnetActor.create 9 .Collateral 2 0 10 1
      let st ← StakingState.join addressOfKey ⟨actor, ⟨0, 2, 0, none⟩, fun _ => 0⟩ 1 5
        (List.replicate 65 1)
      StakingState.stake st 1 5
    (run.map fun st => (st.actor.bootstrapped,
        st.actor.genesisValidators.map fun v => (v.addr, v.weight),
        (st.actor.validatorSet.listActiveValidators.map fun a =>
          (a, st.actor.validatorSet.getPower a)))) =
      .ok (true, [(1, 5)], [(1, 10)]) := by
  intro run
  let addressOfKey : List UInt8 → Nat := fun publicKey => (publicKey.getLastD 0).toNat
  -- validator 1's join makes it a genesis validator of weight 5 and does not bootstrap the subnet
  have hjoined : ((do
      let actor ← SubnetActor.create 9 .Collateral 2 0 10 1
      StakingState.join addressOfKey ⟨actor, ⟨0, 2, 0, none⟩, fun _ => 0⟩ 1 5
        (List.replicate 65 1)).map fun st : StakingState Nat =>
      (st.actor.bootstrapped, st.actor.genesisValidators.any (·.addr == 1),
        st.actor.genesisValidators.map fun v : Validator Nat => (v.addr, v.weight),
        st.actor.validatorSet.getPower 1)) = .ok (false, true, [(1, 5)], 5) := by
    decide +kernel
  -- the stake bootstraps the subnet, with validator 1 its one active validator
  have hrun : (run.map fun st =>
      (st.actor.bootstrapped, st.actor.validatorSet.listActiveValidators)) = .ok (true, [1]) := by
    decide +kernel
  obtain ⟨st', hst', hfinal⟩ := Except.map_eq_ok.1 hrun
  obtain ⟨actor, hcreate, hrest⟩ := Except.bind_eq_ok.1 hst'
  obtain ⟨st, hjoin, hstake⟩ := Except.bind_eq_ok.1 hrest
  rw [hcreate, Except.ok_bind, hjoin, Except.ok_map] at hjoined
  simp only [Except.ok.injEq, Prod.mk.injEq] at hjoined hfinal
  obtain ⟨hboot, hgenesis, hweights, hpower⟩ := hjoined
  -- the stake raises the power to 10 and leaves the genesis weight at 5
  obtain ⟨hgenesis', hpower'⟩ := stake_keeps_genesisValidators hboot hgenesis hstake
  rw [hst', Except.ok_map, hfinal.1, hfinal.2, hgenesis', hweights, List.map_singleton, hpower',
    hpower]

/-- `unstake` succeeds in collateral mode for a non-zero amount below the sender's collateral:
confirmed and paid at once before bootstrap, recorded after. -/
theorem unstake_eq_ok {sender : Address} {amount : Nat} (h : st.unstake sender amount = .ok st') :
    st.actor.validatorSet.permissionMode = .Collateral ∧ amount ≠ 0 ∧
      amount < (st.actor.validatorSet.validators sender).totalCollateral ∧
      (st.actor.bootstrapped = false ∧ st.withdrawWithConfirm sender amount = .ok st' ∨
        st.actor.bootstrapped = true ∧ st.withdraw sender amount = .ok st') := by
  unfold unstake at h
  rw [Except.bind_eq_ok] at h
  obtain ⟨_, hmode, h⟩ := h
  have hcollateral := SubnetActor.enforceCollateralValidation_eq_ok.1 hmode
  dsimp only at h
  split_ifs at h with hzero hnone hle hboot
  · exact ⟨hcollateral, hzero, by omega, .inl ⟨by simpa using hboot, h⟩⟩
  · exact ⟨hcollateral, hzero, by omega, .inr ⟨by simpa using hboot, h⟩⟩

/-- Before bootstrap, `leave` succeeds for a validator when the refund of its genesis balance,
if it has one, and then the confirmed withdrawal of all its collateral succeed. The refund takes
the balance out of the supply and the keys. -/
theorem leave_eq_ok_of_not_bootstrapped {sender : Address} (hboot : st.actor.bootstrapped = false)
    (h : st.leave sender = .ok st') :
    (st.actor.validatorSet.validators sender).totalCollateral ≠ 0 ∧
      ∃ st₁, (st.actor.genesisBalance sender = 0 ∧ st₁ = st ∨
          st.actor.genesisBalance sender ≠ 0 ∧
          st.actor.genesisBalance sender ≤ st.actor.genesisCircSupply ∧
          { st with
            actor := { st.actor with
              genesisCircSupply := st.actor.genesisCircSupply - st.actor.genesisBalance sender
              genesisBalanceKeys := rmAddressFromBalanceKey st.actor.genesisBalanceKeys sender } }.sendValue
            sender (st.actor.genesisBalance sender) = .ok st₁) ∧
        st₁.withdrawWithConfirm sender (st.actor.validatorSet.validators sender).totalCollateral =
          .ok st' := by
  unfold leave at h
  have hflag : (!st.actor.bootstrapped) = true := by simp [hboot]
  rw [if_neg (by simp [hboot])] at h
  simp only [Except.pure_eq_ok, Except.ok_bind, hflag, if_true] at h
  split_ifs at h with hamount hbalance hsupply
  · rw [Except.error_bind] at h
    cases h
  · -- The genesis balance is paid first.
    obtain ⟨st₁, h₁, h₂⟩ := Except.bind_eq_ok.1 h
    exact ⟨hamount, st₁, .inr ⟨hbalance, by omega, h₁⟩, h₂⟩
  · exact ⟨hamount, st, .inl ⟨not_not.1 hbalance, rfl⟩, h⟩

/-- After bootstrap, `leave` succeeds in collateral mode for a validator, and records the
withdrawal of all its collateral. -/
theorem leave_eq_ok_of_bootstrapped {sender : Address} (hboot : st.actor.bootstrapped = true)
    (h : st.leave sender = .ok st') :
    st.actor.validatorSet.permissionMode = .Collateral ∧
      (st.actor.validatorSet.validators sender).totalCollateral ≠ 0 ∧
      st.withdraw sender (st.actor.validatorSet.validators sender).totalCollateral = .ok st' := by
  unfold leave at h
  rw [if_pos hboot, Except.bind_eq_ok] at h
  obtain ⟨_, hmode, h⟩ := h
  have hcollateral := SubnetActor.enforceCollateralValidation_eq_ok.1 hmode
  simp only [hboot, Bool.not_true, Bool.false_eq_true, if_false] at h
  split_ifs at h with hzero
  exact ⟨hcollateral, hzero, h⟩

/-- Before bootstrap, `leave` pays the validator its genesis balance and its collateral, and
takes the balance out of the genesis supply and the keys, but leaves the balance itself as it
was. -/
theorem leave_keeps_genesisBalance {sender : Address} (hboot : st.actor.bootstrapped = false)
    (h : st.leave sender = .ok st') :
    st'.actor.genesisBalance = st.actor.genesisBalance ∧
      st'.actor.genesisCircSupply = st.actor.genesisCircSupply - st.actor.genesisBalance sender ∧
      st'.actor.genesisBalanceKeys =
        (if st.actor.genesisBalance sender = 0 then st.actor.genesisBalanceKeys
        else rmAddressFromBalanceKey st.actor.genesisBalanceKeys sender) ∧
      st'.received sender = st.received sender + st.actor.genesisBalance sender +
        (st.actor.validatorSet.validators sender).totalCollateral := by
  obtain ⟨-, st₁, hrefund, hwithdraw⟩ := leave_eq_ok_of_not_bootstrapped hboot h
  obtain ⟨-, -, -, -, -, rfl⟩ := withdrawWithConfirm_eq_ok.1 hwithdraw
  rcases hrefund with ⟨hzero, rfl⟩ | ⟨hbalance, -, hrefund⟩
  · -- No genesis balance: only the collateral is paid.
    exact ⟨rfl, by simp [hzero], by simp [hzero], by simp [hzero]⟩
  · -- The genesis balance is paid first, then the collateral.
    obtain ⟨-, rfl⟩ := sendValue_eq_ok.1 hrefund
    refine ⟨rfl, rfl, by simp [hbalance], ?_⟩
    simp only [Function.update_self]

/-- A collateral subnet that needs a collateral of 100: addresses 1 and 2 fund 5 each, 1 joins
with 10, leaves, and releases 5 of its genesis funds. Address 1, which put in 15, has received
20: the genesis balance of 5 that `leave` paid back and left in place, the release took again. The
genesis supply is then 0 while address 2's balance of 5 is still in the keys. -/
theorem leave_refunds_genesis_balance_twice :
    let run : Except (Revert Nat) (StakingState Nat) := do
      let addressOfKey : List UInt8 → Nat := fun publicKey => (publicKey.getLastD 0).toNat
      let actor ← SubnetActor.create 9 .Collateral 1 0 100 1
      let st ← StakingState.preFund ⟨actor, ⟨0, 2, 0, none⟩, fun _ => 0⟩ 1 5
      let st ← StakingState.preFund st 2 5
      let st ← StakingState.join addressOfKey st 1 10 (List.replicate 65 1)
      let st ← StakingState.leave st 1
      StakingState.preRelease st 1 5
    (run.map fun st => (st.received 1, st.actor.genesisCircSupply,
        st.actor.genesisBalanceKeys.map fun a => (a, st.actor.genesisBalance a),
        st.actor.genesisBalance 1)) = .ok (20, 0, [(2, 5)], 0) := by
  intro run
  let addressOfKey : List UInt8 → Nat := fun publicKey => (publicKey.getLastD 0).toNat
  -- addresses 1 and 2 fund 5 each, and 1 joins with 10, which does not bootstrap the subnet
  have hfunded : ((do
      let actor ← SubnetActor.create 9 .Collateral 1 0 100 1
      let st ← StakingState.preFund ⟨actor, ⟨0, 2, 0, none⟩, fun _ => 0⟩ 1 5
      let st ← StakingState.preFund st 2 5
      StakingState.join addressOfKey st 1 10 (List.replicate 65 1)).map fun st : StakingState Nat =>
      ((st.actor.bootstrapped, st.actor.genesisBalance 1, st.actor.genesisBalance 2,
        st.actor.genesisCircSupply), st.actor.genesisBalanceKeys, st.received 1,
        (st.actor.validatorSet.validators 1).totalCollateral)) =
      .ok ((false, 5, 5, 10), [1, 2], 0, 10) := by
    decide +kernel
  have hrun : (run.map fun _ => ()) = .ok () := by decide +kernel
  obtain ⟨st', hst', -⟩ := Except.map_eq_ok.1 hrun
  obtain ⟨actor, hcreate, h⟩ := Except.bind_eq_ok.1 hst'
  obtain ⟨st₁, hfund₁, h⟩ := Except.bind_eq_ok.1 h
  obtain ⟨st₂, hfund₂, h⟩ := Except.bind_eq_ok.1 h
  obtain ⟨st₃, hjoin, h⟩ := Except.bind_eq_ok.1 h
  obtain ⟨st₄, hleave, hrelease⟩ := Except.bind_eq_ok.1 h
  rw [hcreate, Except.ok_bind, hfund₁, Except.ok_bind, hfund₂, Except.ok_bind, hjoin,
    Except.ok_map] at hfunded
  simp only [Except.ok.injEq, Prod.mk.injEq] at hfunded
  obtain ⟨⟨hboot, hbalance₁, hbalance₂, hsupply⟩, hkeys, hreceived, hcollateral⟩ := hfunded
  -- leave pays back the balance of 5 and the collateral of 10, and leaves the balance in place
  obtain ⟨hbalance, hsupply', hkeys', hreceived'⟩ := leave_keeps_genesisBalance hboot hleave
  -- so the release of 5 goes through, and pays the 5 once more
  obtain ⟨-, -, -, -, -, rfl⟩ := preRelease_eq_ok.1 hrelease
  have hrm : rmAddressFromBalanceKey [1, 2] 1 = [2] ∧ rmAddressFromBalanceKey [2] 1 = [2] := by
    decide
  rw [hst', Except.ok_map]
  simp [hbalance, hsupply', hkeys', hreceived', hbalance₁, hbalance₂, hsupply, hkeys, hreceived,
    hcollateral, hrm]

end Calls

end StakingState

end Delorean.Staking
