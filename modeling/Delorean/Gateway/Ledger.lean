import Mathlib.Data.List.AList
import Delorean.Lib.Except
import Delorean.Gateway.Envelope

/-!
# The gateway's value flows

The gateway of a subnet commits the cross-net messages leaving it and applies those arriving.
Committing a top-down message to a child adds its value to the child's `circSupply`
(`commitTopDownMsg`); committing a bottom-up message appends it to the batches for the parent
(`commitBottomUpMsg`), and the callers that hold the value burn it (`release`,
`sendContractXnetMessage`, `propagate`). Applying a bottom-up batch from a child first takes its
total from the child's `circSupply` (`execBottomUpMsgs`); in the child, fendermint mints the
total of a top-down batch to the gateway before applying it (`execute_topdown_msgs`). A message
that fails, or arrives with the wrong nonce, is answered by a receipt that carries its value
back (`sendReceipt`, `createResultMsg`).

What the gateway reads from other contracts and from the ABI is a parameter (`Env`): the supply
kind of a subnet actor, the hash of an envelope, the encodings of a result and of an error, and
whether a message decodes as a `CallMsg`. What a recipient does with a delivered message is a
parameter of the operations that deliver (`execute`). Balances are not modelled; the value a
gateway burns is the total it sent to `BURNT_FUNDS_ACTOR`. The bottom-up batches are one list in
commit order, the top-down messages the `NewTopDownMessage` events with their subnets.
-/

namespace Delorean.Gateway

/-- A subnet registered in the gateway, with the fields the value flows read. -/
structure Subnet (Address : Type) where
  id : SubnetID Address
  circSupply : Nat
  topDownNonce : Nat
  appliedBottomUpNonce : Nat
  deriving DecidableEq, Repr

/-- The gateway's storage that the value flows read and write. -/
structure GatewayState (Address Hash : Type) where
  networkName : SubnetID Address
  appliedTopDownNonce : Nat
  bottomUpNonce : Nat
  subnets : List (Subnet Address)
  postbox : AList fun _ : Hash => IpcEnvelope Address
  /-- The `NewTopDownMessage` events: the child subnet and the committed message. -/
  topDownMsgs : List (SubnetID Address × IpcEnvelope Address)
  /-- The messages of the bottom-up batches, in commit order. -/
  bottomUpMsgs : List (IpcEnvelope Address)
  /-- The value sent to `BURNT_FUNDS_ACTOR`. -/
  burnt : Nat
  generalPurposeCrossMsg : Bool
  multiLevelCrossMsg : Bool

/-- What the gateway reads from other contracts and from the ABI encoder. -/
structure Env (Address Hash : Type) where
  /-- The kind of `SubnetActorGetterFacet(subnet.getActor()).supplySource()`. -/
  supplyKind : SubnetID Address → SupplyKind
  /-- `toHash`, the postbox's key. -/
  toHash : IpcEnvelope Address → Hash
  /-- `abi.encode(ResultMsg(toHash(crossMsg), outcome, ret))`. -/
  abiEncodeResult : IpcEnvelope Address → OutcomeType → List UInt8 → List UInt8
  /-- `abi.encodeWithSelector(InvalidXnetMessage.selector, reason)`. -/
  invalidXnetMessageData : InvalidXnetMessageReason → List UInt8
  /-- Whether `abi.decode(message, (CallMsg))` succeeds. -/
  decodesCallMsg : List UInt8 → Bool

namespace GatewayState

variable {Address Hash : Type} [DecidableEq Address]

/-- `getSubnet`: the registered subnet with this id. -/
def getSubnet (s : GatewayState Address Hash) (subnetId : SubnetID Address) :
    Option (Subnet Address) :=
  s.subnets.find? fun sn => decide (sn.id = subnetId)

/-- Write the storage of the subnet with this id. -/
def updateSubnet (s : GatewayState Address Hash) (subnetId : SubnetID Address)
    (f : Subnet Address → Subnet Address) : GatewayState Address Hash :=
  { s with subnets := s.subnets.map fun sn => if sn.id = subnetId then f sn else sn }

/-- An update of the subnet `subnetId` that keeps its id is seen at that id, and nowhere else. -/
theorem getSubnet_updateSubnet (s : GatewayState Address Hash) {subnetId : SubnetID Address}
    {f : Subnet Address → Subnet Address} (hf : ∀ sn, (f sn).id = sn.id) (id : SubnetID Address) :
    (s.updateSubnet subnetId f).getSubnet id =
      (s.getSubnet id).map fun sn => if sn.id = subnetId then f sn else sn := by
  have hkeep : ∀ sn : Subnet Address, (if sn.id = subnetId then f sn else sn).id = sn.id := by
    intro sn
    split_ifs <;> simp [hf]
  simp only [getSubnet, updateSubnet, List.find?_map]
  congr 2
  funext sn
  simp [hkeep]

@[simp]
theorem networkName_updateSubnet (s : GatewayState Address Hash) (subnetId : SubnetID Address)
    (f : Subnet Address → Subnet Address) :
    (s.updateSubnet subnetId f).networkName = s.networkName := rfl

@[simp]
theorem postbox_updateSubnet (s : GatewayState Address Hash) (subnetId : SubnetID Address)
    (f : Subnet Address → Subnet Address) : (s.updateSubnet subnetId f).postbox = s.postbox := rfl

@[simp]
theorem topDownMsgs_updateSubnet (s : GatewayState Address Hash) (subnetId : SubnetID Address)
    (f : Subnet Address → Subnet Address) :
    (s.updateSubnet subnetId f).topDownMsgs = s.topDownMsgs := rfl

@[simp]
theorem bottomUpMsgs_updateSubnet (s : GatewayState Address Hash) (subnetId : SubnetID Address)
    (f : Subnet Address → Subnet Address) :
    (s.updateSubnet subnetId f).bottomUpMsgs = s.bottomUpMsgs := rfl

@[simp]
theorem burnt_updateSubnet (s : GatewayState Address Hash) (subnetId : SubnetID Address)
    (f : Subnet Address → Subnet Address) : (s.updateSubnet subnetId f).burnt = s.burnt := rfl

theorem id_of_getSubnet {s : GatewayState Address Hash} {subnetId : SubnetID Address}
    {subnet : Subnet Address} (h : s.getSubnet subnetId = some subnet) : subnet.id = subnetId := by
  simpa using List.find?_some h

/-- The messages of the `NewTopDownMessage` events for one child. -/
def topDownMsgsFor (s : GatewayState Address Hash) (subnetId : SubnetID Address) :
    List (IpcEnvelope Address) :=
  (s.topDownMsgs.filter fun e => decide (e.1 = subnetId)).map Prod.snd

/-- The circulating supply the gateway records for a child; zero for one not registered. -/
def circOf (s : GatewayState Address Hash) (subnetId : SubnetID Address) : Nat :=
  ((s.getSubnet subnetId).map Subnet.circSupply).getD 0

@[simp]
theorem topDownMsgsFor_updateSubnet (s : GatewayState Address Hash) (subnetId id : SubnetID Address)
    (f : Subnet Address → Subnet Address) :
    (s.updateSubnet subnetId f).topDownMsgsFor id = s.topDownMsgsFor id := rfl

theorem topDownMsgsFor_append (s : GatewayState Address Hash) (d id : SubnetID Address)
    (m : IpcEnvelope Address) :
    { s with topDownMsgs := s.topDownMsgs ++ [(d, m)] }.topDownMsgsFor id =
      s.topDownMsgsFor id ++ if d = id then [m] else [] := by
  by_cases h : d = id <;> simp [topDownMsgsFor, h]

theorem isSome_getSubnet_updateSubnet (s : GatewayState Address Hash) {subnetId : SubnetID Address}
    {f : Subnet Address → Subnet Address} (hf : ∀ sn, (f sn).id = sn.id) (id : SubnetID Address) :
    ((s.updateSubnet subnetId f).getSubnet id).isSome = (s.getSubnet id).isSome := by
  simp [getSubnet_updateSubnet s hf]

/-- The supply recorded for the updated subnet is the update's. -/
theorem circOf_updateSubnet_self (s : GatewayState Address Hash) {subnetId : SubnetID Address}
    {f : Subnet Address → Subnet Address} (hf : ∀ sn, (f sn).id = sn.id) :
    (s.updateSubnet subnetId f).circOf subnetId =
      ((s.getSubnet subnetId).map fun sn => (f sn).circSupply).getD 0 := by
  rw [circOf, getSubnet_updateSubnet s hf]
  cases hsub : s.getSubnet subnetId with
  | none => rfl
  | some sn => simp [id_of_getSubnet hsub]

end GatewayState

/-- The total value of a list of messages. -/
def totalValue {Address : Type} (msgs : List (IpcEnvelope Address)) : Nat :=
  (msgs.map IpcEnvelope.value).sum

@[simp]
theorem totalValue_nil {Address : Type} : totalValue ([] : List (IpcEnvelope Address)) = 0 := rfl

@[simp]
theorem totalValue_append {Address : Type} (l l' : List (IpcEnvelope Address)) :
    totalValue (l ++ l') = totalValue l + totalValue l' := by
  simp [totalValue]

@[simp]
theorem totalValue_cons {Address : Type} (m : IpcEnvelope Address) (l : List (IpcEnvelope Address)) :
    totalValue (m :: l) = m.value + totalValue l := by
  simp [totalValue]

section Ops

variable {Address Hash : Type} [DecidableEq Address] [DecidableEq Hash] (env : Env Address Hash)

open GatewayState

/-- `commitTopDownMsg`: stamp the message with the child's top-down nonce, add its value to the
child's circulating supply and emit it. The child is the next subnet down towards the
destination. -/
def commitTopDownMsg (s : GatewayState Address Hash) (crossMessage : IpcEnvelope Address) :
    Except Revert (GatewayState Address Hash × IpcEnvelope Address) := do
  let subnetId ← crossMessage.to_.subnetId.down s.networkName
  match s.getSubnet subnetId with
  | none => throw .NotRegisteredSubnet
  | some subnet =>
    let crossMessage := { crossMessage with nonce := subnet.topDownNonce }
    let s := s.updateSubnet subnetId fun sn =>
      { sn with topDownNonce := subnet.topDownNonce + 1,
                circSupply := sn.circSupply + crossMessage.value }
    pure ({ s with topDownMsgs := s.topDownMsgs ++ [(subnetId, crossMessage)] }, crossMessage)

/-- `commitBottomUpMsg`: stamp the message with the bottom-up nonce and add it to the batches. -/
def commitBottomUpMsg (s : GatewayState Address Hash) (crossMessage : IpcEnvelope Address) :
    GatewayState Address Hash × IpcEnvelope Address :=
  let crossMessage := { crossMessage with nonce := s.bottomUpNonce }
  ({ s with bottomUpNonce := s.bottomUpNonce + 1, bottomUpMsgs := s.bottomUpMsgs ++ [crossMessage] },
    crossMessage)

/-- `commitCrossMessage`: refuse an empty destination and the gateway's own subnet, refuse a
`Transfer` that would enter or leave a subnet with an ERC20 supply at this hop, then commit the
message top-down when it goes down or this subnet is the common parent, and bottom-up otherwise.
The result says whether the caller should burn the value: for a bottom-up message with value. -/
def commitCrossMessage (s : GatewayState Address Hash) (crossMessage : IpcEnvelope Address) :
    Except Revert (GatewayState Address Hash × IpcEnvelope Address × Bool) := do
  let to_ := crossMessage.to_.subnetId
  if to_.isEmpty then throw (.InvalidXnetMessage .DstSubnet)
  if to_.equals s.networkName then throw .CannotSendCrossMsgToItself
  let from_ := crossMessage.from_.subnetId
  let applyType := crossMessage.applyType s.networkName
  let isLCA := (to_.commonParent from_).equals s.networkName
  let reject ← match applyType with
    | .BottomUp => do
      let parent ← from_.getParentSubnet
      pure (parent.equals s.networkName && env.supplyKind from_ == .ERC20)
    | .TopDown => do
      let next ← to_.down s.networkName
      pure (env.supplyKind next == .ERC20)
  if reject && crossMessage.kind == .Transfer then
    throw (.MethodNotAllowed
      "propagation of `Transfer` messages not suppported for subnets with ERC20 supply")
  if applyType == .TopDown || isLCA then
    let (s, crossMessage) ← commitTopDownMsg
      { s with appliedTopDownNonce := s.appliedTopDownNonce + 1 } crossMessage
    pure (s, crossMessage, false)
  else
    let (s, crossMessage) := commitBottomUpMsg s crossMessage
    pure (s, crossMessage, crossMessage.value != 0)

/-- `crossMsgSideEffects`: burn the value if asked. -/
def crossMsgSideEffects (s : GatewayState Address Hash) (v : Nat) (shouldBurn : Bool) :
    GatewayState Address Hash :=
  if shouldBurn then { s with burnt := s.burnt + v } else s

/-- `sendReceipt`: commit the receipt of a message that is neither empty nor itself a receipt.
The burn flag that `commitCrossMessage` returns is dropped. -/
def sendReceipt (s : GatewayState Address Hash) (original : IpcEnvelope Address)
    (outcomeType : OutcomeType) (ret : List UInt8) : Except Revert (GatewayState Address Hash) :=
  if original.isEmpty then pure s
  else if original.kind = .Result then pure s
  else do
    let (s, _, _) ← commitCrossMessage env s (createResultMsg env.abiEncodeResult original outcomeType ret)
    pure s

variable (execute : IpcEnvelope Address → SupplyKind → Bool × List UInt8)

/-- `executeCrossMsg`: the delegate call to `CrossMsgHelper.execute`, whose revert on an empty
envelope it catches. What the recipient does is `execute`. -/
def executeCrossMsg (crossMsg : IpcEnvelope Address) (supplySource : SupplyKind) :
    Bool × List UInt8 :=
  if crossMsg.isEmpty then (false, []) else execute crossMsg supplySource

/-- The end of `applyMsg`, once the nonce is taken: a message for another subnet goes to the
postbox, one for this subnet is executed and answered with a receipt. -/
def deliverMsg (s : GatewayState Address Hash) (crossMsg : IpcEnvelope Address)
    (supplySource : SupplyKind) : Except Revert (GatewayState Address Hash) :=
  if crossMsg.to_.subnetId ≠ s.networkName then
    pure { s with postbox := s.postbox.insert (env.toHash crossMsg) crossMsg }
  else
    let (success, ret) := executeCrossMsg execute crossMsg supplySource
    sendReceipt env s crossMsg (if success then .Ok else .ActorErr) ret

/-- `applyMsg`: a bottom-up message needs its child registered and its nonce next, a top-down one
the gateway's nonce next; a message that fails either check is answered with a `SystemErr`
receipt. The value was minted or taken from the child's supply before. -/
def applyMsg (s : GatewayState Address Hash) (arrivingFrom : SubnetID Address)
    (crossMsg : IpcEnvelope Address) : Except Revert (GatewayState Address Hash) :=
  if crossMsg.to_.subnetId.isEmpty then
    sendReceipt env s crossMsg .SystemErr (env.invalidXnetMessageData .DstSubnet)
  else
    match crossMsg.applyType s.networkName with
    | .BottomUp =>
      match s.getSubnet arrivingFrom with
      | none => pure s
      | some subnet =>
        if subnet.appliedBottomUpNonce ≠ crossMsg.nonce then
          sendReceipt env s crossMsg .SystemErr (env.invalidXnetMessageData .Nonce)
        else
          deliverMsg env execute
            (s.updateSubnet arrivingFrom fun sn =>
              { sn with appliedBottomUpNonce := sn.appliedBottomUpNonce + 1 })
            crossMsg (env.supplyKind subnet.id)
    | .TopDown =>
      if s.appliedTopDownNonce ≠ crossMsg.nonce then
        sendReceipt env s crossMsg .SystemErr (env.invalidXnetMessageData .Nonce)
      else
        deliverMsg env execute { s with appliedTopDownNonce := s.appliedTopDownNonce + 1 }
          crossMsg .Native

/-- `applyMessages`: apply the messages in order. -/
def applyMessages (arrivingFrom : SubnetID Address) :
    GatewayState Address Hash → List (IpcEnvelope Address) → Except Revert (GatewayState Address Hash)
  | s, [] => pure s
  | s, crossMsg :: crossMsgs => do
    let s ← applyMsg env execute s arrivingFrom crossMsg
    applyMessages arrivingFrom s crossMsgs

/-- `execBottomUpMsgs`: take the batch's total from the child's circulating supply, which must
cover it, then apply the messages. -/
def execBottomUpMsgs (s : GatewayState Address Hash) (msgs : List (IpcEnvelope Address))
    (subnet : Subnet Address) : Except Revert (GatewayState Address Hash) := do
  let totalAmount := totalValue msgs
  if subnet.circSupply < totalAmount then throw .NotEnoughSubnetCircSupply
  let s := s.updateSubnet subnet.id fun sn => { sn with circSupply := sn.circSupply - totalAmount }
  applyMessages env execute subnet.id s msgs

/-- `tokens_to_mint`: the total value of a top-down batch. -/
def tokensToMint (msgs : List (IpcEnvelope Address)) : Nat := totalValue msgs

/-- `execute_topdown_msgs` of fendermint, on the child's gateway and circulating supply: mint the
batch's total to the gateway and the supply, then have the gateway apply the messages as coming
from its parent (`applyCrossMessages`). -/
def executeTopdownMsgs (s : GatewayState Address Hash) (circ_supply : Nat)
    (messages : List (IpcEnvelope Address)) : Except Revert (GatewayState Address Hash × Nat) := do
  let minted_tokens := tokensToMint messages
  let circ_supply := if minted_tokens ≠ 0 then circ_supply + minted_tokens else circ_supply
  let parent ← s.networkName.getParentSubnet
  let s ← applyMessages env execute parent s messages
  pure (s, circ_supply)

section Spec

variable {s : GatewayState Address Hash} {m : IpcEnvelope Address}

omit [DecidableEq Hash] in
/-- The one way `commitTopDownMsg` succeeds: the next subnet down is registered, and it gets the
message with its nonce and the message's value. -/
theorem commitTopDownMsg_eq_ok {s' : GatewayState Address Hash} {m' : IpcEnvelope Address}
    (h : commitTopDownMsg s m = .ok (s', m')) :
    ∃ subnetId subnet, m.to_.subnetId.down s.networkName = .ok subnetId ∧
      s.getSubnet subnetId = some subnet ∧ m' = { m with nonce := subnet.topDownNonce } ∧
      s' = { s.updateSubnet subnetId (fun sn =>
          { sn with topDownNonce := subnet.topDownNonce + 1, circSupply := sn.circSupply + m.value })
        with topDownMsgs := s.topDownMsgs ++ [(subnetId, m')] } := by
  simp only [commitTopDownMsg, Except.bind_eq_ok] at h
  obtain ⟨subnetId, hdown, h⟩ := h
  cases hsub : s.getSubnet subnetId with
  | none =>
    rw [hsub] at h
    cases h
  | some subnet =>
    rw [hsub] at h
    simp only [Except.pure_eq_ok, Except.ok.injEq, Prod.mk.injEq] at h
    obtain ⟨rfl, rfl⟩ := h
    exact ⟨subnetId, subnet, hdown, hsub, rfl, rfl⟩

omit [DecidableEq Hash] in
/-- The last step of `commitCrossMessage`, once the message has passed its checks: the commit in
the direction the flag says, top-down with nothing to burn or bottom-up burning what it carries;
the flag decides `P`. -/
theorem commitCrossMessage_commit_eq_ok {s' : GatewayState Address Hash} {m' : IpcEnvelope Address}
    {shouldBurn : Bool} {P : Prop} (topDown : Bool) (htopDown : topDown = true ↔ P)
    (h : (if topDown = true then (do
        let r ← commitTopDownMsg { s with appliedTopDownNonce := s.appliedTopDownNonce + 1 } m
        pure (r.1, r.2, false))
      else pure ((commitBottomUpMsg s m).1, (commitBottomUpMsg s m).2,
        (commitBottomUpMsg s m).2.value != 0)) = .ok (s', m', shouldBurn)) :
    (P ∧ commitTopDownMsg { s with appliedTopDownNonce := s.appliedTopDownNonce + 1 } m =
          .ok (s', m') ∧ shouldBurn = false) ∨
      (¬P ∧ commitBottomUpMsg s m = (s', m') ∧ shouldBurn = (m'.value != 0)) := by
  cases topDown with
  | true =>
    rw [if_pos rfl] at h
    obtain ⟨⟨s₁, m₁⟩, hcommit, hret⟩ := Except.bind_eq_ok.1 h
    simp only [Except.pure_eq_ok, Except.ok.injEq, Prod.mk.injEq] at hret
    obtain ⟨rfl, rfl, rfl⟩ := hret
    exact .inl ⟨htopDown.1 rfl, hcommit, rfl⟩
  | false =>
    rw [if_neg Bool.false_ne_true] at h
    simp only [Except.pure_eq_ok, Except.ok.injEq, Prod.mk.injEq] at h
    obtain ⟨rfl, rfl, rfl⟩ := h
    exact .inr ⟨fun hP => Bool.false_ne_true (htopDown.2 hP), rfl, rfl⟩

omit [DecidableEq Hash] in
/-- The two ways `commitCrossMessage` succeeds: when the message goes down or the gateway's
subnet is the common parent, the top-down commit, after the gateway's own top-down nonce is
bumped, with nothing to burn; otherwise the bottom-up commit, burning what it carries. -/
theorem commitCrossMessage_eq_ok {s' : GatewayState Address Hash} {m' : IpcEnvelope Address}
    {shouldBurn : Bool} (h : commitCrossMessage env s m = .ok (s', m', shouldBurn)) :
    ((m.applyType s.networkName = .TopDown ∨
          m.to_.subnetId.commonParent m.from_.subnetId = s.networkName) ∧
        commitTopDownMsg { s with appliedTopDownNonce := s.appliedTopDownNonce + 1 } m =
          .ok (s', m') ∧ shouldBurn = false) ∨
      (¬(m.applyType s.networkName = .TopDown ∨
          m.to_.subnetId.commonParent m.from_.subnetId = s.networkName) ∧
        commitBottomUpMsg s m = (s', m') ∧ shouldBurn = (m'.value != 0)) := by
  unfold commitCrossMessage at h
  dsimp only at h
  -- past the refusals of an empty destination and of the gateway's own subnet
  simp only [Except.guard_eq_ok] at h
  obtain ⟨-, -, h⟩ := h
  have hdir : (m.applyType s.networkName == .TopDown ||
      (m.to_.subnetId.commonParent m.from_.subnetId).equals s.networkName) = true ↔
      (m.applyType s.networkName = .TopDown ∨
        m.to_.subnetId.commonParent m.from_.subnetId = s.networkName) := by
    simp only [Bool.or_eq_true, beq_iff_eq, SubnetID.equals_iff]
  -- the supply check depends on the direction; either way it refuses the message or passes it
  -- on to the same commit
  split at h
  · -- bottom-up: the source's parent decides
    obtain ⟨_, -, h⟩ := Except.bind_eq_ok.1 h
    rw [pure_bind, Except.guard_eq_ok] at h
    exact commitCrossMessage_commit_eq_ok _ hdir h.2
  · -- top-down: the next subnet down decides
    obtain ⟨_, -, h⟩ := Except.bind_eq_ok.1 h
    rw [pure_bind, Except.guard_eq_ok] at h
    exact commitCrossMessage_commit_eq_ok _ hdir h.2

omit [DecidableEq Hash] in
/-- A receipt is sent for a message that is neither empty nor a receipt, and committed as
`commitCrossMessage` commits it; whether to burn is not looked at. -/
theorem sendReceipt_eq_ok {s' : GatewayState Address Hash} {outcomeType : OutcomeType}
    {ret : List UInt8} (h : sendReceipt env s m outcomeType ret = .ok s') :
    (s' = s ∧ (m.isEmpty = true ∨ m.kind = .Result)) ∨
      (m.isEmpty = false ∧ m.kind ≠ .Result ∧ ∃ m' shouldBurn,
        commitCrossMessage env s (createResultMsg env.abiEncodeResult m outcomeType ret) =
          .ok (s', m', shouldBurn)) := by
  unfold sendReceipt at h
  by_cases hempty : m.isEmpty = true
  · rw [if_pos hempty, Except.pure_eq_ok, Except.ok.injEq] at h
    exact .inl ⟨h.symm, .inl hempty⟩
  · rw [if_neg hempty] at h
    by_cases hres : m.kind = .Result
    · rw [if_pos hres, Except.pure_eq_ok, Except.ok.injEq] at h
      exact .inl ⟨h.symm, .inr hres⟩
    · rw [if_neg hres, Except.bind_eq_ok] at h
      obtain ⟨⟨s'', m', shouldBurn⟩, hcommit, hpure⟩ := h
      dsimp only at hpure
      rw [Except.pure_eq_ok, Except.ok.injEq] at hpure
      subst hpure
      exact .inr ⟨by simpa using hempty, hres, m', shouldBurn, hcommit⟩

/-- A message for this subnet is executed, and answered with a receipt of the outcome. -/
theorem deliverMsg_of_to_self {supplySource : SupplyKind} (hto : m.to_.subnetId = s.networkName) :
    deliverMsg env execute s m supplySource =
      sendReceipt env s m (if (executeCrossMsg execute m supplySource).1 then .Ok else .ActorErr)
        (executeCrossMsg execute m supplySource).2 := by
  rw [deliverMsg, if_neg (not_not.mpr hto)]

/-- The run rule of `applyMessages`: a reflexive and transitive relation that each applied
message establishes holds across the whole batch. The induction is on the batch; `I` is what a
message's step needs of the state and gives back. -/
theorem applyMessages_rel {arrivingFrom : SubnetID Address}
    {R : GatewayState Address Hash → GatewayState Address Hash → Prop}
    {I : GatewayState Address Hash → Prop} {Q : IpcEnvelope Address → Prop}
    (hrefl : ∀ s, R s s) (htrans : ∀ {s₁ s₂ s₃}, R s₁ s₂ → R s₂ s₃ → R s₁ s₃)
    (hstep : ∀ {s s' m}, I s → Q m → applyMsg env execute s arrivingFrom m = .ok s' →
      R s s' ∧ I s') :
    ∀ {s s' : GatewayState Address Hash} (msgs : List (IpcEnvelope Address)), I s →
      (∀ m ∈ msgs, Q m) → applyMessages env execute arrivingFrom s msgs = .ok s' → R s s'
  | s, s', [], _, _, h => by
    rw [applyMessages, Except.pure_eq_ok, Except.ok.injEq] at h
    subst h
    exact hrefl s
  | s, s', m :: msgs, hinv, hmsgs, h => by
    rw [applyMessages, Except.bind_eq_ok] at h
    obtain ⟨s₁, hm, hrest⟩ := h
    obtain ⟨h₁, hinv₁⟩ := hstep hinv (hmsgs m List.mem_cons_self) hm
    exact htrans h₁ (applyMessages_rel hrefl htrans hstep msgs hinv₁
      (fun m' hm' => hmsgs m' (List.mem_cons_of_mem _ hm')) hrest)

/-- A bottom-up batch is executed when the child's supply covers its total, which leaves the
supply first. -/
theorem execBottomUpMsgs_eq_ok {s' : GatewayState Address Hash} {msgs : List (IpcEnvelope Address)}
    {subnet : Subnet Address} (h : execBottomUpMsgs env execute s msgs subnet = .ok s') :
    totalValue msgs ≤ subnet.circSupply ∧
      applyMessages env execute subnet.id (s.updateSubnet subnet.id fun sn =>
        { sn with circSupply := sn.circSupply - totalValue msgs }) msgs = .ok s' := by
  unfold execBottomUpMsgs at h
  dsimp only at h
  split_ifs at h with hlt
  · cases h
  · exact ⟨Nat.le_of_not_lt hlt, h⟩

/-- A top-down batch mints its total, and the gateway applies it as coming from its parent. -/
theorem executeTopdownMsgs_eq_ok {s' : GatewayState Address Hash} {circ_supply circ_supply' : Nat}
    {msgs : List (IpcEnvelope Address)}
    (h : executeTopdownMsgs env execute s circ_supply msgs = .ok (s', circ_supply')) :
    circ_supply' = circ_supply + totalValue msgs ∧ ∃ parent,
      s.networkName.getParentSubnet = .ok parent ∧ applyMessages env execute parent s msgs = .ok s' := by
  simp only [executeTopdownMsgs, Except.bind_eq_ok, Except.pure_eq_ok, Except.ok.injEq,
    Prod.mk.injEq] at h
  obtain ⟨parent, hparent, s₁, happly, rfl, rfl⟩ := h
  refine ⟨?_, parent, hparent, happly⟩
  -- Minting nothing leaves the supply as it is either way.
  unfold tokensToMint
  split_ifs with h0
  · rfl
  · rw [not_not.mp h0, Nat.add_zero]

end Spec

section Frame

/-! No operation of the value flows renames the gateway's subnet, so the parent a top-down batch
is applied from stays the same from batch to batch. -/

variable {s s' : GatewayState Address Hash} {m : IpcEnvelope Address}

omit [DecidableEq Hash] in
theorem networkName_commitTopDownMsg {m' : IpcEnvelope Address}
    (h : commitTopDownMsg s m = .ok (s', m')) : s'.networkName = s.networkName := by
  obtain ⟨subnetId, subnet, -, -, -, rfl⟩ := commitTopDownMsg_eq_ok h
  rfl

omit [DecidableEq Hash] in
theorem networkName_commitCrossMessage {m' : IpcEnvelope Address} {shouldBurn : Bool}
    (h : commitCrossMessage env s m = .ok (s', m', shouldBurn)) : s'.networkName = s.networkName := by
  rcases commitCrossMessage_eq_ok env h with ⟨-, hdown, -⟩ | ⟨-, hup, -⟩
  · have hname := networkName_commitTopDownMsg hdown
    exact hname
  · have hs : (commitBottomUpMsg s m).1 = s' := congrArg Prod.fst hup
    rw [← hs]
    rfl

omit [DecidableEq Hash] in
theorem networkName_sendReceipt {outcomeType : OutcomeType} {ret : List UInt8}
    (h : sendReceipt env s m outcomeType ret = .ok s') : s'.networkName = s.networkName := by
  rcases sendReceipt_eq_ok env h with ⟨rfl, -⟩ | ⟨-, -, m'', shouldBurn, hcommit⟩
  · rfl
  · exact networkName_commitCrossMessage env hcommit

theorem networkName_deliverMsg {supplySource : SupplyKind}
    (h : deliverMsg env execute s m supplySource = .ok s') : s'.networkName = s.networkName := by
  unfold deliverMsg at h
  split_ifs at h
  · rw [Except.pure_eq_ok, Except.ok.injEq] at h
    rw [← h]
  · exact networkName_sendReceipt env h

theorem networkName_applyMsg {arrivingFrom : SubnetID Address}
    (h : applyMsg env execute s arrivingFrom m = .ok s') : s'.networkName = s.networkName := by
  unfold applyMsg at h
  split at h
  · exact networkName_sendReceipt env h
  · split at h
    · -- bottom-up: an unregistered child, a wrong nonce, or the delivery
      split at h
      · rw [Except.pure_eq_ok, Except.ok.injEq] at h
        rw [← h]
      · split at h
        · exact networkName_sendReceipt env h
        · rw [networkName_deliverMsg env execute h, GatewayState.networkName_updateSubnet]
    · -- top-down: a wrong nonce, or the delivery
      split at h
      · exact networkName_sendReceipt env h
      · rw [networkName_deliverMsg env execute h]

theorem networkName_applyMessages {arrivingFrom : SubnetID Address}
    {msgs : List (IpcEnvelope Address)} (h : applyMessages env execute arrivingFrom s msgs = .ok s') :
    s'.networkName = s.networkName :=
  applyMessages_rel env execute (R := fun s s' => s'.networkName = s.networkName)
    (I := fun _ => True) (Q := fun _ => True) (fun _ => rfl) (fun h₁₂ h₂₃ => h₂₃.trans h₁₂)
    (fun _ _ hm => ⟨networkName_applyMsg env execute hm, trivial⟩) msgs trivial (fun _ _ => trivial) h

/-- Applying two batches one after the other is applying their concatenation. -/
theorem applyMessages_append (arrivingFrom : SubnetID Address) (s : GatewayState Address Hash)
    (msgs msgs' : List (IpcEnvelope Address)) :
    applyMessages env execute arrivingFrom s (msgs ++ msgs') =
      applyMessages env execute arrivingFrom s msgs >>= fun s =>
        applyMessages env execute arrivingFrom s msgs' := by
  induction msgs generalizing s with
  | nil => rfl
  | cons m msgs ih => simp only [List.cons_append, applyMessages, ih, bind_assoc]

end Frame

end Ops

section Commit

variable {Address Hash : Type} {s : GatewayState Address Hash} {m : IpcEnvelope Address}

@[simp]
theorem networkName_commitBottomUpMsg : (commitBottomUpMsg s m).1.networkName = s.networkName := rfl

@[simp]
theorem postbox_commitBottomUpMsg : (commitBottomUpMsg s m).1.postbox = s.postbox := rfl

@[simp]
theorem burnt_commitBottomUpMsg : (commitBottomUpMsg s m).1.burnt = s.burnt := rfl

@[simp]
theorem topDownMsgs_commitBottomUpMsg : (commitBottomUpMsg s m).1.topDownMsgs = s.topDownMsgs := rfl

@[simp]
theorem subnets_commitBottomUpMsg : (commitBottomUpMsg s m).1.subnets = s.subnets := rfl

@[simp]
theorem bottomUpMsgs_commitBottomUpMsg :
    (commitBottomUpMsg s m).1.bottomUpMsgs = s.bottomUpMsgs ++ [(commitBottomUpMsg s m).2] := rfl

/-- The committed message is the message with the bottom-up nonce. -/
theorem snd_commitBottomUpMsg : (commitBottomUpMsg s m).2 = { m with nonce := s.bottomUpNonce } :=
  rfl

@[simp]
theorem networkName_crossMsgSideEffects (v : Nat) (shouldBurn : Bool) :
    (crossMsgSideEffects s v shouldBurn).networkName = s.networkName := by
  unfold crossMsgSideEffects
  split <;> rfl

@[simp]
theorem postbox_crossMsgSideEffects (v : Nat) (shouldBurn : Bool) :
    (crossMsgSideEffects s v shouldBurn).postbox = s.postbox := by
  unfold crossMsgSideEffects
  split <;> rfl

@[simp]
theorem bottomUpMsgs_crossMsgSideEffects (v : Nat) (shouldBurn : Bool) :
    (crossMsgSideEffects s v shouldBurn).bottomUpMsgs = s.bottomUpMsgs := by
  unfold crossMsgSideEffects
  split <;> rfl

@[simp]
theorem topDownMsgs_crossMsgSideEffects (v : Nat) (shouldBurn : Bool) :
    (crossMsgSideEffects s v shouldBurn).topDownMsgs = s.topDownMsgs := by
  unfold crossMsgSideEffects
  split <;> rfl

@[simp]
theorem subnets_crossMsgSideEffects (v : Nat) (shouldBurn : Bool) :
    (crossMsgSideEffects s v shouldBurn).subnets = s.subnets := by
  unfold crossMsgSideEffects
  split <;> rfl

@[simp]
theorem burnt_crossMsgSideEffects (v : Nat) (shouldBurn : Bool) :
    (crossMsgSideEffects s v shouldBurn).burnt = s.burnt + if shouldBurn then v else 0 := by
  unfold crossMsgSideEffects
  split <;> simp_all

end Commit

section Entry

variable {Address Hash : Type} [DecidableEq Address] [DecidableEq Hash] (env : Env Address Hash)

open GatewayState

/-- `fund`: send value to an address in a registered child with a native supply. -/
def fund (s : GatewayState Address Hash) (sender : Address) (subnetId : SubnetID Address)
    (to_ : Address) (value : Nat) : Except Revert (GatewayState Address Hash) := do
  if value = 0 then throw (.InvalidXnetMessage .Value)
  if (s.getSubnet subnetId).isNone then throw .NotRegisteredSubnet
  if env.supplyKind subnetId ≠ .Native then throw .UnexpectedSupplySource
  let crossMsg ← createFundMsg subnetId sender to_ value
  let (s, _) ← commitTopDownMsg s crossMsg
  pure s

/-- `release`: send value to an address in the parent, burning it here. -/
def release (s : GatewayState Address Hash) (sender : Address) (to_ : Address) (value : Nat) :
    Except Revert (GatewayState Address Hash) := do
  if value = 0 then throw (.InvalidXnetMessage .Value)
  let crossMsg ← createReleaseMsg s.networkName sender to_ value
  let (s, _) := commitBottomUpMsg s crossMsg
  pure { s with burnt := s.burnt + value }

/-- `sendContractXnetMessage`: a contract sends a `Call` with the value it pays; the gateway
commits it and burns the value if it goes up. -/
def sendContractXnetMessage (s : GatewayState Address Hash) (sender : Address) (isContract : Bool)
    (envelope : IpcEnvelope Address) (msgValue : Nat) :
    Except Revert (GatewayState Address Hash × IpcEnvelope Address) := do
  if !s.generalPurposeCrossMsg then
    throw (.MethodNotAllowed "Support for general-purpose cross-net messages is disabled")
  if !isContract then throw (.InvalidXnetMessage .Sender)
  if envelope.value ≠ msgValue then throw (.InvalidXnetMessage .Value)
  if envelope.kind ≠ .Call then throw (.InvalidXnetMessage .Kind)
  if !env.decodesCallMsg envelope.message then throw .AbiDecode
  let committed : IpcEnvelope Address :=
    ⟨.Call, envelope.to_, ⟨s.networkName, sender⟩, 0, msgValue, envelope.message⟩
  let (s, committed, shouldBurn) ← commitCrossMessage env s committed
  pure (crossMsgSideEffects s committed.value shouldBurn, committed)

/-- `propagate`: commit a message of the postbox further and apply its side effects. An absent
key reads the zero envelope, whose empty destination `commitCrossMessage` refuses. -/
def propagate (s : GatewayState Address Hash) (msgCid : Hash) :
    Except Revert (GatewayState Address Hash) := do
  if !s.multiLevelCrossMsg then
    throw (.MethodNotAllowed "Support for multi-level cross-net messages is disabled")
  match s.postbox.lookup msgCid with
  | none => throw (.InvalidXnetMessage .DstSubnet)
  | some crossMsg =>
    let (s, _, shouldBurn) ← commitCrossMessage env s crossMsg
    let v := crossMsg.value
    let s := { s with postbox := s.postbox.erase msgCid }
    pure (crossMsgSideEffects s v shouldBurn)

section EntrySpec

variable {s s' : GatewayState Address Hash} {sender to_ : Address} {value : Nat}

omit [DecidableEq Hash] in
/-- `fund` commits the fund message top-down. -/
theorem fund_eq_ok {subnetId : SubnetID Address} (h : fund env s sender subnetId to_ value = .ok s') :
    ∃ msg m', createFundMsg subnetId sender to_ value = .ok msg ∧
      commitTopDownMsg s msg = .ok (s', m') := by
  unfold fund at h
  -- past the refusals of a zero value, of an unregistered subnet and of a supply not native
  simp only [Except.guard_eq_ok] at h
  obtain ⟨-, -, -, h⟩ := h
  simp only [Except.bind_eq_ok, Except.pure_eq_ok, Except.ok.injEq] at h
  obtain ⟨msg, hmsg, ⟨s₁, m'⟩, hcommit, rfl⟩ := h
  exact ⟨msg, m', hmsg, hcommit⟩

omit [DecidableEq Address] [DecidableEq Hash] in
/-- `release` commits the release message bottom-up and burns its value. -/
theorem release_eq_ok (h : release s sender to_ value = .ok s') :
    ∃ msg, createReleaseMsg s.networkName sender to_ value = .ok msg ∧
      s' = { (commitBottomUpMsg s msg).1 with burnt := (commitBottomUpMsg s msg).1.burnt + value } := by
  unfold release at h
  split_ifs at h
  · cases h
  simp only [Except.bind_eq_ok, Except.pure_eq_ok, Except.ok.injEq] at h
  obtain ⟨msg, hmsg, rfl⟩ := h
  exact ⟨msg, hmsg, rfl⟩

omit [DecidableEq Hash] in
/-- `sendContractXnetMessage` commits the contract's call from its address here, then applies the
commit's side effects. -/
theorem sendContractXnetMessage_eq_ok {isContract : Bool} {envelope committed : IpcEnvelope Address}
    {msgValue : Nat}
    (h : sendContractXnetMessage env s sender isContract envelope msgValue = .ok (s', committed)) :
    ∃ s₁ shouldBurn, commitCrossMessage env s
        ⟨.Call, envelope.to_, ⟨s.networkName, sender⟩, 0, msgValue, envelope.message⟩ =
        .ok (s₁, committed, shouldBurn) ∧ s' = crossMsgSideEffects s₁ committed.value shouldBurn := by
  unfold sendContractXnetMessage at h
  -- past the five refusals: general-purpose messages disabled, a sender that is not a contract,
  -- a value other than the one paid, a kind other than `Call`, a message that does not decode
  simp only [Except.guard_eq_ok] at h
  obtain ⟨-, -, -, -, -, h⟩ := h
  simp only [Except.bind_eq_ok, Except.pure_eq_ok, Except.ok.injEq, Prod.mk.injEq] at h
  obtain ⟨⟨s₁, committed', shouldBurn⟩, hcommit, rfl, rfl⟩ := h
  exact ⟨s₁, shouldBurn, hcommit, rfl⟩

/-- `propagate` needs the message in the postbox; it commits it, removes it and applies the
commit's side effects. -/
theorem propagate_eq_ok {msgCid : Hash} (h : propagate env s msgCid = .ok s') :
    ∃ crossMsg s₁ m' shouldBurn, s.postbox.lookup msgCid = some crossMsg ∧
      commitCrossMessage env s crossMsg = .ok (s₁, m', shouldBurn) ∧
      s' = crossMsgSideEffects { s₁ with postbox := s₁.postbox.erase msgCid } crossMsg.value
        shouldBurn := by
  unfold propagate at h
  split_ifs at h
  · cases h
  split at h
  · cases h
  · rename_i crossMsg hlookup
    simp only [Except.bind_eq_ok, Except.pure_eq_ok, Except.ok.injEq] at h
    obtain ⟨⟨s₁, m', shouldBurn⟩, hcommit, rfl⟩ := h
    exact ⟨crossMsg, s₁, m', shouldBurn, hlookup, hcommit, rfl⟩

end EntrySpec

end Entry

end Delorean.Gateway
