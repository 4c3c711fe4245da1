import Delorean.Gateway.Ledger
import Delorean.Lib.Reach

/-!
# Value between a parent and its child subnet

A parent subnet `P` and a child `C = P.createSubnetId actor` with a native supply, each with its
gateway. Value goes down by `fund` and by contracts' `sendContractXnetMessage` in `P`, and is
minted in `C` when `C` executes the top-down messages (`executeTopdownMsgs`); it goes up by
`release` and `sendContractXnetMessage` in `C`, which burn it, and leaves `P`'s record of `C`'s
supply when `P` executes the bottom-up batch (`execBottomUpMsgs`). Each side answers the messages
it executes with receipts.

The accounting is three invariants over every run (`Accounted`): `P`'s record of `C`'s supply
is the genesis supply plus all that went down minus what `P` has executed of what came up; `C`'s
supply is the genesis supply plus what it has minted; and `C` has burnt exactly the value of the
messages it committed up that are not receipts. A receipt `C` commits up carries the value of the
message it answers, and is not burnt: `sendReceipt` drops the flag that says to burn it. So once
everything is executed, `P`'s record falls short of `C`'s supply minus what `C` burnt by the value
of `C`'s receipts (`circOf_add_burnt_of_quiescent`), and one failed transfer is enough for it to,
as the run at the end of the module shows.

The parent numbers its messages for `C` from its own count, and `C` checks them against its
`appliedTopDownNonce`. That counter also moves when `C` commits a message down to a subnet of its
own, and the parent's next message is then refused with a `Nonce` receipt
(`applyMsg_rejected_after_commit_down`).
-/

namespace Delorean.Gateway

variable {Address Hash : Type} [DecidableEq Address] [DecidableEq Hash] (env : Env Address Hash)
  {P : SubnetID Address} {actor : Address}

open GatewayState

/-! ## Routing between the parent and the child -/

section Routing

variable {s s' : GatewayState Address Hash} {m m' : IpcEnvelope Address} {shouldBurn : Bool}

omit [DecidableEq Hash] in
/-- At the child, a message for the parent is committed bottom-up and its value is to be burnt. -/
theorem commitCrossMessage_at_child (hP : P.isEmpty = false)
    (hname : s.networkName = P.createSubnetId actor) (hto : m.to_.subnetId = P)
    (hfrom : m.from_.subnetId = P.createSubnetId actor) :
    commitCrossMessage env s m =
      .ok ((commitBottomUpMsg s m).1, (commitBottomUpMsg s m).2, m.value != 0) := by
  have hup := IpcEnvelope.applyType_up_at_child hto hfrom
  have hne : P ≠ P.createSubnetId actor := (SubnetID.createSubnetId_ne P actor).symm
  simp [commitCrossMessage, hto, hfrom, hup, hP, hne, hname, snd_commitBottomUpMsg]

omit [DecidableEq Hash] in
/-- At the parent, a message for a child with a native supply is committed top-down, with the
gateway's applied top-down nonce incremented on the way, and nothing is to be burnt. -/
theorem commitCrossMessage_at_parent (hname : s.networkName = P)
    (hnative : env.supplyKind (P.createSubnetId actor) = .Native)
    (hto : m.to_.subnetId = P.createSubnetId actor) (hfrom : m.from_.subnetId = P)
    (h : commitCrossMessage env s m = .ok (s', m', shouldBurn)) :
    commitTopDownMsg { s with appliedTopDownNonce := s.appliedTopDownNonce + 1 } m = .ok (s', m') ∧
      shouldBurn = false := by
  have hdown := IpcEnvelope.applyType_down_at_parent hto hfrom
  simp [commitCrossMessage, hto, hfrom, hdown, hname, hnative, SubnetID.createSubnetId_ne] at h
  obtain ⟨⟨s'', m''⟩, hcommit, hret⟩ := Except.bind_eq_ok.mp h
  simp only [Except.ok.injEq, Prod.mk.injEq] at hret
  obtain ⟨rfl, rfl, rfl⟩ := hret
  exact ⟨by simpa [hname] using hcommit, rfl⟩

end Routing

/-! ## What executing a batch does on each side -/

/-- What applying top-down messages does to the child's gateway: it adds receipts for the parent
to the batches, and changes nothing else the value flows read. -/
structure ChildEffect (P : SubnetID Address) (actor : Address) (s s' : GatewayState Address Hash) :
    Prop where
  networkName : s'.networkName = s.networkName
  postbox : s'.postbox = s.postbox
  burnt : s'.burnt = s.burnt
  receipts : ∃ rs, s'.bottomUpMsgs = s.bottomUpMsgs ++ rs ∧
    ∀ r ∈ rs, r.kind = .Result ∧ r.from_.subnetId = P.createSubnetId actor ∧ r.to_.subnetId = P

/-- What applying bottom-up messages does to the parent's gateway: it commits receipts for the
child top-down, each adding its value to the child's supply, and changes nothing else the value
flows read. -/
structure ParentEffect (P : SubnetID Address) (actor : Address) (s s' : GatewayState Address Hash) :
    Prop where
  networkName : s'.networkName = s.networkName
  postbox : s'.postbox = s.postbox
  registered : (s'.getSubnet (P.createSubnetId actor)).isSome =
    (s.getSubnet (P.createSubnetId actor)).isSome
  receipts : ∃ rs, s'.topDownMsgsFor (P.createSubnetId actor) =
      s.topDownMsgsFor (P.createSubnetId actor) ++ rs ∧
    s'.circOf (P.createSubnetId actor) = s.circOf (P.createSubnetId actor) + totalValue rs ∧
    ∀ r ∈ rs, r.from_.subnetId = P ∧ r.to_.subnetId = P.createSubnetId actor

namespace ChildEffect

omit [DecidableEq Address] [DecidableEq Hash]

theorem refl (s : GatewayState Address Hash) : ChildEffect P actor s s :=
  ⟨rfl, rfl, rfl, [], by simp, by simp⟩

theorem trans {s₁ s₂ s₃ : GatewayState Address Hash} (h₁ : ChildEffect P actor s₁ s₂)
    (h₂ : ChildEffect P actor s₂ s₃) : ChildEffect P actor s₁ s₃ := by
  obtain ⟨rs₁, hmsgs₁, hrs₁⟩ := h₁.receipts
  obtain ⟨rs₂, hmsgs₂, hrs₂⟩ := h₂.receipts
  exact ⟨h₂.networkName.trans h₁.networkName, h₂.postbox.trans h₁.postbox,
    h₂.burnt.trans h₁.burnt, rs₁ ++ rs₂, by rw [hmsgs₂, hmsgs₁, List.append_assoc],
    List.forall_mem_append.mpr ⟨hrs₁, hrs₂⟩⟩

/-- Moving the gateway's own applied top-down nonce changes nothing the effect looks at. -/
theorem of_appliedTopDownNonce {s s' : GatewayState Address Hash} {n : Nat}
    (h : ChildEffect P actor { s with appliedTopDownNonce := n } s') : ChildEffect P actor s s' :=
  ⟨h.networkName, h.postbox, h.burnt, h.receipts⟩

end ChildEffect

namespace ParentEffect

omit [DecidableEq Hash]

theorem refl (s : GatewayState Address Hash) : ParentEffect P actor s s :=
  ⟨rfl, rfl, rfl, [], by simp, by simp, by simp⟩

theorem trans {s₁ s₂ s₃ : GatewayState Address Hash} (h₁ : ParentEffect P actor s₁ s₂)
    (h₂ : ParentEffect P actor s₂ s₃) : ParentEffect P actor s₁ s₃ := by
  obtain ⟨rs₁, hmsgs₁, hcirc₁, hrs₁⟩ := h₁.receipts
  obtain ⟨rs₂, hmsgs₂, hcirc₂, hrs₂⟩ := h₂.receipts
  exact ⟨h₂.networkName.trans h₁.networkName, h₂.postbox.trans h₁.postbox,
    h₂.registered.trans h₁.registered, rs₁ ++ rs₂, by rw [hmsgs₂, hmsgs₁, List.append_assoc],
    by rw [hcirc₂, hcirc₁, totalValue_append, Nat.add_assoc],
    List.forall_mem_append.mpr ⟨hrs₁, hrs₂⟩⟩

/-- Moving the gateway's own applied top-down nonce changes nothing the effect looks at. -/
theorem of_appliedTopDownNonce {s s' : GatewayState Address Hash} {n : Nat}
    (h : ParentEffect P actor { s with appliedTopDownNonce := n } s') : ParentEffect P actor s s' :=
  ⟨h.networkName, h.postbox, h.registered, h.receipts⟩

end ParentEffect

omit [DecidableEq Hash] in
/-- Committing a message for the child at the parent is a parent effect of one message, which
keeps its value and addresses. -/
theorem parentEffect_commitTopDownMsg {s s' : GatewayState Address Hash}
    {m m' : IpcEnvelope Address} (hname : s.networkName = P)
    (hto : m.to_.subnetId = P.createSubnetId actor) (hfrom : m.from_.subnetId = P)
    (h : commitTopDownMsg s m = .ok (s', m')) :
    ParentEffect P actor s s' ∧ s'.topDownMsgsFor (P.createSubnetId actor) =
      s.topDownMsgsFor (P.createSubnetId actor) ++ [m'] ∧ m'.value = m.value := by
  obtain ⟨subnetId, subnet, hdown, hsub, rfl, rfl⟩ := commitTopDownMsg_eq_ok h
  rw [hname, hto, SubnetID.down_createSubnetId, Except.ok.injEq] at hdown
  subst hdown
  let f : Subnet Address → Subnet Address := fun sn =>
    { sn with topDownNonce := subnet.topDownNonce + 1, circSupply := sn.circSupply + m.value }
  have hid : ∀ sn, (f sn).id = sn.id := fun _ => rfl
  have hmsgs := topDownMsgsFor_append (s.updateSubnet (P.createSubnetId actor) f)
    (P.createSubnetId actor) (P.createSubnetId actor) { m with nonce := subnet.topDownNonce }
  rw [if_pos rfl, topDownMsgsFor_updateSubnet] at hmsgs
  -- The record of the child grows by the message's value.
  have hcirc : (s.updateSubnet (P.createSubnetId actor) f).circOf (P.createSubnetId actor) =
      s.circOf (P.createSubnetId actor) + m.value := by
    rw [circOf_updateSubnet_self s hid, circOf, hsub]
    rfl
  exact ⟨⟨rfl, rfl, isSome_getSubnet_updateSubnet s hid _,
    [{ m with nonce := subnet.topDownNonce }], hmsgs, hcirc,
    List.forall_mem_singleton.mpr ⟨hfrom, hto⟩⟩, hmsgs, rfl⟩

section Receipts

variable {s s' : GatewayState Address Hash} {m : IpcEnvelope Address} {outcomeType : OutcomeType}
  {ret : List UInt8}

omit [DecidableEq Hash] in
/-- The child answers a message from the parent with a receipt committed up, or not at all. -/
theorem childEffect_sendReceipt (hP : P.isEmpty = false)
    (hname : s.networkName = P.createSubnetId actor) (hto : m.to_.subnetId = P.createSubnetId actor)
    (hfrom : m.from_.subnetId = P) (h : sendReceipt env s m outcomeType ret = .ok s') :
    ChildEffect P actor s s' := by
  rcases sendReceipt_eq_ok env h with ⟨rfl, -⟩ | ⟨-, -, m', shouldBurn, hcommit⟩
  · exact ChildEffect.refl _
  · -- The receipt goes from the child back to the parent: it is committed up, and not burnt.
    rw [commitCrossMessage_at_child env hP hname (by simpa using hfrom) (by simpa using hto),
      Except.ok.injEq, Prod.mk.injEq] at hcommit
    obtain ⟨rfl, -⟩ := hcommit
    refine ⟨rfl, rfl, rfl, [(commitBottomUpMsg s _).2], bottomUpMsgs_commitBottomUpMsg, ?_⟩
    rw [List.forall_mem_singleton, snd_commitBottomUpMsg]
    exact ⟨rfl, hto, hfrom⟩

omit [DecidableEq Hash] in
/-- The parent answers a message from the child with a receipt committed down, or not at all. -/
theorem parentEffect_sendReceipt (hname : s.networkName = P)
    (hnative : env.supplyKind (P.createSubnetId actor) = .Native) (hto : m.to_.subnetId = P)
    (hfrom : m.from_.subnetId = P.createSubnetId actor)
    (h : sendReceipt env s m outcomeType ret = .ok s') : ParentEffect P actor s s' := by
  rcases sendReceipt_eq_ok env h with ⟨rfl, -⟩ | ⟨-, -, m', shouldBurn, hcommit⟩
  · exact ParentEffect.refl _
  · obtain ⟨htop, -⟩ := commitCrossMessage_at_parent env hname hnative
      (by simpa using hfrom) (by simpa using hto) hcommit
    exact ParentEffect.of_appliedTopDownNonce
      (parentEffect_commitTopDownMsg (by exact hname) (by simpa using hfrom) (by simpa using hto) htop).1

end Receipts

section Apply

variable (execute : IpcEnvelope Address → SupplyKind → Bool × List UInt8)
  {s s' : GatewayState Address Hash} {m : IpcEnvelope Address} {supplySource : SupplyKind}

/-- The child executes a message from the parent that is for it, and answers it. -/
theorem childEffect_deliverMsg (hP : P.isEmpty = false)
    (hname : s.networkName = P.createSubnetId actor) (hto : m.to_.subnetId = P.createSubnetId actor)
    (hfrom : m.from_.subnetId = P) (h : deliverMsg env execute s m supplySource = .ok s') :
    ChildEffect P actor s s' := by
  rw [deliverMsg_of_to_self env execute (hto.trans hname.symm)] at h
  exact childEffect_sendReceipt env hP hname hto hfrom h

/-- The parent executes a message from the child that is for it, and answers it. -/
theorem parentEffect_deliverMsg (hname : s.networkName = P)
    (hnative : env.supplyKind (P.createSubnetId actor) = .Native) (hto : m.to_.subnetId = P)
    (hfrom : m.from_.subnetId = P.createSubnetId actor)
    (h : deliverMsg env execute s m supplySource = .ok s') : ParentEffect P actor s s' := by
  rw [deliverMsg_of_to_self env execute (hto.trans hname.symm)] at h
  exact parentEffect_sendReceipt env hname hnative hto hfrom h

/-- At the child, a message from the parent is delivered when its nonce is the applied top-down
nonce, which it takes, and is answered with a `Nonce` receipt otherwise. -/
theorem applyMsg_from_parent (hname : s.networkName = P.createSubnetId actor)
    (hto : m.to_.subnetId = P.createSubnetId actor) (hfrom : m.from_.subnetId = P) :
    applyMsg env execute s P m =
      if s.appliedTopDownNonce ≠ m.nonce then
        sendReceipt env s m .SystemErr (env.invalidXnetMessageData .Nonce)
      else deliverMsg env execute { s with appliedTopDownNonce := s.appliedTopDownNonce + 1 } m .Native := by
  have hdown : m.applyType s.networkName = .TopDown := by
    rw [hname]
    exact IpcEnvelope.applyType_down_at_child hto hfrom
  unfold applyMsg
  rw [hto, SubnetID.isEmpty_createSubnetId, if_neg Bool.false_ne_true, hdown]

/-- Applying a message from the parent at the child is a child effect: whatever the nonce and
the outcome, the child at most commits a receipt up. -/
theorem childEffect_applyMsg (hP : P.isEmpty = false)
    (hname : s.networkName = P.createSubnetId actor) (hto : m.to_.subnetId = P.createSubnetId actor)
    (hfrom : m.from_.subnetId = P) (h : applyMsg env execute s P m = .ok s') :
    ChildEffect P actor s s' := by
  rw [applyMsg_from_parent env execute hname hto hfrom] at h
  split_ifs at h with hnonce
  · exact childEffect_sendReceipt env hP hname hto hfrom h
  · exact ChildEffect.of_appliedTopDownNonce
      (childEffect_deliverMsg env execute hP (by exact hname) hto hfrom h)

/-- Applying a message from the child at the parent is a parent effect: an unregistered child's
message is dropped, and otherwise the parent at most commits a receipt down. -/
theorem parentEffect_applyMsg (hP : P.isEmpty = false) (hname : s.networkName = P)
    (hnative : env.supplyKind (P.createSubnetId actor) = .Native) (hto : m.to_.subnetId = P)
    (hfrom : m.from_.subnetId = P.createSubnetId actor)
    (h : applyMsg env execute s (P.createSubnetId actor) m = .ok s') : ParentEffect P actor s s' := by
  have hup : m.applyType s.networkName = .BottomUp := by
    rw [hname]
    exact IpcEnvelope.applyType_up_at_parent hto hfrom
  unfold applyMsg at h
  rw [hto, hP, if_neg Bool.false_ne_true, hup] at h
  dsimp only at h
  split at h
  · rw [Except.pure_eq_ok, Except.ok.injEq] at h
    subst h
    exact ParentEffect.refl _
  · split_ifs at h with hnonce
    · exact parentEffect_sendReceipt env hname hnative hto hfrom h
    · -- Taking the child's nonce changes no supply; the message is then executed and answered.
      have hid : ∀ sn : Subnet Address,
          ({ sn with appliedBottomUpNonce := sn.appliedBottomUpNonce + 1 } : Subnet Address).id =
            sn.id := fun _ => rfl
      have hupdate : ParentEffect P actor s (s.updateSubnet (P.createSubnetId actor) fun sn =>
          { sn with appliedBottomUpNonce := sn.appliedBottomUpNonce + 1 }) := by
        refine ⟨rfl, rfl, isSome_getSubnet_updateSubnet s hid _, [], by simp, ?_, by simp⟩
        rw [circOf_updateSubnet_self s hid, totalValue_nil, Nat.add_zero]
        rfl
      exact hupdate.trans (parentEffect_deliverMsg env execute (by exact hname) hnative hto hfrom h)

/-- A batch from the parent applied at the child is a child effect, by the run rule of
`applyMessages` with the child's name as the invariant. -/
theorem childEffect_applyMessages (hP : P.isEmpty = false) :
    ∀ {s s' : GatewayState Address Hash} (msgs : List (IpcEnvelope Address)),
      s.networkName = P.createSubnetId actor →
      (∀ m ∈ msgs, m.from_.subnetId = P ∧ m.to_.subnetId = P.createSubnetId actor) →
      applyMessages env execute P s msgs = .ok s' → ChildEffect P actor s s' := by
  refine applyMessages_rel env execute (R := ChildEffect P actor)
    (I := fun s => s.networkName = P.createSubnetId actor) ChildEffect.refl ChildEffect.trans ?_
  intro s s' m hname hm hstep
  have he := childEffect_applyMsg env execute hP hname hm.2 hm.1 hstep
  exact ⟨he, he.networkName.trans hname⟩

/-- A batch from the child applied at the parent is a parent effect. -/
theorem parentEffect_applyMessages (hP : P.isEmpty = false)
    (hnative : env.supplyKind (P.createSubnetId actor) = .Native) :
    ∀ {s s' : GatewayState Address Hash} (msgs : List (IpcEnvelope Address)),
      s.networkName = P →
      (∀ m ∈ msgs, m.from_.subnetId = P.createSubnetId actor ∧ m.to_.subnetId = P) →
      applyMessages env execute (P.createSubnetId actor) s msgs = .ok s' → ParentEffect P actor s s' := by
  refine applyMessages_rel env execute (R := ParentEffect P actor) (I := fun s => s.networkName = P)
    ParentEffect.refl ParentEffect.trans ?_
  intro s s' m hname hm hstep
  have he := parentEffect_applyMsg env execute hP hname hnative hm.2 hm.1 hstep
  exact ⟨he, he.networkName.trans hname⟩

end Apply

/-! ## Sending value -/

/-- What sending value up does to the child's gateway: one message that is not a receipt goes
up, and its value is burnt. -/
structure ChildSend (P : SubnetID Address) (actor : Address) (s s' : GatewayState Address Hash) :
    Prop where
  networkName : s'.networkName = s.networkName
  postbox : s'.postbox = s.postbox
  sent : ∃ m, s'.bottomUpMsgs = s.bottomUpMsgs ++ [m] ∧ m.kind ≠ .Result ∧
    m.from_.subnetId = P.createSubnetId actor ∧ m.to_.subnetId = P ∧ s'.burnt = s.burnt + m.value

section Send

variable {s s' : GatewayState Address Hash} {sender to_ : Address} {value : Nat}
  {isContract : Bool} {envelope committed : IpcEnvelope Address}

omit [DecidableEq Hash] in
/-- `fund` in the parent sends the value down: a parent effect of one message. -/
theorem parentEffect_fund (hname : s.networkName = P)
    (h : fund env s sender (P.createSubnetId actor) to_ value = .ok s') : ParentEffect P actor s s' := by
  obtain ⟨msg, m', hmsg, hcommit⟩ := fund_eq_ok env h
  simp only [createFundMsg, SubnetID.getParentSubnet_createSubnetId, Except.bind_eq_ok,
    Except.pure_eq_ok, Except.ok.injEq] at hmsg
  obtain ⟨_, rfl, rfl⟩ := hmsg
  exact (parentEffect_commitTopDownMsg hname rfl rfl hcommit).1

omit [DecidableEq Hash] in
/-- A contract's call from the parent to the child is committed down and nothing is burnt. -/
theorem parentEffect_sendContractXnetMessage (hname : s.networkName = P)
    (hnative : env.supplyKind (P.createSubnetId actor) = .Native)
    (hto : envelope.to_.subnetId = P.createSubnetId actor)
    (h : sendContractXnetMessage env s sender isContract envelope value = .ok (s', committed)) :
    ParentEffect P actor s s' := by
  obtain ⟨s₁, shouldBurn, hcommit, rfl⟩ := sendContractXnetMessage_eq_ok env h
  let call : IpcEnvelope Address :=
    ⟨.Call, envelope.to_, ⟨s.networkName, sender⟩, 0, value, envelope.message⟩
  obtain ⟨htop, rfl⟩ := commitCrossMessage_at_parent env hname hnative
    (show call.to_.subnetId = P.createSubnetId actor from hto)
    (show call.from_.subnetId = P from hname) hcommit
  exact ParentEffect.of_appliedTopDownNonce (parentEffect_commitTopDownMsg (by exact hname)
    (show call.to_.subnetId = P.createSubnetId actor from hto)
    (show call.from_.subnetId = P from hname) htop).1

omit [DecidableEq Address] [DecidableEq Hash] in
/-- `release` in the child sends its value up and burns it. -/
theorem childSend_release (hname : s.networkName = P.createSubnetId actor)
    (h : release s sender to_ value = .ok s') : ChildSend P actor s s' := by
  obtain ⟨msg, hmsg, rfl⟩ := release_eq_ok h
  simp only [hname, createReleaseMsg, SubnetID.getParentSubnet_createSubnetId, Except.bind_eq_ok,
    Except.pure_eq_ok, Except.ok.injEq] at hmsg
  obtain ⟨_, rfl, rfl⟩ := hmsg
  refine ⟨rfl, rfl, (commitBottomUpMsg s _).2, bottomUpMsgs_commitBottomUpMsg, ?_⟩
  simp [snd_commitBottomUpMsg, createTransferMsg]

omit [DecidableEq Hash] in
/-- A contract's call from the child to the parent is committed up and its value burnt. -/
theorem childSend_sendContractXnetMessage (hP : P.isEmpty = false)
    (hname : s.networkName = P.createSubnetId actor) (hto : envelope.to_.subnetId = P)
    (h : sendContractXnetMessage env s sender isContract envelope value = .ok (s', committed)) :
    ChildSend P actor s s' := by
  obtain ⟨s₁, shouldBurn, hcommit, rfl⟩ := sendContractXnetMessage_eq_ok env h
  let call : IpcEnvelope Address :=
    ⟨.Call, envelope.to_, ⟨s.networkName, sender⟩, 0, value, envelope.message⟩
  rw [commitCrossMessage_at_child env hP hname (show call.to_.subnetId = P from hto)
    (show call.from_.subnetId = P.createSubnetId actor from hname), Except.ok.injEq,
    Prod.mk.injEq, Prod.mk.injEq] at hcommit
  obtain ⟨rfl, rfl, rfl⟩ := hcommit
  refine ⟨by simp, by simp, (commitBottomUpMsg s call).2, by simp, ?_⟩
  simp [snd_commitBottomUpMsg, call, hto, hname]
  -- The burn flag is set exactly when there is value to burn.
  omega

/-- Nothing can be propagated from an empty postbox. -/
theorem propagate_ne_ok_of_postbox_empty {msgCid : Hash} (hpost : s.postbox = ∅) :
    propagate env s msgCid ≠ .ok s' := by
  intro h
  obtain ⟨crossMsg, -, -, -, hlookup, -⟩ := propagate_eq_ok env h
  rw [hpost] at hlookup
  cases hlookup

end Send

/-! ## The child's applied top-down nonce

The child checks each message from the parent against its `appliedTopDownNonce`, while the parent
numbers its messages for the child with its own count of them. `commitCrossMessage` also
increments the child's `appliedTopDownNonce` when the child commits a message down, to a subnet of
its own: the parent's next message then no longer matches, and is answered with a `Nonce`
receipt instead of being delivered. -/

section Nonce

variable (execute : IpcEnvelope Address → SupplyKind → Bool × List UInt8)
  {s s' : GatewayState Address Hash} {m sent sent' : IpcEnvelope Address} {shouldBurn : Bool}

omit [DecidableEq Hash] in
/-- A message that goes down at the gateway is committed top-down, with the gateway's applied
top-down nonce incremented on the way. -/
theorem commitCrossMessage_of_down (hdown : sent.applyType s.networkName = .TopDown)
    (h : commitCrossMessage env s sent = .ok (s', sent', shouldBurn)) :
    commitTopDownMsg { s with appliedTopDownNonce := s.appliedTopDownNonce + 1 } sent =
      .ok (s', sent') ∧ shouldBurn = false := by
  unfold commitCrossMessage at h
  dsimp only at h
  split at h
  · cases h
  split at h
  · cases h
  rw [hdown] at h
  obtain ⟨next, -, h⟩ := Except.bind_eq_ok.mp h
  rw [Except.pure_eq_ok, Except.ok_bind] at h
  split at h
  · cases h
  -- Going down, the message is committed top-down whether or not this subnet is the common
  -- parent.
  simp only [beq_self_eq_true, Bool.true_or, if_true, Except.bind_eq_ok] at h
  obtain ⟨⟨s'', sent''⟩, hcommit, h⟩ := h
  cases h
  exact ⟨hcommit, rfl⟩

omit [DecidableEq Hash] in
/-- Committing a message down keeps the gateway's subnet and takes one applied top-down nonce. -/
theorem appliedTopDownNonce_commitCrossMessage_of_down
    (hdown : sent.applyType s.networkName = .TopDown)
    (h : commitCrossMessage env s sent = .ok (s', sent', shouldBurn)) :
    s'.networkName = s.networkName ∧ s'.appliedTopDownNonce = s.appliedTopDownNonce + 1 := by
  obtain ⟨subnetId, subnet, -, -, -, rfl⟩ := commitTopDownMsg_eq_ok (commitCrossMessage_of_down env hdown h).1
  exact ⟨rfl, rfl⟩

/-- Once the child commits a message down, the parent's next message, which it would have
delivered, is answered with a `Nonce` receipt. -/
theorem applyMsg_rejected_after_commit_down (hname : s.networkName = P.createSubnetId actor)
    (hdown : sent.applyType s.networkName = .TopDown)
    (hcommit : commitCrossMessage env s sent = .ok (s', sent', shouldBurn))
    (hto : m.to_.subnetId = P.createSubnetId actor) (hfrom : m.from_.subnetId = P)
    (hnonce : m.nonce = s.appliedTopDownNonce) :
    applyMsg env execute s P m =
        deliverMsg env execute { s with appliedTopDownNonce := s.appliedTopDownNonce + 1 } m .Native ∧
      applyMsg env execute s' P m = sendReceipt env s' m .SystemErr (env.invalidXnetMessageData .Nonce) := by
  obtain ⟨hname', hnonce'⟩ := appliedTopDownNonce_commitCrossMessage_of_down env hdown hcommit
  constructor
  · rw [applyMsg_from_parent env execute hname hto hfrom, if_neg (not_not.mpr hnonce.symm)]
  · rw [applyMsg_from_parent env execute (hname'.trans hname) hto hfrom, hnonce', hnonce,
      if_pos (Nat.succ_ne_self _)]

/-- The child `C = /1/7` commits a call down to its own child `D = C/9`: the parent's first
message to `C`, numbered 0, which `C` would have delivered before, is now answered with a `Nonce`
receipt. -/
theorem applyMsg_rejected_after_call_to_grandchild :
    let env : Env Nat Nat :=
      ⟨fun _ => .Native, fun _ => 0, fun _ _ _ => [], fun r => [if r = .Nonce then 1 else 0],
        fun _ => true⟩
    let execute : IpcEnvelope Nat → SupplyKind → Bool × List UInt8 := fun _ _ => (true, [])
    let P : SubnetID Nat := ⟨1, []⟩
    let C := P.createSubnetId 7
    let D := C.createSubnetId 9
    let child : GatewayState Nat Nat := ⟨C, 0, 0, [⟨D, 0, 0, 0⟩], ∅, [], [], 0, true, true⟩
    let sent : IpcEnvelope Nat := ⟨.Call, ⟨D, 4⟩, ⟨C, 3⟩, 0, 0, [1]⟩
    let m₀ : IpcEnvelope Nat := ⟨.Transfer, ⟨C, 2⟩, ⟨P, 1⟩, 0, 5, []⟩
    ∃ child' sent' shouldBurn, child.networkName = C ∧ sent.applyType child.networkName = .TopDown ∧
      commitCrossMessage env child sent = .ok (child', sent', shouldBurn) ∧ m₀.to_.subnetId = C ∧
      m₀.from_.subnetId = P ∧ m₀.nonce = child.appliedTopDownNonce ∧
      applyMsg env execute child P m₀ =
        deliverMsg env execute { child with appliedTopDownNonce := child.appliedTopDownNonce + 1 }
          m₀ .Native ∧
      applyMsg env execute child' P m₀ =
        sendReceipt env child' m₀ .SystemErr (env.invalidXnetMessageData .Nonce) := by
  intro env execute P C D child sent m₀
  obtain ⟨child', sent', shouldBurn, hcommit⟩ : ∃ child' sent' shouldBurn,
      commitCrossMessage env child sent = .ok (child', sent', shouldBurn) := ⟨_, _, _, rfl⟩
  exact ⟨child', sent', shouldBurn, rfl, rfl, hcommit, rfl, rfl, rfl,
    applyMsg_rejected_after_commit_down env execute (by rfl) (by rfl) hcommit (by rfl) (by rfl)
      (by rfl)⟩

end Nonce

/-- The parent funds address 2 of its child `C` with 5, which it numbers 0; a contract of `C` then
sends a call to `C`'s own child `D`. When `C` applies the parent's message, its applied top-down
nonce is already 1: the message is answered with a `Nonce` receipt that takes the 5 back up. -/
theorem topDownMsg_rejected_after_send_down :
    let env : Env Nat Nat :=
      ⟨fun _ => .Native, fun _ => 0, fun _ _ _ => [], fun r => [if r = .Nonce then 1 else 0],
        fun _ => true⟩
    let P : SubnetID Nat := ⟨1, []⟩
    let C := P.createSubnetId 7
    let D := C.createSubnetId 9
    let parent : GatewayState Nat Nat := ⟨P, 0, 0, [⟨C, 100, 0, 0⟩], ∅, [], [], 0, true, true⟩
    let child : GatewayState Nat Nat := ⟨C, 0, 0, [⟨D, 0, 0, 0⟩], ∅, [], [], 0, true, true⟩
    let m₀ : IpcEnvelope Nat := ⟨.Transfer, ⟨C, 2⟩, ⟨P, 1⟩, 0, 5, []⟩
    ∃ parent' child' child'' sent circ_supply,
      fund env parent 1 C 2 5 = .ok parent' ∧ parent'.topDownMsgsFor C = [m₀] ∧
      sendContractXnetMessage env child 3 true ⟨.Call, ⟨D, 4⟩, ⟨C, 3⟩, 0, 0, [1]⟩ 0 =
        .ok (child', sent) ∧
      executeTopdownMsgs env (fun _ _ => (true, [])) child' 100 [m₀] = .ok (child'', circ_supply) ∧
      child''.appliedTopDownNonce = 1 ∧
      child''.bottomUpMsgs =
        [createResultMsg env.abiEncodeResult m₀ .SystemErr (env.invalidXnetMessageData .Nonce)] := by
  intro env P C D parent child m₀
  exact ⟨_, _, _, _, _, rfl, rfl, rfl, rfl, rfl, rfl⟩

/-! ## The two gateways together -/

/-- Executing a prefix of what is left of a list moves the executed part forward by it. -/
theorem take_add_length_of_prefix {α : Type} {l batch : List α} {n : Nat} (hn : n ≤ l.length)
    (hb : batch <+: l.drop n) :
    l.take (n + batch.length) = l.take n ++ batch ∧ n + batch.length ≤ l.length := by
  obtain ⟨rest, hrest⟩ := hb
  have hl : l = l.take n ++ (batch ++ rest) := by rw [hrest, List.take_append_drop]
  have hlen : (l.take n).length = n := List.length_take_of_le hn
  constructor
  · conv_lhs => rw [hl]
    rw [List.take_append, hlen, Nat.add_sub_cancel_left, List.take_left,
      List.take_of_length_le (by omega)]
  · have := congrArg List.length hl
    simp only [List.length_append, hlen] at this
    omega

omit [DecidableEq Address] in
/-- The messages of a batch split into its receipts and the rest. -/
theorem totalValue_receipts_add (l : List (IpcEnvelope Address)) :
    totalValue (l.filter fun m => m.kind = .Result) + totalValue (l.filter fun m => m.kind ≠ .Result) =
      totalValue l :=
  List.sum_map_filter_add_sum_map_filter_not _ _ _

/-- The parent's and the child's gateways, the child's circulating supply, which fendermint
keeps beside the child's gateway, and how far each side has executed the other's messages. -/
structure Hierarchy (Address Hash : Type) where
  parent : GatewayState Address Hash
  child : GatewayState Address Hash
  child_circ_supply : Nat
  top_down_executed : Nat
  bottom_up_executed : Nat

namespace Hierarchy

section System

variable (P : SubnetID Address) (actor : Address)

/-- The two gateways just after the child registered in the parent with its genesis supply:
nothing sent either way, nothing burnt and nothing in the postboxes. -/
structure Initial (genesis : Nat) (h : Hierarchy Address Hash) : Prop where
  parent_name : h.parent.networkName = P
  child_name : h.child.networkName = P.createSubnetId actor
  registered : (h.parent.getSubnet (P.createSubnetId actor)).isSome
  circ : h.parent.circOf (P.createSubnetId actor) = genesis
  top_down : h.parent.topDownMsgsFor (P.createSubnetId actor) = []
  bottom_up : h.child.bottomUpMsgs = []
  burnt : h.child.burnt = 0
  parent_postbox : h.parent.postbox = ∅
  child_postbox : h.child.postbox = ∅
  child_circ_supply : h.child_circ_supply = genesis
  top_down_executed : h.top_down_executed = 0
  bottom_up_executed : h.bottom_up_executed = 0

/-- The steps that move value between the parent and the child. Each side executes a prefix of
what is left of the other's messages, with recipients that behave as `execute` says; propagation
is from either gateway's postbox. -/
inductive Step : Hierarchy Address Hash → Hierarchy Address Hash → Prop
  | fund {h : Hierarchy Address Hash} {parent' : GatewayState Address Hash} (sender to_ : Address)
      (value : Nat) (hfund : fund env h.parent sender (P.createSubnetId actor) to_ value = .ok parent') :
      Step h { h with parent := parent' }
  | release {h : Hierarchy Address Hash} {child' : GatewayState Address Hash} (sender to_ : Address)
      (value : Nat) (hrelease : release h.child sender to_ value = .ok child') :
      Step h { h with child := child' }
  | send_down {h : Hierarchy Address Hash} {parent' : GatewayState Address Hash}
      {committed : IpcEnvelope Address} (sender : Address) (isContract : Bool)
      (envelope : IpcEnvelope Address) (msgValue : Nat)
      (hto : envelope.to_.subnetId = P.createSubnetId actor)
      (hsend : sendContractXnetMessage env h.parent sender isContract envelope msgValue =
        .ok (parent', committed)) :
      Step h { h with parent := parent' }
  | send_up {h : Hierarchy Address Hash} {child' : GatewayState Address Hash}
      {committed : IpcEnvelope Address} (sender : Address) (isContract : Bool)
      (envelope : IpcEnvelope Address) (msgValue : Nat) (hto : envelope.to_.subnetId = P)
      (hsend : sendContractXnetMessage env h.child sender isContract envelope msgValue =
        .ok (child', committed)) :
      Step h { h with child := child' }
  | exec_top_down {h : Hierarchy Address Hash} {child' : GatewayState Address Hash} {circ_supply' : Nat}
      (execute : IpcEnvelope Address → SupplyKind → Bool × List UInt8) (batch : List (IpcEnvelope Address))
      (hbatch : batch <+: (h.parent.topDownMsgsFor (P.createSubnetId actor)).drop h.top_down_executed)
      (hexec : executeTopdownMsgs env execute h.child h.child_circ_supply batch =
        .ok (child', circ_supply')) :
      Step h { h with
        child := child', child_circ_supply := circ_supply',
        top_down_executed := h.top_down_executed + batch.length }
  | exec_bottom_up {h : Hierarchy Address Hash} {parent' : GatewayState Address Hash}
      {subnet : Subnet Address} (execute : IpcEnvelope Address → SupplyKind → Bool × List UInt8)
      (batch : List (IpcEnvelope Address))
      (hbatch : batch <+: h.child.bottomUpMsgs.drop h.bottom_up_executed)
      (hsubnet : h.parent.getSubnet (P.createSubnetId actor) = some subnet)
      (hexec : execBottomUpMsgs env execute h.parent batch subnet = .ok parent') :
      Step h { h with parent := parent', bottom_up_executed := h.bottom_up_executed + batch.length }
  | propagate_parent {h : Hierarchy Address Hash} {parent' : GatewayState Address Hash} (msgCid : Hash)
      (hprop : propagate env h.parent msgCid = .ok parent') :
      Step h { h with parent := parent' }
  | propagate_child {h : Hierarchy Address Hash} {child' : GatewayState Address Hash} (msgCid : Hash)
      (hprop : propagate env h.child msgCid = .ok child') :
      Step h { h with child := child' }

/-- The accounting of value between the two gateways. -/
structure Accounted (genesis : Nat) (h : Hierarchy Address Hash) : Prop where
  parent_name : h.parent.networkName = P
  child_name : h.child.networkName = P.createSubnetId actor
  registered : (h.parent.getSubnet (P.createSubnetId actor)).isSome
  parent_postbox : h.parent.postbox = ∅
  child_postbox : h.child.postbox = ∅
  down : ∀ m ∈ h.parent.topDownMsgsFor (P.createSubnetId actor),
    m.from_.subnetId = P ∧ m.to_.subnetId = P.createSubnetId actor
  up : ∀ m ∈ h.child.bottomUpMsgs, m.from_.subnetId = P.createSubnetId actor ∧ m.to_.subnetId = P
  top_down_le : h.top_down_executed ≤ (h.parent.topDownMsgsFor (P.createSubnetId actor)).length
  bottom_up_le : h.bottom_up_executed ≤ h.child.bottomUpMsgs.length
  /-- The parent's record of the child's supply: all that went down, less what the parent has
  executed of what came up. -/
  circ : h.parent.circOf (P.createSubnetId actor) +
      totalValue (h.child.bottomUpMsgs.take h.bottom_up_executed) =
    genesis + totalValue (h.parent.topDownMsgsFor (P.createSubnetId actor))
  /-- The child's supply: all it has minted. -/
  minted : h.child_circ_supply =
    genesis + totalValue ((h.parent.topDownMsgsFor (P.createSubnetId actor)).take h.top_down_executed)
  /-- What the child burnt: all it sent up except its receipts. -/
  burnt : h.child.burnt = totalValue (h.child.bottomUpMsgs.filter fun m => m.kind ≠ .Result)

/-- Every message committed between the two has been executed on the other side. -/
def Quiescent (h : Hierarchy Address Hash) : Prop :=
  h.top_down_executed = (h.parent.topDownMsgsFor (P.createSubnetId actor)).length ∧
    h.bottom_up_executed = h.child.bottomUpMsgs.length

instance (h : Hierarchy Address Hash) : Decidable (Quiescent P actor h) :=
  inferInstanceAs (Decidable (_ ∧ _))

end System

namespace Accounted

variable {P : SubnetID Address} {actor : Address} {genesis : Nat} {h : Hierarchy Address Hash}

omit [DecidableEq Hash]

theorem of_initial (hi : Initial P actor genesis h) : Accounted P actor genesis h where
  parent_name := hi.parent_name
  child_name := hi.child_name
  registered := hi.registered
  parent_postbox := hi.parent_postbox
  child_postbox := hi.child_postbox
  down := by simp [hi.top_down]
  up := by simp [hi.bottom_up]
  top_down_le := by simp [hi.top_down_executed]
  bottom_up_le := by simp [hi.bottom_up_executed]
  circ := by simp [hi.circ, hi.bottom_up, hi.top_down]
  minted := by simp [hi.child_circ_supply, hi.top_down]
  burnt := by simp [hi.burnt, hi.bottom_up]

/-- A step of the parent alone that commits messages for the child keeps the accounting: what
it adds to the record it adds to what went down. -/
theorem parentEffect {parent' : GatewayState Address Hash} (hA : Accounted P actor genesis h)
    (he : ParentEffect P actor h.parent parent') : Accounted P actor genesis { h with parent := parent' } := by
  obtain ⟨rs, hmsgs, hcirc, hrs⟩ := he.receipts
  refine ⟨he.networkName.trans hA.parent_name, hA.child_name, he.registered.trans hA.registered,
    he.postbox.trans hA.parent_postbox, hA.child_postbox, ?_, hA.up, ?_, hA.bottom_up_le, ?_, ?_,
    hA.burnt⟩
  · rw [hmsgs]
    exact List.forall_mem_append.mpr ⟨hA.down, hrs⟩
  · have := hA.top_down_le
    simp only [hmsgs, List.length_append]
    omega
  · have := hA.circ
    simp only [hcirc, hmsgs, totalValue_append]
    omega
  · simp only [hmsgs, List.take_append_of_le_length hA.top_down_le]
    exact hA.minted

/-- A step of the child alone that sends value up keeps the accounting: it burns what it sends. -/
theorem childSend {child' : GatewayState Address Hash} (hA : Accounted P actor genesis h)
    (he : ChildSend P actor h.child child') : Accounted P actor genesis { h with child := child' } := by
  obtain ⟨m, hmsgs, hkind, hfrom, hto, hburnt⟩ := he.sent
  refine ⟨hA.parent_name, he.networkName.trans hA.child_name, hA.registered, hA.parent_postbox,
    he.postbox.trans hA.child_postbox, hA.down, ?_, hA.top_down_le, ?_, ?_, hA.minted, ?_⟩
  · rw [hmsgs]
    exact List.forall_mem_append.mpr ⟨hA.up, List.forall_mem_singleton.mpr ⟨hfrom, hto⟩⟩
  · have := hA.bottom_up_le
    simp only [hmsgs, List.length_append]
    omega
  · simp only [hmsgs, List.take_append_of_le_length hA.bottom_up_le]
    exact hA.circ
  · simp [hmsgs, hburnt, hA.burnt, List.filter_append, hkind]

/-- The child executing a batch of what went down keeps the accounting: it mints the batch's
total, and the receipts it commits up are in neither what it burnt nor what the parent has
executed. -/
theorem execTopDown {child' : GatewayState Address Hash} {circ_supply' : Nat}
    {batch : List (IpcEnvelope Address)} (hA : Accounted P actor genesis h)
    (hbatch : batch <+: (h.parent.topDownMsgsFor (P.createSubnetId actor)).drop h.top_down_executed)
    (he : ChildEffect P actor h.child child')
    (hcirc : circ_supply' = h.child_circ_supply + totalValue batch) :
    Accounted P actor genesis { h with
      child := child', child_circ_supply := circ_supply',
      top_down_executed := h.top_down_executed + batch.length } := by
  obtain ⟨rs, hmsgs, hrs⟩ := he.receipts
  obtain ⟨htake, hle⟩ := take_add_length_of_prefix hA.top_down_le hbatch
  -- None of the receipts counts as burnt.
  have hfilter : (rs.filter fun m => m.kind ≠ .Result) = [] :=
    List.filter_eq_nil_iff.mpr fun r hr => by simp [(hrs r hr).1]
  refine ⟨hA.parent_name, he.networkName.trans hA.child_name, hA.registered, hA.parent_postbox,
    he.postbox.trans hA.child_postbox, hA.down, ?_, hle, ?_, ?_, ?_, ?_⟩
  · rw [hmsgs]
    exact List.forall_mem_append.mpr ⟨hA.up, fun r hr => (hrs r hr).2⟩
  · have := hA.bottom_up_le
    simp only [hmsgs, List.length_append]
    omega
  · simp only [hmsgs, List.take_append_of_le_length hA.bottom_up_le]
    exact hA.circ
  · simp only [hcirc, hA.minted, htake, totalValue_append]
    omega
  · rw [he.burnt, hA.burnt, hmsgs, List.filter_append, hfilter, List.append_nil]

/-- The parent executing a batch of what came up keeps the accounting: the batch's total leaves
the record, and the receipts it commits down add to both sides. -/
theorem execBottomUp {parent' : GatewayState Address Hash} {subnet : Subnet Address}
    {batch : List (IpcEnvelope Address)} (hA : Accounted P actor genesis h)
    (hbatch : batch <+: h.child.bottomUpMsgs.drop h.bottom_up_executed)
    (hsubnet : h.parent.getSubnet (P.createSubnetId actor) = some subnet)
    (hcovered : totalValue batch ≤ subnet.circSupply)
    (he : ParentEffect P actor (h.parent.updateSubnet (P.createSubnetId actor) fun sn =>
      { sn with circSupply := sn.circSupply - totalValue batch }) parent') :
    Accounted P actor genesis { h with
      parent := parent', bottom_up_executed := h.bottom_up_executed + batch.length } := by
  obtain ⟨rs, hmsgs, hcirc, hrs⟩ := he.receipts
  obtain ⟨htake, hle⟩ := take_add_length_of_prefix hA.bottom_up_le hbatch
  have hid : ∀ sn : Subnet Address,
      ({ sn with circSupply := sn.circSupply - totalValue batch } : Subnet Address).id = sn.id :=
    fun _ => rfl
  -- The record of the child loses the batch's total.
  have hcirc₀ : h.parent.circOf (P.createSubnetId actor) = subnet.circSupply := by
    simp [circOf, hsubnet]
  have hcirc₁ : (h.parent.updateSubnet (P.createSubnetId actor) fun sn =>
      { sn with circSupply := sn.circSupply - totalValue batch }).circOf (P.createSubnetId actor) =
      subnet.circSupply - totalValue batch := by
    simp [circOf_updateSubnet_self _ hid, hsubnet]
  rw [topDownMsgsFor_updateSubnet] at hmsgs
  refine ⟨he.networkName.trans hA.parent_name, hA.child_name, ?_, he.postbox.trans hA.parent_postbox,
    hA.child_postbox, ?_, hA.up, ?_, hle, ?_, ?_, hA.burnt⟩
  · rw [he.registered, isSome_getSubnet_updateSubnet _ hid]
    exact hA.registered
  · rw [hmsgs]
    exact List.forall_mem_append.mpr ⟨hA.down, hrs⟩
  · have := hA.top_down_le
    simp only [hmsgs, List.length_append]
    omega
  · have := hA.circ
    simp only [hcirc, hcirc₁, hmsgs, htake, totalValue_append] at this ⊢
    omega
  · simp only [hmsgs, List.take_append_of_le_length hA.top_down_le]
    exact hA.minted

/-- Once everything is executed, the accounting reads with the whole logs: the parent's record
of the child's supply and what the child burnt make up the child's supply except for the value
of the child's receipts. -/
theorem circOf_add_burnt (hA : Accounted P actor genesis h) (hq : Quiescent P actor h) :
    h.parent.circOf (P.createSubnetId actor) + h.child.burnt +
        totalValue (h.child.bottomUpMsgs.filter fun m => m.kind = .Result) =
      h.child_circ_supply := by
  have hcirc := hA.circ
  have hminted := hA.minted
  rw [hq.2, List.take_length] at hcirc
  rw [hq.1, List.take_length] at hminted
  have hsplit := totalValue_receipts_add h.child.bottomUpMsgs
  rw [hA.burnt]
  omega

end Accounted

section Run

variable {P : SubnetID Address} {actor : Address} {genesis : Nat}

/-- Every step keeps the accounting. -/
theorem accounted_step (hP : P.isEmpty = false)
    (hnative : env.supplyKind (P.createSubnetId actor) = .Native) {h h' : Hierarchy Address Hash}
    (hA : Accounted P actor genesis h) (hstep : Step env P actor h h') : Accounted P actor genesis h' := by
  cases hstep with
  | fund sender to_ value hfund =>
    exact hA.parentEffect (parentEffect_fund env hA.parent_name hfund)
  | release sender to_ value hrelease =>
    exact hA.childSend (childSend_release hA.child_name hrelease)
  | send_down sender isContract envelope msgValue hto hsend =>
    exact hA.parentEffect (parentEffect_sendContractXnetMessage env hA.parent_name hnative hto hsend)
  | send_up sender isContract envelope msgValue hto hsend =>
    exact hA.childSend (childSend_sendContractXnetMessage env hP hA.child_name hto hsend)
  | exec_top_down execute batch hbatch hexec =>
    obtain ⟨hcirc, parent, hparent, happly⟩ := executeTopdownMsgs_eq_ok env execute hexec
    rw [hA.child_name, SubnetID.getParentSubnet_createSubnetId, Except.ok.injEq] at hparent
    subst hparent
    have hmsgs : ∀ m ∈ batch, m.from_.subnetId = P ∧ m.to_.subnetId = P.createSubnetId actor :=
      fun m hm => hA.down m (List.mem_of_mem_drop (hbatch.subset hm))
    exact hA.execTopDown hbatch
      (childEffect_applyMessages env execute hP batch hA.child_name hmsgs happly) hcirc
  | exec_bottom_up execute batch hbatch hsubnet hexec =>
    obtain ⟨hcovered, happly⟩ := execBottomUpMsgs_eq_ok env execute hexec
    rw [id_of_getSubnet hsubnet] at happly
    have hmsgs : ∀ m ∈ batch, m.from_.subnetId = P.createSubnetId actor ∧ m.to_.subnetId = P :=
      fun m hm => hA.up m (List.mem_of_mem_drop (hbatch.subset hm))
    exact hA.execBottomUp hbatch hsubnet hcovered
      (parentEffect_applyMessages env execute hP hnative batch (by exact hA.parent_name) hmsgs happly)
  | propagate_parent msgCid hprop =>
    exact absurd hprop (propagate_ne_ok_of_postbox_empty env hA.parent_postbox)
  | propagate_child msgCid hprop =>
    exact absurd hprop (propagate_ne_ok_of_postbox_empty env hA.child_postbox)

/-- The accounting holds in every reachable state. -/
theorem accounted_of_reachable (hP : P.isEmpty = false)
    (hnative : env.supplyKind (P.createSubnetId actor) = .Native) {h : Hierarchy Address Hash}
    (hr : Reachable (Initial P actor genesis) (Step env P actor) h) : Accounted P actor genesis h :=
  Reachable.invariant (I := Accounted P actor genesis) (fun _ hi => Accounted.of_initial hi)
    (fun _ _ hA hstep => accounted_step env hP hnative hA hstep) hr

/-- Once everything is executed, the parent's record of the child's supply and what the child
burnt make up the child's supply except for the value of the child's receipts. -/
theorem circOf_add_burnt_of_quiescent (hP : P.isEmpty = false)
    (hnative : env.supplyKind (P.createSubnetId actor) = .Native) {h : Hierarchy Address Hash}
    (hr : Reachable (Initial P actor genesis) (Step env P actor) h) (hq : Quiescent P actor h) :
    h.parent.circOf (P.createSubnetId actor) + h.child.burnt +
        totalValue (h.child.bottomUpMsgs.filter fun m => m.kind = .Result) =
      h.child_circ_supply :=
  (accounted_of_reachable env hP hnative hr).circOf_add_burnt hq

end Run

/-- The parent funds an address of the child with 5, the transfer fails in the child, and the
child's receipt of 5 goes up unburnt; the parent executes it. Everything is then executed: the
child minted 5 and burnt nothing. -/
theorem failed_transfer_run :
    let env : Env Nat Nat :=
      ⟨fun _ => .Native, fun _ => 0, fun _ _ _ => [], fun _ => [], fun _ => true⟩
    let P : SubnetID Nat := ⟨1, []⟩
    ∃ h : Hierarchy Nat Nat, Reachable (Initial P 7 100) (Step env P 7) h ∧ Quiescent P 7 h ∧
      totalValue (h.parent.topDownMsgsFor (P.createSubnetId 7)) = 5 ∧ h.child.burnt = 0 ∧
      h.child_circ_supply = 105 ∧
      totalValue (h.child.bottomUpMsgs.filter fun m => m.kind = .Result) = 5 := by
  intro env P
  let h₀ : Hierarchy Nat Nat :=
    ⟨⟨⟨1, []⟩, 0, 0, [⟨SubnetID.createSubnetId ⟨1, []⟩ 7, 100, 0, 0⟩], ∅, [], [], 0, true, true⟩,
      ⟨SubnetID.createSubnetId ⟨1, []⟩ 7, 0, 0, [], ∅, [], [], 0, true, true⟩, 100, 0, 0⟩
  have hi : Initial P 7 100 h₀ := ⟨rfl, rfl, rfl, rfl, rfl, rfl, rfl, rfl, rfl, rfl, rfl, rfl⟩
  -- The parent funds address 2 of the child with 5.
  have h₁ : Reachable (Initial P 7 100) (Step env P 7) _ :=
    (Reachable.of_init hi).tail (Step.fund 1 2 5 rfl)
  -- The child mints 5; the recipient fails, and the child commits the receipt up.
  have h₂ : Reachable (Initial P 7 100) (Step env P 7) _ :=
    h₁.tail (Step.exec_top_down (fun _ _ => (false, [])) _ (List.prefix_refl _) rfl)
  -- The parent executes the receipt.
  have h₃ : Reachable (Initial P 7 100) (Step env P 7) _ :=
    h₂.tail (Step.exec_bottom_up (fun _ _ => (true, [])) _ (List.prefix_refl _) rfl rfl)
  exact ⟨_, h₃, ⟨rfl, rfl⟩, rfl, rfl, rfl, rfl⟩

/-- The run of `failed_transfer_run`, where the accounting of `circOf_add_burnt_of_quiescent`
holds with the receipt's 5. -/
theorem circOf_add_burnt_after_failed_transfer :
    let env : Env Nat Nat :=
      ⟨fun _ => .Native, fun _ => 0, fun _ _ _ => [], fun _ => [], fun _ => true⟩
    let P : SubnetID Nat := ⟨1, []⟩
    ∃ h : Hierarchy Nat Nat, P.isEmpty = false ∧ env.supplyKind (P.createSubnetId 7) = .Native ∧
      Reachable (Initial P 7 100) (Step env P 7) h ∧ Quiescent P 7 h ∧
      h.parent.circOf (P.createSubnetId 7) + h.child.burnt +
          totalValue (h.child.bottomUpMsgs.filter fun m => m.kind = .Result) =
        h.child_circ_supply := by
  intro env P
  obtain ⟨h, hr, hq, -⟩ := failed_transfer_run
  exact ⟨h, rfl, rfl, hr, hq, circOf_add_burnt_of_quiescent env rfl rfl hr hq⟩

/-- In the run of `failed_transfer_run`, the parent's record of the child's supply is back at the
genesis 100 once it executes the receipt, while the child minted 5 and burnt nothing. -/
theorem circOf_misses_unburnt_receipt :
    let env : Env Nat Nat :=
      ⟨fun _ => .Native, fun _ => 0, fun _ _ _ => [], fun _ => [], fun _ => true⟩
    let P : SubnetID Nat := ⟨1, []⟩
    ∃ h : Hierarchy Nat Nat, Reachable (Initial P 7 100) (Step env P 7) h ∧ Quiescent P 7 h ∧
      totalValue (h.parent.topDownMsgsFor (P.createSubnetId 7)) = 5 ∧ h.child.burnt = 0 ∧
      h.child_circ_supply = 105 ∧ h.parent.circOf (P.createSubnetId 7) = 100 := by
  intro env P
  obtain ⟨h, hr, hq, hminted, hburnt, hsupply, hreceipts⟩ := failed_transfer_run
  -- the record, what was burnt and the receipt make up the supply of 105
  have hsum := (accounted_of_reachable env rfl rfl hr).circOf_add_burnt hq
  rw [hburnt, hreceipts, hsupply] at hsum
  have hcirc : h.parent.circOf (SubnetID.createSubnetId ⟨1, []⟩ 7) = 100 := by omega
  exact ⟨h, hr, hq, hminted, hburnt, hsupply, hcirc⟩

end Hierarchy

end Delorean.Gateway
