import Mathlib.Data.List.Basic

/-!
# Subnet ids and cross-net envelopes

A subnet is named by the chain id of its root and the route of subnet actor addresses below it
(`SubnetID`). A cross-net message travels in an `IpcEnvelope` from an `IPCAddress` to another;
the gateway that handles it decides from the two subnets and its own whether the message is going
up or down the hierarchy (`CrossMsgHelper.applyType`), and the routing helpers of
`SubnetIDHelper` find the common parent of two subnets and the next subnet down a route.

For a subnet `C = P.createSubnetId a` registered in `P`, the lemmas at the end say how these
helpers route between the two: a message from `C` to `P` goes up at both, one from `P` to `C`
goes down at both, and the next subnet from `P` towards `C` is `C`.

Subnet ids are compared by the hash of their encoding, which is taken to be collision-free.
-/

namespace Delorean.Gateway

/-- `InvalidXnetMessageReason`. -/
inductive InvalidXnetMessageReason where
  | Sender
  | DstSubnet
  | Nonce
  | Value
  | Kind
  deriving DecidableEq, Repr

/-- The errors the gateway and its helpers revert with. -/
inductive Revert where
  | NoParentForSubnet
  | DifferentRootNetwork
  | InvalidRoute
  | InvalidXnetMessage (reason : InvalidXnetMessageReason)
  | CannotSendCrossMsgToItself
  | MethodNotAllowed (reason : String)
  | NotRegisteredSubnet
  | NotEnoughSubnetCircSupply
  | UnexpectedSupplySource
  | InvalidCheckpointSource
  | SubnetNotFound
  | InvalidSubnet
  | MaxMsgsPerBatchExceeded
  /-- `abi.decode` of an envelope's message as a `CallMsg` failed. -/
  | AbiDecode
  deriving DecidableEq, Repr

/-- `SubnetID`: the chain id of the root and the route of subnet actors below it. -/
structure SubnetID (Address : Type) where
  root : Nat
  route : List Address
  deriving DecidableEq, Repr

section Routes

variable {Address : Type} [DecidableEq Address]

/-- The length of the common prefix of two routes: the `while` loop of `commonParent` and
`down`. -/
def commonPrefixLength : List Address → List Address → Nat
  | a :: as, b :: bs => if a = b then commonPrefixLength as bs + 1 else 0
  | _, _ => 0

@[simp]
theorem commonPrefixLength_self (r : List Address) : commonPrefixLength r r = r.length := by
  induction r with
  | nil => rfl
  | cons a r ih => simp [commonPrefixLength, ih]

theorem commonPrefixLength_append_singleton_left (r : List Address) (a : Address) :
    commonPrefixLength (r ++ [a]) r = r.length := by
  induction r with
  | nil => rfl
  | cons b r ih => simp [commonPrefixLength, ih]

theorem commonPrefixLength_append_singleton_right (r : List Address) (a : Address) :
    commonPrefixLength r (r ++ [a]) = r.length := by
  induction r with
  | nil => rfl
  | cons b r ih => simp [commonPrefixLength, ih]

end Routes

namespace SubnetID

variable {Address : Type} [DecidableEq Address]

/-- `isEmpty`: the zero id. -/
def isEmpty (s : SubnetID Address) : Bool := s.route.length == 0 && s.root == 0

/-- `equals`: the roots, the route lengths and the hashes of the encodings agree, which for a
collision-free hash is equality. -/
def equals (a b : SubnetID Address) : Bool := decide (a = b)

/-- `getParentSubnet`: drop the last actor of the route; a root has no parent. -/
def getParentSubnet (s : SubnetID Address) : Except Revert (SubnetID Address) :=
  if s.route.length = 0 then .error .NoParentForSubnet
  else .ok ⟨s.root, s.route.take (s.route.length - 1)⟩

/-- `createSubnetId`: the id of the child subnet whose actor is `actor`. -/
def createSubnetId (s : SubnetID Address) (actor : Address) : SubnetID Address :=
  ⟨s.root, s.route ++ [actor]⟩

/-- `commonParent`: the longest common prefix of the routes, or the zero id across roots. The
source's separate case for an empty prefix returns the same id. -/
def commonParent (a b : SubnetID Address) : SubnetID Address :=
  if a.root ≠ b.root then ⟨0, []⟩
  else ⟨a.root, a.route.take (commonPrefixLength a.route b.route)⟩

/-- `down`: the next subnet from `b` down the route of `a`, which must extend it. -/
def down (a b : SubnetID Address) : Except Revert (SubnetID Address) :=
  if a.root ≠ b.root then .error .DifferentRootNetwork
  else if a.route.length ≤ b.route.length then .error .InvalidRoute
  else .ok ⟨a.root, a.route.take (commonPrefixLength a.route b.route + 1)⟩

@[simp]
theorem equals_iff {a b : SubnetID Address} : a.equals b = true ↔ a = b := by
  simp [equals]

@[simp]
theorem commonParent_self (s : SubnetID Address) : s.commonParent s = s := by
  simp [commonParent]

section Child

variable (parent : SubnetID Address) (actor : Address)

omit [DecidableEq Address] in
@[simp]
theorem route_createSubnetId : (parent.createSubnetId actor).route = parent.route ++ [actor] := rfl

omit [DecidableEq Address] in
theorem createSubnetId_ne : parent.createSubnetId actor ≠ parent := by
  intro h
  have hlen := congrArg (fun s : SubnetID Address => s.route.length) h
  simp [createSubnetId] at hlen

omit [DecidableEq Address] in
@[simp]
theorem isEmpty_createSubnetId : (parent.createSubnetId actor).isEmpty = false := by
  simp [isEmpty, createSubnetId]

omit [DecidableEq Address] in
@[simp]
theorem getParentSubnet_createSubnetId :
    (parent.createSubnetId actor).getParentSubnet = .ok parent := by
  simp [getParentSubnet, createSubnetId]

@[simp]
theorem commonParent_createSubnetId_left :
    (parent.createSubnetId actor).commonParent parent = parent := by
  simp [commonParent, createSubnetId, commonPrefixLength_append_singleton_left]

@[simp]
theorem commonParent_createSubnetId_right :
    parent.commonParent (parent.createSubnetId actor) = parent := by
  simp [commonParent, createSubnetId, commonPrefixLength_append_singleton_right]

@[simp]
theorem down_createSubnetId :
    (parent.createSubnetId actor).down parent = .ok (parent.createSubnetId actor) := by
  have htake : (parent.route ++ [actor]).take (parent.route.length + 1) = parent.route ++ [actor] :=
    List.take_of_length_le (by simp)
  simp [down, createSubnetId, commonPrefixLength_append_singleton_left, htake]

end Child

end SubnetID

/-- `IpcMsgKind`. -/
inductive IpcMsgKind where
  | Transfer
  | Call
  | Result
  deriving DecidableEq, Repr

/-- `OutcomeType`. -/
inductive OutcomeType where
  | Ok
  | SystemErr
  | ActorErr
  deriving DecidableEq, Repr

/-- `IPCMsgType`. -/
inductive IPCMsgType where
  | BottomUp
  | TopDown
  deriving DecidableEq, Repr

/-- `SupplyKind`. -/
inductive SupplyKind where
  | Native
  | ERC20
  deriving DecidableEq, Repr

/-- `IPCAddress`. -/
structure IPCAddress (Address : Type) where
  subnetId : SubnetID Address
  rawAddress : Address
  deriving DecidableEq, Repr

/-- `IpcEnvelope`. -/
structure IpcEnvelope (Address : Type) where
  kind : IpcMsgKind
  to_ : IPCAddress Address
  from_ : IPCAddress Address
  nonce : Nat
  value : Nat
  message : List UInt8
  deriving DecidableEq, Repr

namespace IpcEnvelope

variable {Address : Type} [DecidableEq Address]

/-- `isEmpty`: a `Transfer` without value, or another envelope without a message. -/
def isEmpty (m : IpcEnvelope Address) : Bool :=
  if m.kind = .Transfer then m.value == 0 else m.message.length == 0

/-- `applyType`: a message goes up at the current subnet when the current subnet and the
message's source reach its destination through the same common parent, and the source lies
below it. -/
def applyType (message : IpcEnvelope Address) (currentSubnet : SubnetID Address) : IPCMsgType :=
  let toSubnet := message.to_.subnetId
  let fromSubnet := message.from_.subnetId
  let currentParentSubnet := currentSubnet.commonParent toSubnet
  let messageParentSubnet := fromSubnet.commonParent toSubnet
  if currentParentSubnet.equals messageParentSubnet &&
      decide (fromSubnet.route.length > messageParentSubnet.route.length) then .BottomUp
  else .TopDown

section Child

variable {parent : SubnetID Address} {actor : Address} {m : IpcEnvelope Address}

/-- A message from the child to the parent goes up at the child. -/
theorem applyType_up_at_child (hto : m.to_.subnetId = parent)
    (hfrom : m.from_.subnetId = parent.createSubnetId actor) :
    m.applyType (parent.createSubnetId actor) = .BottomUp := by
  simp [applyType, hto, hfrom]

/-- A message from the child to the parent goes up at the parent. -/
theorem applyType_up_at_parent (hto : m.to_.subnetId = parent)
    (hfrom : m.from_.subnetId = parent.createSubnetId actor) :
    m.applyType parent = .BottomUp := by
  simp [applyType, hto, hfrom]

/-- A message from the parent to the child goes down at the parent: the parent is the common
parent and the source. -/
theorem applyType_down_at_parent (hto : m.to_.subnetId = parent.createSubnetId actor)
    (hfrom : m.from_.subnetId = parent) : m.applyType parent = .TopDown := by
  simp [applyType, hto, hfrom]

/-- A message from the parent to the child goes down at the child. -/
theorem applyType_down_at_child (hto : m.to_.subnetId = parent.createSubnetId actor)
    (hfrom : m.from_.subnetId = parent) : m.applyType (parent.createSubnetId actor) = .TopDown := by
  simp [applyType, hto, hfrom]

end Child

end IpcEnvelope

section Create

variable {Address : Type}

/-- `createTransferMsg`. -/
def createTransferMsg (from_ to_ : IPCAddress Address) (value : Nat) : IpcEnvelope Address :=
  ⟨.Transfer, to_, from_, 0, value, []⟩

/-- `createFundMsg`: from the signer in the parent to `to` in the subnet. -/
def createFundMsg (subnet : SubnetID Address) (signer to_ : Address) (value : Nat) :
    Except Revert (IpcEnvelope Address) := do
  let parent ← subnet.getParentSubnet
  pure (createTransferMsg ⟨parent, signer⟩ ⟨subnet, to_⟩ value)

/-- `createReleaseMsg`: from the signer in the subnet to `to` in its parent. -/
def createReleaseMsg (subnet : SubnetID Address) (signer to_ : Address) (value : Nat) :
    Except Revert (IpcEnvelope Address) := do
  let parent ← subnet.getParentSubnet
  pure (createTransferMsg ⟨subnet, signer⟩ ⟨parent, to_⟩ value)

variable (abiEncodeResult : IpcEnvelope Address → OutcomeType → List UInt8 → List UInt8)

/-- `createResultMsg`: the receipt goes back from the destination to the source and carries the
message's value, except after a successful execution, when the value stayed at the destination.
Its message is the encoded `ResultMsg` of the envelope's hash, the outcome and the return data,
which `abiEncodeResult` stands for. -/
def createResultMsg (crossMsg : IpcEnvelope Address) (outcome : OutcomeType) (ret : List UInt8) :
    IpcEnvelope Address :=
  let value := if outcome = .Ok then 0 else crossMsg.value
  ⟨.Result, crossMsg.from_, crossMsg.to_, 0, value, abiEncodeResult crossMsg outcome ret⟩

@[simp]
theorem kind_createResultMsg (crossMsg : IpcEnvelope Address) (outcome : OutcomeType)
    (ret : List UInt8) : (createResultMsg abiEncodeResult crossMsg outcome ret).kind = .Result := rfl

@[simp]
theorem to_createResultMsg (crossMsg : IpcEnvelope Address) (outcome : OutcomeType)
    (ret : List UInt8) : (createResultMsg abiEncodeResult crossMsg outcome ret).to_ = crossMsg.from_ :=
  rfl

@[simp]
theorem from_createResultMsg (crossMsg : IpcEnvelope Address) (outcome : OutcomeType)
    (ret : List UInt8) : (createResultMsg abiEncodeResult crossMsg outcome ret).from_ = crossMsg.to_ :=
  rfl

@[simp]
theorem value_createResultMsg (crossMsg : IpcEnvelope Address) (outcome : OutcomeType)
    (ret : List UInt8) :
    (createResultMsg abiEncodeResult crossMsg outcome ret).value =
      if outcome = .Ok then 0 else crossMsg.value := rfl

end Create

end Delorean.Gateway
