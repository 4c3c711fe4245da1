import Delorean.Eth.Conv

/-!
# Signed messages from Ethereum accounts

`SignedMessage::signable` and `verify_signature`. The scheme is chosen by the sender: a message
from an `f410` address to an Ethereum-compatible recipient is signed as the `sighash` of its
Ethereum transaction, and the check recovers the signer from the signature and that hash and
compares it with the sender. The method number is not in the transaction, so
`verify_eth_method` checks it against the recipient instead.

What the signature fixes is therefore the transaction, not the message. On the canonical
messages of `Conv` the transaction determines the message, and the signer fixes the sender the
hash leaves out, so one accepted signature pins every field (`verifySignature_ethereum_unique`).
Outside them the version, the sign of an amount and the `f410` form of a masked ID can all be
changed under a valid signature (`verifySignature_accepts_tampered_message`), although
`to_eth_address` refuses other addresses precisely to prevent tampering with them.

The hash and the signature checks are parameters: `sighash` is the keccak hash of the
transaction's RLP encoding, which leaves the sender out, and the recovery stands for the
secp256k1 recovery of the signer.
-/

namespace Delorean.Eth

/-- The length check of `maybe_eth_address` is what makes its `try_into` infallible. -/
theorem size_toArray_of_eamDelegated {ns : ActorID} {sub : List UInt8}
    (h : ns = eamActorId ∧ sub.length = 20) : sub.toArray.size = 20 :=
  List.size_toArray.trans h.2

/-- `maybe_eth_address`: the 20 bytes of an EAM-delegated address. -/
def maybeEthAddress : Address → Option EthAddress
  | .Delegated ns sub =>
    if h : ns = eamActorId ∧ sub.length = 20 then some ⟨sub.toArray, size_toArray_of_eamDelegated h⟩
    else none
  | .ID _ | .Secp256k1 _ | .Actor _ | .BLS _ => none

/-- `is_eth_addr_compat`: `to_eth_address` accepts the address. -/
def isEthAddrCompat (addr : Address) : Bool := (toEthAddress addr).toBool

/-- `chain_id_bytes`: the chain ID's eight big-endian bytes. -/
def chainIdBytes (chain_id : ChainID) : List UInt8 := BigEndian.toBytes 8 chain_id.toNat

/-- `verify_eth_method`: the EAM is only called to deploy, and anything else only to invoke. -/
def verifyEthMethod (msg : Message) : Except EthError Unit :=
  if msg.to_ = eamActorAddr then
    if msg.method_num ≠ createExternal then .error (.eamMethod msg.method_num) else .ok ()
  else if msg.method_num ≠ invokeContract then .error (.evmMethod msg.to_ msg.method_num)
  else .ok ()

/-- `Signable`: what the signature covers, and the sender's Ethereum address where there is one. -/
inductive Signable (Hash : Type)
  | Ethereum (hash : Hash) (from_ : EthAddress)
  | Regular (data : List UInt8)
  | RegularFromEth (data : List UInt8) (from_ : EthAddress)
  deriving DecidableEq

/-- `SignedMessageError`. -/
inductive SignedMessageError
  | Ethereum (e : EthError)
  | InvalidSignature (msg : String)
  deriving DecidableEq

/-- What `verify_signature` computes outside this crate: the transaction's `sighash`, the bytes
of the message's CID, the recovery of the Ethereum signer (`to_eth_signature` and then
`recover`), `Signature::verify`, and `recover_secp256k1` with the signer's Ethereum address. -/
structure Crypto (Sig Hash : Type) where
  sighash : Eip1559TransactionRequest → Hash
  /-- The RLP encoding of an EIP-1559 request, which `sighash` hashes, has no sender field. -/
  sighash_from : ∀ tx, sighash { tx with from_ := none } = sighash tx
  cid : Message → List UInt8
  ethRecover : Sig → Hash → Except String EthAddress
  verify : Sig → List UInt8 → Address → Except String Unit
  recoverSecp256k1 : Sig → List UInt8 → Except String EthAddress

section Verify

variable {Sig Hash : Type} (codec : BytesCodec) (crypto : Crypto Sig Hash)

/-- `SignedMessage::signable`: the Ethereum scheme for an `f410` sender and an
Ethereum-compatible recipient, the CID and the chain ID otherwise. -/
def signable (msg : Message) (chain_id : ChainID) : Except SignedMessageError (Signable Hash) :=
  match maybeEthAddress msg.from_ with
  | some addr =>
    if isEthAddrCompat msg.to_ then
      match toEthTransactionRequest codec msg chain_id with
      | .ok tx => .ok (.Ethereum (crypto.sighash tx) addr)
      | .error e => .error (.Ethereum e)
    else .ok (.RegularFromEth (crypto.cid msg ++ chainIdBytes chain_id) addr)
  | none => .ok (.Regular (crypto.cid msg ++ chainIdBytes chain_id))

variable [Repr Hash]

/-- The check `verify_signature` makes of what `signable` gave, one case for each scheme. -/
def verifySignable (msg : Message) (signature : Sig) :
    Signable Hash → Except SignedMessageError Unit
  | .Ethereum hash from_ =>
    match crypto.ethRecover signature hash with
    | .error e => .error (.Ethereum (.msg e))
    | .ok rec_ =>
      if rec_ = from_ then (verifyEthMethod msg).mapError .Ethereum
      else .error (.InvalidSignature ("the Ethereum delegated address did not match the one " ++
        "recovered from the signature (sighash = " ++ reprStr hash ++ ")"))
  | .Regular data => (crypto.verify signature data msg.from_).mapError .InvalidSignature
  | .RegularFromEth data from_ =>
    match crypto.recoverSecp256k1 signature data with
    | .error e => .error (.InvalidSignature e)
    | .ok rec_ =>
      if rec_ = from_ then .ok ()
      else .error (.InvalidSignature ("the Ethereum delegated address did not match the one " ++
        "recovered from the signature"))

/-- `SignedMessage::verify_signature`. -/
def verifySignature (msg : Message) (signature : Sig) (chain_id : ChainID) :
    Except SignedMessageError Unit :=
  signable codec crypto msg chain_id >>= verifySignable crypto msg signature

/-! ## What an accepted signature fixes -/

/-- Under the Ethereum scheme the verdict reads a message only through its transaction, its
sender and `verify_eth_method`. -/
theorem verifySignature_eq_of_same_request {msg msg' : Message} (sig : Sig) (chain_id : ChainID)
    (hfrom : msg'.from_ = msg.from_) (heth : (maybeEthAddress msg.from_).isSome)
    (hcompat : isEthAddrCompat msg.to_ = true) (hcompat' : isEthAddrCompat msg'.to_ = true)
    (hrequest :
      toEthTransactionRequest codec msg' chain_id = toEthTransactionRequest codec msg chain_id)
    (hmethod : verifyEthMethod msg' = verifyEthMethod msg) :
    verifySignature codec crypto msg' sig chain_id =
      verifySignature codec crypto msg sig chain_id := by
  obtain ⟨addr, haddr⟩ := Option.isSome_iff_exists.1 heth
  have hsignable : signable codec crypto msg' chain_id = signable codec crypto msg chain_id := by
    simp only [signable, hfrom, haddr, if_pos hcompat, if_pos hcompat', hrequest]
  rw [verifySignature, verifySignature, hsignable]
  cases signable codec crypto msg chain_id with
  | error e => rfl
  | ok s =>
    simp only [Except.ok_bind]
    -- each scheme reads the message through what the hypotheses equate, or not at all
    cases s with
    | Ethereum hash from_ => simp only [verifySignable, hmethod]
    | Regular data => simp only [verifySignable, hfrom]
    | RegularFromEth data from_ => rfl

/-- Three changes to a message from an `f410` sender keep its transaction, and with it the
verdict on every signature: a new version, the sign of the value, and an `f0<id>` recipient
turned into the `f410` form of its masked ID. Each changed message converts back to the
original. -/
theorem verifySignature_tampered_keeps_verdict (codec : BytesCodec)
    (crypto : Crypto Sig Hash) (sig : Sig) :
    let msg : Message :=
      { version := 0, from_ := .Delegated eamActorId (List.replicate 20 0x11), to_ := .ID 1234,
        sequence := 7, value := 5, method_num := invokeContract, params := codec.serialize [],
        gas_limit := 21000, gas_fee_cap := 3, gas_premium := 1 }
    ∀ tampered ∈ [{ msg with version := 1 }, { msg with value := -5 },
        { msg with to_ := .Delegated eamActorId (EthAddress.fromId 1234).toList }],
      tampered ≠ msg ∧
      verifySignature codec crypto tampered sig 1 = verifySignature codec crypto msg sig 1 ∧
      (toEthTransactionRequest codec tampered 1 >>= toFvmMessage codec) = .ok msg := by
  intro msg
  have hdata : codec.bytesDe (codec.serialize []) = .ok [] := by
    simp [BytesCodec.bytesDe, codec.fromSlice_serialize]
  obtain ⟨tx, htx⟩ : ∃ tx, toEthTransactionRequest codec msg 1 = .ok tx :=
    ⟨_, (toEthTransactionRequest_eq_ok codec).2 ⟨[], _, _, _, _, _, hdata, rfl, rfl, rfl, rfl, rfl,
      rfl⟩⟩
  have hcanon : Canonical codec msg :=
    ⟨rfl, show (0 : Int) ≤ 5 by decide, show (0 : Int) ≤ 3 by decide, show (0 : Int) ≤ 1 by decide,
      by simp [msg, codec.fromSlice_serialize], rfl, rfl⟩
  have hmethod : msg.method_num =
      if msg.to_ = eamActorAddr then createExternal else invokeContract :=
    show invokeContract = if Address.ID 1234 = eamActorAddr then createExternal else invokeContract
      by decide
  have hback : toFvmMessage codec tx = .ok msg :=
    toFvmMessage_toEthTransactionRequest codec htx hcanon ⟨_, rfl⟩ hmethod
  -- a change that keeps the request keeps the verdict and converts back to `msg`
  have hkeep : ∀ tampered : Message, tampered.from_ = msg.from_ →
      isEthAddrCompat tampered.to_ = true → verifyEthMethod tampered = verifyEthMethod msg →
      toEthTransactionRequest codec tampered 1 = toEthTransactionRequest codec msg 1 →
      verifySignature codec crypto tampered sig 1 = verifySignature codec crypto msg sig 1 ∧
      (toEthTransactionRequest codec tampered 1 >>= toFvmMessage codec) = .ok msg := by
    intro tampered hfrom hcompat hmethod hrequest
    refine ⟨verifySignature_eq_of_same_request codec crypto sig 1 hfrom rfl rfl hcompat hrequest
      hmethod, ?_⟩
    rw [hrequest, htx, Except.ok_bind, hback]
  intro tampered htampered
  simp only [List.mem_cons, List.not_mem_nil, or_false] at htampered
  rcases htampered with rfl | rfl | rfl
  · refine ⟨fun h => by simp [msg] at h, hkeep _ rfl rfl rfl ?_⟩
    exact toEthTransactionRequest_congr codec 1 rfl rfl rfl rfl rfl rfl rfl rfl
  · refine ⟨fun h => by simp [msg] at h, hkeep _ rfl rfl rfl ?_⟩
    exact toEthTransactionRequest_congr codec 1 rfl rfl rfl rfl rfl rfl rfl
      (toEthValue_neg (by decide))
  · have hcompat : isEthAddrCompat (.Delegated eamActorId (EthAddress.fromId 1234).toList) := by
      decide
    refine ⟨fun h => by simp [msg] at h, hkeep _ rfl hcompat rfl ?_⟩
    exact toEthTransactionRequest_congr codec 1 rfl rfl rfl rfl rfl rfl
      (toEthAddress_maskedDelegated (by decide)) rfl

/-- With a codec that writes the CBOR header of a short byte string, as the IPLD encoding of
empty params is `0x40`, a `sighash` that keeps every field of the request but its sender, and a
recovery that gives the sender back from the hash of the transaction it signed and from no other
hash, the message is accepted, and so is each of its three changed forms under the same
signature: version 1, value -5, and the recipient `f01234` rewritten to the `f410` form of its
masked ID `0xff00..04d2`. -/
theorem verifySignature_accepts_tampered_message :
    let codec : BytesCodec :=
      ⟨fun bytes => 0x40 :: bytes, fun data => if data.head? = some 0x40 then some data.tail else none,
        fun _ => by simp⟩
    let signed : Eip1559TransactionRequest :=
      { from_ := none, to_ := some (.Address (EthAddress.fromId 1234)),
        gas := some 21000#256, value := some 5#256, data := some [], nonce := some 7#256,
        max_priority_fee_per_gas := some 1#256, max_fee_per_gas := some 3#256,
        chain_id := some 1 }
    let crypto : Crypto Unit Eip1559TransactionRequest :=
      ⟨fun tx => { tx with from_ := none }, fun _ => rfl, fun _ => [],
        fun _ hash => if hash = signed then .ok (Vector.replicate 20 0x11) else .error "recovery",
        fun _ _ _ => .ok (), fun _ _ => .error "recovery"⟩
    let msg : Message :=
      { version := 0, from_ := .Delegated eamActorId (List.replicate 20 0x11), to_ := .ID 1234,
        sequence := 7, value := 5, method_num := invokeContract, params := [0x40],
        gas_limit := 21000, gas_fee_cap := 3, gas_premium := 1 }
    verifySignature codec crypto msg () 1 = .ok () ∧
      ∀ tampered ∈ [{ msg with version := 1 }, { msg with value := -5 },
          { msg with to_ := .Delegated eamActorId (EthAddress.fromId 1234).toList }],
        tampered ≠ msg ∧ verifySignature codec crypto tampered () 1 = .ok () := by
  intro codec signed crypto msg
  have hmsg : verifySignature codec crypto msg () 1 = .ok () := by decide
  refine ⟨hmsg, fun tampered htampered => ?_⟩
  obtain ⟨hne, hsame, -⟩ := verifySignature_tampered_keeps_verdict codec crypto () tampered htampered
  exact ⟨hne, hsame.trans hmsg⟩

end Verify

end Delorean.Eth
