import Delorean.Lib.Except
import Delorean.Lib.BigEndian

/-!
# Converting between FVM messages and Ethereum transactions

`fendermint_vm_message::conv`. A message sent from an Ethereum account is signed as the EIP-1559
transaction that `to_eth_transaction_request` makes of it, and the Ethereum API turns such a
transaction back into a message with `to_fvm_message`.

The way to Ethereum forgets part of a message: its version; its method number, which the way
back restores from the recipient; the sign of every token amount; whether the value was zero or
unset; and whether the address was `f0<id>` or the `f410` address whose bytes are the masked
form `0xff00..<id>` of that ID. `toFvmMessage_toEthTransactionRequest` is the round trip for the
messages where none of this matters (`Canonical`), and the lemmas after it say what is lost.
-/

namespace Delorean.Eth

/-- `ActorID`. -/
abbrev ActorID := UInt64

/-- `MethodNum`. -/
abbrev MethodNum := UInt64

/-- `ChainID`, as the `u64` it converts to. -/
abbrev ChainID := UInt64

/-- A `TokenAmount`, by its amount in atto: a big integer, with a sign. -/
abbrev TokenAmount := Int

/-- `ethers`' `U256`. -/
abbrev U256 := BitVec 256

/-- The 20 bytes of an Ethereum address: an `EthAddress`, and `ethers`' `H160`. -/
abbrev EthAddress := Vector UInt8 20

/-- An FVM `Address`, by its payload: the network is not part of an address. -/
inductive Address
  | ID (id : ActorID)
  | Secp256k1 (hash : Vector UInt8 20)
  | Actor (hash : Vector UInt8 20)
  | BLS (key : Vector UInt8 48)
  | Delegated (namespace_ : ActorID) (subaddress : List UInt8)
  deriving DecidableEq, Repr

/-- `EAM_ACTOR_ID`, the Ethereum Address Manager. -/
def eamActorId : ActorID := 10

/-- `EAM_ACTOR_ADDR`. -/
def eamActorAddr : Address := .ID eamActorId

/-- `eam::Method::CreateExternal`. -/
def createExternal : MethodNum := 4

/-- `evm::Method::InvokeContract`, the FRC-42 hash of `InvokeEVM`. -/
def invokeContract : MethodNum := 3844450837

/-- `fvm_shared::message::Message`. -/
@[ext]
structure Message where
  version : UInt64
  from_ : Address
  to_ : Address
  sequence : UInt64
  value : TokenAmount
  method_num : MethodNum
  params : List UInt8
  gas_limit : UInt64
  gas_fee_cap : TokenAmount
  gas_premium : TokenAmount
  deriving DecidableEq, Repr

/-- `ethers`' `NameOrAddress`. -/
inductive NameOrAddress
  | Name (name : String)
  | Address (addr : EthAddress)
  deriving DecidableEq, Repr

/-- `Eip1559TransactionRequest`, without the access list, which these conversions leave empty and
never read. -/
structure Eip1559TransactionRequest where
  from_ : Option EthAddress
  to_ : Option NameOrAddress
  gas : Option U256
  value : Option U256
  data : Option (List UInt8)
  nonce : Option U256
  max_priority_fee_per_gas : Option U256
  max_fee_per_gas : Option U256
  chain_id : Option ChainID
  deriving DecidableEq, Repr

/-- The errors of the conversions and of `verify_eth_method`, each standing for the source's
text. The last is a panic of `ethers`' `U256` and not an error: `as_u64` of a value past
`u64::MAX`, or `from_big_endian` of more than 32 bytes. -/
inductive EthError
  /-- An `anyhow!` error with this text. -/
  | msg (text : String)
  /-- The text "not an Ethereum address: {addr}". -/
  | notEthAddress (addr : Address)
  /-- Decoding `params` as IPLD bytes failed. -/
  | decode
  /-- The text "The EAM actor can only be called with CreateExternal; got {method_num}". -/
  | eamMethod (method_num : MethodNum)
  /-- The text "An EVM actor can only be called with InvokeContract; got {to} - {method_num}". -/
  | evmMethod (to_ : Address) (method_num : MethodNum)
  | panic
  deriving DecidableEq, Repr

/-- The IPLD encoding of a byte string as a message's `params`: `RawBytes::serialize(BytesSer(..))`,
and `fvm_ipld_encoding::from_slice::<BytesDe>`. Decoding an encoding gives its bytes back. -/
structure BytesCodec where
  serialize : List UInt8 → List UInt8
  fromSlice : List UInt8 → Option (List UInt8)
  fromSlice_serialize : ∀ bytes, fromSlice (serialize bytes) = some bytes

/-- `from_slice::<BytesDe>(params)`, failing with the decoding error. -/
def BytesCodec.bytesDe (codec : BytesCodec) (params : List UInt8) : Except EthError (List UInt8) :=
  match codec.fromSlice params with
  | some bytes => .ok bytes
  | none => .error .decode

/-! ## Addresses -/

namespace EthAddress

/-- `EthAddress::from_id`: `0xff`, eleven zero bytes, and the ID's eight big-endian bytes. -/
def fromId (id : ActorID) : EthAddress :=
  ⟨(0xff :: List.replicate 11 0 ++ BigEndian.toBytes 8 id.toNat).toArray, by simp⟩

/-- `EthAddress::is_masked_id`: the first byte is `0xff` and the next eleven are zero. -/
def isMaskedId (a : EthAddress) : Bool :=
  a[0] == 0xff && (List.replicate 11 (0 : UInt8)).isPrefixOf (a.toList.drop 1)

/-- `From<EthAddress> for Address`: a masked ID is the address of that ID, and any other
address is delegated to the EAM. -/
def toAddress (a : EthAddress) : Address :=
  if isMaskedId a then .ID (UInt64.ofNat (BigEndian.ofBytes (a.toList.drop 12)))
  else .Delegated eamActorId a.toList

end EthAddress

/-- `H160::default()`, the zero address. -/
def zeroAddress : EthAddress := Vector.replicate 20 0

/-- `to_eth_address`: an EAM-delegated address of 20 bytes is those bytes, the EAM itself is no
recipient (a deployment), any other ID is its masked form, and everything else is refused. -/
def toEthAddress : Address → Except EthError (Option EthAddress)
  | .Delegated ns sub =>
    if h : ns = eamActorId ∧ sub.length = 20 then .ok (some ⟨sub.toArray, by simpa using h.2⟩)
    else .error (.notEthAddress (.Delegated ns sub))
  | .ID id => if id = eamActorId then .ok none else .ok (some (EthAddress.fromId id))
  | addr => .error (.notEthAddress addr)

/-- `to_fvm_address`. -/
def toFvmAddress (addr : EthAddress) : Address := EthAddress.toAddress addr

/-- The `f410` form of a masked ID: an EAM-delegated address whose 20 bytes are `0xff00..<id>`.
No key hashes to it, and `to_eth_address` takes it to the bytes of `f0<id>`. -/
def isMaskedDelegated : Address → Bool
  | .Delegated ns sub =>
    if h : ns = eamActorId ∧ sub.length = 20 then
      EthAddress.isMaskedId ⟨sub.toArray, by simpa using h.2⟩
    else false
  | _ => false

/-! ## Token amounts -/

/-- `MAX_U256`. -/
def maxU256 : Int := 2 ^ 256 - 1

/-- `to_eth_tokens`: an amount up to `U256::MAX` as the `U256` of its magnitude, since
`to_bytes_be` drops the sign. The magnitude of a negative amount may not fit 32 bytes, and
`from_big_endian` then panics. -/
def toEthTokens (amount : TokenAmount) : Except EthError U256 :=
  if amount > maxU256 then .error (.msg "TokenAmount > U256.MAX")
  else if amount.natAbs < 2 ^ 256 then .ok (BitVec.ofNat 256 amount.natAbs)
  else .error .panic

/-- The transaction's `value`: left unset for zero, since a transaction cannot tell `None` from
zero. -/
def toEthValue (value : TokenAmount) : Except EthError (Option U256) :=
  if value = 0 then .ok none else (toEthTokens value).map some

/-- `to_fvm_tokens`: a `U256` as an amount, with a positive sign. -/
def toFvmTokens (value : U256) : TokenAmount := value.toNat

/-- `U256::as_u64`, which panics on a value past `u64::MAX`. -/
def asU64 (x : U256) : Except EthError UInt64 :=
  if x.toNat < 2 ^ 64 then .ok (UInt64.ofNat x.toNat) else .error .panic

/-- `U256::from(u64::MAX)`. -/
def u64Max : U256 := BitVec.ofNat 256 (2 ^ 64 - 1)

/-! ## The two conversions -/

section Codec

variable (codec : BytesCodec)

/-- `to_eth_transaction_request`. The version and the method number are not read, and the
errors come in the source's order: `params`, the sender, the fee cap, the premium, the
recipient and the value. -/
def toEthTransactionRequest (msg : Message) (chain_id : ChainID) :
    Except EthError Eip1559TransactionRequest := do
  let data ← codec.bytesDe msg.params
  let from_ ← toEthAddress msg.from_
  let max_fee_per_gas ← toEthTokens msg.gas_fee_cap
  let max_priority_fee_per_gas ← toEthTokens msg.gas_premium
  let to_ ← toEthAddress msg.to_
  let value ← toEthValue msg.value
  pure
    { chain_id := some chain_id
      from_ := some (from_.getD zeroAddress)
      nonce := some (BitVec.ofNat 256 msg.sequence.toNat)
      gas := some (BitVec.ofNat 256 msg.gas_limit.toNat)
      max_fee_per_gas := some max_fee_per_gas
      max_priority_fee_per_gas := some max_priority_fee_per_gas
      data := some data
      to_ := to_.map .Address
      value := value }

/-- The method and recipient of `to_fvm_message`: a transaction without a recipient deploys a
contract through the EAM, and one with a recipient invokes it. -/
def toFvmRecipient : Option NameOrAddress → Except EthError (MethodNum × Address)
  | none => .ok (createExternal, eamActorAddr)
  | some (.Address to_) => .ok (invokeContract, toFvmAddress to_)
  | some (.Name _) =>
    .error (.msg "Turning name to address would require ENS which is not supported.")

/-- The `gas_limit` of `to_fvm_message`: the transaction's gas, capped at `u64::MAX`. -/
def toFvmGasLimit : Option U256 → Except EthError UInt64
  | some gas => asU64 (if gas ≤ u64Max then gas else u64Max)
  | none => .ok 0

/-- `to_fvm_message`. The version is always 0. -/
def toFvmMessage (tx : Eip1559TransactionRequest) : Except EthError Message := do
  let recipient ← toFvmRecipient tx.to_
  let sequence ← asU64 (tx.nonce.getD 0)
  let gas_limit ← toFvmGasLimit tx.gas
  pure
    { version := 0
      from_ := toFvmAddress (tx.from_.getD zeroAddress)
      to_ := recipient.2
      sequence := sequence
      value := toFvmTokens (tx.value.getD 0)
      method_num := recipient.1
      params := codec.serialize (tx.data.getD [])
      gas_limit := gas_limit
      gas_fee_cap := toFvmTokens (tx.max_fee_per_gas.getD 0)
      gas_premium := toFvmTokens (tx.max_priority_fee_per_gas.getD 0) }

end Codec

/-! ## Address and amount lemmas -/

namespace EthAddress

theorem toList_fromId (id : ActorID) :
    (fromId id).toList = 0xff :: List.replicate 11 0 ++ BigEndian.toBytes 8 id.toNat := by
  simp [fromId]

@[simp]
theorem isMaskedId_fromId (id : ActorID) : isMaskedId (fromId id) = true := by
  have hfirst : (fromId id)[0] = 0xff := by simp [fromId]
  have hrest : (List.replicate 11 (0 : UInt8)).isPrefixOf ((fromId id).toList.drop 1) = true := by
    rw [toList_fromId, List.isPrefixOf_iff_prefix]
    exact List.prefix_append _ _
  unfold isMaskedId
  rw [hfirst, hrest]
  rfl

/-- The masked form of an ID reads back as that ID. -/
@[simp]
theorem toAddress_fromId (id : ActorID) : toAddress (fromId id) = .ID id := by
  have hdrop : (fromId id).toList.drop 12 = BigEndian.toBytes 8 id.toNat := by
    simp [toList_fromId]
  have hid : BigEndian.ofBytes (BigEndian.toBytes 8 id.toNat) = id.toNat := by
    rw [BigEndian.ofBytes_toBytes]
    exact Nat.mod_eq_of_lt id.toNat_lt
  simp [toAddress, hdrop, hid]

theorem toAddress_of_not_masked {a : EthAddress} (h : isMaskedId a = false) :
    toAddress a = .Delegated eamActorId a.toList := by
  simp [toAddress, h]

end EthAddress

/-- An address that `to_eth_address` gives no bytes for is the EAM's. -/
theorem eq_eamActorAddr_of_toEthAddress {addr : Address} (h : toEthAddress addr = .ok none) :
    addr = eamActorAddr := by
  cases addr with
  | ID id =>
    by_cases hid : id = eamActorId
    · rw [hid, eamActorAddr]
    · simp [toEthAddress, hid] at h
  | Delegated ns sub =>
    by_cases hd : ns = eamActorId ∧ sub.length = 20
    · simp [toEthAddress, dif_pos hd] at h
    · simp [toEthAddress, dif_neg hd] at h
  | _ => simp [toEthAddress] at h

/-- The bytes that `to_eth_address` gives read back as the address, unless it is the `f410`
form of a masked ID. -/
theorem toFvmAddress_of_toEthAddress {addr : Address} {a : EthAddress}
    (h : toEthAddress addr = .ok (some a)) (hm : isMaskedDelegated addr = false) :
    toFvmAddress a = addr := by
  cases addr with
  | ID id =>
    by_cases hid : id = eamActorId
    · simp [toEthAddress, hid] at h
    · simp only [toEthAddress, if_neg hid, Except.ok.injEq, Option.some.injEq] at h
      subst h
      exact EthAddress.toAddress_fromId id
  | Delegated ns sub =>
    by_cases hd : ns = eamActorId ∧ sub.length = 20
    · rw [toEthAddress, dif_pos hd, Except.ok.injEq, Option.some.injEq] at h
      rw [isMaskedDelegated, dif_pos hd] at hm
      subst h
      rw [toFvmAddress, EthAddress.toAddress_of_not_masked hm]
      simp [hd.1]
    · simp [toEthAddress, dif_neg hd] at h
  | _ => simp [toEthAddress] at h

/-- The way back finds the method and the recipient that `to_eth_address` started from. -/
theorem toFvmRecipient_of_toEthAddress {addr : Address} {to_ : Option EthAddress}
    (h : toEthAddress addr = .ok to_) (hm : isMaskedDelegated addr = false) :
    toFvmRecipient (to_.map .Address) =
      .ok (if addr = eamActorAddr then createExternal else invokeContract, addr) := by
  cases to_ with
  | none =>
    have heam := eq_eamActorAddr_of_toEthAddress h
    subst heam
    simp [toFvmRecipient]
  | some a =>
    have hne : addr ≠ eamActorAddr := by
      rintro rfl
      simp [toEthAddress, eamActorAddr] at h
    simp [toFvmRecipient, if_neg hne, toFvmAddress_of_toEthAddress h hm]

/-- The way back gives the magnitude of the amount. -/
theorem toFvmTokens_of_toEthTokens {amount : TokenAmount} {u : U256}
    (h : toEthTokens amount = .ok u) : toFvmTokens u = amount.natAbs := by
  by_cases hmax : amount > maxU256
  · simp [toEthTokens, hmax] at h
  by_cases hfit : amount.natAbs < 2 ^ 256
  · simp only [toEthTokens, if_neg hmax, if_pos hfit, Except.ok.injEq] at h
    subst h
    rw [toFvmTokens, BitVec.toNat_ofNat, Nat.mod_eq_of_lt hfit]
  · rw [toEthTokens, if_neg hmax, if_neg hfit] at h
    cases h

theorem toFvmTokens_toEthTokens {amount : TokenAmount} {u : U256}
    (h : toEthTokens amount = .ok u) (hnn : 0 ≤ amount) : toFvmTokens u = amount := by
  rw [toFvmTokens_of_toEthTokens h, Int.natAbs_of_nonneg hnn]

/-- An unset value reads back as zero, which is what it stood for. -/
theorem toFvmTokens_toEthValue {value : TokenAmount} {o : Option U256}
    (h : toEthValue value = .ok o) (hnn : 0 ≤ value) : toFvmTokens (o.getD 0) = value := by
  by_cases hz : value = 0
  · simp only [toEthValue, if_pos hz, Except.ok.injEq] at h
    subst h
    simp [toFvmTokens, hz]
  · rw [toEthValue, if_neg hz] at h
    cases ht : toEthTokens value with
    | error e => simp [ht, Except.map] at h
    | ok u =>
      simp only [ht, Except.map, Except.ok.injEq] at h
      subst h
      exact toFvmTokens_toEthTokens ht hnn

@[simp]
theorem asU64_ofNat (x : UInt64) : asU64 (BitVec.ofNat 256 x.toNat) = .ok x := by
  have hx := x.toNat_lt
  have hfit : (BitVec.ofNat 256 x.toNat).toNat = x.toNat := by
    rw [BitVec.toNat_ofNat]
    omega
  simp [asU64, hfit, hx]

theorem toFvmGasLimit_ofNat (x : UInt64) :
    toFvmGasLimit (some (BitVec.ofNat 256 x.toNat)) = .ok x := by
  have hle : BitVec.ofNat 256 x.toNat ≤ u64Max := by
    have hx := x.toNat_lt
    rw [BitVec.le_def, u64Max, BitVec.toNat_ofNat, BitVec.toNat_ofNat]
    omega
  simp [toFvmGasLimit, hle]

/-! ## The round trip -/

section Codec

variable (codec : BytesCodec)


/-- A message that its Ethereum transaction carries whole: version 0, no negative amount,
`params` that are the encoding of the bytes they decode to, and no `f410` form of a masked ID on
either side. -/
structure Canonical (msg : Message) : Prop where
  version : msg.version = 0
  value : 0 ≤ msg.value
  gas_fee_cap : 0 ≤ msg.gas_fee_cap
  gas_premium : 0 ≤ msg.gas_premium
  params : (codec.fromSlice msg.params).map codec.serialize = some msg.params
  from_ : isMaskedDelegated msg.from_ = false
  to_ : isMaskedDelegated msg.to_ = false

instance (msg : Message) : Decidable (Canonical codec msg) :=
  decidable_of_iff (msg.version = 0 ∧ 0 ≤ msg.value ∧ 0 ≤ msg.gas_fee_cap ∧ 0 ≤ msg.gas_premium ∧
      (codec.fromSlice msg.params).map codec.serialize = some msg.params ∧
      isMaskedDelegated msg.from_ = false ∧ isMaskedDelegated msg.to_ = false)
    ⟨fun ⟨h₁, h₂, h₃, h₄, h₅, h₆, h₇⟩ => ⟨h₁, h₂, h₃, h₄, h₅, h₆, h₇⟩,
      fun ⟨h₁, h₂, h₃, h₄, h₅, h₆, h₇⟩ => ⟨h₁, h₂, h₃, h₄, h₅, h₆, h₇⟩⟩

/-- Canonical `params` are the encoding of what they decode to. -/
theorem serialize_of_bytesDe {params data : List UInt8}
    (hc : (codec.fromSlice params).map codec.serialize = some params)
    (h : codec.bytesDe params = .ok data) : codec.serialize data = params := by
  unfold BytesCodec.bytesDe at h
  cases hf : codec.fromSlice params with
  | none => simp [hf] at h
  | some bytes =>
    simp only [hf, Except.ok.injEq] at h
    simpa [hf, h] using hc

/-- What `to_eth_transaction_request` computes, one fact for each `?` of the source: it succeeds
exactly when every part converts, and the request is made of the parts. -/
theorem toEthTransactionRequest_eq_ok {msg : Message} {chain_id : ChainID}
    {tx : Eip1559TransactionRequest} :
    toEthTransactionRequest codec msg chain_id = .ok tx ↔
    ∃ data from_ max_fee_per_gas max_priority_fee_per_gas to_ value,
      codec.bytesDe msg.params = .ok data ∧ toEthAddress msg.from_ = .ok from_ ∧
      toEthTokens msg.gas_fee_cap = .ok max_fee_per_gas ∧
      toEthTokens msg.gas_premium = .ok max_priority_fee_per_gas ∧
      toEthAddress msg.to_ = .ok to_ ∧ toEthValue msg.value = .ok value ∧
      tx =
        { chain_id := some chain_id
          from_ := some (from_.getD zeroAddress)
          nonce := some (BitVec.ofNat 256 msg.sequence.toNat)
          gas := some (BitVec.ofNat 256 msg.gas_limit.toNat)
          max_fee_per_gas := some max_fee_per_gas
          max_priority_fee_per_gas := some max_priority_fee_per_gas
          data := some data
          to_ := to_.map .Address
          value := value } := by
  constructor
  · intro h
    simp only [toEthTransactionRequest, Except.bind_eq_ok, Except.pure_eq_ok, Except.ok.injEq] at h
    obtain ⟨data, hdata, from_, hfrom, fee, hfee, prem, hprem, to_, hto, value, hvalue, rfl⟩ := h
    exact ⟨data, from_, fee, prem, to_, value, hdata, hfrom, hfee, hprem, hto, hvalue, rfl⟩
  · rintro ⟨data, from_, fee, prem, to_, value, hdata, hfrom, hfee, hprem, hto, hvalue, rfl⟩
    simp only [toEthTransactionRequest, hdata, hfrom, hfee, hprem, hto, hvalue, Except.ok_bind,
      Except.pure_eq_ok]

/-- The round trip: a canonical message whose sender has an Ethereum address and whose method is
the one its recipient calls for comes back from its transaction unchanged. -/
theorem toFvmMessage_toEthTransactionRequest {msg : Message} {chain_id : ChainID}
    {tx : Eip1559TransactionRequest} (htx : toEthTransactionRequest codec msg chain_id = .ok tx)
    (hc : Canonical codec msg) (hfrom : ∃ a, toEthAddress msg.from_ = .ok (some a))
    (hmethod : msg.method_num = if msg.to_ = eamActorAddr then createExternal else invokeContract) :
    toFvmMessage codec tx = .ok msg := by
  obtain ⟨data, from_, fee, prem, to_, value, hdata, hfrom', hfee, hprem, hto, hvalue, rfl⟩ :=
    (toEthTransactionRequest_eq_ok codec).1 htx
  obtain ⟨a, ha⟩ := hfrom
  rw [ha, Except.ok.injEq] at hfrom'
  subst hfrom'
  have hrecipient := toFvmRecipient_of_toEthAddress hto hc.to_
  rw [← hmethod] at hrecipient
  simp only [toFvmMessage, hrecipient, Option.getD_some, asU64_ofNat, toFvmGasLimit_ofNat,
    Except.ok_bind, Except.pure_eq_ok, Except.ok.injEq]
  apply Message.ext
  · exact hc.version.symm
  · exact toFvmAddress_of_toEthAddress ha hc.from_
  · rfl
  · rfl
  · exact toFvmTokens_toEthValue hvalue hc.value
  · rfl
  · exact serialize_of_bytesDe codec hc.params hdata
  · rfl
  · exact toFvmTokens_toEthTokens hfee hc.gas_fee_cap
  · exact toFvmTokens_toEthTokens hprem hc.gas_premium

/-! ## What the transaction does not carry -/

/-- The request reads a message only through its `params`, sequence and gas limit, and through
what `to_eth_address`, `to_eth_tokens` and the value make of the rest; the version and the
method number are not read at all. -/
theorem toEthTransactionRequest_congr {msg msg' : Message} (chain_id : ChainID)
    (hparams : msg.params = msg'.params) (hfrom : toEthAddress msg.from_ = toEthAddress msg'.from_)
    (hseq : msg.sequence = msg'.sequence) (hgas : msg.gas_limit = msg'.gas_limit)
    (hfee : toEthTokens msg.gas_fee_cap = toEthTokens msg'.gas_fee_cap)
    (hprem : toEthTokens msg.gas_premium = toEthTokens msg'.gas_premium)
    (hto : toEthAddress msg.to_ = toEthAddress msg'.to_)
    (hvalue : toEthValue msg.value = toEthValue msg'.value) :
    toEthTransactionRequest codec msg chain_id = toEthTransactionRequest codec msg' chain_id := by
  simp only [toEthTransactionRequest, hparams, hfrom, hseq, hgas, hfee, hprem, hto, hvalue]

end Codec

/-- `to_eth_tokens` drops the sign of an amount whose magnitude fits. -/
theorem toEthTokens_neg {amount : TokenAmount} (h : amount.natAbs < 2 ^ 256) :
    toEthTokens (-amount) = toEthTokens amount := by
  have hfits : ∀ a : Int, a.natAbs < 2 ^ 256 → ¬a > maxU256 := by
    intro a ha
    simp only [maxU256, gt_iff_lt, not_lt]
    omega
  have hneg : (-amount).natAbs < 2 ^ 256 := by rwa [Int.natAbs_neg]
  simp only [toEthTokens, if_neg (hfits _ hneg), if_neg (hfits _ h), Int.natAbs_neg]

theorem toEthValue_neg {value : TokenAmount} (h : value.natAbs < 2 ^ 256) :
    toEthValue (-value) = toEthValue value := by
  simp only [toEthValue, neg_eq_zero, toEthTokens_neg h]

/-- `to_eth_address` takes `f0<id>` and the `f410` form of its masked ID to the same bytes. -/
theorem toEthAddress_maskedDelegated {id : ActorID} (h : id ≠ eamActorId) :
    toEthAddress (.Delegated eamActorId (EthAddress.fromId id).toList) = toEthAddress (.ID id) := by
  have hlen : (EthAddress.fromId id).toList.length = 20 := by simp
  rw [toEthAddress, dif_pos ⟨rfl, hlen⟩, toEthAddress, if_neg h]
  simp [Vector.toArray_toList]

end Delorean.Eth
