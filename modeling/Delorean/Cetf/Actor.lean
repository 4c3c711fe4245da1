import Delorean.Lib.Except
import Delorean.Lib.Writes

/-!
# The CETF actor

The CETF actor of `fendermint/actors/cetf` schedules tags for the validators to sign. A contract
calls `enqueue_tag`; the actor hashes the caller's Ethereum address with the tag into a signing
tag and files it in `tag_map` under the height two epochs ahead. In that block the validators sign
the tag in their vote extensions, the proposer aggregates the signatures, and a `CetfTag` message
executed as the system actor stores the aggregate in `signed_hashed_tags` (`add_signed_tag`).

The four HAMTs of the state are association lists: loading, setting and flushing a HAMT is taken
to behave as a finite map, and never to fail. Keccak-256 is a parameter of the model. A method
either returns or fails with an `ActorError` or a panic; a failed call leaves the actor's state as
it was, since the runtime only commits the state of a successful transaction.
-/

namespace Delorean.Cetf

/-- `BlockHeight`: a `u64` height. -/
abbrev BlockHeight := Nat

/-- `Tag`: the 32 bytes that the validators sign. -/
abbrev Tag := Vector UInt8 32

/-- `BlsPublicKey`: a serialized BLS public key. -/
abbrev BlsPublicKey := Vector UInt8 48

/-- `BlsSignature`: a serialized BLS signature. -/
abbrev BlsSignature := Vector UInt8 96

/-- The errors the actor's methods return. -/
inductive ActorError where
  /-- `ActorError::assertion_failed`. -/
  | assertion_failed (msg : String)
  /-- `actor_error!(illegal_state, ...)`. -/
  | illegal_state (msg : String)
  /-- The runtime's refusal of a caller that a method does not accept. -/
  | forbidden
  deriving DecidableEq, Repr

/-- How a call fails: it returns an `ActorError`, or it panics with a message. -/
inductive Failure where
  | error (e : ActorError)
  | panic (msg : String)
  deriving DecidableEq, Repr

/-- What the runtime tells a method about its call. -/
structure Runtime where
  /-- `rt.message().caller()`, an actor ID. -/
  caller : Nat
  /-- `rt.curr_epoch()`: in fendermint the epoch is the block height. -/
  curr_epoch : Nat
  /-- `rt.lookup_delegated_address(id)`, as the address's payload bytes. -/
  delegated_payload : Nat → Option (List UInt8)

/-- `SYSTEM_ACTOR_ADDR`, the actor ID zero. -/
def systemActorId : Nat := 0

/-- `rt.validate_immediate_caller_is(once(&SYSTEM_ACTOR_ADDR))`. -/
def validateCallerIsSystem (rt : Runtime) : Except Failure Unit :=
  if rt.caller = systemActorId then .ok () else .error (.error .forbidden)

/-- `State`: the tags by height, the validators' BLS keys, whether the actor is enabled, and the
signatures by signed tag. -/
structure State (Address : Type) where
  /-- `tag_map`: `HAMT[BlockHeight] => Tag`. -/
  tag_map : AList fun _ : BlockHeight => Tag
  /-- `validators`: `HAMT[Address] => BlsPublicKey`. -/
  validators : AList fun _ : Address => BlsPublicKey
  enabled : Bool
  /-- `signed_hashed_tags`: `HAMT[HashedTag] => BlsSignature`. -/
  signed_hashed_tags : AList fun _ : Tag => BlsSignature

namespace State

variable {Address : Type} [DecidableEq Address]

/-- `State::new`: empty maps, disabled. -/
def new : State Address := ⟨∅, ∅, false, ∅⟩

/-- `add_validator`: set the BLS key of an address. -/
def addValidator (st : State Address) (address : Address) (public_key : BlsPublicKey) :
    State Address :=
  { st with validators := st.validators.insert address public_key }

/-- `add_tag_at_height`: file a tag under a height, replacing the tag held there. -/
def addTagAtHeight (st : State Address) (height : BlockHeight) (tag : Tag) : State Address :=
  { st with tag_map := st.tag_map.insert height tag }

/-- `get_tag_at_height`. -/
def getTagAtHeight (st : State Address) (height : BlockHeight) : Option Tag :=
  st.tag_map.lookup height

/-- `add_signed_and_hashed_tag`: store the signature of a tag. -/
def addSignedAndHashedTag (st : State Address) (tag : Tag) (signature : BlsSignature) :
    State Address :=
  { st with signed_hashed_tags := st.signed_hashed_tags.insert tag signature }

/-- `add_signed_tag_at_height`: store the signature of the tag scheduled at a height. -/
def addSignedTagAtHeight (st : State Address) (height : BlockHeight) (signature : BlsSignature) :
    Except ActorError (State Address) :=
  match st.getTagAtHeight height with
  | none => .error (.illegal_state s!"Tag not found at height {height}")
  | some tag => .ok (st.addSignedAndHashedTag tag signature)

end State

/-- The methods of the created actor with their parameters; `Echo` and `GetTag` only read. The
constructor is not among them: it runs once, when the actor is created, and leaves `State::new`. -/
inductive Method (Address : Type) where
  | Echo
  | EnqueueTag (tag : Tag)
  | GetTag (height : BlockHeight)
  | Enable
  | AddValidator (address : Address) (public_key : BlsPublicKey)
  | Disable
  | AddSignedTag (height : BlockHeight) (signature : BlsSignature)

namespace Actor

variable {Address : Type} [DecidableEq Address] (keccak256 : List UInt8 → Tag)

/-- `Actor::constructor`: only the system actor creates the state. -/
def constructor (rt : Runtime) : Except Failure (State Address) := do
  validateCallerIsSystem rt
  pure State.new

/-- The caller's Ethereum address: its delegated address's payload without the namespace byte,
which must be 20 bytes long. -/
def callingEthAddress (rt : Runtime) : Except Failure (List UInt8) :=
  match rt.delegated_payload rt.caller with
  | none => .error (.error (.assertion_failed "No delegated address for caller"))
  | some payload =>
    -- `&payload_bytes()[1..]` panics on an empty payload.
    if payload.length < 1 then
      .error (.panic s!"range start index 1 out of range for slice of length {payload.length}")
    else
      let calling_eth_address := payload.drop 1
      if calling_eth_address.length ≠ 20 then .error (.panic "Invalid eth address length")
      else .ok calling_eth_address

/-- The signing tag of a call: Keccak-256 of the caller's Ethereum address and the tag. -/
def signingTag (rt : Runtime) (tag : Tag) : Except Failure Tag := do
  let calling_eth_address ← callingEthAddress rt
  pure (keccak256 (calling_eth_address ++ tag.toList))

/-- `Actor::enqueue_tag`: schedule the signing tag two epochs ahead if the actor is enabled, and
return that epoch either way. -/
def enqueueTag (rt : Runtime) (st : State Address) (tag : Tag) :
    Except Failure (State Address × Nat) := do
  let signing_tag ← signingTag keccak256 rt tag
  let scheduled_epoch := rt.curr_epoch + 2
  let st := if st.enabled then st.addTagAtHeight scheduled_epoch signing_tag else st
  pure (st, scheduled_epoch)

/-- `Actor::add_signed_tag`: only the system actor may store a signature. -/
def addSignedTag (rt : Runtime) (st : State Address) (height : BlockHeight)
    (signature : BlsSignature) : Except Failure (State Address) := do
  validateCallerIsSystem rt
  match st.addSignedTagAtHeight height signature with
  | .error e => .error (.error e)
  | .ok st => .ok st

/-- The dispatch of a call: the state it leaves and the epoch `enqueue_tag` returns. -/
def invoke (rt : Runtime) (st : State Address) : Method Address →
    Except Failure (State Address × Option Nat)
  | .Echo => pure (st, none)
  | .EnqueueTag tag => do
    let (st, scheduled_epoch) ← enqueueTag keccak256 rt st tag
    pure (st, some scheduled_epoch)
  | .GetTag _ => pure (st, none)
  | .Enable => do validateCallerIsSystem rt; pure ({ st with enabled := true }, none)
  | .AddValidator address public_key => pure (st.addValidator address public_key, none)
  | .Disable => do validateCallerIsSystem rt; pure ({ st with enabled := false }, none)
  | .AddSignedTag height signature => do
    let st ← addSignedTag rt st height signature
    pure (st, none)

/-- A call as a transaction: its state if it succeeds, and the state before if it fails. -/
def apply (st : State Address) (call : Runtime × Method Address) : State Address :=
  match invoke keccak256 call.1 st call.2 with
  | .ok (st', _) => st'
  | .error _ => st

/-- A run of calls from a state. -/
def run (st : State Address) (calls : List (Runtime × Method Address)) : State Address :=
  calls.foldl (apply keccak256) st

/-- The write a call makes to `tag_map`: an `enqueue_tag` that succeeds while the actor is
enabled files its signing tag two epochs ahead; no other call writes. -/
def tagWrite (st : State Address) : Runtime × Method Address → Option (BlockHeight × Tag)
  | (rt, .EnqueueTag tag) =>
    match signingTag keccak256 rt tag with
    | .ok signing_tag => if st.enabled then some (rt.curr_epoch + 2, signing_tag) else none
    | .error _ => none
  | _ => none

/-- The writes to `tag_map` of a run, in order. -/
def tagWrites : State Address → List (Runtime × Method Address) → List (BlockHeight × Tag)
  | _, [] => []
  | st, call :: calls => (tagWrite keccak256 st call).toList ++ tagWrites (apply keccak256 st call) calls

/-! ### The tag map over a run -/

section TagMap

variable {keccak256}

omit [DecidableEq Address] in
theorem addSignedTagAtHeight_tag_map {st st' : State Address} {height : BlockHeight}
    {signature : BlsSignature} (h : st.addSignedTagAtHeight height signature = .ok st') :
    st'.tag_map = st.tag_map := by
  unfold State.addSignedTagAtHeight at h
  split at h
  · cases h
  · cases h
    rfl

omit [DecidableEq Address] in
/-- `add_signed_tag` succeeds when the system actor calls it for a height with a tag. -/
theorem addSignedTag_eq_ok {rt : Runtime} {st st' : State Address} {height : BlockHeight}
    {signature : BlsSignature} :
    addSignedTag rt st height signature = .ok st' ↔
      rt.caller = systemActorId ∧ st.addSignedTagAtHeight height signature = .ok st' := by
  unfold addSignedTag validateCallerIsSystem
  by_cases hsys : rt.caller = systemActorId
  · cases hadd : st.addSignedTagAtHeight height signature with
    | error e => simp [hsys]
    | ok st'' => simp [hsys]
  · simp [hsys]

/-- One call writes `tag_map` only as `tagWrite` says. -/
theorem apply_tag_map (st : State Address) (call : Runtime × Method Address) :
    (apply keccak256 st call).tag_map =
      AList.insertAll (tagWrite keccak256 st call).toList st.tag_map := by
  obtain ⟨rt, m⟩ := call
  cases m with
  | EnqueueTag tag =>
    -- The only writer: the signing tag goes two epochs ahead while the actor is enabled.
    cases hsig : signingTag keccak256 rt tag with
    | error e => simp [apply, invoke, enqueueTag, tagWrite, hsig]
    | ok signing_tag =>
      by_cases hen : st.enabled
      · simp [apply, invoke, enqueueTag, tagWrite, hsig, hen, State.addTagAtHeight,
          AList.insertAll]
      · simp [apply, invoke, enqueueTag, tagWrite, hsig, hen]
  | AddSignedTag height signature =>
    cases hadd : addSignedTag rt st height signature with
    | error e => simp [apply, invoke, tagWrite, hadd]
    | ok st' =>
      simp [apply, invoke, tagWrite, hadd,
        addSignedTagAtHeight_tag_map (addSignedTag_eq_ok.mp hadd).2]
  | Enable | Disable =>
    by_cases hsys : rt.caller = systemActorId
    all_goals simp [apply, invoke, tagWrite, validateCallerIsSystem, hsys]
  | Echo | GetTag | AddValidator =>
    simp [apply, invoke, tagWrite, State.addValidator]

/-- A run writes `tag_map` with the writes of its calls, in order. The induction is on the run,
from any state. -/
theorem run_tag_map (st : State Address) (calls : List (Runtime × Method Address)) :
    (run keccak256 st calls).tag_map = AList.insertAll (tagWrites keccak256 st calls) st.tag_map := by
  induction calls generalizing st with
  | nil => rfl
  | cons call calls ih =>
    have hstep : (apply keccak256 st call).tag_map =
        AList.insertAll (tagWrite keccak256 st call).toList st.tag_map := apply_tag_map st call
    rw [run, List.foldl_cons, ← run, ih, tagWrites, AList.insertAll_append, hstep]

/-- After any run of calls to the actor, `get_tag_at_height` returns the signing tag of the last
`enqueue_tag` of the run that succeeded while the actor was enabled and scheduled its tag at that
height, and the tag held before the run when there is none. A later call in the same epoch
overwrites an earlier one. -/
theorem getTagAtHeight_run_last_enqueue (st : State Address)
    (calls : List (Runtime × Method Address)) (height : BlockHeight) :
    (run keccak256 st calls).getTagAtHeight height =
      (AList.lastWrite (tagWrites keccak256 st calls) height).or (st.getTagAtHeight height) := by
  rw [State.getTagAtHeight, run_tag_map, AList.lookup_insertAll]
  rfl

/-- Two contracts enqueue a tag in the same epoch 5 while the actor is enabled: both calls return
epoch 7, and for a hash that tells their signing tags apart, height 7 holds the second call's
signing tag only. -/
theorem enqueueTag_same_epoch_overwrites_of_ne :
    ∀ keccak256 : List UInt8 → Tag,
      keccak256 (List.replicate 20 1 ++ (Vector.replicate 32 0).toList) ≠
          keccak256 (List.replicate 20 2 ++ (Vector.replicate 32 0).toList) →
      let payloads : Nat → Option (List UInt8) := fun id =>
        if id = 1001 then some (10 :: List.replicate 20 1)
        else if id = 1002 then some (10 :: List.replicate 20 2) else none
      let first : Runtime := ⟨1001, 5, payloads⟩
      let second : Runtime := ⟨1002, 5, payloads⟩
      let st : State Nat := { State.new with enabled := true }
      let calls := [(first, .EnqueueTag (Vector.replicate 32 0)),
        (second, .EnqueueTag (Vector.replicate 32 0))]
      (invoke keccak256 first st (.EnqueueTag (Vector.replicate 32 0))).toOption.map Prod.snd =
          some (some 7) ∧
        (invoke keccak256 second (apply keccak256 st calls[0]) (.EnqueueTag (Vector.replicate 32 0))).toOption.map Prod.snd =
          some (some 7) ∧
        (run keccak256 st calls).getTagAtHeight 7 ≠
          some (keccak256 (List.replicate 20 1 ++ (Vector.replicate 32 0).toList)) := by
  intro keccak256 hne
  simp [run, apply, invoke, enqueueTag, signingTag, callingEthAddress, State.addTagAtHeight,
    State.getTagAtHeight, State.new, Except.toOption, -AList.insert_empty]
  exact Ne.symm hne

/-- The same two calls under a hash that reads the first byte of its input: the first contract's
signing tag is lost. -/
theorem enqueueTag_same_epoch_overwrites :
    let keccak256 : List UInt8 → Tag := fun bytes => Vector.replicate 32 (bytes.headD 0)
    let payloads : Nat → Option (List UInt8) := fun id =>
      if id = 1001 then some (10 :: List.replicate 20 1)
      else if id = 1002 then some (10 :: List.replicate 20 2) else none
    let first : Runtime := ⟨1001, 5, payloads⟩
    let second : Runtime := ⟨1002, 5, payloads⟩
    let st : State Nat := { State.new with enabled := true }
    let calls := [(first, .EnqueueTag (Vector.replicate 32 0)),
      (second, .EnqueueTag (Vector.replicate 32 0))]
    (invoke keccak256 first st (.EnqueueTag (Vector.replicate 32 0))).toOption.map Prod.snd =
        some (some 7) ∧
      (invoke keccak256 second (apply keccak256 st calls[0]) (.EnqueueTag (Vector.replicate 32 0))).toOption.map Prod.snd =
        some (some 7) ∧
      (run keccak256 st calls).getTagAtHeight 7 ≠
        some (keccak256 (List.replicate 20 1 ++ (Vector.replicate 32 0).toList)) := by
  intro keccak256
  exact enqueueTag_same_epoch_overwrites_of_ne keccak256 (by decide)

end TagMap

end Actor

end Delorean.Cetf
