import Delorean.Cetf.Actor

/-!
# The chain message interpreter

`ChainMessageInterpreter` of `fendermint/vm/interpreter/src/chain.rs` is the outer layer of the
interpreter stack. A transaction is a `ChainMessage`: a user's signed message, an IPC message, or
a CETF message. The interpreter decides three things about it:

* `check`, before a transaction enters the mempool: the validator-only IPC messages are illegal,
  everything else goes to the inner interpreter;
* `process`, when a validator votes on a proposal: bottom-up checkpoints must be resolved and
  top-down finalities must pass the finality provider's check;
* `deliver`, when a block is executed.

The interpreter is generic over the inner one, as the source is: the inner `check` and the
environment that `process` reads are parameters. A `CetfTag` message is turned into an implicit
message from the system actor to the CETF actor, and the inner layers pass it on without any
signature check (`VerifiableMessage::NotVerify`); its delivery is modelled down to the actor.
-/

namespace Delorean.Chain

open Delorean.Cetf

/-- `ParentFinality`: a top-down finality proposed for execution. -/
structure ParentFinality where
  height : Nat
  block_hash : List UInt8
  deriving DecidableEq, Repr

/-- `IpcMessage`, over the relayed and the certified bottom-up checkpoint types. -/
inductive IpcMessage (Relayed Certified : Type) where
  /-- A bottom-up checkpoint relayed by a user for resolution. -/
  | BottomUpResolve (msg : Relayed)
  /-- A resolved bottom-up checkpoint, proposed by a validator for execution. -/
  | BottomUpExec (msg : Certified)
  /-- A parent finality, proposed by a validator for execution. -/
  | TopDownExec (finality : ParentFinality)

/-- `CetfMessage`. -/
inductive CetfMessage where
  /-- The aggregate signature of the tag scheduled at a height. -/
  | CetfTag (height : Nat) (sig : BlsSignature)
  deriving DecidableEq, Repr

/-- `ChainMessage`, over the signed message type and the checkpoint types. -/
inductive ChainMessage (Signed Relayed Certified : Type) where
  | Signed (msg : Signed)
  | Ipc (msg : IpcMessage Relayed Certified)
  | Cetf (msg : CetfMessage)

/-- `IllegalMessage`: a user sent a transaction which they are not allowed to. -/
structure IllegalMessage where
  deriving DecidableEq, Repr

/-- The call an FVM message makes: a method of the CETF actor, or a method of another actor. -/
inductive FvmCall (Address : Type) where
  | cetf (method : Method Address)
  | other (to_ method_num : Nat)

/-- `FvmMessage`, with the parameters of the call decoded; senders are actor IDs. -/
structure FvmMessage (Address : Type) where
  from_ : Nat
  sequence : Nat
  gas_limit : Nat
  call : FvmCall Address

/-- `VerifiableMessage`: how a message reaches the signature check. -/
inductive VerifiableMessage (Signed Synthetic Address : Type) where
  /-- A normal message sent by a user. -/
  | Signed (msg : Signed)
  /-- A message constructed from a relayed one, checked against the relayer's signature. -/
  | Synthetic (msg : Synthetic)
  /-- A message that does not require verification. -/
  | NotVerify (msg : FvmMessage Address)

/-- `BLOCK_GAS_LIMIT`. -/
def blockGasLimit : Nat := 10000000000

/-- `cetf_tag_msg_to_fvm`: an `AddSignedTag` call from the system actor to the CETF actor, with
the height as sequence. -/
def cetfTagMsgToFvm {Address : Type} (tag_msg : Nat × BlsSignature) : FvmMessage Address :=
  ⟨systemActorId, tag_msg.1, blockGasLimit * 10000, .cetf (.AddSignedTag tag_msg.1 tag_msg.2)⟩

section Check

variable {σ Signed Relayed Certified Synthetic Address CheckRes : Type}

/-- `ChainMessageInterpreter::check` over an inner `check` and the conversion of a relayed
checkpoint. Only the validator-only IPC messages are illegal; a `CetfTag` goes to the inner
check as a message that needs no signature. -/
def check
    (inner_check : σ → VerifiableMessage Signed Synthetic Address → Bool → Except String (σ × CheckRes))
    (relayed_bottom_up_ckpt_to_fvm : Relayed → Except String Synthetic)
    (state : σ) (msg : ChainMessage Signed Relayed Certified) (is_recheck : Bool) :
    Except String (σ × Except IllegalMessage CheckRes) :=
  match msg with
  | .Signed msg => do
    let (state, ret) ← inner_check state (.Signed msg) is_recheck
    pure (state, .ok ret)
  | .Ipc (.BottomUpResolve msg) => do
    let msg ← (relayed_bottom_up_ckpt_to_fvm msg).mapError fun _ => "failed to syntesize FVM message"
    let (state, ret) ← (inner_check state (.Synthetic msg) is_recheck).mapError
      fun _ => "failed to check bottom up resolve"
    pure (state, .ok ret)
  -- Users cannot send these messages, only validators can propose them in blocks.
  | .Ipc (.TopDownExec _) | .Ipc (.BottomUpExec _) => pure (state, .error ⟨⟩)
  | .Cetf (.CetfTag height sig) => do
    let (state, ret) ← (inner_check state (.NotVerify (cetfTagMsgToFvm (height, sig)))
      is_recheck).mapError fun _ => "failed to check cetf tag"
    pure (state, .ok ret)

/-- The messages `check` refuses as illegal are exactly the validator-only IPC messages: a
`CetfTag` never is, whatever the inner check answers. -/
theorem check_eq_illegal_iff
    {inner_check : σ → VerifiableMessage Signed Synthetic Address → Bool → Except String (σ × CheckRes)}
    {relayed_bottom_up_ckpt_to_fvm : Relayed → Except String Synthetic} {state : σ}
    {msg : ChainMessage Signed Relayed Certified} {is_recheck : Bool} :
    (∃ state', check inner_check relayed_bottom_up_ckpt_to_fvm state msg is_recheck =
        .ok (state', .error ⟨⟩)) ↔
      (∃ c, msg = .Ipc (.BottomUpExec c)) ∨ ∃ p, msg = .Ipc (.TopDownExec p) := by
  -- In every other branch the result is the inner check's, wrapped in `Ok`.
  have hwrap : ∀ (x : Except String (σ × CheckRes)) (state' : σ),
      (do let (state, ret) ← x; pure (state, (.ok ret : Except IllegalMessage CheckRes))) ≠
        .ok (state', .error ⟨⟩) := by
    intro x state' h
    rw [Except.bind_eq_ok] at h
    obtain ⟨⟨_, _⟩, -, h⟩ := h
    simp at h
  cases msg with
  | Signed m => simpa [check] using hwrap (inner_check state (.Signed m) is_recheck)
  | Cetf c =>
    obtain ⟨height, sig⟩ := c
    simpa [check] using hwrap _
  | Ipc m =>
    cases m with
    | BottomUpResolve m =>
      simp only [check, reduceCtorEq, ChainMessage.Ipc.injEq, exists_false, or_self, iff_false,
        not_exists]
      intro state' h
      rw [Except.bind_eq_ok] at h
      obtain ⟨syn, -, h⟩ := h
      rw [Except.bind_eq_ok] at h
      obtain ⟨⟨_, _⟩, -, h⟩ := h
      simp at h
    | BottomUpExec c => simp [check]
    | TopDownExec p => simp [check]

end Check

/-- What `process` reads from the chain environment: whether a bottom-up checkpoint is resolved
in the pool, and the finality provider's `check_proposal`. -/
structure ProcessEnv (Certified : Type) where
  is_resolved : Certified → Bool
  check_proposal : ParentFinality → Bool

/-- `ChainMessageInterpreter::process`: reject at the first unresolved bottom-up checkpoint or
top-down finality that fails the provider's check; other messages are not looked at. -/
def process {Signed Relayed Certified : Type} (env : ProcessEnv Certified) :
    List (ChainMessage Signed Relayed Certified) → Bool
  | [] => true
  | .Ipc (.BottomUpExec msg) :: msgs => if !env.is_resolved msg then false else process env msgs
  | .Ipc (.TopDownExec ⟨height, block_hash⟩) :: msgs =>
    if !env.check_proposal ⟨height, block_hash⟩ then false else process env msgs
  | _ :: msgs => process env msgs

/-- What `process` requires of one message: a bottom-up checkpoint must be resolved and a
top-down finality must pass the provider's check; nothing else is looked at. -/
def acceptsMessage {Signed Relayed Certified : Type} (env : ProcessEnv Certified) :
    ChainMessage Signed Relayed Certified → Bool
  | .Ipc (.BottomUpExec msg) => env.is_resolved msg
  | .Ipc (.TopDownExec finality) => env.check_proposal finality
  | _ => true

/-- `process` accepts a proposal exactly when it accepts each of its messages. The induction
follows the loop. -/
theorem process_eq_all {Signed Relayed Certified : Type} (env : ProcessEnv Certified) :
    ∀ msgs : List (ChainMessage Signed Relayed Certified),
      process env msgs = msgs.all (acceptsMessage env)
  | [] => rfl
  | .Ipc (.BottomUpExec msg) :: msgs => by
    by_cases h : env.is_resolved msg <;> simp [process, acceptsMessage, h, process_eq_all env msgs]
  | .Ipc (.TopDownExec ⟨height, block_hash⟩) :: msgs => by
    by_cases h : env.check_proposal ⟨height, block_hash⟩ <;>
      simp [process, acceptsMessage, h, process_eq_all env msgs]
  | .Ipc (.BottomUpResolve _) :: msgs => by simp [process, acceptsMessage, process_eq_all env msgs]
  | .Signed _ :: msgs => by simp [process, acceptsMessage, process_eq_all env msgs]
  | .Cetf _ :: msgs => by simp [process, acceptsMessage, process_eq_all env msgs]

section Deliver

variable {Address : Type} [DecidableEq Address] (keccak256 : List UInt8 → Tag)

/-- The FVM's application of a message to the CETF actor's state: the method runs with the
message's sender as caller, implicitly for a message from the system actor (no nonce or gas
check) and explicitly otherwise; a failed call leaves the state unchanged. Messages to other
actors leave the CETF actor's state alone. -/
def fvmDeliver (epoch : Nat) (delegated_payload : Nat → Option (List UInt8))
    (st : State Address) (msg : FvmMessage Address) : State Address :=
  match msg.call with
  | .cetf method => Actor.apply keccak256 st (⟨msg.from_, epoch, delegated_payload⟩, method)
  | .other _ _ => st

/-- The delivery of a `CetfTag`: the chain interpreter hands the synthesized message to the
signed-message interpreter as `NotVerify`, which skips the signature check, and the FVM applies
it. -/
def deliverCetfTag (epoch : Nat) (delegated_payload : Nat → Option (List UInt8))
    (st : State Address) (height : Nat) (sig : BlsSignature) : State Address :=
  fvmDeliver keccak256 epoch delegated_payload st (cetfTagMsgToFvm (height, sig))

/-- Delivering a `CetfTag` for a height with a scheduled tag stores the message's signature under
that tag, whoever put the message in the block. -/
theorem deliverCetfTag_stores_signature {epoch : Nat} {delegated_payload : Nat → Option (List UInt8)}
    {st : State Address} {height : Nat} {sig : BlsSignature} {tag : Tag}
    (htag : st.getTagAtHeight height = some tag) :
    (deliverCetfTag keccak256 epoch delegated_payload st height sig).signed_hashed_tags.lookup tag =
      some sig := by
  have hcall : Actor.addSignedTag ⟨systemActorId, epoch, delegated_payload⟩ st height sig =
      .ok (st.addSignedAndHashedTag tag sig) :=
    Actor.addSignedTag_eq_ok.mpr ⟨rfl, by simp [State.addSignedTagAtHeight, htag]⟩
  simp [deliverCetfTag, fvmDeliver, cetfTagMsgToFvm, Actor.apply, Actor.invoke, hcall,
    State.addSignedAndHashedTag]

end Deliver

/-- A user's `CetfTag` for height 9: `check` hands it to an inner check that accepts it, where a
validator-only message would be illegal; `process` accepts a proposal with two such messages, at
heights 3 and 9, since it never reads them or the proposal's height; and delivering one stores
its signature under the tag scheduled at 9. -/
theorem cetfTag_from_user_is_checked_accepted_and_stored :
    let sig₁ : BlsSignature := Vector.replicate 96 1
    let sig₂ : BlsSignature := Vector.replicate 96 2
    let tag : Tag := Vector.replicate 32 7
    let st : State Nat :=
      { State.new with tag_map := (∅ : AList fun _ : Nat => Tag).insert 9 tag, enabled := true }
    let inner_check : Unit → VerifiableMessage Unit Unit Nat → Bool → Except String (Unit × Unit) :=
      fun state _ _ => .ok (state, ())
    check inner_check (fun _ => .ok ()) ()
        (.Cetf (.CetfTag 9 sig₁) : ChainMessage Unit Unit Unit) false = .ok ((), .ok ()) ∧
      process ⟨fun _ => true, fun _ => true⟩
        ([.Cetf (.CetfTag 3 sig₁), .Cetf (.CetfTag 9 sig₂)] : List (ChainMessage Unit Unit Unit)) =
        true ∧
      (deliverCetfTag (fun _ => tag) 10 (fun _ => none) st 9 sig₁).signed_hashed_tags.lookup tag =
        some sig₁ := by
  intro sig₁ sig₂ tag st inner_check
  refine ⟨rfl, rfl, deliverCetfTag_stores_signature _ ?_⟩
  simp [st, State.getTagAtHeight, -AList.insert_empty]

end Delorean.Chain
