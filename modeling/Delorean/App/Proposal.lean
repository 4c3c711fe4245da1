import Delorean.Chain.Proposal
import Delorean.Cetf.Aggregation

/-!
# The application's proposals

CometBFT asks the proposer for a block with `prepare_proposal` and every validator, the proposer
included, for its vote with `process_proposal`. The application prepends the aggregated CETF tag
to the mempool's transactions and hands them to the interpreter stack: `BytesMessageInterpreter`
decodes, passes on, re-encodes and truncates to `max_msgs`, and `ChainMessageInterpreter` adds the
top-down finality and the resolved bottom-up checkpoints (`Chain.prepare`). The application then
keeps as many transactions as fit in `max_tx_bytes`. `process_proposal` re-decodes, re-counts
and has the chain interpreter check the finality and the checkpoints.

The byte strings are a type `B` with the IPLD codec of the chain messages, whose decoding reads
back what it encodes. On the node's own state after `prepare_proposal`, `process_proposal` accepts
what it prepared (`processProposal_accepts_prepareProposal`), provided the mempool holds what
`check_tx` lets through: transactions that decode to messages the chain interpreter's `check`
accepts, which are never the validators' own (`not_isExec_of_check`).
-/

namespace Delorean.App

open Delorean.Chain Delorean.Topdown Delorean.Cetf

/-! ## The bytes interpreter -/

/-- `ProposalPrepareMode`: whether `prepare` decodes the mempool and passes it to the inner
interpreter, or only appends or prepends what the inner interpreter adds. -/
inductive ProposalPrepareMode where
  | PassThrough
  | AppendOnly
  | PrependOnly
  deriving DecidableEq, Repr

/-- The IPLD encoding of messages `M` as byte strings `B`: `from_slice` reads back what `to_vec`
writes. -/
structure IpldCodec (M B : Type) where
  to_vec : M → B
  from_slice : B → Option M
  from_slice_to_vec : ∀ m, from_slice (to_vec m) = some m

/-- `BytesMessageInterpreter`. Its inner interpreter is an argument of the operations. -/
structure BytesMessageInterpreter where
  prepare_mode : ProposalPrepareMode
  reject_malformed_proposal : Bool
  max_msgs : Nat

namespace BytesMessageInterpreter

variable {σ M B : Type} (self : BytesMessageInterpreter) (codec : IpldCodec M B)

/-- The messages `prepare` passes to the inner interpreter: in the pass-through mode the
mempool's that decode, which `check` has already made all of them; otherwise none. -/
def chainMsgs (msgs : List B) : List M :=
  match self.prepare_mode with
  | .PassThrough => msgs.filterMap codec.from_slice
  | .AppendOnly | .PrependOnly => []

/-- The proposal before truncation: the inner interpreter's messages, encoded, with the mempool
after or before them outside the pass-through mode. -/
def allMsgs (msgs chain_msgs : List B) : List B :=
  match self.prepare_mode with
  | .PassThrough => chain_msgs
  | .AppendOnly => msgs ++ chain_msgs
  | .PrependOnly => chain_msgs ++ msgs

/-- `prepare`. Encoding a chain message does not fail. -/
def prepare (inner_prepare : σ → List M → Except String (σ × List M)) (state : σ)
    (msgs : List B) : Except String (σ × List B) := do
  let (state, chain_msgs) ← inner_prepare state (self.chainMsgs codec msgs)
  let all_msgs := self.allMsgs msgs (chain_msgs.map codec.to_vec)
  pure (state, if all_msgs.length > self.max_msgs then all_msgs.take self.max_msgs else all_msgs)

/-- The loop of `process` over the block: a message that does not decode rejects the block when
`reject_malformed_proposal`, and is skipped otherwise. -/
def decodeMsgs : List B → Option (List M)
  | [] => some []
  | msg :: msgs =>
    match codec.from_slice msg with
    | none => if self.reject_malformed_proposal then none else decodeMsgs msgs
    | some m => (decodeMsgs msgs).map (m :: ·)

/-- `process`: too many messages, or one that does not decode when malformed proposals are
rejected, reject the block; the decoded messages go to the inner interpreter. -/
def process (inner_process : σ → List M → Bool) (state : σ) (msgs : List B) : Bool :=
  if msgs.length > self.max_msgs then false
  else
    match self.decodeMsgs codec msgs with
    | none => false
    | some chain_msgs => inner_process state chain_msgs

theorem mem_chainMsgs {msgs : List B} {m : M} (h : m ∈ self.chainMsgs codec msgs) :
    ∃ msg ∈ msgs, codec.from_slice msg = some m := by
  unfold chainMsgs at h
  split at h
  · exact List.mem_filterMap.mp h
  all_goals exact absurd h List.not_mem_nil

omit codec in
theorem mem_allMsgs {msgs chain_msgs : List B} {msg : B} (h : msg ∈ self.allMsgs msgs chain_msgs) :
    msg ∈ msgs ∨ msg ∈ chain_msgs := by
  unfold allMsgs at h
  split at h
  · exact .inr h
  · exact List.mem_append.mp h
  · exact (List.mem_append.mp h).symm

/-- A block whose messages all decode is decoded whole, in order. -/
theorem decodeMsgs_of_forall {msgs : List B} (h : ∀ msg ∈ msgs, (codec.from_slice msg).isSome) :
    self.decodeMsgs codec msgs = some (msgs.filterMap codec.from_slice) := by
  induction msgs with
  | nil => rfl
  | cons msg msgs ih =>
    obtain ⟨m, hm⟩ := Option.isSome_iff_exists.mp (h msg List.mem_cons_self)
    rw [decodeMsgs, hm, List.filterMap_cons_some hm,
      ih fun msg' hmem => h msg' (List.mem_cons_of_mem _ hmem)]
    rfl

section Accept

variable (accept : σ → M → Bool)

/-- Over an inner interpreter that judges messages one at a time, `process` accepts a block of at
most `max_msgs` messages that all decode to messages it accepts. -/
theorem process_of_forall {inner_process : σ → List M → Bool}
    (hprocess : ∀ state msgs, inner_process state msgs = msgs.all (accept state)) {state : σ}
    {msgs : List B} (hlen : msgs.length ≤ self.max_msgs)
    (hmsgs : ∀ msg ∈ msgs, ∃ m, codec.from_slice msg = some m ∧ accept state m = true) :
    self.process codec inner_process state msgs = true := by
  have hdecode := self.decodeMsgs_of_forall codec fun msg hmem => by
    obtain ⟨m, hm, -⟩ := hmsgs msg hmem
    simp [hm]
  rw [process, if_neg (by omega), hdecode]
  dsimp only
  rw [hprocess, List.all_eq_true]
  intro m hm
  obtain ⟨msg, hmem, hmsg⟩ := List.mem_filterMap.mp hm
  obtain ⟨m', hm', hacc⟩ := hmsgs msg hmem
  rw [hmsg, Option.some.injEq] at hm'
  exact hm' ▸ hacc

/-- What `prepare` returns is at most `max_msgs` messages that all decode to accepted messages,
when the mempool's do and the inner interpreter adds only accepted ones to its input. -/
theorem prepare_spec {inner_prepare : σ → List M → Except String (σ × List M)}
    {state state' : σ} {msgs out : List B}
    (hmsgs : ∀ msg ∈ msgs, ∃ m, codec.from_slice msg = some m ∧ accept state' m = true)
    (hinner : ∀ chain_msgs chain_out, inner_prepare state chain_msgs = .ok (state', chain_out) →
      ∀ m ∈ chain_out, m ∈ chain_msgs ∨ accept state' m = true)
    (hprep : self.prepare codec inner_prepare state msgs = .ok (state', out)) :
    out.length ≤ self.max_msgs ∧
      ∀ msg ∈ out, ∃ m, codec.from_slice msg = some m ∧ accept state' m = true := by
  simp only [prepare, Except.bind_eq_ok, Except.pure_eq_ok, Except.ok.injEq] at hprep
  obtain ⟨⟨state'', chain_out⟩, hok, hout⟩ := hprep
  obtain ⟨rfl, rfl⟩ := Prod.mk.inj hout
  -- Truncation keeps a prefix of at most `max_msgs` messages.
  have htrunc : ∀ l : List B,
      (if l.length > self.max_msgs then l.take self.max_msgs else l).length ≤ self.max_msgs ∧
        ∀ msg ∈ (if l.length > self.max_msgs then l.take self.max_msgs else l), msg ∈ l := by
    intro l
    split_ifs with hl
    · exact ⟨List.length_take_le _ _, fun msg hmsg => List.mem_of_mem_take hmsg⟩
    · exact ⟨by omega, fun msg hmsg => hmsg⟩
  refine ⟨(htrunc _).1, fun msg hmsg => ?_⟩
  rcases self.mem_allMsgs ((htrunc _).2 msg hmsg) with hmem | hmem
  · exact hmsgs msg hmem
  · obtain ⟨m, hm, rfl⟩ := List.mem_map.mp hmem
    refine ⟨m, codec.from_slice_to_vec m, ?_⟩
    rcases hinner _ chain_out hok m hm with hin | hacc
    · -- A mempool message passed through: it decoded to `m`, which is accepted.
      obtain ⟨msg', hmem', hdec⟩ := self.mem_chainMsgs codec hin
      obtain ⟨m', hm', hacc⟩ := hmsgs msg' hmem'
      rw [hdec, Option.some.injEq] at hm'
      exact hm' ▸ hacc
    · exact hacc

end Accept

end BytesMessageInterpreter

/-! ## The application -/

/-- `take_until_max_size`: the longest prefix whose sizes add up to at most `max_tx_bytes`. The
sizes are added without bound, which `saturating_add` reaches only above `usize::MAX`. -/
def takeUntilMaxSize {Tx : Type} (len : Tx → Nat) (txs : List Tx) (max_tx_bytes : Nat) : List Tx :=
  go 0 txs
where
  go : Nat → List Tx → List Tx
    | _, [] => []
    | size, tx :: txs => if size + len tx > max_tx_bytes then [] else tx :: go (size + len tx) txs

theorem takeUntilMaxSize_go_prefix {Tx : Type} (len : Tx → Nat) (max_tx_bytes : Nat) :
    ∀ (size : Nat) (txs : List Tx), takeUntilMaxSize.go len max_tx_bytes size txs <+: txs
  | _, [] => List.prefix_refl _
  | size, tx :: txs => by
    unfold takeUntilMaxSize.go
    split_ifs
    · exact List.nil_prefix
    · exact List.cons_prefix_cons.mpr ⟨rfl, takeUntilMaxSize_go_prefix len max_tx_bytes _ txs⟩

/-- `take_until_max_size` keeps a prefix of the transactions. -/
theorem takeUntilMaxSize_prefix {Tx : Type} (len : Tx → Nat) (txs : List Tx) (max_tx_bytes : Nat) :
    takeUntilMaxSize len txs max_tx_bytes <+: txs :=
  takeUntilMaxSize_go_prefix len max_tx_bytes 0 txs

/-- `i64::try_into::<usize>().unwrap()`: a negative size panics. -/
def usizeOfInt (n : Int) : Except String Nat :=
  if n < 0 then .error "called `Result::unwrap()` on an `Err` value" else .ok n.toNat

/-- `request::PrepareProposal`, with the fields `prepare_proposal` reads: the vote extensions of
the local last commit, if any. -/
structure PrepareProposal (B : Type) where
  height : Nat
  txs : List B
  local_last_commit : Option (List (List UInt8))
  max_tx_bytes : Int

/-- `response::ProcessProposal`. -/
inductive ProcessProposal where
  | Accept
  | Reject
  deriving DecidableEq, Repr

section App

variable {Sig Pk K Key T Signed Relayed B : Type} [DecidableEq K] [DecidableEq Key]
  [DecidableEq T] {key : T → Key} (bls : BlsApi Sig Pk)
  (fromSlice : List UInt8 → Option SignedTags) (interpreter : BytesMessageInterpreter)
  (codec : IpldCodec (ChainMessage Signed Relayed T) B) (len : B → Nat)

/-- `App::prepare_proposal`: the CETF tag first, then the mempool, through the interpreter
stack, cut to `max_tx_bytes`. -/
def prepareProposal (chain_env : ChainEnv K Key T key) (request : PrepareProposal B) :
    Except String (ChainEnv K Key T key × List B) := do
  let cetf_tx ← prepareCetfTx bls fromSlice request.height request.local_last_commit
  let txs := cetf_tx.map (fun msg => codec.to_vec (.Cetf msg)) ++ request.txs
  let (chain_env, txs) ← interpreter.prepare codec Chain.prepare chain_env txs
  let max_tx_bytes ← usizeOfInt request.max_tx_bytes
  pure (chain_env, takeUntilMaxSize len txs max_tx_bytes)

/-- `App::process_proposal`. -/
def processProposal (chain_env : ChainEnv K Key T key) (txs : List B) : ProcessProposal :=
  if interpreter.process codec (fun env msgs => Chain.process (processEnv env) msgs) chain_env txs
  then .Accept else .Reject

/-- A node accepts its own proposal. In every state the node reaches, with a mempool of
transactions that decode to messages the chain interpreter's `check` accepted, on whatever check
state and in a first check or a recheck, `process_proposal` accepts on the node's state after
`prepare_proposal` the transactions it returned, whatever the prepare mode, the message limit and
the byte limit: the CETF tag and the user messages are not looked at, the finality is the lower
of the provider's proposal and a quorum, both of which the provider checks, the checkpoints are
resolved, and both cuts keep a prefix. -/
theorem processProposal_accepts_prepareProposal {σ Synthetic Address CheckRes : Type}
    (inner_check : σ → VerifiableMessage Signed Synthetic Address → Bool →
      Except String (σ × CheckRes))
    (relayed_bottom_up_ckpt_to_fvm : Relayed → Except String Synthetic)
    {config : Config} {genesis_epoch : Nat} {chain_env chain_env' : ChainEnv K Key T key}
    (hr : Reachable (ChainEnv.Initial config genesis_epoch) ChainEnv.Step chain_env)
    {request : PrepareProposal B} {txs : List B}
    (hmempool : ∀ tx ∈ request.txs, ∃ m, codec.from_slice tx = some m ∧
      ∃ state is_recheck state' ret,
        check inner_check relayed_bottom_up_ckpt_to_fvm state m is_recheck = .ok (state', .ok ret))
    (hprep : prepareProposal bls fromSlice interpreter codec len chain_env request =
      .ok (chain_env', txs)) :
    processProposal interpreter codec chain_env' txs = .Accept := by
  simp only [prepareProposal, Except.bind_eq_ok, Except.pure_eq_ok, Except.ok.injEq] at hprep
  obtain ⟨cetf_tx, -, ⟨chain_env'', out⟩, hinterp, max_tx_bytes, -, hout⟩ := hprep
  obtain ⟨rfl, rfl⟩ := Prod.mk.inj hout
  -- The input of the interpreter stack: the CETF tag and the mempool, all accepted.
  have hmsgs : ∀ msg ∈ cetf_tx.map (fun msg => codec.to_vec (.Cetf msg)) ++ request.txs,
      ∃ m, codec.from_slice msg = some m ∧ acceptsMessage (processEnv chain_env'') m = true := by
    intro msg hmsg
    rcases List.mem_append.mp hmsg with hcetf | htx
    · obtain ⟨tag, -, rfl⟩ := List.mem_map.mp hcetf
      exact ⟨.Cetf tag, codec.from_slice_to_vec _, rfl⟩
    · -- a message `check` accepted is not validator-only, and `process` passes it
      obtain ⟨m, hm, state, is_recheck, state', ret, hcheck⟩ := hmempool msg htx
      exact ⟨m, hm, acceptsMessage_of_not_isExec (not_isExec_of_check hcheck) _⟩
  have hprocess : ∀ (env : ChainEnv K Key T key) (msgs : List (ChainMessage Signed Relayed T)),
      Chain.process (processEnv env) msgs = msgs.all (acceptsMessage (processEnv env)) :=
    fun env msgs => process_eq_all (processEnv env) msgs
  obtain ⟨hlen, hdecode⟩ := interpreter.prepare_spec codec
    (fun env m => acceptsMessage (processEnv env) m) hmsgs
    (fun _ _ hok _ hm => acceptsMessage_of_prepare hr hok hm) hinterp
  -- Cutting to the byte limit keeps a prefix.
  have hpre := takeUntilMaxSize_prefix len out max_tx_bytes
  have haccept := interpreter.process_of_forall codec
    (fun env m => acceptsMessage (processEnv env) m) hprocess (hpre.length_le.trans hlen)
    fun msg hmsg => hdecode msg (hpre.subset hmsg)
  simp [processProposal, haccept]

end App

/-- After the parent block at 11 is synced, voted for by the one validator and a checkpoint is
resolved, the node in the deployed configuration (prepending, malformed transactions skipped)
proposes the finality at 11, the checkpoint and the user's transaction, and accepts them. -/
theorem processProposal_accepts_prepareProposal_after_sync :
    let codec : IpldCodec (ChainMessage Unit Unit Nat) (ChainMessage Unit Unit Nat) :=
      ⟨id, some, fun _ => rfl⟩
    let interpreter : BytesMessageInterpreter := ⟨.PrependOnly, false, 10⟩
    let request : PrepareProposal (ChainMessage Unit Unit Nat) := ⟨12, [.Signed ()], none, 100⟩
    let txs : List (ChainMessage Unit Unit Nat) :=
      [.Ipc (.TopDownExec ⟨11, [2]⟩), .Ipc (.BottomUpExec 5), .Signed ()]
    ∃ chain_env chain_env' : ChainEnv Nat Nat Nat id,
      Reachable (ChainEnv.Initial ⟨none, some 0⟩ 0) ChainEnv.Step chain_env ∧
      prepareProposal (BlsApi.ofScheme toyScheme toySigCodec toyPkCodec) (fun _ => none)
          interpreter codec (fun _ => 1) chain_env request = .ok (chain_env', txs) ∧
      processProposal interpreter codec chain_env' txs = .Accept := by
  dsimp only
  have h0 : ChainEnv.Initial ⟨none, some 0⟩ 0 (⟨.new, .new ⟨none, some 0⟩ 0 (some ⟨10, [1]⟩),
      .new [(1, 1)] (10, [1])⟩ : ChainEnv Nat Nat Nat id) :=
    ⟨⟨10, [1]⟩, [(1, 1)], rfl, rfl, rfl⟩
  -- The syncer reports block 11, validator 1 votes for it, and checkpoint 5 is added and resolved.
  have hr := ((((Reachable.of_init h0).tail
    (ChainEnv.Step.sync rfl rfl
      (show FinalityWithNull.newParentView _ 11 (some ⟨[2], [], []⟩) = .ok _ from rfl) rfl)).tail
    (ChainEnv.Step.add_vote 1 11 [2] true rfl)).tail
    (ChainEnv.Step.add_checkpoint _ 5 false)).tail
    (ChainEnv.Step.resolve _ 5)
  refine ⟨_, _, hr, rfl, ?_⟩
  -- The inner check accepts every message, and the relayed checkpoints convert.
  let inner_check : Unit → VerifiableMessage Unit Unit Nat → Bool → Except String (Unit × Unit) :=
    fun state _ _ => .ok (state, ())
  refine processProposal_accepts_prepareProposal (BlsApi.ofScheme toyScheme toySigCodec toyPkCodec)
    (fun _ => none) _ _ (fun _ => 1) inner_check (fun _ => .ok ()) hr ?_
    (show prepareProposal _ _ _ _ _ _ ⟨12, [.Signed ()], none, 100⟩ = _ from rfl)
  -- The mempool's one transaction is a user message, which `check` accepts.
  intro tx htx
  rw [List.mem_singleton.mp htx]
  exact ⟨_, rfl, (), false, (), (), rfl⟩

end Delorean.App
