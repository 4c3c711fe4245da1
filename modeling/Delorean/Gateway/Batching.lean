import Delorean.Gateway.Ledger
import Delorean.Lib.OrdMap
import Delorean.Subnet.Checkpointing

/-!
# Bottom-up message batches

`LibGateway.commitBottomUpMsg` stamps each message with the gateway's bottom-up nonce and files it
in the batch of the next checkpoint epoch above the current block. When that batch already holds
`maxMsgsPerBottomUpBatch` messages, the batch is cut: its messages are copied into a batch at the
current block (`storeBottomUpMsgBatch`) and the epoch's batch starts again with the new message.
Fendermint builds a checkpoint at the end of each block from the batch stored at that block
(`should_create_checkpoint`), and the parent refuses a checkpoint with more messages than the
maximum (`ensureValidCheckpoint`, `checkMsgLength`).

The batches lose, duplicate and reorder nothing: over every run of commits, read in the order of
their keys, they are the flat log of `Ledger` after the same commits, with the same nonces
(`refines_commitRun`). But `storeBottomUpMsgBatch` pushes the cut onto whatever
batch is already stored at the block, so a second cut in the same block, or a cut at a block
that is itself an epoch with a batch, stores more than the maximum
(`commitRun_oversized_batch`).

The mapping of batches is an `OrdMap` of the keys written; an unwritten key reads the zero batch.
Block numbers are read as `uint64` by `getNextEpoch`, and are taken below `2 ^ 64`.
-/

namespace Delorean.Gateway

/-- `BottomUpMsgBatch`. -/
structure BottomUpMsgBatch (Address : Type) where
  subnetID : SubnetID Address
  blockHeight : Nat
  msgs : List (IpcEnvelope Address)
  deriving DecidableEq, Repr

/-- The gateway's storage that `commitBottomUpMsg` reads and writes. The constructor refuses a
zero checkpoint period. -/
structure BatchStorage (Address : Type) where
  networkName : SubnetID Address
  bottomUpNonce : Nat
  bottomUpCheckPeriod : Nat
  maxMsgsPerBottomUpBatch : Nat
  /-- `bottomUpMsgBatches`, at the keys written so far. -/
  bottomUpMsgBatches : OrdMap Nat (BottomUpMsgBatch Address)
  checkPeriod_pos : 0 < bottomUpCheckPeriod

namespace BatchStorage

variable {Address : Type}

/-- The batch an unwritten key of the mapping reads. -/
def zeroBatch : BottomUpMsgBatch Address := ⟨⟨0, []⟩, 0, []⟩

/-- `getNextEpoch` at the storage's checkpoint period, which is not zero. -/
def nextEpoch (s : BatchStorage Address) (blockNumber : Nat) : Nat :=
  match h : (Subnet.getNextEpoch blockNumber s.bottomUpCheckPeriod : Except (Subnet.Revert Address) Nat) with
  | .ok epoch => epoch
  | .error _ => absurd h (by simp [Subnet.getNextEpoch, s.checkPeriod_pos.ne'])

/-- `getBottomUpMsgBatch`: the batch at a key, and whether it exists, that is, whether its
height is not zero. -/
def getBottomUpMsgBatch (s : BatchStorage Address) (epoch : Nat) :
    Bool × BottomUpMsgBatch Address :=
  let batch := (s.bottomUpMsgBatches.get? epoch).getD zeroBatch
  (batch.blockHeight != 0, batch)

/-- `storeBottomUpMsgBatch`: push the batch's messages onto the batch stored at its height. -/
def storeBottomUpMsgBatch (s : BatchStorage Address) (batch : BottomUpMsgBatch Address) :
    BatchStorage Address :=
  let b := (s.getBottomUpMsgBatch batch.blockHeight).2
  let stored : BottomUpMsgBatch Address := ⟨batch.subnetID, batch.blockHeight, b.msgs ++ batch.msgs⟩
  { s with bottomUpMsgBatches := s.bottomUpMsgBatches.insert batch.blockHeight stored }

/-- `commitBottomUpMsg` at block `blockNumber`: stamp the message with the nonce and file it in
the batch of the next epoch, cutting that batch at the current block first if it is full. -/
def commitBottomUpMsg (s : BatchStorage Address) (blockNumber : Nat)
    (crossMessage : IpcEnvelope Address) : BatchStorage Address × IpcEnvelope Address :=
  let epoch := s.nextEpoch blockNumber
  let crossMessage := { crossMessage with nonce := s.bottomUpNonce }
  let s := { s with bottomUpNonce := s.bottomUpNonce + 1 }
  match s.getBottomUpMsgBatch epoch with
  | (false, batch) =>
    let batch : BottomUpMsgBatch Address := ⟨s.networkName, epoch, batch.msgs ++ [crossMessage]⟩
    ({ s with bottomUpMsgBatches := s.bottomUpMsgBatches.insert epoch batch }, crossMessage)
  | (true, batch) =>
    if batch.msgs.length = s.maxMsgsPerBottomUpBatch then
      -- The full batch is copied to a cut at the current block.
      let newBatch : BottomUpMsgBatch Address := ⟨s.networkName, blockNumber, batch.msgs⟩
      let batch := { batch with msgs := [crossMessage] }
      let s := { s with bottomUpMsgBatches := s.bottomUpMsgBatches.insert epoch batch }
      (s.storeBottomUpMsgBatch newBatch, crossMessage)
    else
      let batch := { batch with msgs := batch.msgs ++ [crossMessage] }
      ({ s with bottomUpMsgBatches := s.bottomUpMsgBatches.insert epoch batch }, crossMessage)

/-- Calls of `commitBottomUpMsg`, each at its block. -/
def commitRun : BatchStorage Address → List (Nat × IpcEnvelope Address) → BatchStorage Address
  | s, [] => s
  | s, (blockNumber, crossMessage) :: calls =>
    commitRun (s.commitBottomUpMsg blockNumber crossMessage).1 calls

/-- The stored messages, batch after batch by increasing key. -/
def storedMsgs (s : BatchStorage Address) : List (IpcEnvelope Address) :=
  s.bottomUpMsgBatches.entries.flatMap fun e => e.2.msgs

/-! ## Epochs -/

theorem nextEpoch_eq (s : BatchStorage Address) (blockNumber : Nat) :
    s.nextEpoch blockNumber =
      (blockNumber % 2 ^ 64 / s.bottomUpCheckPeriod + 1) * s.bottomUpCheckPeriod := by
  unfold nextEpoch
  split
  · rename_i epoch h
    simp only [Subnet.getNextEpoch, s.checkPeriod_pos.ne', if_false, Except.ok.injEq] at h
    exact h.symm
  · rename_i h
    simp [Subnet.getNextEpoch, s.checkPeriod_pos.ne'] at h

theorem nextEpoch_congr {s s' : BatchStorage Address}
    (h : s'.bottomUpCheckPeriod = s.bottomUpCheckPeriod) (blockNumber : Nat) :
    s'.nextEpoch blockNumber = s.nextEpoch blockNumber := by
  rw [nextEpoch_eq, nextEpoch_eq, h]

/-- Below `2 ^ 64`, the next epoch is above the block. -/
theorem lt_nextEpoch (s : BatchStorage Address) {blockNumber : Nat} (hbn : blockNumber < 2 ^ 64) :
    blockNumber < s.nextEpoch blockNumber := by
  rw [nextEpoch_eq, Nat.mod_eq_of_lt hbn, Nat.mul_comm]
  exact Nat.lt_mul_div_succ blockNumber s.checkPeriod_pos

/-- A later block has the same next epoch, or one at most the block. -/
theorem nextEpoch_le_or_eq (s : BatchStorage Address) {blockNumber blockNumber' : Nat}
    (hle : blockNumber ≤ blockNumber') (hbn' : blockNumber' < 2 ^ 64) :
    s.nextEpoch blockNumber ≤ blockNumber' ∨ s.nextEpoch blockNumber = s.nextEpoch blockNumber' := by
  by_cases hepoch : s.nextEpoch blockNumber ≤ blockNumber'
  · exact .inl hepoch
  · refine .inr ?_
    have hbn : blockNumber < 2 ^ 64 := lt_of_le_of_lt hle hbn'
    rw [nextEpoch_eq, Nat.mod_eq_of_lt hbn] at hepoch ⊢
    rw [nextEpoch_eq, Nat.mod_eq_of_lt hbn']
    -- Both blocks lie in the same period.
    have hdiv : blockNumber' / s.bottomUpCheckPeriod = blockNumber / s.bottomUpCheckPeriod :=
      Nat.div_eq_of_lt_le ((Nat.div_mul_le_self _ _).trans hle) (by omega)
    rw [hdiv]

/-! ## One commit -/

/-- A commit stamps the message, counts the nonce up and writes only the batches. -/
theorem commitBottomUpMsg_eq (s : BatchStorage Address) (blockNumber : Nat)
    (crossMessage : IpcEnvelope Address) :
    ∃ batches, s.commitBottomUpMsg blockNumber crossMessage =
      ({ s with bottomUpNonce := s.bottomUpNonce + 1, bottomUpMsgBatches := batches },
        { crossMessage with nonce := s.bottomUpNonce }) := by
  unfold BatchStorage.commitBottomUpMsg
  dsimp only
  split
  · exact ⟨_, rfl⟩
  · split_ifs
    · exact ⟨_, rfl⟩
    · exact ⟨_, rfl⟩

section Commit

variable (s : BatchStorage Address) (blockNumber : Nat) (crossMessage : IpcEnvelope Address)

@[simp]
theorem snd_commitBottomUpMsg :
    (s.commitBottomUpMsg blockNumber crossMessage).2 = { crossMessage with nonce := s.bottomUpNonce } := by
  obtain ⟨_, h⟩ := s.commitBottomUpMsg_eq blockNumber crossMessage
  rw [h]

@[simp]
theorem bottomUpNonce_commitBottomUpMsg :
    (s.commitBottomUpMsg blockNumber crossMessage).1.bottomUpNonce = s.bottomUpNonce + 1 := by
  obtain ⟨_, h⟩ := s.commitBottomUpMsg_eq blockNumber crossMessage
  rw [h]

@[simp]
theorem bottomUpCheckPeriod_commitBottomUpMsg :
    (s.commitBottomUpMsg blockNumber crossMessage).1.bottomUpCheckPeriod = s.bottomUpCheckPeriod := by
  obtain ⟨_, h⟩ := s.commitBottomUpMsg_eq blockNumber crossMessage
  rw [h]

end Commit

/-! ## How the batches lie

At every block the stored batches sit at keys at most the block, or at the block's next epoch,
and each batch's height is its key. So the epoch's batch is the last one, and a cut at the
block lands just below it. -/

/-- How the batches lie around the current block: each stored batch's height is its key, and
every key is at most the block or is the block's next epoch. -/
structure Keyed (s : BatchStorage Address) (blockNumber : Nat) : Prop where
  height_eq : ∀ k b, s.bottomUpMsgBatches.get? k = some b → b.blockHeight = k
  key_le : ∀ e ∈ s.bottomUpMsgBatches.entries, e.1 ≤ blockNumber ∨ e.1 = s.nextEpoch blockNumber
  below : blockNumber < 2 ^ 64

/-- No batch: the batches lie as `Keyed` says at every block. -/
theorem keyed_empty (s : BatchStorage Address) (hempty : s.bottomUpMsgBatches.entries = [])
    {blockNumber : Nat} (hbn : blockNumber < 2 ^ 64) : s.Keyed blockNumber := by
  refine ⟨fun k b hb => ?_, fun e he => ?_, hbn⟩
  · have := OrdMap.mem_entries_of_get? hb
    simp [hempty] at this
  · simp [hempty] at he

section Keyed

variable {s : BatchStorage Address} {blockNumber : Nat}

/-- Every key is at most the next epoch. -/
theorem Keyed.le_nextEpoch (hk : s.Keyed blockNumber) :
    ∀ e ∈ s.bottomUpMsgBatches.entries, e.1 ≤ s.nextEpoch blockNumber := by
  intro e he
  rcases hk.key_le e he with hle | heq
  · exact hle.trans (s.lt_nextEpoch hk.below).le
  · exact heq.le

/-- The keys below the next epoch are at most the block. -/
theorem Keyed.le_of_lt_nextEpoch (hk : s.Keyed blockNumber) :
    ∀ e ∈ s.bottomUpMsgBatches.entries.filter (fun e => e.1 < s.nextEpoch blockNumber),
      e.1 ≤ blockNumber := by
  intro e he
  rw [List.mem_filter, decide_eq_true_eq] at he
  rcases hk.key_le e he.1 with hle | heq
  · exact hle
  · exact absurd heq he.2.ne

/-- The batches lie so at every later block. -/
theorem Keyed.mono {blockNumber' : Nat} (hk : s.Keyed blockNumber) (hle : blockNumber ≤ blockNumber')
    (hbn' : blockNumber' < 2 ^ 64) : s.Keyed blockNumber' := by
  refine ⟨hk.height_eq, fun e he => ?_, hbn'⟩
  rcases hk.key_le e he with hkey | hkey
  · exact .inl (hkey.trans hle)
  · rcases s.nextEpoch_le_or_eq hle hbn' with hepoch | hepoch
    · exact .inl (hkey ▸ hepoch)
    · exact .inr (hkey.trans hepoch)

/-- A batch written at `k`, the block or its epoch, with height `k` keeps the batches lying so. -/
theorem Keyed.insert {s' : BatchStorage Address} {k : Nat} {batch : BottomUpMsgBatch Address}
    (hk : s.Keyed blockNumber) (hperiod : s'.bottomUpCheckPeriod = s.bottomUpCheckPeriod)
    (hbatches : s'.bottomUpMsgBatches = s.bottomUpMsgBatches.insert k batch)
    (hheight : batch.blockHeight = k) (hkey : k ≤ blockNumber ∨ k = s.nextEpoch blockNumber) :
    s'.Keyed blockNumber := by
  refine ⟨fun k' b hb => ?_, fun e he => ?_, hk.below⟩
  · rw [hbatches, OrdMap.get?_insert] at hb
    split_ifs at hb with hk'
    · cases hb
      rw [hheight, hk']
    · exact hk.height_eq k' b hb
  · rw [nextEpoch_congr hperiod]
    rw [hbatches] at he
    rcases OrdMap.mem_insertSorted he with rfl | he
    · exact hkey
    · exact hk.key_le e he

/-- The batch at the next epoch exists exactly when one is stored there: its height is the
epoch, which is not zero. -/
theorem Keyed.getBottomUpMsgBatch_nextEpoch (hk : s.Keyed blockNumber) :
    s.getBottomUpMsgBatch (s.nextEpoch blockNumber) =
      (((s.bottomUpMsgBatches.get? (s.nextEpoch blockNumber)).isSome,
        (s.bottomUpMsgBatches.get? (s.nextEpoch blockNumber)).getD zeroBatch)) := by
  have hpos : 0 < s.nextEpoch blockNumber := lt_of_le_of_lt (Nat.zero_le _) (s.lt_nextEpoch hk.below)
  cases hb : s.bottomUpMsgBatches.get? (s.nextEpoch blockNumber) with
  | none => simp [getBottomUpMsgBatch, hb, zeroBatch]
  | some b =>
    have hheight := hk.height_eq _ b hb
    simp [getBottomUpMsgBatch, hb, hheight, hpos.ne']

/-- What one commit does to the batches, when they lie as `Keyed` says: the epoch's batch is
created, extended, or cut at the block and restarted. -/
theorem Keyed.commitBottomUpMsg_batches (hk : s.Keyed blockNumber)
    (crossMessage : IpcEnvelope Address) :
    let epoch := s.nextEpoch blockNumber
    let m := { crossMessage with nonce := s.bottomUpNonce }
    let batches := s.bottomUpMsgBatches
    let batches' := (s.commitBottomUpMsg blockNumber crossMessage).1.bottomUpMsgBatches
    (batches.get? epoch = none ∧ batches' = batches.insert epoch ⟨s.networkName, epoch, [m]⟩) ∨
      (∃ b, batches.get? epoch = some b ∧ b.msgs.length ≠ s.maxMsgsPerBottomUpBatch ∧
        batches' = batches.insert epoch { b with msgs := b.msgs ++ [m] }) ∨
      (∃ b, batches.get? epoch = some b ∧ b.msgs.length = s.maxMsgsPerBottomUpBatch ∧
        batches' = (batches.insert epoch { b with msgs := [m] }).insert blockNumber
          ⟨s.networkName, blockNumber, ((batches.get? blockNumber).getD zeroBatch).msgs ++ b.msgs⟩) := by
  intro epoch m batches batches'
  have hne : s.nextEpoch blockNumber ≠ blockNumber := (s.lt_nextEpoch hk.below).ne'
  have hget : ({ s with bottomUpNonce := s.bottomUpNonce + 1 } : BatchStorage Address).getBottomUpMsgBatch
      epoch = _ := hk.getBottomUpMsgBatch_nextEpoch
  unfold batches' BatchStorage.commitBottomUpMsg
  dsimp only
  rw [hget]
  cases batches.get? epoch with
  | none =>
    refine .inl ⟨rfl, ?_⟩
    simp [zeroBatch]
    rfl
  | some b =>
    simp only [Option.isSome_some, Option.getD_some]
    -- A stored batch exists; it is cut when full.
    split_ifs with hfull
    · refine .inr (.inr ⟨b, rfl, hfull, ?_⟩)
      simp [storeBottomUpMsgBatch, getBottomUpMsgBatch, hne]
      rfl
    · exact .inr (.inl ⟨b, rfl, hfull, rfl⟩)

end Keyed

/-! ## No message lost, duplicated or reordered -/

/-- The messages of the batch a lookup reads. -/
theorem flatMap_get?_toList (o : Option (BottomUpMsgBatch Address)) (k : Nat) :
    ((o.map fun v => (k, v)).toList.flatMap fun e => e.2.msgs) = (o.getD zeroBatch).msgs := by
  cases o <;> simp [zeroBatch]

section Keyed

variable {s : BatchStorage Address} {blockNumber : Nat}

/-- Read by key, the stored messages are those below the next epoch and then the epoch's. -/
theorem Keyed.storedMsgs_eq (hk : s.Keyed blockNumber) :
    s.storedMsgs =
      (s.bottomUpMsgBatches.entries.filter fun e => e.1 < s.nextEpoch blockNumber).flatMap
          (fun e => e.2.msgs) ++
        ((s.bottomUpMsgBatches.get? (s.nextEpoch blockNumber)).getD zeroBatch).msgs := by
  conv_lhs => rw [storedMsgs, OrdMap.entries_eq_of_forall_le hk.le_nextEpoch]
  rw [List.flatMap_append, flatMap_get?_toList]

/-- The entries with a batch `x` at the next epoch in place of the stored one, around the block:
below it are the entries below it, and above it is only the epoch's. -/
theorem Keyed.filter_epoch (hk : s.Keyed blockNumber) (x : BottomUpMsgBatch Address) :
    let below := s.bottomUpMsgBatches.entries.filter fun e => e.1 < s.nextEpoch blockNumber
    (below ++ [(s.nextEpoch blockNumber, x)]).filter (fun e => e.1 < blockNumber) =
        below.filter (fun e => e.1 < blockNumber) ∧
      (below ++ [(s.nextEpoch blockNumber, x)]).filter (fun e => blockNumber < e.1) =
        [(s.nextEpoch blockNumber, x)] := by
  intro below
  have hlt := s.lt_nextEpoch hk.below
  have habove : below.filter (fun e => blockNumber < e.1) = [] :=
    List.filter_eq_nil_iff.mpr fun e he => by simpa using hk.le_of_lt_nextEpoch e he
  constructor
  · rw [List.filter_append, List.filter_singleton]
    simp [Nat.not_lt.mpr hlt.le]
  · rw [List.filter_append, List.filter_singleton, habove]
    simp [hlt]

/-- One commit at a block where the batches lie as `Keyed` says keeps them so, and appends the
stamped message to the stored messages. -/
theorem Keyed.commitBottomUpMsg (hk : s.Keyed blockNumber) (crossMessage : IpcEnvelope Address) :
    (s.commitBottomUpMsg blockNumber crossMessage).1.Keyed blockNumber ∧
      (s.commitBottomUpMsg blockNumber crossMessage).1.storedMsgs =
        s.storedMsgs ++ [{ crossMessage with nonce := s.bottomUpNonce }] := by
  have hperiod := s.bottomUpCheckPeriod_commitBottomUpMsg blockNumber crossMessage
  have hle := hk.le_nextEpoch
  rw [hk.storedMsgs_eq, storedMsgs]
  rcases hk.commitBottomUpMsg_batches crossMessage with
    ⟨hnone, hbatches⟩ | ⟨b, hb, -, hbatches⟩ | ⟨b, hb, -, hbatches⟩
  · -- A new batch at the epoch.
    refine ⟨hk.insert hperiod hbatches rfl (.inr rfl), ?_⟩
    rw [hbatches, OrdMap.entries_insert_of_forall_le _ hle, hnone]
    simp [zeroBatch]
  · -- The epoch's batch grows by the message.
    refine ⟨hk.insert hperiod hbatches (hk.height_eq _ b hb) (.inr rfl), ?_⟩
    rw [hbatches, OrdMap.entries_insert_of_forall_le _ hle, hb]
    simp
  · -- The full batch is pushed onto the batch at the block, and the epoch's restarts.
    set m := { crossMessage with nonce := s.bottomUpNonce }
    let s₁ : BatchStorage Address := { s with
      bottomUpMsgBatches := s.bottomUpMsgBatches.insert (s.nextEpoch blockNumber) { b with msgs := [m] } }
    have hk₁ : s₁.Keyed blockNumber := hk.insert rfl rfl (hk.height_eq _ b hb) (.inr rfl)
    refine ⟨hk₁.insert hperiod hbatches rfl (.inl le_rfl), ?_⟩
    obtain ⟨hbelow, habove⟩ := hk.filter_epoch b
    obtain ⟨hbelow₁, habove₁⟩ := hk.filter_epoch { b with msgs := [m] }
    have hs := OrdMap.entries_eq_of_forall_le hle
    simp only [hb, Option.map_some, Option.toList_some] at hs
    have h := OrdMap.entries_eq_split s.bottomUpMsgBatches blockNumber
    simp only [OrdMap.split] at h
    rw [hbatches, OrdMap.entries_insert]
    simp only [OrdMap.split]
    rw [OrdMap.entries_insert_of_forall_le _ hle, hb]
    simp only [Option.getD_some]
    set A := s.bottomUpMsgBatches.entries.filter fun e => e.1 < s.nextEpoch blockNumber
    -- The entries below the epoch are those below the block and the one at the block.
    have hsplit : A = A.filter (fun e => e.1 < blockNumber) ++
        ((s.bottomUpMsgBatches.get? blockNumber).map fun v => (blockNumber, v)).toList := by
      rw [hs, hbelow, habove] at h
      exact List.append_cancel_right h
    rw [hbelow₁, habove₁]
    conv_rhs => rw [hsplit]
    simp [flatMap_get?_toList]

end Keyed

/-! ## The flat log of bottom-up messages

`Ledger` keeps the bottom-up messages as one list in commit order. The batches refine it: read
by key they are that list, and the nonces agree. -/

/-- The batches hold the gateway's log of bottom-up messages and its nonce. -/
structure Refines {Hash : Type} (g : GatewayState Address Hash) (s : BatchStorage Address) : Prop where
  storedMsgs_eq : s.storedMsgs = g.bottomUpMsgs
  bottomUpNonce_eq : s.bottomUpNonce = g.bottomUpNonce

/-- A commit of the batches at a later block is a commit of the flat log: the same message is
stamped, and the batches still hold the log and lie as `Keyed` says at the new block. -/
theorem refines_commitBottomUpMsg {Hash : Type} {g : GatewayState Address Hash}
    {s : BatchStorage Address} {blockNumber blockNumber' : Nat} (hr : Refines g s)
    (hk : s.Keyed blockNumber) (hle : blockNumber ≤ blockNumber') (hbn' : blockNumber' < 2 ^ 64)
    (crossMessage : IpcEnvelope Address) :
    Refines (Gateway.commitBottomUpMsg g crossMessage).1
        (s.commitBottomUpMsg blockNumber' crossMessage).1 ∧
      (s.commitBottomUpMsg blockNumber' crossMessage).2 = (Gateway.commitBottomUpMsg g crossMessage).2 ∧
      (s.commitBottomUpMsg blockNumber' crossMessage).1.Keyed blockNumber' := by
  obtain ⟨hk', hstored⟩ := (hk.mono hle hbn').commitBottomUpMsg crossMessage
  refine ⟨⟨?_, ?_⟩, ?_, hk'⟩
  · rw [hstored, Gateway.bottomUpMsgs_commitBottomUpMsg, Gateway.snd_commitBottomUpMsg,
      hr.storedMsgs_eq, hr.bottomUpNonce_eq]
  · rw [bottomUpNonce_commitBottomUpMsg, hr.bottomUpNonce_eq]
    rfl
  · rw [snd_commitBottomUpMsg, Gateway.snd_commitBottomUpMsg, hr.bottomUpNonce_eq]

/-- Over every run of commits at non-decreasing blocks below `2 ^ 64`, from batches that lie as
`Keyed` says, the batches refine the flat log after the same commits: read by key, they are the
log of the messages committed, in call order, and the nonces agree. The induction is on the
calls; each call moves `Keyed` to its own block. -/
theorem refines_commitRun {Hash : Type} {calls : List (Nat × IpcEnvelope Address)} :
    ∀ {g : GatewayState Address Hash} {s : BatchStorage Address} {blockNumber : Nat},
      Refines g s → s.Keyed blockNumber → (blockNumber :: calls.map Prod.fst).IsChain (· ≤ ·) →
      (∀ c ∈ calls, c.1 < 2 ^ 64) →
      Refines (calls.foldl (fun g c => (Gateway.commitBottomUpMsg g c.2).1) g) (s.commitRun calls) := by
  induction calls with
  | nil => exact fun hr _ _ _ => hr
  | cons c calls ih =>
    obtain ⟨blockNumber', crossMessage⟩ := c
    intro g s blockNumber hr hk hmono hbelow
    rw [List.map_cons, List.isChain_cons_cons] at hmono
    obtain ⟨hr', -, hk'⟩ :=
      refines_commitBottomUpMsg hr hk hmono.1 (hbelow _ List.mem_cons_self) crossMessage
    exact ih hr' hk' hmono.2 fun c hc => hbelow c (List.mem_cons_of_mem _ hc)

/-- The run of `commitRun_oversized_batch`, twenty-one messages in block 3 from the constructor's
storage, refines the flat log of the gateway with the same network. -/
theorem refines_commitRun_oversized :
    let s₀ : BatchStorage Nat := ⟨⟨1, [7]⟩, 0, 10, 10, .empty, by decide⟩
    let g₀ : GatewayState Nat Nat := ⟨⟨1, [7]⟩, 0, 0, [], ∅, [], [], 0, true, true⟩
    let calls : List (Nat × IpcEnvelope Nat) :=
      List.replicate 21 (3, ⟨.Transfer, ⟨⟨1, []⟩, 2⟩, ⟨⟨1, [7]⟩, 1⟩, 0, 1, []⟩)
    Refines g₀ s₀ ∧ s₀.Keyed 0 ∧ (0 :: calls.map Prod.fst).IsChain (· ≤ ·) ∧
      (∀ c ∈ calls, c.1 < 2 ^ 64) ∧
      Refines (calls.foldl (fun g c => (Gateway.commitBottomUpMsg g c.2).1) g₀) (s₀.commitRun calls) := by
  intro s₀ g₀ calls
  have hr : Refines g₀ s₀ := ⟨rfl, rfl⟩
  have hk : s₀.Keyed 0 := keyed_empty s₀ rfl (by decide)
  have hmono : (0 :: calls.map Prod.fst).IsChain (· ≤ ·) := by decide
  have hbelow : ∀ c ∈ calls, c.1 < 2 ^ 64 := by decide
  exact ⟨hr, hk, hmono, hbelow, refines_commitRun hr hk hmono hbelow⟩

/-! ## A cut pushed onto a stored batch

With the period and the maximum at ten, as the constructors set them, twenty-one messages
committed in block 3 fill the batch of epoch 10 twice. Each time it is cut at block 3, and the
second cut is pushed onto the first: the batch at 3 holds twenty messages, which
`ensureValidCheckpoint` refuses. -/

theorem commitRun_oversized_batch :
    let s₀ : BatchStorage Nat := ⟨⟨1, [7]⟩, 0, 10, 10, .empty, by decide⟩
    let msg : IpcEnvelope Nat := ⟨.Transfer, ⟨⟨1, []⟩, 2⟩, ⟨⟨1, [7]⟩, 1⟩, 0, 1, []⟩
    let s := s₀.commitRun (List.replicate 21 (3, msg))
    ((s.bottomUpMsgBatches.get? 3).map fun b => b.msgs.length) = some 20 ∧
      s.maxMsgsPerBottomUpBatch = 10 := by
  decide +kernel

end BatchStorage

end Delorean.Gateway
