import Delorean.Lib.OrdMap
import Delorean.Lib.Reach
import Delorean.Lib.Writes

/-!
# The vote tally

`VoteTally` of `fendermint/vm/topdown/src/voting.rs` collects the votes that validators gossip
about the parent chain's finalized blocks and finds the highest block that a quorum of the current
power table has voted for. Its state is four transactional variables: the power table (a hash map
from validator to weight), the parent chain as this node has seen it (an ordered map from height
to an optional block hash, `None` for a null round), the votes (an ordered map from height to a
hash map from block hash to the set of validators that voted for it), and a flag that pauses
incoming votes while a quorum is being looked for.

The hash maps are association lists (`AList`), the ordered maps are `OrdMap`s, and a hash set is a
`Finset`. Weights are `u64` in the source. A weight is a natural number here, and the two sums the
source takes in `u64`, the total weight of `quorum_threshold` with its doubling and the voters'
weight of `find_quorum`, are taken modulo `2 ^ 64`, as a release build computes them (a debug
build panics instead). Each operation is one STM transaction; its outcome is an `StmResult`.
-/

namespace Delorean.Topdown.Voting

/-- `voting::Error`. -/
inductive Error (K V : Type) where
  | Uninitialized
  | UnexpectedBlock (expected got : Nat)
  | UnpoweredValidator (validator_key : K)
  | Equivocation (validator_key : K) (block_height : Nat) (block_hash other_hash : V)
  deriving DecidableEq, Repr

/-- How an STM transaction ends: it commits a new state with a value, aborts with an error and
leaves the state as it was, or retries, waiting for another transaction to change the state. -/
inductive StmResult (σ ε α : Type) where
  | commit (s : σ) (a : α)
  | abort (e : ε)
  | retry

/-- `VoteTally<K, V>`. -/
structure VoteTally (K V : Type) where
  /-- Current validator weights: the weights that need to form a quorum. -/
  power_table : AList (fun _ : K => Nat)
  /-- The finalized parent chain observed by this node; `None` is a null round. -/
  chain : OrdMap Nat (Option V)
  /-- The votes received, by height and block hash. -/
  votes : OrdMap Nat (AList (fun _ : V => Finset K))
  /-- Whether adding votes is paused until the next `find_quorum`. -/
  pause_votes : Bool

/-- A `u64` result as a release build computes it, modulo `2 ^ 64`; a debug build panics on an
overflow instead. -/
def wrapU64 (n : Nat) : Nat := n % 2 ^ 64

theorem wrapU64_of_lt {n : Nat} (h : n < 2 ^ 64) : wrapU64 n = n := Nat.mod_eq_of_lt h

@[simp]
theorem wrapU64_zero : wrapU64 0 = 0 := rfl

/-- Adding to a wrapped sum wraps the whole sum. -/
@[simp]
theorem wrapU64_wrapU64_add (a b : Nat) : wrapU64 (wrapU64 a + b) = wrapU64 (a + b) :=
  Nat.mod_add_mod a _ b

namespace VoteTally

variable {K V : Type} [DecidableEq K] [DecidableEq V]

/-- `im::HashMap::from_iter`: a later pair for the same key overrides an earlier one. -/
def powerTableOf (power_table : List (K × Nat)) : AList (fun _ : K => Nat) :=
  power_table.foldl (fun m e => m.insert e.1 e.2) ∅

/-- `VoteTally::empty`: an uninitialized tally. -/
def empty : VoteTally K V := ⟨∅, .empty, .empty, false⟩

/-- `VoteTally::new`: the power table and the block last finalized in the ledger. -/
def new (power_table : List (K × Nat)) (last_finalized_block : Nat × V) : VoteTally K V :=
  ⟨powerTableOf power_table, .singleton last_finalized_block.1 (some last_finalized_block.2),
    .empty, false⟩

/-- The current weight of a validator: zero when it is not in the power table. -/
def weightOf (s : VoteTally K V) (validator_key : K) : Nat :=
  (s.power_table.lookup validator_key).getD 0

/-- `has_power`: the validator is in the power table with a positive weight. -/
def hasPower (s : VoteTally K V) (validator_key : K) : Bool :=
  match s.power_table.lookup validator_key with
  | none => false
  | some weight => decide (0 < weight)

/-- The total weight of the power table, as a natural number. -/
def totalWeight (s : VoteTally K V) : Nat := (s.power_table.entries.map Sigma.snd).sum

/-- `quorum_threshold`: two thirds of the total weight, plus one. The sum of the weights and its
doubling are `u64` operations, which wrap modulo `2 ^ 64`. -/
def quorumThreshold (s : VoteTally K V) : Nat :=
  let total_weight := wrapU64 s.totalWeight
  wrapU64 (total_weight * 2) / 3 + 1

/-- `last_finalized_height`: the first height of the chain, or zero. -/
def lastFinalizedHeight (s : VoteTally K V) : Nat := (s.chain.getMin?.map Prod.fst).getD 0

/-- `latest_height`: the last height of the chain, or zero. -/
def latestHeight (s : VoteTally K V) : Nat := (s.chain.getMax?.map Prod.fst).getD 0

/-- `block_hash`: the hash of the block at a height, if it is known and not null. -/
def blockHash (s : VoteTally K V) (height : Nat) : Option V := (s.chain.get? height).bind id

/-- `add_block`: extend the chain by exactly the next height. -/
def addBlock (s : VoteTally K V) (block_height : Nat) (block_hash : Option V) :
    Except (Error K V) (VoteTally K V) :=
  match s.chain.getMax? with
  | none => .error .Uninitialized
  | some (parent_height, _) =>
    if block_height ≠ parent_height + 1 then
      .error (.UnexpectedBlock (parent_height + 1) block_height)
    else .ok { s with chain := s.chain.insert block_height block_hash }

/-- `add_vote`: record a validator's vote, refusing unknown validators and equivocations. The
result says whether the vote was new. -/
def addVote (s : VoteTally K V) (validator_key : K) (block_height : Nat) (block_hash : V) :
    StmResult (VoteTally K V) (Error K V) Bool :=
  if s.pause_votes then .retry
  else if block_height < s.lastFinalizedHeight then .commit s false
  else if !s.hasPower validator_key then .abort (.UnpoweredValidator validator_key)
  else
    let votes_at_height := (s.votes.get? block_height).getD ∅
    -- Another hash at the same height already carries this validator's vote.
    match votes_at_height.entries.find?
        (fun e => decide (e.1 ≠ block_hash) && decide (validator_key ∈ e.2)) with
    | some e => .abort (.Equivocation validator_key block_height block_hash e.1)
    | none =>
      let votes_for_block := (votes_at_height.lookup block_hash).getD ∅
      if validator_key ∈ votes_for_block then .commit s false
      else
        let votes_at_height := votes_at_height.insert block_hash
          (insert validator_key votes_for_block)
        .commit { s with votes := s.votes.insert block_height votes_at_height } true

/-- `pause_votes_until_find_quorum`. -/
def pauseVotesUntilFindQuorum (s : VoteTally K V) : VoteTally K V := { s with pause_votes := true }

/-- One voter of `find_quorum`'s inner loop: a voter not seen yet adds its current weight, in
`u64` (`weight +=`). -/
def addVoter (s : VoteTally K V) (vk : K) (acc : Nat × Finset K) : Nat × Finset K :=
  if vk ∈ acc.2 then acc else (wrapU64 (acc.1 + s.weightOf vk), insert vk acc.2)

/-- The inner loop visits a hash set in no fixed order; the order does not matter. -/
instance (s : VoteTally K V) : LeftCommutative (addVoter s) where
  left_comm a b acc := by
    unfold addVoter
    by_cases hab : a = b
    · rw [hab]
    have hba : b ≠ a := Ne.symm hab
    by_cases ha : a ∈ acc.2 <;> by_cases hb : b ∈ acc.2
    all_goals simp [ha, hb, hab, hba, Finset.insert_comm, Nat.add_right_comm]

/-- The loop of `find_quorum` over the chain from the top down, with the weight and the set of
the voters seen so far. It stops at the finalized height, skips null blocks and blocks without
votes, and returns the first block whose voters so far reach the threshold. -/
def findQuorumLoop (s : VoteTally K V) (finalized_height quorum_threshold : Nat) :
    List (Nat × Option V) → Nat → Finset K → Option (Nat × V)
  | [], _, _ => none
  | (block_height, block_hash?) :: rest, weight, voters =>
    if block_height = finalized_height then none
    else
      match block_hash? with
      | none => findQuorumLoop s finalized_height quorum_threshold rest weight voters
      | some block_hash =>
        match s.votes.get? block_height with
        | none => findQuorumLoop s finalized_height quorum_threshold rest weight voters
        | some votes_at_height =>
          match votes_at_height.lookup block_hash with
          | none => findQuorumLoop s finalized_height quorum_threshold rest weight voters
          | some votes_for_block =>
            let acc := votes_for_block.val.foldr (addVoter s) (weight, voters)
            if quorum_threshold ≤ acc.1 then some (block_height, block_hash)
            else findQuorumLoop s finalized_height quorum_threshold rest acc.1 acc.2

/-- `find_quorum`: unpause votes, then walk the chain back from the top. -/
def findQuorum (s : VoteTally K V) : VoteTally K V × Option (Nat × V) :=
  let s := { s with pause_votes := false }
  match s.chain.getMin? with
  | none => (s, none)
  | some (finalized_height, _) =>
    (s, findQuorumLoop s finalized_height s.quorumThreshold s.chain.entries.reverse 0 ∅)

/-- `set_finalized`: keep the chain above the new finalized block, which becomes its first entry,
and drop the votes at and below it. -/
def setFinalized (s : VoteTally K V) (block_height : Nat) (block_hash : V) : VoteTally K V :=
  { s with chain := ((s.chain.split block_height).2).insert block_height (some block_hash),
           votes := (s.votes.split block_height).2 }

/-- `set_power_table`: replace the power table. -/
def setPowerTable (s : VoteTally K V) (power_table : List (K × Nat)) : VoteTally K V :=
  { s with power_table := powerTableOf power_table }

/-- `update_power_table`: apply absolute weights; a zero weight removes the validator. -/
def updatePowerTable (s : VoteTally K V) (power_updates : List (K × Nat)) : VoteTally K V :=
  if power_updates.isEmpty then s
  else
    let power_table := power_updates.foldl
      (fun pt u => if u.2 = 0 then pt.erase u.1 else pt.insert u.1 u.2) s.power_table
    { s with power_table := power_table }

/-! ### What the operations do to the chain

Only `add_block` and `set_finalized` write the chain; votes, quorums and power tables leave it
alone. -/

omit [DecidableEq K] [DecidableEq V] in
/-- The one way `add_block` succeeds: the chain had a last block, and the new one is the next
height. -/
theorem addBlock_eq_ok {s s' : VoteTally K V} {block_height : Nat} {block_hash : Option V}
    (h : s.addBlock block_height block_hash = .ok s') :
    ∃ top v, s.chain.getMax? = some (top, v) ∧ block_height = top + 1 ∧
      s' = { s with chain := s.chain.insert block_height block_hash } := by
  unfold addBlock at h
  cases hmax : s.chain.getMax? with
  | none => simp [hmax] at h
  | some top =>
    obtain ⟨top, v⟩ := top
    rw [hmax] at h
    by_cases hnext : block_height = top + 1
    · subst hnext
      simp only [ne_eq, not_true_eq_false, if_false, Except.ok.injEq] at h
      exact ⟨top, v, rfl, rfl, h.symm⟩
    · simp [hnext] at h

omit [DecidableEq K] [DecidableEq V] in
/-- The finalized height is at most the last height of the chain. -/
theorem lastFinalizedHeight_le_of_getMax? {s : VoteTally K V} {top : Nat} {v : Option V}
    (hmax : s.chain.getMax? = some (top, v)) : s.lastFinalizedHeight ≤ top := by
  have htop := OrdMap.mem_entries_of_get? (OrdMap.getMax?_spec hmax).1
  cases hmin : s.chain.getMin? with
  | none => simp [(OrdMap.getMin?_eq_none_iff _).mp hmin] at htop
  | some bottom =>
    obtain ⟨fin, w⟩ := bottom
    rw [lastFinalizedHeight, hmin]
    exact (OrdMap.getMin?_spec hmin).2 _ htop

omit [DecidableEq K] [DecidableEq V] in
/-- Nothing lies above the last height of the chain. -/
theorem chain_get?_eq_none_of_getMax? {s : VoteTally K V} {top h : Nat} {v : Option V}
    (hmax : s.chain.getMax? = some (top, v)) (hlt : top < h) : s.chain.get? h = none := by
  cases hget : s.chain.get? h with
  | none => rfl
  | some w =>
    have := (OrdMap.getMax?_spec hmax).2 _ (OrdMap.mem_entries_of_get? hget)
    exact absurd hlt (not_lt.mpr this)

omit [DecidableEq K] [DecidableEq V] in
/-- `add_block` extends the chain at the top, so the finalized height stays. -/
theorem lastFinalizedHeight_addBlock {s s' : VoteTally K V} {block_height : Nat}
    {block_hash : Option V} (h : s.addBlock block_height block_hash = .ok s') :
    s'.lastFinalizedHeight = s.lastFinalizedHeight := by
  obtain ⟨top, v, hmax, hnext, rfl⟩ := addBlock_eq_ok h
  simp only [lastFinalizedHeight,
    OrdMap.getMin?_insert_of_getMax? (k := block_height) block_hash hmax (by omega)]

omit [DecidableEq K] [DecidableEq V] in
/-- `add_block` takes the height after the latest one, and that height becomes the latest. -/
theorem latestHeight_addBlock {s s' : VoteTally K V} {block_height : Nat}
    {block_hash : Option V} (h : s.addBlock block_height block_hash = .ok s') :
    block_height = s.latestHeight + 1 ∧ s'.latestHeight = block_height := by
  obtain ⟨top, v, hmax, rfl, rfl⟩ := addBlock_eq_ok h
  have hbelow : ∀ e ∈ s.chain.entries, e.1 < top + 1 := fun e he =>
    Nat.lt_succ_of_le ((OrdMap.getMax?_spec hmax).2 e he)
  refine ⟨by simp [latestHeight, hmax], ?_⟩
  simp [latestHeight, OrdMap.getMax?_insert_of_forall_lt block_hash hbelow]

omit [DecidableEq K] [DecidableEq V] in
/-- `set_finalized` makes the new block the first of the chain. -/
theorem lastFinalizedHeight_setFinalized (s : VoteTally K V) (block_height : Nat)
    (block_hash : V) : (s.setFinalized block_height block_hash).lastFinalizedHeight = block_height := by
  have hmin := OrdMap.getMin?_insert_of_forall_lt (m := (s.chain.split block_height).2)
    (some block_hash) fun e he => by
      simp only [OrdMap.split, List.mem_filter, decide_eq_true_eq] at he
      exact he.2
  simp [lastFinalizedHeight, setFinalized, hmin]

omit [DecidableEq K] [DecidableEq V] in
/-- Above the new finalized block, `set_finalized` keeps the chain. -/
theorem chain_get?_setFinalized_of_lt (s : VoteTally K V) {block_height h : Nat}
    (block_hash : V) (hlt : block_height < h) :
    (s.setFinalized block_height block_hash).chain.get? h = s.chain.get? h := by
  simp [setFinalized, Nat.ne_of_lt hlt, hlt]

theorem chain_addVote {s s' : VoteTally K V} {validator_key : K} {block_height : Nat}
    {block_hash : V} {added : Bool}
    (h : s.addVote validator_key block_height block_hash = .commit s' added) : s'.chain = s.chain := by
  unfold addVote at h
  dsimp only at h
  -- Every branch that commits keeps the chain: it is the old state, or the old one with new votes.
  split at h
  · cases h
  split at h
  · cases h
    rfl
  split at h
  · cases h
  split at h
  · cases h
  split at h
  · cases h
    rfl
  · cases h
    rfl

/-- `find_quorum` only unpauses votes. -/
theorem findQuorum_fst (s : VoteTally K V) : s.findQuorum.1 = { s with pause_votes := false } := by
  unfold findQuorum
  dsimp only
  split <;> rfl

omit [DecidableEq V] in
theorem chain_updatePowerTable (s : VoteTally K V) (power_updates : List (K × Nat)) :
    (s.updatePowerTable power_updates).chain = s.chain := by
  unfold updatePowerTable
  split_ifs <;> rfl

/-! ### What the power table operations do to the weights -/

omit [DecidableEq V] in
/-- A power table made from a list holds each validator's last entry. -/
theorem lookup_powerTableOf (power_table : List (K × Nat)) (k : K) :
    (powerTableOf power_table).lookup k = AList.lastWrite power_table k := by
  have h := AList.lookup_insertAll power_table ∅ k
  rw [AList.lookup_empty, Option.or_none] at h
  exact h

omit [DecidableEq V] in
/-- `update_power_table` writes its updates in order, a zero weight erasing the validator. -/
theorem power_table_updatePowerTable (s : VoteTally K V) (power_updates : List (K × Nat)) :
    (s.updatePowerTable power_updates).power_table =
      AList.writeAll (power_updates.map fun u => (u.1, if u.2 = 0 then none else some u.2))
        s.power_table := by
  unfold updatePowerTable
  split_ifs with hempty
  · rw [List.isEmpty_iff.1 hempty]
    rfl
  · simp only [AList.writeAll, List.foldl_map]
    -- the two folds take the same step on each update
    congr 1
    funext pt u
    split_ifs <;> rfl

omit [DecidableEq V] in
/-- After `update_power_table` a validator weighs what its last update says, zero for a removal,
and what it weighed before when no update names it. -/
theorem weightOf_updatePowerTable (s : VoteTally K V) (power_updates : List (K × Nat)) (k : K) :
    (s.updatePowerTable power_updates).weightOf k =
      (AList.lastWrite power_updates k).getD (s.weightOf k) := by
  have hlast : AList.lastWrite (power_updates.map fun u => (u.1, if u.2 = 0 then none else some u.2)) k =
      (AList.lastWrite power_updates k).map fun w => if w = 0 then none else some w :=
    AList.lastWrite_map_snd power_updates (fun w => if w = 0 then none else some w) k
  unfold weightOf
  rw [power_table_updatePowerTable, AList.lookup_writeAll, hlast]
  cases AList.lastWrite power_updates k with
  | none => rfl
  | some w => by_cases hw : w = 0 <;> simp [hw]

/-! ### The reference model of a quorum

The state-machine test of the source keeps, for every validator, the highest block of the chain
it voted for, and says that a height has a quorum when the validators whose highest vote is at or
above it hold more than two thirds of the weight. Over the tally's own data: a validator counts
for height `h` when it voted for the chain's block at some height at or above `h`, and each
validator counts once, with its current weight. The reference model's weights are exact, where
`find_quorum` adds in `u64`: the two agree while twice the total weight fits in a `u64`
(`findQuorum_eq_greatest_quorum`). -/

/-- The validators that voted for the chain's block of an entry of the chain; none for a null
round. -/
def blockVoters (s : VoteTally K V) (e : Nat × Option V) : Finset K :=
  match e.2 with
  | none => ∅
  | some block_hash => ((s.votes.get? e.1).bind fun vs => vs.lookup block_hash).getD ∅

/-- The voters for the blocks of `l` at height `h` or above. -/
def votersOn (s : VoteTally K V) (l : List (Nat × Option V)) (h : Nat) : Finset K :=
  (l.filter fun e => decide (h ≤ e.1)).toFinset.biUnion s.blockVoters

/-- The distinct validators that voted for the chain at height `h` or above. -/
def votersFrom (s : VoteTally K V) (h : Nat) : Finset K := s.votersOn s.chain.entries h

/-- The total current weight of a set of validators. -/
def powerOf (s : VoteTally K V) (voters : Finset K) : Nat := ∑ v ∈ voters, s.weightOf v

/-- Height `h` of the chain, above the finalized height, holds the block `block_hash`, and the
validators that voted at or above it hold more than two thirds of the total weight. -/
def IsQuorum (s : VoteTally K V) (h : Nat) (block_hash : V) : Prop :=
  s.lastFinalizedHeight < h ∧ h ≤ s.latestHeight ∧ s.chain.get? h = some (some block_hash) ∧
    s.totalWeight * 2 / 3 + 1 ≤ s.powerOf (s.votersFrom h)

instance (s : VoteTally K V) (h : Nat) (block_hash : V) : Decidable (s.IsQuorum h block_hash) := by
  unfold IsQuorum
  infer_instance

theorem mem_votersOn {s : VoteTally K V} {l : List (Nat × Option V)} {h : Nat} {v : K} :
    v ∈ s.votersOn l h ↔ ∃ e ∈ l, h ≤ e.1 ∧ v ∈ s.blockVoters e := by
  simp [votersOn, and_assoc]

@[simp]
theorem votersOn_nil (s : VoteTally K V) (h : Nat) : s.votersOn [] h = ∅ := rfl

theorem votersOn_reverse (s : VoteTally K V) (l : List (Nat × Option V)) (h : Nat) :
    s.votersOn l.reverse h = s.votersOn l h := by
  simp only [votersOn, List.filter_reverse, List.toFinset_reverse]

/-- An entry at or above `h` at the head of the list adds its voters. -/
theorem votersOn_cons_of_le (s : VoteTally K V) {d : Nat × Option V}
    {l : List (Nat × Option V)} {h : Nat} (hd : h ≤ d.1) :
    s.votersOn (d :: l) h = s.blockVoters d ∪ s.votersOn l h := by
  rw [votersOn, votersOn, List.filter_cons, if_pos (decide_eq_true hd), List.toFinset_cons,
    Finset.biUnion_insert]

/-- No entry of `l` reaches above `h`. -/
theorem votersOn_eq_empty {s : VoteTally K V} {l : List (Nat × Option V)} {h : Nat}
    (hl : ∀ e ∈ l, e.1 < h) : s.votersOn l h = ∅ := by
  ext v
  simp only [mem_votersOn, Finset.notMem_empty, iff_false, not_exists, not_and]
  intro e he hle
  exact absurd (hl e he) (Nat.not_lt.mpr hle)

omit [DecidableEq V] in
theorem powerOf_insert (s : VoteTally K V) {v : K} {voters : Finset K} (hv : v ∉ voters) :
    s.powerOf (insert v voters) = s.powerOf voters + s.weightOf v := by
  rw [powerOf, Finset.sum_insert hv, Nat.add_comm]
  rfl

omit [DecidableEq V] in
/-- A set of validators weighs at most the whole power table. -/
theorem powerOf_le_totalWeight (s : VoteTally K V) (voters : Finset K) :
    s.powerOf voters ≤ s.totalWeight :=
  AList.sum_getD_lookup_le s.power_table voters

omit [DecidableEq K] [DecidableEq V] in
/-- While twice the total weight fits in a `u64`, the threshold does not wrap. -/
theorem quorumThreshold_of_lt {s : VoteTally K V} (hbound : s.totalWeight * 2 < 2 ^ 64) :
    s.quorumThreshold = s.totalWeight * 2 / 3 + 1 := by
  have htotal : s.totalWeight < 2 ^ 64 := by omega
  show wrapU64 (wrapU64 s.totalWeight * 2) / 3 + 1 = _
  rw [wrapU64_of_lt htotal, wrapU64_of_lt hbound]

omit [DecidableEq V] in
/-- Nor does the weight of a set of voters, which is at most the total. -/
theorem wrapU64_powerOf_of_lt {s : VoteTally K V} (hbound : s.totalWeight * 2 < 2 ^ 64)
    (voters : Finset K) : wrapU64 (s.powerOf voters) = s.powerOf voters := by
  have hle := s.powerOf_le_totalWeight voters
  exact wrapU64_of_lt (by omega)

omit [DecidableEq V] in
/-- The inner loop of `find_quorum` adds the voters of a block to those seen so far, counting each
new one's weight once, modulo `2 ^ 64`. -/
theorem foldr_addVoter (s : VoteTally K V) (voters : Finset K) (m : Multiset K) :
    m.foldr (addVoter s) (wrapU64 (s.powerOf voters), voters) =
      (wrapU64 (s.powerOf (voters ∪ m.toFinset)), voters ∪ m.toFinset) := by
  induction m using Multiset.induction_on with
  | empty => simp
  | cons v m ih =>
    rw [Multiset.foldr_cons, ih, Multiset.toFinset_cons, Finset.union_insert]
    by_cases hv : v ∈ voters ∪ m.toFinset
    · simp [addVoter, hv, Finset.insert_eq_of_mem hv]
    · simp [addVoter, hv, powerOf_insert s hv]

/-- The test `find_quorum` makes at an entry: above the finalized height, not a null round, and
the voters so far reach the threshold in `u64`. -/
def quorumAt (s : VoteTally K V) (finalized_height quorum_threshold : Nat) (voters : Finset K)
    (e : Nat × Option V) : Bool :=
  decide (finalized_height < e.1) && e.2.isSome &&
    decide (quorum_threshold ≤ wrapU64 (s.powerOf voters))

/-- One step of the loop below the threshold: an entry other than the finalized one adds its
voters, and the loop returns it if it is a block and the threshold is now reached. -/
theorem findQuorumLoop_cons {s : VoteTally K V} {fin T : Nat} {d : Nat × Option V}
    {rest : List (Nat × Option V)} {voters : Finset K} (hd : d.1 ≠ fin)
    (hvoters : wrapU64 (s.powerOf voters) < T) :
    s.findQuorumLoop fin T (d :: rest) (wrapU64 (s.powerOf voters)) voters =
      if d.2.isSome ∧ T ≤ wrapU64 (s.powerOf (voters ∪ s.blockVoters d)) then d.2.map (Prod.mk d.1)
      else s.findQuorumLoop fin T rest (wrapU64 (s.powerOf (voters ∪ s.blockVoters d)))
        (voters ∪ s.blockVoters d) := by
  obtain ⟨bh, block_hash?⟩ := d
  have hT : ¬T ≤ wrapU64 (s.powerOf voters) := Nat.not_le.mpr hvoters
  -- The three ways to skip an entry leave the voters as they were.
  cases block_hash? with
  | none => simp [findQuorumLoop, hd, blockVoters]
  | some block_hash =>
    cases hv : s.votes.get? bh with
    | none => simp [findQuorumLoop, hd, blockVoters, hv, hT]
    | some votes_at_height =>
      cases hl : votes_at_height.lookup block_hash with
      | none => simp [findQuorumLoop, hd, blockVoters, hv, hl, hT]
      | some votes_for_block =>
        simp [findQuorumLoop, hd, blockVoters, hv, hl, foldr_addVoter]

/-- The loop over a list with strictly decreasing heights, none below the finalized height,
returns the first block whose voters at or above it, together with those seen before the list,
reach the threshold. The induction is on the list; the voters seen so far stay below the
threshold, or the loop would have returned. -/
theorem findQuorumLoop_eq_find? (s : VoteTally K V) (fin T : Nat) :
    ∀ (l : List (Nat × Option V)) (voters : Finset K),
      l.Pairwise (fun a b => b.1 < a.1) → (∀ e ∈ l, fin ≤ e.1) → wrapU64 (s.powerOf voters) < T →
      s.findQuorumLoop fin T l (wrapU64 (s.powerOf voters)) voters =
        (l.find? fun e => s.quorumAt fin T (voters ∪ s.votersOn l e.1) e).bind
          fun e => e.2.map (Prod.mk e.1)
  | [], _, _, _, _ => rfl
  | d :: rest, voters, hl, hfin, hvoters => by
    rw [List.pairwise_cons] at hl
    have hrest : ∀ e ∈ rest, e.1 < d.1 := hl.1
    have hd_top : s.votersOn (d :: rest) d.1 = s.blockVoters d := by
      rw [votersOn_cons_of_le s le_rfl, votersOn_eq_empty hrest, Finset.union_empty]
    by_cases hd : d.1 = fin
    · -- The finalized height is the lowest, so it ends the list, and the loop stops there.
      have hnil : rest = [] := List.eq_nil_iff_forall_not_mem.mpr fun e he =>
        absurd (hfin e (List.mem_cons_of_mem d he)) (by have := hrest e he; omega)
      subst hnil
      simp [findQuorumLoop, hd, quorumAt]
    have hd_above : fin < d.1 := by have := hfin d List.mem_cons_self; omega
    rw [findQuorumLoop_cons hd hvoters]
    by_cases hq : d.2.isSome ∧ T ≤ wrapU64 (s.powerOf (voters ∪ s.blockVoters d))
    · rw [if_pos hq, List.find?_cons_of_pos (by simp [quorumAt, hd_top, hd_above, hq])]
      rfl
    · have hq_d : s.quorumAt fin T (voters ∪ s.votersOn (d :: rest) d.1) d = false := by
        simpa [quorumAt, hd_top, hd_above] using hq
      -- Below `d` the voters at or above an entry are `d`'s and those of the rest.
      have hpred : ∀ e ∈ rest, s.quorumAt fin T (voters ∪ s.votersOn (d :: rest) e.1) e =
          s.quorumAt fin T ((voters ∪ s.blockVoters d) ∪ s.votersOn rest e.1) e := by
        intro e he
        rw [votersOn_cons_of_le s (Nat.le_of_lt (hrest e he)), Finset.union_assoc]
      have hvoters' : wrapU64 (s.powerOf (voters ∪ s.blockVoters d)) < T := by
        cases hb : d.2 with
        | none => simpa [blockVoters, hb] using hvoters
        | some _ => simp_all
      rw [if_neg hq, List.find?_cons_of_neg (by simp [hq_d]), List.find?_congr hpred]
      exact findQuorumLoop_eq_find? s fin T rest _ hl.2
        (fun e he => hfin e (List.mem_cons_of_mem d he)) hvoters'

omit [DecidableEq K] [DecidableEq V] in
theorem lastFinalizedHeight_of_getMin? {s : VoteTally K V} {fin : Nat} {v : Option V}
    (hmin : s.chain.getMin? = some (fin, v)) : s.lastFinalizedHeight = fin := by
  simp [lastFinalizedHeight, hmin]

omit [DecidableEq K] [DecidableEq V] in
theorem le_latestHeight_of_mem {s : VoteTally K V} {e : Nat × Option V}
    (he : e ∈ s.chain.entries) : e.1 ≤ s.latestHeight := by
  cases hmax : s.chain.getMax? with
  | none => simp [(OrdMap.getMax?_eq_none_iff _).mp hmax] at he
  | some top =>
    have := (OrdMap.getMax?_spec hmax).2 e he
    simpa [latestHeight, hmax] using this

omit [DecidableEq K] [DecidableEq V] in
theorem quorumThreshold_pos (s : VoteTally K V) : 0 < s.quorumThreshold := by
  unfold quorumThreshold
  exact Nat.succ_pos _

/-- `find_quorum` is the loop over the chain from the top down, with no voters yet. -/
theorem findQuorum_snd_eq {s : VoteTally K V} {fin : Nat} {v : Option V}
    (hmin : s.chain.getMin? = some (fin, v)) :
    s.findQuorum.2 =
      (s.chain.entries.reverse.find? fun e => s.quorumAt fin s.quorumThreshold (s.votersFrom e.1) e).bind
        fun e => e.2.map (Prod.mk e.1) := by
  -- The loop reads the unpaused state, which has the same chain, votes and power table.
  let s' : VoteTally K V := { s with pause_votes := false }
  have hfin : ∀ e ∈ s'.chain.entries.reverse, fin ≤ e.1 := fun e he =>
    (OrdMap.getMin?_spec hmin).2 e (List.mem_reverse.mp he)
  have hloop := findQuorumLoop_eq_find? s' fin s'.quorumThreshold s'.chain.entries.reverse ∅
    s'.chain.entries_reverse_sorted hfin (by simpa [powerOf] using s'.quorumThreshold_pos)
  simp only [findQuorum, hmin]
  simp only [powerOf, Finset.sum_empty, wrapU64_zero, Finset.empty_union, votersOn_reverse] at hloop
  exact hloop

/-- What `find_quorum` returns is a block of the chain above the finalized height, whatever the
weights. -/
theorem findQuorum_mem_chain {s : VoteTally K V} {h : Nat} {block_hash : V}
    (hr : s.findQuorum.2 = some (h, block_hash)) :
    s.lastFinalizedHeight < h ∧ h ≤ s.latestHeight ∧ s.chain.get? h = some (some block_hash) := by
  cases hmin : s.chain.getMin? with
  | none => simp [findQuorum, hmin] at hr
  | some bottom =>
    obtain ⟨fin, v⟩ := bottom
    let p := fun e : Nat × Option V => s.quorumAt fin s.quorumThreshold (s.votersFrom e.1) e
    rw [findQuorum_snd_eq hmin] at hr
    obtain ⟨e, hfind, he⟩ := Option.bind_eq_some_iff.mp hr
    obtain ⟨hmem, hp, -⟩ := (s.chain.find?_reverse_eq_some_iff p e).mp hfind
    obtain ⟨h₀, b₀⟩ := e
    -- The entry found is a block, or `find_quorum` would have given nothing back.
    cases b₀ with
    | none => simp at he
    | some b =>
      simp only [Option.map_some, Option.some.injEq, Prod.mk.injEq] at he
      obtain ⟨rfl, rfl⟩ := he
      have habove : fin < h₀ := by
        simp only [p, quorumAt, Bool.and_eq_true, decide_eq_true_eq] at hp
        exact hp.1.1
      refine ⟨?_, le_latestHeight_of_mem hmem, (s.chain.get?_eq_some_iff _ _).mpr hmem⟩
      rw [lastFinalizedHeight_of_getMin? hmin]
      exact habove

/-- Above the finalized height, the test the loop makes at an entry of the chain, with the voters
at or above it, is the reference model's quorum while twice the total weight fits in a `u64`. -/
theorem quorumAt_votersFrom_iff {s : VoteTally K V} (hbound : s.totalWeight * 2 < 2 ^ 64)
    {fin : Nat} {v : Option V}
    (hmin : s.chain.getMin? = some (fin, v)) {e : Nat × Option V} (he : e ∈ s.chain.entries) :
    s.quorumAt fin s.quorumThreshold (s.votersFrom e.1) e = true ↔
      ∃ block_hash, e.2 = some block_hash ∧ s.IsQuorum e.1 block_hash := by
  obtain ⟨h, block_hash?⟩ := e
  have hlast := lastFinalizedHeight_of_getMin? hmin
  have hlatest := le_latestHeight_of_mem he
  cases block_hash? with
  | none => simp [quorumAt]
  | some block_hash =>
    have hget := (s.chain.get?_eq_some_iff h (some block_hash)).mpr he
    simp [quorumAt, IsQuorum, hlast, hget, hlatest, quorumThreshold_of_lt hbound,
      wrapU64_powerOf_of_lt hbound]

theorem isQuorum_iff_quorumAt {s : VoteTally K V} (hbound : s.totalWeight * 2 < 2 ^ 64)
    {fin : Nat} {v : Option V}
    (hmin : s.chain.getMin? = some (fin, v)) {h : Nat} {block_hash : V} :
    s.IsQuorum h block_hash ↔ (h, some block_hash) ∈ s.chain.entries ∧
      s.quorumAt fin s.quorumThreshold (s.votersFrom h) (h, some block_hash) = true := by
  constructor
  · intro hq
    have hmem := (s.chain.get?_eq_some_iff h (some block_hash)).mp hq.2.2.1
    exact ⟨hmem, (quorumAt_votersFrom_iff hbound hmin hmem).mpr ⟨block_hash, rfl, hq⟩⟩
  · rintro ⟨hmem, hat⟩
    obtain ⟨_, hb, hq⟩ := (quorumAt_votersFrom_iff hbound hmin hmem).mp hat
    cases hb
    exact hq

/-- What `find_quorum` returns is a quorum, and no quorum is higher. -/
theorem isQuorum_of_findQuorum {s : VoteTally K V} (hbound : s.totalWeight * 2 < 2 ^ 64)
    {h : Nat} {block_hash : V} (hr : s.findQuorum.2 = some (h, block_hash)) :
    s.IsQuorum h block_hash ∧ ∀ h' block_hash', s.IsQuorum h' block_hash' → h' ≤ h := by
  cases hmin : s.chain.getMin? with
  | none => simp [findQuorum, hmin] at hr
  | some bottom =>
    obtain ⟨fin, v⟩ := bottom
    let p := fun e : Nat × Option V => s.quorumAt fin s.quorumThreshold (s.votersFrom e.1) e
    rw [findQuorum_snd_eq hmin] at hr
    obtain ⟨e, hfind, he⟩ := Option.bind_eq_some_iff.mp hr
    obtain ⟨hmem, hp, hgreatest⟩ := (s.chain.find?_reverse_eq_some_iff p e).mp hfind
    obtain ⟨b, hb, hq⟩ := (quorumAt_votersFrom_iff hbound hmin hmem).mp hp
    obtain ⟨h₀, b₀⟩ := e
    simp only at hb
    subst hb
    simp only [Option.map_some, Option.some.injEq, Prod.mk.injEq] at he
    obtain ⟨rfl, rfl⟩ := he
    refine ⟨hq, fun h' b' hq' => ?_⟩
    obtain ⟨hmem', hp'⟩ := (isQuorum_iff_quorumAt hbound hmin).mp hq'
    exact hgreatest _ hmem' hp'

/-- `find_quorum` refines the reference model while twice the total weight fits in a `u64`: it
returns the highest height of the chain, above the finalized one, whose block the validators
voting at or above it carry past two thirds of the total weight, and nothing when there is none.
This holds of every tally within the bound, whatever votes, power table and chain it holds. -/
theorem findQuorum_eq_greatest_quorum (s : VoteTally K V) (hbound : s.totalWeight * 2 < 2 ^ 64) :
    (∀ h block_hash, s.findQuorum.2 = some (h, block_hash) ↔
      s.IsQuorum h block_hash ∧ ∀ h' block_hash', s.IsQuorum h' block_hash' → h' ≤ h) ∧
    (s.findQuorum.2 = none ↔ ∀ h block_hash, ¬s.IsQuorum h block_hash) := by
  cases hmin : s.chain.getMin? with
  | none =>
    -- An empty chain has no block to vote for.
    have hempty := (OrdMap.getMin?_eq_none_iff _).mp hmin
    have hnone : s.findQuorum.2 = none := by simp [findQuorum, hmin]
    have hno : ∀ h block_hash, ¬s.IsQuorum h block_hash := fun h block_hash hq => by
      simpa [hempty] using (s.chain.get?_eq_some_iff h (some block_hash)).mp hq.2.2.1
    simp [hnone, hno]
  | some bottom =>
    obtain ⟨fin, v⟩ := bottom
    let p := fun e : Nat × Option V => s.quorumAt fin s.quorumThreshold (s.votersFrom e.1) e
    have hsnd := findQuorum_snd_eq hmin
    have hsome : ∀ h block_hash, s.findQuorum.2 = some (h, block_hash) ↔
        s.IsQuorum h block_hash ∧ ∀ h' block_hash', s.IsQuorum h' block_hash' → h' ≤ h := by
      intro h block_hash
      refine ⟨isQuorum_of_findQuorum hbound, ?_⟩
      rw [hsnd]
      · rintro ⟨hq, hgreatest⟩
        obtain ⟨hmem, hp⟩ := (isQuorum_iff_quorumAt hbound hmin).mp hq
        have hfind : s.chain.entries.reverse.find? p = some (h, some block_hash) := by
          refine (s.chain.find?_reverse_eq_some_iff p _).mpr ⟨hmem, hp, fun e' he' hp' => ?_⟩
          obtain ⟨b', _, hq'⟩ := (quorumAt_votersFrom_iff hbound hmin he').mp hp'
          exact hgreatest _ _ hq'
        simp only [p] at hfind
        simp [hfind]
    refine ⟨hsome, ⟨fun hnone h block_hash hq => ?_, fun hno => ?_⟩⟩
    · -- A quorum makes the search find an entry, and every entry it can find is a block.
      obtain ⟨hmem, hp⟩ := (isQuorum_iff_quorumAt hbound hmin).mp hq
      have hfound : s.chain.entries.reverse.find? p ≠ none := by
        rw [Ne, List.find?_eq_none]
        exact fun hall => hall _ (List.mem_reverse.mpr hmem) hp
      obtain ⟨e, hfind⟩ := Option.ne_none_iff_exists'.mp hfound
      obtain ⟨hmem_e, hp_e, -⟩ := (s.chain.find?_reverse_eq_some_iff p e).mp hfind
      obtain ⟨b, hb, -⟩ := (quorumAt_votersFrom_iff hbound hmin hmem_e).mp hp_e
      rw [hsnd] at hnone
      simp only [p] at hfind
      simp [hfind, hb] at hnone
    · cases hr : s.findQuorum.2 with
      | none => rfl
      | some r => exact absurd ((hsome r.1 r.2).mp hr).1 (hno r.1 r.2)

/-- Three validators of weight one, a null round at height 2: two votes at height 3 are short of
the threshold of three, and the vote at height 1 completes the voters at or above it, so height 1
is the highest quorum. -/
theorem findQuorum_eq_greatest_quorum_three :
    let s : VoteTally Nat Nat :=
      { power_table := powerTableOf [(1, 1), (2, 1), (3, 1)]
        chain := ⟨[(0, some 0), (1, some 1), (2, none), (3, some 3)], by decide⟩
        votes := ⟨[(1, (∅ : AList fun _ : Nat => Finset Nat).insert 1 {3}),
                   (3, (∅ : AList fun _ : Nat => Finset Nat).insert 3 {1, 2})], by decide⟩
        pause_votes := true }
    s.totalWeight * 2 < 2 ^ 64 ∧ s.findQuorum.2 = some (1, 1) ∧
      (∀ h block_hash, s.findQuorum.2 = some (h, block_hash) ↔
        s.IsQuorum h block_hash ∧ ∀ h' block_hash', s.IsQuorum h' block_hash' → h' ≤ h) ∧
      (s.findQuorum.2 = none ↔ ∀ h block_hash, ¬s.IsQuorum h block_hash) := by
  intro s
  have hbound : s.totalWeight * 2 < 2 ^ 64 := by decide
  have hfound : s.findQuorum.2 = some (1, 1) := by decide
  exact ⟨hbound, hfound, findQuorum_eq_greatest_quorum s hbound⟩

end VoteTally

end Delorean.Topdown.Voting
