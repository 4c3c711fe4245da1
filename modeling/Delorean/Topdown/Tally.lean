import Delorean.Topdown.Voting

/-!
# The vote tally over its runs

A tally starts `empty` or from `new`, and then takes any sequence of its operations: blocks added
by the syncer, votes gossiped by validators, power tables replaced or updated, quorums looked
for, and finalities set by the ledger, each at a height no lower than the last one. Over every
such run the tally keeps three facts (`Wf`): the chain's heights are the interval that starts at
the last finalized height, no validator is recorded for two block hashes at one height, and no
votes are kept below the last finalized height. Besides, `add_vote` says `true` exactly when it
recorded a vote that was not there before.
-/

namespace Delorean.Topdown.Voting

namespace VoteTally

variable {K V : Type} [DecidableEq K] [DecidableEq V]

/-! ## What `add_vote` records -/

omit [DecidableEq K] in
/-- The voters of a block are those the map at its height holds for its hash. -/
theorem lookup_votesAt (s : VoteTally K V) (h : Nat) (b : V) :
    ((((s.votes.get? h).getD ∅).lookup b).getD ∅ : Finset K) = s.blockVoters (h, some b) := by
  cases hg : s.votes.get? h <;> simp [blockVoters, hg]

/-- The state `add_vote` commits when it records a vote: the validator joins the block's voters
at its height. -/
def recordVote (s : VoteTally K V) (validator_key : K) (block_height : Nat) (block_hash : V) :
    VoteTally K V :=
  let votes_at_height := (s.votes.get? block_height).getD ∅
  { s with votes := s.votes.insert block_height (votes_at_height.insert block_hash
      (insert validator_key (s.blockVoters (block_height, some block_hash)))) }

@[simp]
theorem chain_recordVote (s : VoteTally K V) (k : K) (h : Nat) (b : V) :
    (s.recordVote k h b).chain = s.chain := rfl

@[simp]
theorem lastFinalizedHeight_recordVote (s : VoteTally K V) (k : K) (h : Nat) (b : V) :
    (s.recordVote k h b).lastFinalizedHeight = s.lastFinalizedHeight := rfl

theorem votes_get?_recordVote_of_ne (s : VoteTally K V) (k : K) {h h' : Nat} (b : V)
    (hne : h' ≠ h) : (s.recordVote k h b).votes.get? h' = s.votes.get? h' :=
  OrdMap.get?_insert_of_ne _ _ (Ne.symm hne)

/-- After `recordVote` a block's voters are the old ones, and the new validator for the voted
block. -/
theorem mem_blockVoters_recordVote (s : VoteTally K V) (k k' : K) (h h' : Nat) (b d : V) :
    k' ∈ (s.recordVote k h b).blockVoters (h', some d) ↔
      (h' = h ∧ d = b ∧ k' = k) ∨ k' ∈ s.blockVoters (h', some d) := by
  by_cases hh : h' = h
  · subst hh
    by_cases hd : d = b
    · subst hd
      simp [recordVote, blockVoters]
    · rw [← lookup_votesAt, ← lookup_votesAt]
      simp [recordVote, AList.lookup_insert_ne hd, hd]
  · simp only [blockVoters, votes_get?_recordVote_of_ne s k b hh]
    simp [hh]

/-- The two ways `add_vote` commits: it ignores a vote below the finalized height or one it
already holds, or it records the validator for the block, having found it for no other hash at
that height. -/
theorem addVote_eq_commit {s s' : VoteTally K V} {k : K} {h : Nat} {b : V} {r : Bool}
    (hv : s.addVote k h b = .commit s' r) :
    (r = false ∧ s' = s ∧ (h < s.lastFinalizedHeight ∨ k ∈ s.blockVoters (h, some b))) ∨
    (r = true ∧ s.lastFinalizedHeight ≤ h ∧ k ∉ s.blockVoters (h, some b) ∧
      (∀ e ∈ ((s.votes.get? h).getD ∅).entries, e.1 ≠ b → k ∉ e.2) ∧
      s' = s.recordVote k h b) := by
  unfold addVote at hv
  dsimp only at hv
  split at hv
  · cases hv
  split at hv
  · -- A height already finalized.
    cases hv
    exact .inl ⟨rfl, rfl, .inl ‹_›⟩
  split at hv
  · cases hv
  split at hv
  · cases hv
  · -- No other hash at the height holds the validator.
    have hother : ∀ e ∈ ((s.votes.get? h).getD ∅).entries, e.1 ≠ b → k ∉ e.2 := by
      intro e he hne hk
      have := List.find?_eq_none.mp ‹_ = none› e he
      simp [hne, hk] at this
    rw [lookup_votesAt] at hv
    split at hv
    · cases hv
      exact .inl ⟨rfl, rfl, .inr ‹_›⟩
    · cases hv
      exact .inr ⟨rfl, Nat.le_of_not_lt ‹_›, ‹_›, hother, rfl⟩

/-- `add_vote` says `true` exactly when the validator was not among the block's voters and now
is. -/
theorem addVote_true_iff {s s' : VoteTally K V} {k : K} {h : Nat} {b : V} {r : Bool}
    (hv : s.addVote k h b = .commit s' r) :
    r = true ↔ k ∉ s.blockVoters (h, some b) ∧ k ∈ s'.blockVoters (h, some b) := by
  rcases addVote_eq_commit hv with ⟨rfl, rfl, -⟩ | ⟨rfl, -, hnew, -, rfl⟩
  · simp only [Bool.false_eq_true, false_iff, not_and]
    exact id
  · simp [hnew, mem_blockVoters_recordVote]

/-! ## The invariant -/

/-- What the tally keeps over its runs. -/
structure Wf (s : VoteTally K V) : Prop where
  /-- The heights of the chain are the interval from the last finalized height. -/
  chain_keys : s.chain.keys = List.range' s.lastFinalizedHeight s.chain.keys.length
  /-- No validator is recorded for two blocks at one height. -/
  no_equivocation : ∀ h k b b', k ∈ s.blockVoters (h, some b) → k ∈ s.blockVoters (h, some b') →
    b = b'
  /-- No votes are kept below the last finalized height. -/
  votes_above : ∀ h, (s.votes.get? h).isSome → s.lastFinalizedHeight ≤ h

omit [DecidableEq K] in
/-- The invariant reads only the chain and the votes. -/
theorem Wf.of_chain_votes {s s' : VoteTally K V} (hw : s.Wf) (hchain : s'.chain = s.chain)
    (hvotes : s'.votes = s.votes) : s'.Wf := by
  have hlfh : s'.lastFinalizedHeight = s.lastFinalizedHeight := by
    simp only [lastFinalizedHeight, hchain]
  have hvoters : ∀ e, s'.blockVoters e = s.blockVoters e := by
    intro e
    simp only [blockVoters, hvotes]
  refine ⟨?_, ?_, ?_⟩
  · rw [hlfh, hchain]
    exact hw.chain_keys
  · intro h k b b'
    rw [hvoters, hvoters]
    exact hw.no_equivocation h k b b'
  · intro h
    rw [hlfh, hvotes]
    exact hw.votes_above h

omit [DecidableEq K] in
theorem wf_empty : (empty : VoteTally K V).Wf where
  chain_keys := rfl
  no_equivocation := by simp [blockVoters, empty]
  votes_above := by simp [empty]

theorem wf_new (power_table : List (K × Nat)) (last_finalized_block : Nat × V) :
    (new power_table last_finalized_block : VoteTally K V).Wf where
  chain_keys := rfl
  no_equivocation := by simp [blockVoters, new]
  votes_above := by simp [new]

omit [DecidableEq K] in
/-- `add_block` extends the interval by its next height and leaves the votes. -/
theorem Wf.addBlock {s s' : VoteTally K V} {block_height : Nat} {block_hash : Option V}
    (hw : s.Wf) (h : s.addBlock block_height block_hash = .ok s') : s'.Wf := by
  have hlfh := lastFinalizedHeight_addBlock h
  obtain ⟨top, v, hmax, rfl, rfl⟩ := addBlock_eq_ok h
  refine ⟨?_, hw.no_equivocation, ?_⟩
  · rw [hlfh]
    exact OrdMap.keys_insert_succ block_hash hw.chain_keys hmax
  · rw [hlfh]
    exact hw.votes_above

/-- A vote that `add_vote` records is at or above the finalized height, and its validator is
at no other hash of that height. -/
theorem Wf.addVote {s s' : VoteTally K V} {k : K} {h : Nat} {b : V} {r : Bool} (hw : s.Wf)
    (hv : s.addVote k h b = .commit s' r) : s'.Wf := by
  rcases addVote_eq_commit hv with ⟨-, rfl, -⟩ | ⟨-, hle, -, hother, rfl⟩
  · exact hw
  -- A validator recorded for another hash at `h` would have been an equivocation.
  have hold : ∀ d, d ≠ b → k ∉ s.blockVoters (h, some d) := by
    intro d hd hk
    rw [← lookup_votesAt] at hk
    cases hl : ((s.votes.get? h).getD ∅).lookup d with
    | none => simp [hl] at hk
    | some vs =>
      rw [hl, Option.getD_some] at hk
      exact hother ⟨d, vs⟩ (AList.mem_lookup_iff.mp hl) hd hk
  refine ⟨hw.chain_keys, ?_, ?_⟩
  · intro h' k' c c' hc hc'
    rw [mem_blockVoters_recordVote] at hc hc'
    rcases hc with ⟨hh, rfl, hk⟩ | hc <;> rcases hc' with ⟨hh', rfl, hk'⟩ | hc'
    · rfl
    · by_contra hne
      subst hh hk
      exact hold c' (Ne.symm hne) hc'
    · by_contra hne
      subst hh' hk'
      exact hold c hne hc
    · exact hw.no_equivocation h' k' c c' hc hc'
  · intro h' hsome
    by_cases hh : h' = h
    · rw [hh]
      exact hle
    · rw [votes_get?_recordVote_of_ne s k b hh] at hsome
      exact hw.votes_above h' hsome

omit [DecidableEq K] [DecidableEq V] in
/-- `set_finalized` drops the votes at and below the new finalized height. -/
theorem votes_get?_setFinalized (s : VoteTally K V) (block_height : Nat) (block_hash : V)
    (h : Nat) : (s.setFinalized block_height block_hash).votes.get? h =
      if block_height < h then s.votes.get? h else none := by
  simp [setFinalized]

omit [DecidableEq K] in
theorem blockVoters_setFinalized (s : VoteTally K V) (block_height : Nat) (block_hash : V)
    (h : Nat) (b : V) : (s.setFinalized block_height block_hash).blockVoters (h, some b) =
      if block_height < h then s.blockVoters (h, some b) else ∅ := by
  by_cases hh : block_height < h <;> simp [blockVoters, votes_get?_setFinalized, hh]

omit [DecidableEq K] in
/-- `set_finalized` at a height no lower than the finalized one cuts the chain and the votes
there. -/
theorem Wf.setFinalized {s : VoteTally K V} {block_height : Nat} (block_hash : V) (hw : s.Wf)
    (hle : s.lastFinalizedHeight ≤ block_height) : (s.setFinalized block_height block_hash).Wf := by
  have hlfh := lastFinalizedHeight_setFinalized s block_height block_hash
  refine ⟨?_, ?_, ?_⟩
  · rw [hlfh]
    exact OrdMap.keys_split_insert (some block_hash) hw.chain_keys hle
  · intro h k b b' hb hb'
    rw [blockVoters_setFinalized] at hb hb'
    split_ifs at hb hb' with hh
    · exact hw.no_equivocation h k b b' hb hb'
    · simp at hb
  · intro h hsome
    rw [hlfh]
    rw [votes_get?_setFinalized] at hsome
    split_ifs at hsome with hh
    · exact hh.le
    · simp at hsome

/-! ## Runs -/

/-- A tally as the node creates it: empty until genesis, or from the ledger's power table and
last finalized block. -/
def Initial (s : VoteTally K V) : Prop :=
  s = empty ∨ ∃ power_table last_finalized_block, s = new power_table last_finalized_block

/-- The operations of the tally. `set_finalized` comes from the ledger, at a height no lower than
the last finalized one. -/
inductive Step : VoteTally K V → VoteTally K V → Prop
  | add_block {s s' : VoteTally K V} (block_height : Nat) (block_hash : Option V)
      (h : s.addBlock block_height block_hash = .ok s') : Step s s'
  | add_vote {s s' : VoteTally K V} (validator_key : K) (block_height : Nat) (block_hash : V)
      (added : Bool) (h : s.addVote validator_key block_height block_hash = .commit s' added) :
      Step s s'
  | pause_votes {s : VoteTally K V} : Step s s.pauseVotesUntilFindQuorum
  | find_quorum {s : VoteTally K V} : Step s s.findQuorum.1
  | set_finalized {s : VoteTally K V} (block_height : Nat) (block_hash : V)
      (hheight : s.lastFinalizedHeight ≤ block_height) :
      Step s (s.setFinalized block_height block_hash)
  | set_power_table {s : VoteTally K V} (power_table : List (K × Nat)) :
      Step s (s.setPowerTable power_table)
  | update_power_table {s : VoteTally K V} (power_updates : List (K × Nat)) :
      Step s (s.updatePowerTable power_updates)

theorem Wf.step {s s' : VoteTally K V} (hw : s.Wf) (hstep : Step s s') : s'.Wf := by
  cases hstep with
  | add_block block_height block_hash h => exact hw.addBlock h
  | add_vote validator_key block_height block_hash added h => exact hw.addVote h
  | pause_votes => exact hw.of_chain_votes rfl rfl
  | find_quorum => exact hw.of_chain_votes (by rw [findQuorum_fst]) (by rw [findQuorum_fst])
  | set_finalized block_height block_hash hheight => exact hw.setFinalized block_hash hheight
  | set_power_table power_table => exact hw.of_chain_votes rfl rfl
  | update_power_table power_updates =>
    exact hw.of_chain_votes (chain_updatePowerTable s power_updates)
      (by unfold updatePowerTable; split_ifs <;> rfl)

theorem wf_of_reachable {s : VoteTally K V} (hr : Reachable Initial Step s) : s.Wf :=
  Reachable.invariant (fun s hs => by
      rcases hs with rfl | ⟨power_table, last_finalized_block, rfl⟩
      · exact wf_empty
      · exact wf_new power_table last_finalized_block)
    (fun _ _ hw hstep => hw.step hstep) hr

/-- Over every run of the tally from `new` or `empty`: the chain's heights are the interval from
the last finalized height, no validator is recorded for two hashes at one height, no votes are kept
below the last finalized height, and `add_vote` says `true` exactly when it records a new vote. -/
theorem tally_invariant {s : VoteTally K V} (hr : Reachable Initial Step s) :
    s.chain.keys = List.range' s.lastFinalizedHeight s.chain.keys.length ∧
    (∀ h k b b', k ∈ s.blockVoters (h, some b) → k ∈ s.blockVoters (h, some b') → b = b') ∧
    (∀ h, (s.votes.get? h).isSome → s.lastFinalizedHeight ≤ h) ∧
    (∀ k h b s' r, s.addVote k h b = .commit s' r →
      (r = true ↔ k ∉ s.blockVoters (h, some b) ∧ k ∈ s'.blockVoters (h, some b))) := by
  have hw := wf_of_reachable hr
  exact ⟨hw.chain_keys, hw.no_equivocation, hw.votes_above, fun _ _ _ _ _ => addVote_true_iff⟩

/-- The tally of one validator after the block above the last finalized one is added. -/
theorem tally_invariant_after_block :
    let s : VoteTally Nat Nat :=
      { new [(1, 1)] (10, 0) with chain := (OrdMap.singleton 10 (some 0)).insert 11 (some 11) }
    Reachable Initial Step s ∧
      (s.chain.keys = List.range' s.lastFinalizedHeight s.chain.keys.length ∧
      (∀ h k b b', k ∈ s.blockVoters (h, some b) → k ∈ s.blockVoters (h, some b') → b = b') ∧
      (∀ h, (s.votes.get? h).isSome → s.lastFinalizedHeight ≤ h) ∧
      (∀ k h b s' r, s.addVote k h b = .commit s' r →
        (r = true ↔ k ∉ s.blockVoters (h, some b) ∧ k ∈ s'.blockVoters (h, some b)))) := by
  intro s
  have hr : Reachable Initial Step s :=
    Reachable.tail (Reachable.of_init (.inr ⟨[(1, 1)], (10, 0), rfl⟩)) (.add_block 11 (some 11) rfl)
  exact ⟨hr, tally_invariant hr⟩

/-- Two validators of weight `2 ^ 63` each: their total weight wraps to zero in `u64`, so the
threshold is one, and the vote of one of them, half of the weight, is taken for a quorum at
height 1, where the reference model has no quorum at all. The tally is `new`'s, with one block
and one vote added. -/
theorem findQuorum_overflowed_threshold :
    let s : VoteTally Nat Nat :=
      { power_table := powerTableOf [(1, 2 ^ 63), (2, 2 ^ 63)]
        chain := (OrdMap.singleton 0 (some 0)).insert 1 (some 1)
        votes := OrdMap.empty.insert 1 ((∅ : AList fun _ : Nat => Finset Nat).insert 1 {1})
        pause_votes := false }
    Reachable Initial Step s ∧ s.quorumThreshold = 1 ∧ s.findQuorum.2 = some (1, 1) ∧
      ∀ h block_hash, ¬s.IsQuorum h block_hash := by
  intro s
  have hblock : Reachable Initial Step
      ({ new [(1, 2 ^ 63), (2, 2 ^ 63)] (0, 0) with
        chain := (OrdMap.singleton 0 (some 0)).insert 1 (some 1) } : VoteTally Nat Nat) :=
    Reachable.tail (Reachable.of_init (.inr ⟨_, (0, 0), rfl⟩)) (.add_block 1 (some 1) rfl)
  have hr : Reachable Initial Step s := hblock.tail (.add_vote 1 1 1 true rfl)
  have hnone : ∀ h block_hash, ¬s.IsQuorum h block_hash := by
    rintro h block_hash ⟨hlast, hlatest, -, hweight⟩
    have hfin : s.lastFinalizedHeight = 0 := by decide
    have htop : s.latestHeight = 1 := by decide
    have h1 : h = 1 := by omega
    subst h1
    -- The one voter at or above height 1 holds half of the weight.
    have hvoters : s.powerOf (s.votersFrom 1) = 2 ^ 63 := by decide
    have htotal : s.totalWeight = 2 ^ 64 := by decide
    rw [hvoters, htotal] at hweight
    exact absurd hweight (by decide)
  exact ⟨hr, by decide, by decide, hnone⟩

end VoteTally

end Delorean.Topdown.Voting
