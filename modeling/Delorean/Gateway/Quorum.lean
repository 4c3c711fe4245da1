import Delorean.Lib.Reach

/-!
# Checkpoint quorums

The gateway collects the child validators' signatures of each bottom-up checkpoint in a
`QuorumMap` (`LibQuorum`). `createQuorumInfo` opens a quorum at a height with the membership's
Merkle root and the weight it needs, and lists the height as incomplete. `addQuorumSignature`
admits a signatory once per height, with a Merkle proof of its weight, adds the weight, and when
the weight reaches the threshold marks the quorum reached and takes the height out of the
incomplete ones. `pruneQuorums` raises the retention height and deletes the quorums below it.

Above the retention height the map keeps its books (`wf_of_reachable`): the incomplete heights are
the open quorums not yet reached, and each quorum's weight is the weight of its distinct
signatories in its membership, provided a quorum is only opened at a height without one, as
`createBottomUpCheckpoint` ensures. But `pruneQuorums` deletes a height's quorum and signatories
and leaves the height in `incompleteQuorums` (`pruneQuorums_keeps_incomplete`): the set keeps
every pruned height that never reached its quorum, and `getIncompleteCheckpoints` hands their
deleted checkpoints on.

`ECDSA.tryRecover` and `MerkleProof.verify` on the leaf of a signatory and its weight are
parameters. `EnumerableSet`s are lists without duplicates: `add` appends a new element and
`remove` erases one, which is what the sets' membership sees. A quorum that is not stored reads as
the zero `QuorumInfo`; the stored signatures, which nothing here reads, are left out.
-/

namespace Delorean.Gateway

/-- The reasons `LibQuorum` reverts with. -/
inductive QuorumError (Address : Type) where
  | InvalidRetentionHeight
  | QuorumAlreadyProcessed
  | InvalidSignature
  | SignatureReplay
  | NotAuthorized (signatory : Address)
  | FailedRemoveIncompleteQuorum
  | ZeroMembershipWeight
  | FailedAddIncompleteQuorum
  deriving DecidableEq, Repr

/-- `QuorumInfo`. -/
structure QuorumInfo (Hash : Type) where
  hash : Hash
  rootHash : Hash
  threshold : Nat
  currentWeight : Nat
  reached : Bool
  deriving DecidableEq, Repr

/-- `QuorumMap`, without the stored signatures. -/
structure QuorumMap (Address Hash : Type) where
  retentionHeight : Nat
  /-- `quorumInfo`, at the heights where a quorum is stored. -/
  quorumInfo : Nat → Option (QuorumInfo Hash)
  incompleteQuorums : List Nat
  quorumSignatureSenders : Nat → List Address

namespace QuorumMap

variable {Address Hash Sig : Type}

/-- The quorum an unstored height reads. -/
def zeroInfo [Inhabited Hash] : QuorumInfo Hash := ⟨default, default, 0, 0, false⟩

/-- `weightNeeded`. -/
def weightNeeded (weight majorityPercentage : Nat) : Nat := weight * majorityPercentage / 100

/-- A map with no quorum, at retention height one as the gateway's constructor sets it. -/
def empty : QuorumMap Address Hash := ⟨1, fun _ => none, [], fun _ => []⟩

section Ops

variable [DecidableEq Address] [Inhabited Hash] (tryRecover : Hash → Sig → Option Address)
  (verify : List Hash → Hash → Address → Nat → Bool)

/-- `addQuorumSignature`: recover the signatory, refuse a replay and a signatory without a
Merkle proof of its weight, then add it and its weight; the quorum that reaches its threshold is
marked reached and leaves the incomplete heights. -/
def addQuorumSignature (self : QuorumMap Address Hash) (height : Nat) (membershipProof : List Hash)
    (weight : Nat) (signature : Sig) : Except (QuorumError Address) (QuorumMap Address Hash) :=
  let info := (self.quorumInfo height).getD zeroInfo
  match tryRecover info.hash signature with
  | none => .error .InvalidSignature
  | some recoveredSignatory =>
    if recoveredSignatory ∈ self.quorumSignatureSenders height then .error .SignatureReplay
    else if !verify membershipProof info.rootHash recoveredSignatory weight then
      .error (.NotAuthorized recoveredSignatory)
    else
      let senders := self.quorumSignatureSenders height ++ [recoveredSignatory]
      let info := { info with currentWeight := info.currentWeight + weight }
      let self := { self with
        quorumSignatureSenders := Function.update self.quorumSignatureSenders height senders }
      if info.threshold ≤ info.currentWeight ∧ !info.reached then
        -- The quorum is completed: the height leaves the incomplete ones.
        if height ∉ self.incompleteQuorums then .error .FailedRemoveIncompleteQuorum
        else
          .ok { self with
            quorumInfo := Function.update self.quorumInfo height (some { info with reached := true })
            incompleteQuorums := self.incompleteQuorums.erase height }
      else .ok { self with quorumInfo := Function.update self.quorumInfo height (some info) }

end Ops

/-- `createQuorumInfo`: open a quorum at a retained height that is not incomplete, with the
weight `weightNeeded` of the membership's. -/
def createQuorumInfo (self : QuorumMap Address Hash) (objHeight : Nat) (objHash membershipRootHash : Hash)
    (membershipWeight majorityPercentage : Nat) :
    Except (QuorumError Address) (QuorumMap Address Hash) :=
  if objHeight < self.retentionHeight then .error .QuorumAlreadyProcessed
  else if membershipWeight = 0 then .error .ZeroMembershipWeight
  else
    let threshold := weightNeeded membershipWeight majorityPercentage
    if objHeight ∈ self.incompleteQuorums then .error .FailedAddIncompleteQuorum
    else
      let info : QuorumInfo Hash := ⟨objHash, membershipRootHash, threshold, 0, false⟩
      .ok { self with
        incompleteQuorums := self.incompleteQuorums ++ [objHeight]
        quorumInfo := Function.update self.quorumInfo objHeight (some info) }

/-- One height of `pruneQuorums`' loop: the inner loop removes every signatory, and the height's
quorum and signatory set are deleted. -/
def pruneHeight (self : QuorumMap Address Hash) (h : Nat) : QuorumMap Address Hash :=
  { self with
    quorumInfo := Function.update self.quorumInfo h none
    quorumSignatureSenders := Function.update self.quorumSignatureSenders h [] }

/-- `pruneQuorums`: delete the quorums of the heights from the retention height up to the new
one, and raise the retention height. -/
def pruneQuorums (self : QuorumMap Address Hash) (newRetentionHeight : Nat) :
    Except (QuorumError Address) (QuorumMap Address Hash) :=
  let oldRetentionHeight := self.retentionHeight
  if newRetentionHeight ≤ oldRetentionHeight then .error .InvalidRetentionHeight
  else
    let self := (List.range' oldRetentionHeight (newRetentionHeight - oldRetentionHeight)).foldl
      pruneHeight self
    .ok { self with retentionHeight := newRetentionHeight }

/-! ## One lemma per operation -/

section Spec

variable {self self' : QuorumMap Address Hash}

theorem createQuorumInfo_eq_ok {objHeight : Nat} {objHash membershipRootHash : Hash}
    {membershipWeight majorityPercentage : Nat}
    (h : self.createQuorumInfo objHeight objHash membershipRootHash membershipWeight
      majorityPercentage = .ok self') :
    self.retentionHeight ≤ objHeight ∧ objHeight ∉ self.incompleteQuorums ∧
      self' = { self with
        incompleteQuorums := self.incompleteQuorums ++ [objHeight]
        quorumInfo := Function.update self.quorumInfo objHeight (some ⟨objHash, membershipRootHash,
          weightNeeded membershipWeight majorityPercentage, 0, false⟩) } := by
  unfold createQuorumInfo at h
  split_ifs at h with hlow hzero hin
  cases h
  exact ⟨Nat.le_of_not_lt hlow, hin, rfl⟩

/-- A signature is admitted from a recovered signatory not yet counted, with a valid proof of its
weight; the weight is added, and the quorum is marked reached, leaving the incomplete heights,
when it crosses its threshold for the first time. -/
theorem addQuorumSignature_eq_ok [DecidableEq Address] [Inhabited Hash]
    {tryRecover : Hash → Sig → Option Address} {verify : List Hash → Hash → Address → Nat → Bool}
    {height weight : Nat} {membershipProof : List Hash} {signature : Sig}
    (h : self.addQuorumSignature tryRecover verify height membershipProof weight signature = .ok self') :
    let info := (self.quorumInfo height).getD zeroInfo
    ∃ signatory, tryRecover info.hash signature = some signatory ∧
      signatory ∉ self.quorumSignatureSenders height ∧
      verify membershipProof info.rootHash signatory weight = true ∧
      self'.retentionHeight = self.retentionHeight ∧
      self'.quorumSignatureSenders =
        Function.update self.quorumSignatureSenders height (self.quorumSignatureSenders height ++ [signatory]) ∧
      ((info.threshold ≤ info.currentWeight + weight ∧ info.reached = false ∧
          height ∈ self.incompleteQuorums ∧ self'.incompleteQuorums = self.incompleteQuorums.erase height ∧
          self'.quorumInfo = Function.update self.quorumInfo height
            (some { info with currentWeight := info.currentWeight + weight, reached := true })) ∨
        (¬(info.threshold ≤ info.currentWeight + weight ∧ info.reached = false) ∧
          self'.incompleteQuorums = self.incompleteQuorums ∧
          self'.quorumInfo = Function.update self.quorumInfo height
            (some { info with currentWeight := info.currentWeight + weight }))) := by
  intro info
  unfold addQuorumSignature at h
  dsimp only at h
  split at h
  · cases h
  · rename_i signatory hrecover
    refine ⟨signatory, hrecover, ?_⟩
    split_ifs at h with hreplay hverify hcomplete hin
    · cases h
      refine ⟨hreplay, by simpa using hverify, rfl, rfl, .inl ⟨?_, ?_, ?_, rfl, rfl⟩⟩
      · exact hcomplete.1
      · simpa using hcomplete.2
      · exact hin
    · cases h
      refine ⟨hreplay, by simpa using hverify, rfl, rfl, .inr ⟨?_, rfl, rfl⟩⟩
      simpa using hcomplete

/-- The heights of the loop are pruned, and nothing else changes. -/
theorem foldl_pruneHeight (heights : List Nat) (self : QuorumMap Address Hash) :
    let self' := heights.foldl pruneHeight self
    self'.retentionHeight = self.retentionHeight ∧ self'.incompleteQuorums = self.incompleteQuorums ∧
      (∀ h, self'.quorumInfo h = if h ∈ heights then none else self.quorumInfo h) ∧
      ∀ h, self'.quorumSignatureSenders h =
        if h ∈ heights then [] else self.quorumSignatureSenders h := by
  induction heights generalizing self with
  | nil => simp
  | cons h₀ heights ih =>
    obtain ⟨hret, hinc, hinfo, hsend⟩ := ih (pruneHeight self h₀)
    refine ⟨hret, hinc, fun h => ?_, fun h => ?_⟩
    · rw [List.foldl_cons, hinfo]
      by_cases hh : h = h₀
      · simp [hh, pruneHeight]
      · simp [hh, pruneHeight]
    · rw [List.foldl_cons, hsend]
      by_cases hh : h = h₀
      · simp [hh, pruneHeight]
      · simp [hh, pruneHeight]

/-- Pruning deletes the quorums and signatories of the heights from the old retention height to
the new one, and leaves the incomplete heights as they are. -/
theorem pruneQuorums_eq_ok {newRetentionHeight : Nat}
    (h : self.pruneQuorums newRetentionHeight = .ok self') :
    self.retentionHeight < newRetentionHeight ∧ self'.retentionHeight = newRetentionHeight ∧
      self'.incompleteQuorums = self.incompleteQuorums ∧
      (∀ h, self'.quorumInfo h =
        if self.retentionHeight ≤ h ∧ h < newRetentionHeight then none else self.quorumInfo h) ∧
      ∀ h, self'.quorumSignatureSenders h =
        if self.retentionHeight ≤ h ∧ h < newRetentionHeight then [] else self.quorumSignatureSenders h := by
  unfold pruneQuorums at h
  dsimp only at h
  split_ifs at h with hle
  cases h
  obtain ⟨-, hinc, hinfo, hsend⟩ := foldl_pruneHeight
    (List.range' self.retentionHeight (newRetentionHeight - self.retentionHeight)) self
  refine ⟨Nat.lt_of_not_le hle, rfl, hinc, fun h => ?_, fun h => ?_⟩
  · rw [hinfo]
    simp only [List.mem_range'_1]
    congr 1
    exact propext ⟨fun h => ⟨h.1, by omega⟩, fun h => ⟨h.1, by omega⟩⟩
  · rw [hsend]
    simp only [List.mem_range'_1]
    congr 1
    exact propext ⟨fun h => ⟨h.1, by omega⟩, fun h => ⟨h.1, by omega⟩⟩

end Spec

/-! ## The books above the retention height -/

section Books

variable (weightOf : Hash → Address → Nat)

/-- A quorum's books: its signatories are distinct, its weight is theirs in its membership, and
it is reached exactly when some signature brought the weight to the threshold. -/
structure Booked (info : QuorumInfo Hash) (senders : List Address) : Prop where
  nodup : senders.Nodup
  weight_eq : info.currentWeight = (senders.map (weightOf info.rootHash)).sum
  reached_iff : info.reached = true ↔ info.threshold ≤ info.currentWeight ∧ senders ≠ []

/-- The books at one height: the height is incomplete exactly when a quorum is stored there and
not reached, a height without a quorum has no signatory, and a stored quorum is `Booked`. -/
structure WfAt (m : QuorumMap Address Hash) (h : Nat) : Prop where
  mem_incomplete_iff :
    h ∈ m.incompleteQuorums ↔ ∃ info, m.quorumInfo h = some info ∧ info.reached = false
  senders_of_none : m.quorumInfo h = none → m.quorumSignatureSenders h = []
  booked : ∀ info, m.quorumInfo h = some info → Booked weightOf info (m.quorumSignatureSenders h)

/-- The map keeps its books at every height from the retention height on. -/
structure Wf (m : QuorumMap Address Hash) : Prop where
  incomplete_nodup : m.incompleteQuorums.Nodup
  at_height : ∀ h, m.retentionHeight ≤ h → WfAt weightOf m h

variable {weightOf}

/-- The books at a height depend only on what the map holds there. -/
theorem WfAt.congr {self self' : QuorumMap Address Hash} {h : Nat} (hw : WfAt weightOf self h)
    (hinc : h ∈ self'.incompleteQuorums ↔ h ∈ self.incompleteQuorums)
    (hinfo : self'.quorumInfo h = self.quorumInfo h)
    (hsend : self'.quorumSignatureSenders h = self.quorumSignatureSenders h) : WfAt weightOf self' h :=
  ⟨by rw [hinc, hinfo]; exact hw.mem_incomplete_iff, by rw [hinfo, hsend]; exact hw.senders_of_none,
    by rw [hinfo, hsend]; exact hw.booked⟩

variable (weightOf) in
theorem wf_empty : Wf weightOf (empty : QuorumMap Address Hash) :=
  ⟨List.nodup_nil, fun _ _ => ⟨by simp [empty], fun _ => rfl, fun _ h => by simp [empty] at h⟩⟩

/-- Opening a quorum at a height without one keeps the books. -/
theorem Wf.createQuorumInfo {self self' : QuorumMap Address Hash} {objHeight : Nat}
    {objHash membershipRootHash : Hash} {membershipWeight majorityPercentage : Nat}
    (hw : Wf weightOf self) (hfresh : self.quorumInfo objHeight = none)
    (hcreate : self.createQuorumInfo objHeight objHash membershipRootHash membershipWeight
      majorityPercentage = .ok self') : Wf weightOf self' := by
  obtain ⟨hret, hnotin, rfl⟩ := createQuorumInfo_eq_ok hcreate
  refine ⟨?_, fun h hh => ?_⟩
  · exact hw.incomplete_nodup.append (List.nodup_singleton _) (by simpa using hnotin)
  by_cases hobj : h = objHeight
  · -- The new quorum: no signatory yet, not reached, and incomplete.
    subst hobj
    have hsend := (hw.at_height h hret).senders_of_none hfresh
    refine ⟨by simp, fun hnone => by simp at hnone, fun info hinfo => ?_⟩
    simp only [Function.update_self, Option.some.injEq] at hinfo
    subst hinfo
    exact ⟨by simp [hsend], by simp [hsend], by simp [hsend]⟩
  · refine (hw.at_height h hh).congr ?_ (by simp [hobj]) rfl
    simp [hobj]

/-- Admitting a signature keeps the books, when a valid proof of a signatory's weight is a proof
of its weight in the membership. -/
theorem Wf.addQuorumSignature [DecidableEq Address] [Inhabited Hash]
    {tryRecover : Hash → Sig → Option Address} {verify : List Hash → Hash → Address → Nat → Bool}
    (hverify : ∀ proof root signatory weight, verify proof root signatory weight = true →
      weightOf root signatory = weight)
    {self self' : QuorumMap Address Hash} {height weight : Nat} {membershipProof : List Hash}
    {signature : Sig} (hw : Wf weightOf self)
    (hadd : self.addQuorumSignature tryRecover verify height membershipProof weight signature = .ok self') :
    Wf weightOf self' := by
  obtain ⟨signatory, -, hnew, hproof, hret, hsend, hcases⟩ := addQuorumSignature_eq_ok hadd
  have hweight := hverify _ _ _ _ hproof
  -- What changes is at `height`; the incomplete heights lose at most `height`.
  obtain ⟨hnodup, hinc⟩ : self'.incompleteQuorums.Nodup ∧
      ∀ h, h ≠ height → (h ∈ self'.incompleteQuorums ↔ h ∈ self.incompleteQuorums) := by
    rcases hcases with ⟨-, -, -, hinc, -⟩ | ⟨-, hinc, -⟩
    · rw [hinc]
      exact ⟨hw.incomplete_nodup.erase height, fun h hne => List.mem_erase_of_ne hne⟩
    · rw [hinc]
      exact ⟨hw.incomplete_nodup, fun _ _ => Iff.rfl⟩
  refine ⟨hnodup, fun h hh => ?_⟩
  rw [hret] at hh
  by_cases hheight : h = height
  swap
  · have hinfo : self'.quorumInfo h = self.quorumInfo h := by
      rcases hcases with ⟨-, -, -, -, hinfo⟩ | ⟨-, -, hinfo⟩ <;> simp [hinfo, hheight]
    exact (hw.at_height h hh).congr (hinc h hheight) hinfo (by simp [hsend, hheight])
  subst hheight
  have hwat := hw.at_height h hh
  cases hstored : self.quorumInfo h with
  | none =>
    -- An unstored quorum reads as zero: the signature would complete it, but the height is not
    -- incomplete, so the call reverts.
    have hnotin : h ∉ self.incompleteQuorums := by simp [hwat.mem_incomplete_iff, hstored]
    rcases hcases with ⟨-, -, hin, -⟩ | ⟨hnot, -⟩
    · exact absurd hin hnotin
    · simp [hstored, zeroInfo] at hnot
  | some info =>
    have hbooked := hwat.booked info hstored
    simp only [hstored, Option.getD_some] at hcases hweight
    have hsend' : self'.quorumSignatureSenders h = self.quorumSignatureSenders h ++ [signatory] := by
      simp [hsend]
    have hnodup' : (self.quorumSignatureSenders h ++ [signatory]).Nodup :=
      hbooked.nodup.append (List.nodup_singleton _) (by simpa using hnew)
    have hsum : info.currentWeight + weight =
        ((self.quorumSignatureSenders h ++ [signatory]).map (weightOf info.rootHash)).sum := by
      simp [hbooked.weight_eq, hweight]
    rcases hcases with ⟨hthreshold, hopen, -, hinc', hinfo⟩ | ⟨hnot, hinc', hinfo⟩
    · -- The signature completes the quorum, which leaves the incomplete heights.
      refine ⟨?_, fun hnone => by simp [hinfo] at hnone, fun info' hinfo' => ?_⟩
      · simp [hinc', hinfo, hw.incomplete_nodup.mem_erase_iff]
      · simp only [hinfo, Function.update_self, Option.some.injEq] at hinfo'
        subst hinfo'
        rw [hsend']
        exact ⟨hnodup', hsum, by simp [hthreshold]⟩
    · refine ⟨?_, fun hnone => by simp [hinfo] at hnone, fun info' hinfo' => ?_⟩
      · rw [hinc', hwat.mem_incomplete_iff, hstored]
        simp [hinfo]
      · simp only [hinfo, Function.update_self, Option.some.injEq] at hinfo'
        subst hinfo'
        rw [hsend']
        refine ⟨hnodup', hsum, ?_⟩
        -- A quorum not completed now was reached before, or stays below its threshold.
        cases hreached : info.reached
        · have hlt : info.currentWeight + weight < info.threshold := by simpa [hreached] using hnot
          simp only [Bool.false_eq_true, false_iff, not_and]
          intro hle
          exact absurd hle (by omega)
        · have hle := (hbooked.reached_iff.mp hreached).1
          simp only [true_iff]
          exact ⟨by omega, by simp⟩

/-- Pruning keeps the books above the new retention height, which it leaves untouched. -/
theorem Wf.pruneQuorums {self self' : QuorumMap Address Hash} {newRetentionHeight : Nat}
    (hw : Wf weightOf self) (hprune : self.pruneQuorums newRetentionHeight = .ok self') :
    Wf weightOf self' := by
  obtain ⟨hlt, hret, hinc, hinfo, hsend⟩ := pruneQuorums_eq_ok hprune
  refine ⟨by rw [hinc]; exact hw.incomplete_nodup, fun h hh => ?_⟩
  have habove : ¬(self.retentionHeight ≤ h ∧ h < newRetentionHeight) := by omega
  exact (hw.at_height h (by omega)).congr (by rw [hinc]) (by rw [hinfo, if_neg habove])
    (by rw [hsend, if_neg habove])

end Books

/-! ## Runs -/

section Runs

variable [DecidableEq Address] [Inhabited Hash] (tryRecover : Hash → Sig → Option Address)
  (verify : List Hash → Hash → Address → Nat → Bool)

/-- The calls into `LibQuorum` as the checkpointing facet makes them: a quorum is opened only at a
height without one (`createBottomUpCheckpoint` refuses a height whose checkpoint exists, and the
checkpoint and the quorum are stored and pruned together). -/
inductive Step : QuorumMap Address Hash → QuorumMap Address Hash → Prop
  | create {self self'} (objHeight : Nat) (objHash membershipRootHash : Hash)
      (membershipWeight majorityPercentage : Nat) (hfresh : self.quorumInfo objHeight = none)
      (h : self.createQuorumInfo objHeight objHash membershipRootHash membershipWeight
        majorityPercentage = .ok self') : Step self self'
  | add {self self'} (height : Nat) (membershipProof : List Hash) (weight : Nat) (signature : Sig)
      (h : self.addQuorumSignature tryRecover verify height membershipProof weight signature = .ok self') :
      Step self self'
  | prune {self self'} (newRetentionHeight : Nat) (h : self.pruneQuorums newRetentionHeight = .ok self') :
      Step self self'

/-- From the empty map, every run of the facet's calls keeps the books above the retention height,
when a valid Merkle proof of a signatory's weight proves its weight in the membership. -/
theorem wf_of_reachable (weightOf : Hash → Address → Nat)
    (hverify : ∀ proof root signatory weight, verify proof root signatory weight = true →
      weightOf root signatory = weight)
    {self : QuorumMap Address Hash} (hr : Reachable (· = empty) (Step tryRecover verify) self) :
    Wf weightOf self := by
  refine Reachable.invariant (fun s hs => hs ▸ wf_empty weightOf) (fun s s' hw hstep => ?_) hr
  cases hstep with
  | create _ _ _ _ _ hfresh h => exact hw.createQuorumInfo hfresh h
  | add _ _ _ _ h => exact hw.addQuorumSignature hverify h
  | prune _ h => exact hw.pruneQuorums h

end Runs

end QuorumMap

/-- A quorum opened at height 1 of a fresh map and pruned before any signature: the quorum and
its signatories are gone and the retention height is 2, but height 1 is still incomplete. -/
theorem pruneQuorums_keeps_incomplete :
    ∃ m₁ m₂ : QuorumMap Nat Nat, QuorumMap.empty.createQuorumInfo 1 7 9 10 66 = .ok m₁ ∧
      m₁.pruneQuorums 2 = .ok m₂ ∧ m₂.retentionHeight = 2 ∧ m₂.quorumInfo 1 = none ∧
      1 ∈ m₂.incompleteQuorums := by
  refine ⟨_, _, rfl, rfl, rfl, rfl, ?_⟩
  decide

end Delorean.Gateway
