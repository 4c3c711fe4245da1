import Delorean.Staking.ValidatorSet

/-!
# The staking change log

After bootstrap a validator's join, stake, unstake and leave, and the owner's federated powers,
are not applied at once: each is recorded in the subnet actor's change log under the next
configuration number (`LibStakingChangeLog.recordChange`), carried to the child subnet, and
confirmed on both sides: by the parent when a bottom-up checkpoint names a configuration number
(`LibStaking.confirmChange`), and by the child when it applies its parent's finality
(`LibValidatorTracking.confirmChange`). Both confirmations run the same loop, `confirmChanges`:
the changes from the log's start up to the number, in order, each applied and then purged. They
differ in what a change does, the step they pass to the loop: the child applies it to its
validator set (`ValidatorSet.applyChange`), the parent also moves the collateral.

What each step keeps, the whole confirmation keeps (`confirmChanges_invariant`); the validator
set's `Wf` is such a fact (`Wf.applyChange`).

A change's payload is `abi.encode` of its fields in the source; here it is the fields themselves:
the metadata of `SetMetadata` and `SetFederatedPower`, and the amount of `Deposit` and `Withdraw`
or the power of `SetFederatedPower`. Configuration numbers are natural numbers: a `uint64` that
would overflow is not modelled.
-/

namespace Delorean.Staking

/-- `StakingOperation`. -/
inductive StakingOperation where
  | Deposit
  | Withdraw
  | SetMetadata
  | SetFederatedPower
  deriving DecidableEq, Repr

/-- `StakingChange`, with its payload decoded. -/
structure StakingChange (Address : Type) where
  op : StakingOperation
  validator : Address
  metadata : List UInt8
  amount : Nat
  deriving DecidableEq, Repr

/-- The change an unwritten or purged configuration number reads. -/
def StakingChange.zero {Address : Type} [Inhabited Address] : StakingChange Address :=
  ⟨.Deposit, default, [], 0⟩

/-- `StakingChangeLog`. -/
structure StakingChangeLog (Address : Type) where
  nextConfigurationNumber : Nat
  startConfigurationNumber : Nat
  changes : Nat → StakingChange Address

namespace StakingChangeLog

variable {Address : Type} [Inhabited Address]

/-- The log of a new subnet actor, and of a new gateway's tracker: both numbers start at
`INITIAL_CONFIGURATION_NUMBER`, one. -/
def initial : StakingChangeLog Address := ⟨1, 1, fun _ => .zero⟩

/-- `recordChange`: store the change under the next configuration number, and return the number. -/
def recordChange (changes : StakingChangeLog Address) (validator : Address) (op : StakingOperation)
    (metadata : List UInt8) (amount : Nat) : StakingChangeLog Address × Nat :=
  let configurationNumber := changes.nextConfigurationNumber
  ({ changes with
      changes := Function.update changes.changes configurationNumber ⟨op, validator, metadata, amount⟩
      nextConfigurationNumber := configurationNumber + 1 },
    configurationNumber)

/-- `metadataRequest`. -/
def metadataRequest (changes : StakingChangeLog Address) (validator : Address)
    (metadata : List UInt8) : StakingChangeLog Address :=
  (changes.recordChange validator .SetMetadata metadata 0).1

/-- `federatedPowerRequest`. -/
def federatedPowerRequest (changes : StakingChangeLog Address) (validator : Address)
    (metadata : List UInt8) (power : Nat) : StakingChangeLog Address :=
  (changes.recordChange validator .SetFederatedPower metadata power).1

/-- `withdrawRequest`. -/
def withdrawRequest (changes : StakingChangeLog Address) (validator : Address) (amount : Nat) :
    StakingChangeLog Address :=
  (changes.recordChange validator .Withdraw [] amount).1

/-- `depositRequest`. -/
def depositRequest (changes : StakingChangeLog Address) (validator : Address) (amount : Nat) :
    StakingChangeLog Address :=
  (changes.recordChange validator .Deposit [] amount).1

/-- `getChange`. -/
def getChange (changes : StakingChangeLog Address) (configurationNumber : Nat) :
    StakingChange Address :=
  changes.changes configurationNumber

/-- `purgeChange`. -/
def purgeChange [DecidableEq Address] (changes : StakingChangeLog Address)
    (configurationNumber : Nat) : StakingChangeLog Address :=
  { changes with changes := Function.update changes.changes configurationNumber .zero }

section Confirm

variable [DecidableEq Address] {σ : Type} (applyChange : σ → StakingChange Address → Except (Revert Address) σ)

/-- The loop of both `confirmChange`s over the `count` configuration numbers from `i` on: apply
each number's change to the state, then purge it. -/
def confirmLoop :
    StakingChangeLog Address → σ → (i count : Nat) → Except (Revert Address) (StakingChangeLog Address × σ)
  | changes, st, _, 0 => .ok (changes, st)
  | changes, st, i, count + 1 => do
    let st ← applyChange st (changes.getChange i)
    confirmLoop (changes.purgeChange i) st (i + 1) count

/-- `confirmChange` of either side, with the state its changes apply to: revert on a number not
yet recorded, do nothing for one already confirmed, and otherwise confirm every change from the
start up to the number and move the start past it. -/
def confirmChanges (changes : StakingChangeLog Address) (st : σ) (configurationNumber : Nat) :
    Except (Revert Address) (StakingChangeLog Address × σ) :=
  if configurationNumber ≥ changes.nextConfigurationNumber then .error .CannotConfirmFutureChanges
  else if configurationNumber < changes.startConfigurationNumber then .ok (changes, st)
  else do
    let r ← confirmLoop applyChange changes st changes.startConfigurationNumber
      (configurationNumber + 1 - changes.startConfigurationNumber)
    return ({ r.1 with startConfigurationNumber := configurationNumber + 1 }, r.2)

end Confirm

section Lemmas

variable [DecidableEq Address] {σ : Type}
  {applyChange : σ → StakingChange Address → Except (Revert Address) σ}

/-- What every step keeps, the loop keeps. -/
theorem confirmLoop_invariant (I : σ → Prop)
    (hstep : ∀ st change st', I st → applyChange st change = .ok st' → I st')
    {changes : StakingChangeLog Address} {st : σ} {i count : Nat}
    {r : StakingChangeLog Address × σ} (hst : I st)
    (h : confirmLoop applyChange changes st i count = .ok r) : I r.2 := by
  induction count generalizing changes st i with
  | zero =>
    rw [confirmLoop, Except.ok.injEq] at h
    exact h ▸ hst
  | succ count ih =>
    rw [confirmLoop, Except.bind_eq_ok] at h
    obtain ⟨st', h₁, h₂⟩ := h
    exact ih (hstep _ _ _ hst h₁) h₂

/-- What every step keeps, a confirmation keeps. -/
theorem confirmChanges_invariant (I : σ → Prop)
    (hstep : ∀ st change st', I st → applyChange st change = .ok st' → I st')
    {changes : StakingChangeLog Address} {st : σ} {configurationNumber : Nat}
    {r : StakingChangeLog Address × σ} (hst : I st)
    (h : confirmChanges applyChange changes st configurationNumber = .ok r) : I r.2 := by
  unfold confirmChanges at h
  split_ifs at h
  · rw [Except.ok.injEq] at h
    exact h ▸ hst
  · rw [Except.bind_eq_ok] at h
    obtain ⟨r', h₁, h₂⟩ := h
    rw [Except.pure_eq_ok, Except.ok.injEq] at h₂
    have hr' := confirmLoop_invariant I hstep hst h₁
    rw [← h₂]
    exact hr'

/-- The loop only purges: the log's numbers stay. -/
theorem confirmLoop_numbers {changes : StakingChangeLog Address} {st : σ} {i count : Nat}
    {r : StakingChangeLog Address × σ} (h : confirmLoop applyChange changes st i count = .ok r) :
    r.1.nextConfigurationNumber = changes.nextConfigurationNumber ∧
      r.1.startConfigurationNumber = changes.startConfigurationNumber := by
  induction count generalizing changes st i with
  | zero =>
    rw [confirmLoop, Except.ok.injEq] at h
    subst h
    exact ⟨rfl, rfl⟩
  | succ count ih =>
    rw [confirmLoop, Except.bind_eq_ok] at h
    obtain ⟨st', -, h₂⟩ := h
    -- a purge writes only the changes, so the numbers of `ih` are the log's
    obtain ⟨hnext, hstart⟩ := ih h₂
    exact ⟨hnext, hstart⟩

/-- A confirmation of a number at or past the start moves the start past it and keeps the next
number. -/
theorem confirmChanges_numbers {changes : StakingChangeLog Address} {st : σ}
    {configurationNumber : Nat} {r : StakingChangeLog Address × σ}
    (hle : changes.startConfigurationNumber ≤ configurationNumber)
    (h : confirmChanges applyChange changes st configurationNumber = .ok r) :
    r.1.nextConfigurationNumber = changes.nextConfigurationNumber ∧
      r.1.startConfigurationNumber = configurationNumber + 1 := by
  unfold confirmChanges at h
  split_ifs at h with hnext hstart
  · omega
  · obtain ⟨r', h₁, h₂⟩ := Except.bind_eq_ok.1 h
    rw [Except.pure_eq_ok, Except.ok.injEq] at h₂
    subst h₂
    exact ⟨(confirmLoop_numbers h₁).1, rfl⟩

/-- The loop applies the changes numbered `i` to `i + count - 1` in order, as the log held them:
a purge only clears a number the loop has passed. -/
theorem confirmLoop_foldlM {changes : StakingChangeLog Address} {st : σ} {i count : Nat}
    {r : StakingChangeLog Address × σ} (h : confirmLoop applyChange changes st i count = .ok r) :
    ((List.range' i count).map changes.getChange).foldlM applyChange st = .ok r.2 := by
  induction count generalizing changes st i with
  | zero =>
    rw [confirmLoop, Except.ok.injEq] at h
    subst h
    rfl
  | succ count ih =>
    rw [confirmLoop, Except.bind_eq_ok] at h
    obtain ⟨st', h₁, h₂⟩ := h
    have hlater : (List.range' (i + 1) count).map (changes.purgeChange i).getChange =
        (List.range' (i + 1) count).map changes.getChange := by
      refine List.map_congr_left fun n hn => ?_
      have hne : n ≠ i := by
        rw [List.mem_range'_1] at hn
        omega
      simp [getChange, purgeChange, Function.update_of_ne hne]
    rw [List.range'_succ, List.map_cons, List.foldlM_cons, h₁, Except.ok_bind, ← hlater]
    exact ih h₂

/-- A confirmation from the start on applies the changes from the start up to the number in
order. -/
theorem confirmChanges_foldlM {changes : StakingChangeLog Address} {st : σ}
    {configurationNumber : Nat} {r : StakingChangeLog Address × σ}
    (hle : changes.startConfigurationNumber ≤ configurationNumber)
    (h : confirmChanges applyChange changes st configurationNumber = .ok r) :
    ((List.range' changes.startConfigurationNumber
        (configurationNumber + 1 - changes.startConfigurationNumber)).map changes.getChange).foldlM
      applyChange st = .ok r.2 := by
  unfold confirmChanges at h
  split_ifs at h with hnext hstart
  · omega
  · obtain ⟨r', h₁, h₂⟩ := Except.bind_eq_ok.1 h
    rw [Except.pure_eq_ok, Except.ok.injEq] at h₂
    subst h₂
    have hloop := confirmLoop_foldlM h₁
    exact hloop

end Lemmas

end StakingChangeLog

namespace ValidatorSet

variable {Address : Type} [DecidableEq Address] [Inhabited Address]

/-- What a confirmed change does to a validator set, on both sides. -/
def applyChange (self : ValidatorSet Address) (change : StakingChange Address) :
    Except (Revert Address) (ValidatorSet Address) :=
  match change.op with
  | .SetMetadata => .ok (self.setMetadata change.validator change.metadata)
  | .SetFederatedPower =>
    (self.setMetadata change.validator change.metadata).confirmFederatedPower change.validator
      change.amount
  | .Withdraw => self.confirmWithdraw change.validator change.amount
  | .Deposit => self.confirmDeposit change.validator change.amount

/-- A confirmed change keeps the set well formed. -/
theorem Wf.applyChange {self self' : ValidatorSet Address} (hw : self.Wf)
    {change : StakingChange Address} (h : self.applyChange change = .ok self') : self'.Wf := by
  unfold ValidatorSet.applyChange at h
  split at h
  · rw [Except.ok.injEq] at h
    exact h ▸ hw.setMetadata _ _
  · exact (hw.setMetadata _ _).confirmFederatedPower h
  · exact hw.confirmWithdraw h
  · exact hw.confirmDeposit h

end ValidatorSet

end Delorean.Staking
