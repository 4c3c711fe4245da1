import Delorean.Staking.PQ
import Delorean.Subnet.Checkpointing

/-!
# The validator set of a subnet actor

`LibValidatorSet` keeps each validator's information and two queues of addresses: the active
validators, a min queue of at most `activeLimit` addresses, and the waiting ones, a max queue. A
confirmed change of power reshuffles them (`increaseReshuffle`, `reduceReshuffle`): an increase
lets a validator displace the least active one, and a reduction lets the greatest waiting one take
an active place. The queues order addresses by `getPower`, the federated power in federated mode
and the confirmed collateral otherwise, read from the set as it stands when the reshuffle runs.

The set is well formed (`Wf`) when both queues keep their index, no address is in both, the active
queue holds at most `activeLimit` addresses, and a non-empty waiting queue means a full active
one. Every confirmation keeps it. The checkpointing facet's view of the set
(`Subnet.ValidatorSet`) is `toView`: its powers are `getPower`, and its active validators are those
of the active queue.

The reshuffles order by `getPower` but compare with their `newPower` argument, and the two differ
when a deposit is confirmed in federated mode: the validator then enters the active queue with
its collateral as the reason and its federated power, zero for a newcomer, as its power
(`contains_confirmDeposit`, `getPower_confirmDeposit`).

Amounts are natural numbers; a `uint256` sum that would overflow is not modelled, and the checked
subtractions of `confirmWithdraw` revert with `Panic 0x11`.
-/

namespace Delorean.Staking

/-- `ValidatorInfo`. -/
structure ValidatorInfo where
  federatedPower : Nat
  confirmedCollateral : Nat
  totalCollateral : Nat
  metadata : List UInt8
  deriving DecidableEq, Repr

/-- The information of an address never written, or deleted. -/
def ValidatorInfo.zero : ValidatorInfo := ⟨0, 0, 0, []⟩

/-- `ValidatorSet`. -/
structure ValidatorSet (Address : Type) where
  permissionMode : Subnet.PermissionMode
  activeLimit : Nat
  totalConfirmedCollateral : Nat
  validators : Address → ValidatorInfo
  activeValidators : MinPQ Address
  waitingValidators : MaxPQ Address

namespace ValidatorSet

variable {Address : Type} [DecidableEq Address] [Inhabited Address]

/-- A set with no validator, in a permission mode and with an active limit. -/
def empty (permissionMode : Subnet.PermissionMode) (activeLimit : Nat) : ValidatorSet Address :=
  ⟨permissionMode, activeLimit, 0, fun _ => .zero, ⟨.empty⟩, ⟨.empty⟩⟩

/-- `getPower`: the federated power in federated mode, the confirmed collateral otherwise. -/
def getPower (self : ValidatorSet Address) (validator : Address) : Nat :=
  if self.permissionMode = .Federated then (self.validators validator).federatedPower
  else (self.validators validator).confirmedCollateral

/-- `listActiveValidators`: the addresses at the active queue's positions `1 … size`. -/
def listActiveValidators (self : ValidatorSet Address) : List Address :=
  (List.range' 1 self.activeValidators.getSize).map self.activeValidators.getAddress

/-- `setMetadata`. -/
def setMetadata (self : ValidatorSet Address) (validator : Address) (metadata : List UInt8) :
    ValidatorSet Address :=
  { self with
    validators := Function.update self.validators validator { self.validators validator with metadata } }

/-- `recordDeposit`: the validator's total collateral grows by the amount. -/
def recordDeposit (self : ValidatorSet Address) (validator : Address) (amount : Nat) :
    ValidatorSet Address :=
  let info := self.validators validator
  { self with
    validators := Function.update self.validators validator
      { info with totalCollateral := info.totalCollateral + amount } }

/-- `recordWithdraw`: the validator's total collateral shrinks by the amount. -/
def recordWithdraw (self : ValidatorSet Address) (validator : Address) (amount : Nat) :
    Except (Revert Address) (ValidatorSet Address) :=
  let info := self.validators validator
  if info.totalCollateral < amount then .error .WithdrawExceedingCollateral
  else
    .ok { self with
      validators := Function.update self.validators validator
        { info with totalCollateral := info.totalCollateral - amount } }

/-- `increaseReshuffle`: the power of `maybeActive` was raised to `newPower`. -/
def increaseReshuffle (self : ValidatorSet Address) (maybeActive : Address) (newPower : Nat) :
    Except (Revert Address) (ValidatorSet Address) :=
  if self.activeValidators.contains maybeActive then do
    let activeValidators ← self.activeValidators.increaseReheapify self.getPower maybeActive
    return { self with activeValidators }
  -- An address not active enters the active queue while it has room.
  else if self.activeLimit > self.activeValidators.getSize then
    .ok { self with activeValidators := self.activeValidators.insert self.getPower maybeActive }
  else do
    let top ← self.activeValidators.min self.getPower
    let minAddress := top.1
    let minActivePower := top.2
    if minActivePower < newPower then
      let activeValidators ← self.activeValidators.pop self.getPower
      let waitingValidators ←
        if self.waitingValidators.contains maybeActive then
          self.waitingValidators.deleteReheapify self.getPower maybeActive
        else pure self.waitingValidators
      return { self with
        activeValidators := activeValidators.insert self.getPower maybeActive
        waitingValidators := waitingValidators.insert self.getPower minAddress }
    else if self.waitingValidators.contains maybeActive then
      let waitingValidators ← self.waitingValidators.increaseReheapify self.getPower maybeActive
      return { self with waitingValidators }
    else
      return { self with
        waitingValidators := self.waitingValidators.insert self.getPower maybeActive }

/-- `reduceReshuffle`: the power of `validator` was lowered to `newPower`. -/
def reduceReshuffle (self : ValidatorSet Address) (validator : Address) (newPower : Nat) :
    Except (Revert Address) (ValidatorSet Address) :=
  if self.waitingValidators.contains validator then
    if newPower = 0 then do
      let waitingValidators ← self.waitingValidators.deleteReheapify self.getPower validator
      return { self with waitingValidators }
    else do
      let waitingValidators ← self.waitingValidators.decreaseReheapify self.getPower validator
      return { self with waitingValidators }
  else if !self.activeValidators.contains validator then .error .AddressShouldBeValidator
  -- An active validator that leaves gives its place to the greatest waiting one.
  else if newPower = 0 then do
    let activeValidators ← self.activeValidators.deleteReheapify self.getPower validator
    if self.waitingValidators.getSize ≠ 0 then
      let top ← self.waitingValidators.max self.getPower
      let toBePromoted := top.1
      let waitingValidators ← self.waitingValidators.pop self.getPower
      return { self with
        activeValidators := activeValidators.insert self.getPower toBePromoted
        waitingValidators }
    else return { self with activeValidators }
  else do
    let activeValidators ← self.activeValidators.decreaseReheapify self.getPower validator
    if self.waitingValidators.getSize = 0 then return { self with activeValidators }
    else
      let active ← activeValidators.min self.getPower
      let waiting ← self.waitingValidators.max self.getPower
      let mayBeDemoted := active.1
      let minActivePower := active.2
      let mayBePromoted := waiting.1
      let maxWaitingPower := waiting.2
      if minActivePower < maxWaitingPower then
        let activeValidators ← activeValidators.pop self.getPower
        let waitingValidators ← self.waitingValidators.pop self.getPower
        return { self with
          activeValidators := activeValidators.insert self.getPower mayBePromoted
          waitingValidators := waitingValidators.insert self.getPower mayBeDemoted }
      else return { self with activeValidators }

/-- `confirmFederatedPower`: set the federated power, and reshuffle on a change. -/
def confirmFederatedPower (self : ValidatorSet Address) (validator : Address) (power : Nat) :
    Except (Revert Address) (ValidatorSet Address) :=
  let existingPower := (self.validators validator).federatedPower
  let self := { self with
    validators := Function.update self.validators validator
      { self.validators validator with federatedPower := power } }
  if existingPower = power then .ok self
  else if existingPower < power then self.increaseReshuffle validator power
  else self.reduceReshuffle validator power

/-- `confirmDeposit`: the confirmed collateral grows by the amount, and the set reshuffles with
the new collateral. -/
def confirmDeposit (self : ValidatorSet Address) (validator : Address) (amount : Nat) :
    Except (Revert Address) (ValidatorSet Address) :=
  let newCollateral := (self.validators validator).confirmedCollateral + amount
  let self := { self with
    validators := Function.update self.validators validator
      { self.validators validator with confirmedCollateral := newCollateral }
    totalConfirmedCollateral := self.totalConfirmedCollateral + amount }
  self.increaseReshuffle validator newCollateral

/-- `confirmWithdraw`: the confirmed collateral shrinks by the amount, a validator left with no
collateral is deleted, and the set reshuffles with the new collateral. -/
def confirmWithdraw (self : ValidatorSet Address) (validator : Address) (amount : Nat) :
    Except (Revert Address) (ValidatorSet Address) :=
  let info := self.validators validator
  if info.confirmedCollateral < amount then .error (.Panic 0x11)
  else
    let newCollateral := info.confirmedCollateral - amount
    let validators :=
      if newCollateral = 0 ∧ info.totalCollateral = 0 then Function.update self.validators validator .zero
      else Function.update self.validators validator { info with confirmedCollateral := newCollateral }
    do
      let self ← reduceReshuffle { self with validators } validator newCollateral
      if self.totalConfirmedCollateral < amount then .error (.Panic 0x11)
      else .ok { self with totalConfirmedCollateral := self.totalConfirmedCollateral - amount }

/-! ## The checkpointing facet's view -/

/-- The set as the checkpointing facet reads it: the powers' fields and the active addresses. -/
def toView (self : ValidatorSet Address) : Subnet.ValidatorSet Address :=
  ⟨self.permissionMode,
    fun a => ⟨(self.validators a).federatedPower, (self.validators a).confirmedCollateral⟩,
    self.listActiveValidators⟩

omit [DecidableEq Address] [Inhabited Address] in
/-- The view's power is `getPower`. -/
@[simp]
theorem getPower_toView (self : ValidatorSet Address) (a : Address) :
    self.toView.getPower a = self.getPower a := by
  unfold toView Subnet.ValidatorSet.getPower getPower
  split <;> simp_all

omit [DecidableEq Address] [Inhabited Address] in
/-- The view's active validators are the addresses of the active queue. -/
theorem mem_listActiveValidators {self : ValidatorSet Address}
    (hq : self.activeValidators.inner.Indexed) (a : Address) :
    a ∈ self.listActiveValidators ↔ self.activeValidators.contains a = true := by
  simp only [listActiveValidators, List.mem_map, List.mem_range'_1, MinPQ.getAddress,
    MinPQ.getSize, MinPQ.contains]
  constructor
  · rintro ⟨p, ⟨hp, hp'⟩, rfl⟩
    exact hq.contains_posToAddress hp (by omega)
  · intro ha
    have hpos := PQ.contains_eq_true.1 ha
    obtain ⟨hle, hat⟩ := hq.addr_pos a hpos
    exact ⟨_, ⟨by omega, by omega⟩, hat⟩

omit [DecidableEq Address] [Inhabited Address] in
/-- An indexed active queue lists each of its addresses once. -/
theorem nodup_listActiveValidators {self : ValidatorSet Address}
    (hq : self.activeValidators.inner.Indexed) : self.listActiveValidators.Nodup := by
  unfold listActiveValidators
  refine List.Nodup.map_on (fun i hi j hj hij => ?_) List.nodup_range'
  simp only [List.mem_range'_1, MinPQ.getSize] at hi hj
  exact hq.posToAddress_inj hi.1 (by omega) hj.1 (by omega) hij

omit [DecidableEq Address] [Inhabited Address] in
@[simp]
theorem length_listActiveValidators (self : ValidatorSet Address) :
    self.listActiveValidators.length = self.activeValidators.getSize := by
  simp [listActiveValidators]

omit [Inhabited Address] in
/-- Metadata is not power. -/
@[simp]
theorem getPower_setMetadata (self : ValidatorSet Address) (validator : Address)
    (metadata : List UInt8) : (self.setMetadata validator metadata).getPower = self.getPower := by
  funext a
  by_cases ha : a = validator
  · subst ha
    simp [getPower, setMetadata]
  · simp [getPower, setMetadata, ha]

omit [Inhabited Address] in
/-- A recorded deposit is not power until it is confirmed. -/
@[simp]
theorem getPower_recordDeposit (self : ValidatorSet Address) (validator : Address) (amount : Nat) :
    (self.recordDeposit validator amount).getPower = self.getPower := by
  funext a
  by_cases ha : a = validator
  · subst ha
    simp [getPower, recordDeposit]
  · simp [getPower, recordDeposit, ha]

/-! ## The well-formed set -/

/-- The queues of a well-formed set: both keep their index, no address is in both, the active
queue has at most `activeLimit` addresses, and it is full while any address waits. -/
structure Wf (vs : ValidatorSet Address) : Prop where
  active_indexed : vs.activeValidators.inner.Indexed
  waiting_indexed : vs.waitingValidators.inner.Indexed
  disjoint : ∀ a, vs.activeValidators.contains a = true → vs.waitingValidators.contains a = false
  active_le : vs.activeValidators.getSize ≤ vs.activeLimit
  full : vs.waitingValidators.getSize ≠ 0 → vs.activeValidators.getSize = vs.activeLimit

omit [DecidableEq Address] in
theorem wf_empty (permissionMode : Subnet.PermissionMode) (activeLimit : Nat) :
    (empty permissionMode activeLimit : ValidatorSet Address).Wf :=
  ⟨PQ.indexed_empty, PQ.indexed_empty, fun a _ => by simp [empty, MaxPQ.contains, PQ.contains, PQ.empty],
    Nat.zero_le _, fun h => absurd rfl h⟩

omit [DecidableEq Address] [Inhabited Address] in
/-- Whether a set is well formed depends only on its limit and its queues. -/
theorem Wf.congr {self self' : ValidatorSet Address} (hw : self.Wf)
    (hlimit : self'.activeLimit = self.activeLimit) (hactive : self'.activeValidators = self.activeValidators)
    (hwaiting : self'.waitingValidators = self.waitingValidators) : self'.Wf := by
  obtain ⟨h₁, h₂, h₃, h₄, h₅⟩ := hw
  rw [← hlimit, ← hactive, ← hwaiting] at *
  exact ⟨h₁, h₂, h₃, h₄, h₅⟩

section Reshuffle

variable {self self' : ValidatorSet Address}

omit [DecidableEq Address] [Inhabited Address] in
/-- A waiting address is not active. -/
theorem Wf.not_active_of_waiting (hw : self.Wf) {a : Address}
    (ha : self.waitingValidators.contains a = true) : self.activeValidators.contains a = false := by
  by_contra hactive
  rw [hw.disjoint a (by simpa using hactive)] at ha
  cases ha

omit [Inhabited Address] in
/-- The exchange both reshuffles make: the active address `m` moves to the waiting queue and the
address `x` takes its active place. -/
theorem Wf.exchange (hw : self.Wf) (hfull : self.activeValidators.getSize = self.activeLimit)
    {m x : Address} (hm : self.activeValidators.contains m = true)
    (hx : self.activeValidators.contains x = false) {active : MinPQ Address} {waiting : MaxPQ Address}
    (hactive : active.inner.Indexed) (hwaiting : waiting.inner.Indexed)
    (hsize : active.getSize = self.activeValidators.getSize)
    (hactive_mem : ∀ a, active.contains a = (self.activeValidators.contains a && a != m || a == x))
    (hwaiting_mem : ∀ a, waiting.contains a = (self.waitingValidators.contains a && a != x || a == m)) :
    { self with activeValidators := active, waitingValidators := waiting }.Wf := by
  have hxm : x ≠ m := fun e => by rw [e, hm] at hx; cases hx
  refine ⟨hactive, hwaiting, fun a ha => ?_, by dsimp only; omega, fun _ => by dsimp only; omega⟩
  dsimp only at ha ⊢
  rw [hwaiting_mem]
  rw [hactive_mem] at ha
  by_cases hax : a = x
  · subst hax
    simp [hxm]
  · obtain ⟨ha', ham⟩ : self.activeValidators.contains a = true ∧ a ≠ m := by simpa [hax] using ha
    simp [hw.disjoint a ha', ham]

omit [DecidableEq Address] [Inhabited Address] in
/-- Reordering the active queue, with the same addresses and size, keeps the set well formed. -/
theorem Wf.reorderActive (hw : self.Wf) {active : MinPQ Address} (hi : active.inner.Indexed)
    (hsize : active.getSize = self.activeValidators.getSize)
    (hmem : ∀ a, active.contains a = self.activeValidators.contains a) :
    { self with activeValidators := active }.Wf :=
  ⟨hi, hw.waiting_indexed, fun a ha => hw.disjoint a ((hmem a).symm.trans ha),
    hsize ▸ hw.active_le, fun hne => hsize ▸ hw.full hne⟩

omit [DecidableEq Address] [Inhabited Address] in
/-- Reordering the waiting queue, with the same addresses and size, keeps the set well formed. -/
theorem Wf.reorderWaiting (hw : self.Wf) {waiting : MaxPQ Address} (hi : waiting.inner.Indexed)
    (hsize : waiting.getSize = self.waitingValidators.getSize)
    (hmem : ∀ a, waiting.contains a = self.waitingValidators.contains a) :
    { self with waitingValidators := waiting }.Wf :=
  ⟨hw.active_indexed, hi, fun a ha => (hmem a).trans (hw.disjoint a ha), hw.active_le,
    fun hne => hw.full (hsize ▸ hne)⟩

/-- An increase keeps the set well formed. -/
theorem Wf.increaseReshuffle (hw : self.Wf) {maybeActive : Address} {newPower : Nat}
    (h : self.increaseReshuffle maybeActive newPower = .ok self') : self'.Wf := by
  have hA := hw.active_indexed
  have hW := hw.waiting_indexed
  unfold ValidatorSet.increaseReshuffle at h
  by_cases hact : self.activeValidators.contains maybeActive = true
  · -- An active address moves within the active queue.
    rw [if_pos hact] at h
    obtain ⟨a', ha', hi, hsize, hmem⟩ := MinPQ.increaseReheapify_eq_ok self.getPower hA hact
    simp only [ha', Except.ok_bind, Except.pure_eq_ok, Except.ok.injEq] at h
    exact h ▸ hw.reorderActive hi hsize hmem
  rw [if_neg hact] at h
  have hact' : self.activeValidators.contains maybeActive = false := by simpa using hact
  by_cases hroom : self.activeLimit > self.activeValidators.getSize
  · -- There is room: the address joins the active queue, and no address waits.
    rw [if_pos hroom, Except.ok.injEq] at h
    subst h
    have hempty : self.waitingValidators.getSize = 0 := by
      by_contra hne
      have := hw.full hne
      omega
    have hnone : ∀ a, self.waitingValidators.contains a = false := fun a => by
      by_contra ha
      have := hW.size_pos_of_contains (Bool.not_eq_false _ ▸ ha)
      simp only [MaxPQ.getSize] at hempty
      omega
    obtain ⟨hi, hsize, hmem⟩ := MinPQ.insert_spec self.getPower hA hact'
    exact ⟨hi, hW, fun a _ => hnone a, by dsimp only; omega, fun hne => absurd hempty hne⟩
  rw [if_neg hroom, Except.bind_eq_ok] at h
  obtain ⟨top, htop, h⟩ := h
  obtain ⟨hpos, rfl⟩ := (MinPQ.min_eq_ok self.getPower).1 htop
  dsimp only at h
  have hfull : self.activeValidators.getSize = self.activeLimit := by
    have := hw.active_le
    omega
  have hminA : self.activeValidators.contains (self.activeValidators.getAddress 1) = true :=
    hA.contains_posToAddress le_rfl hpos
  by_cases hlt : self.getPower (self.activeValidators.getAddress 1) < newPower
  · -- The least active address gives its place to `maybeActive` and waits.
    rw [if_pos hlt] at h
    obtain ⟨a₁, hpop, hi₁, hsize₁, hmem₁⟩ := MinPQ.pop_eq_ok self.getPower hA hpos
    rw [hpop, Except.ok_bind] at h
    have hnew : a₁.contains maybeActive = false := by simp [hmem₁, hact']
    obtain ⟨hi₂, hsize₂, hmem₂⟩ := MinPQ.insert_spec self.getPower hi₁ hnew
    -- Whether or not `maybeActive` waited, it waits no more.
    have hexchange : ∀ w₁ : MaxPQ Address, w₁.inner.Indexed →
        (∀ a, w₁.contains a = (self.waitingValidators.contains a && a != maybeActive)) →
        { self with
          activeValidators := a₁.insert self.getPower maybeActive
          waitingValidators := w₁.insert self.getPower (self.activeValidators.getAddress 1) }.Wf := by
      intro w₁ hWi₁ hWmem₁
      have hold : w₁.contains (self.activeValidators.getAddress 1) = false := by
        simp [hWmem₁, hw.disjoint _ hminA]
      obtain ⟨hWi₂, -, hWmem₂⟩ := MaxPQ.insert_spec self.getPower hWi₁ hold
      refine hw.exchange hfull hminA hact' hi₂ hWi₂ (by omega) (fun a => ?_) (fun a => ?_)
      · rw [hmem₂, hmem₁]
      · rw [hWmem₂, hWmem₁]
    by_cases hwait : self.waitingValidators.contains maybeActive = true
    · rw [if_pos hwait] at h
      obtain ⟨w₁, hdel, hWi₁, -, hWmem₁⟩ := MaxPQ.deleteReheapify_eq_ok self.getPower hW hwait
      rw [hdel, Except.ok_bind, Except.pure_eq_ok, Except.ok.injEq] at h
      exact h ▸ hexchange w₁ hWi₁ hWmem₁
    · rw [if_neg hwait, Except.pure_eq_ok, Except.ok_bind, Except.pure_eq_ok, Except.ok.injEq] at h
      refine h ▸ hexchange _ hW fun a => ?_
      by_cases ha : a = maybeActive
      · subst ha
        simpa using hwait
      · simp [ha]
  · -- `maybeActive` waits, with its new power.
    rw [if_neg hlt] at h
    by_cases hwait : self.waitingValidators.contains maybeActive = true
    · rw [if_pos hwait] at h
      obtain ⟨w₁, hinc, hWi₁, hWsize, hWmem⟩ := MaxPQ.increaseReheapify_eq_ok self.getPower hW hwait
      rw [hinc, Except.ok_bind, Except.pure_eq_ok, Except.ok.injEq] at h
      exact h ▸ hw.reorderWaiting hWi₁ hWsize hWmem
    · rw [if_neg hwait, Except.pure_eq_ok, Except.ok.injEq] at h
      subst h
      obtain ⟨hWi₁, -, hWmem⟩ := MaxPQ.insert_spec self.getPower hW (by simpa using hwait)
      refine ⟨hA, hWi₁, fun a ha => ?_, hw.active_le, fun _ => hfull⟩
      have hne : a ≠ maybeActive := fun e => by rw [e, hact'] at ha; cases ha
      simp [hWmem, hw.disjoint a ha, hne]

/-- A reduction keeps the set well formed. -/
theorem Wf.reduceReshuffle (hw : self.Wf) {validator : Address} {newPower : Nat}
    (h : self.reduceReshuffle validator newPower = .ok self') : self'.Wf := by
  have hA := hw.active_indexed
  have hW := hw.waiting_indexed
  unfold ValidatorSet.reduceReshuffle at h
  by_cases hwait : self.waitingValidators.contains validator = true
  · rw [if_pos hwait] at h
    by_cases hzero : newPower = 0
    · -- A waiting validator with no power leaves.
      rw [if_pos hzero] at h
      obtain ⟨w₁, hdel, hWi₁, hWsize, hWmem⟩ := MaxPQ.deleteReheapify_eq_ok self.getPower hW hwait
      rw [hdel, Except.ok_bind, Except.pure_eq_ok, Except.ok.injEq] at h
      subst h
      refine ⟨hA, hWi₁, fun a ha => by simp [hWmem, hw.disjoint a ha], hw.active_le, fun hne => ?_⟩
      exact hw.full (by dsimp only at hne; omega)
    · rw [if_neg hzero] at h
      obtain ⟨w₁, hdec, hWi₁, hWsize, hWmem⟩ := MaxPQ.decreaseReheapify_eq_ok self.getPower hW hwait
      rw [hdec, Except.ok_bind, Except.pure_eq_ok, Except.ok.injEq] at h
      exact h ▸ hw.reorderWaiting hWi₁ hWsize hWmem
  rw [if_neg hwait] at h
  by_cases hact : self.activeValidators.contains validator = true
  swap
  · rw [if_pos (by simpa using hact)] at h
    cases h
  rw [if_neg (by simpa using hact)] at h
  have hpos : 0 < self.activeValidators.getSize := hA.size_pos_of_contains hact
  by_cases hzero : newPower = 0
  · -- An active validator with no power leaves, and the greatest waiting one takes its place.
    rw [if_pos hzero] at h
    obtain ⟨a₁, hdel, hi₁, hsize₁, hmem₁⟩ := MinPQ.deleteReheapify_eq_ok self.getPower hA hact
    rw [hdel, Except.ok_bind] at h
    by_cases hempty : self.waitingValidators.getSize ≠ 0
    · rw [if_pos hempty] at h
      have hWpos : 0 < self.waitingValidators.getSize := by omega
      obtain ⟨w₁, hpop, hWi₁, hWsize₁, hWmem₁⟩ := MaxPQ.pop_eq_ok self.getPower hW hWpos
      rw [(MaxPQ.max_eq_ok self.getPower).2 ⟨hWpos, rfl⟩, Except.ok_bind, hpop, Except.ok_bind,
        Except.pure_eq_ok, Except.ok.injEq] at h
      subst h
      have hpW : self.waitingValidators.contains (self.waitingValidators.getAddress 1) = true :=
        hW.contains_posToAddress le_rfl hWpos
      have hnew : a₁.contains (self.waitingValidators.getAddress 1) = false := by
        simp [hmem₁, hw.not_active_of_waiting hpW]
      obtain ⟨hi₂, hsize₂, hmem₂⟩ := MinPQ.insert_spec self.getPower hi₁ hnew
      have hfull := hw.full hempty
      refine ⟨hi₂, hWi₁, fun a ha => ?_, by dsimp only; omega, fun _ => by dsimp only; omega⟩
      dsimp only at ha ⊢
      rw [hWmem₁]
      rw [hmem₂, hmem₁] at ha
      by_cases hap : a = self.waitingValidators.getAddress 1
      · simp [hap]
      · obtain ⟨ha', -⟩ : self.activeValidators.contains a = true ∧ a ≠ validator := by
          simpa [hap] using ha
        simp [hw.disjoint a ha']
    · rw [if_neg hempty, Except.pure_eq_ok, Except.ok.injEq] at h
      subst h
      have hle := hw.active_le
      refine ⟨hi₁, hW, fun a ha => hw.disjoint a ?_, by dsimp only; omega, fun hne => absurd (not_not.1 hempty) hne⟩
      simp only [hmem₁, Bool.and_eq_true, bne_iff_ne] at ha
      exact ha.1
  · rw [if_neg hzero] at h
    obtain ⟨a₁, hdec, hi₁, hsize₁, hmem₁⟩ := MinPQ.decreaseReheapify_eq_ok self.getPower hA hact
    rw [hdec, Except.ok_bind] at h
    -- The validator moves within the active queue, and may then change places with the greatest
    -- waiting one.
    have hmoved : { self with activeValidators := a₁ }.Wf := hw.reorderActive hi₁ hsize₁ hmem₁
    by_cases hempty : self.waitingValidators.getSize = 0
    · rw [if_pos hempty, Except.pure_eq_ok, Except.ok.injEq] at h
      exact h ▸ hmoved
    rw [if_neg hempty] at h
    have hfull := hw.full hempty
    have hpos₁ : 0 < a₁.getSize := by omega
    have hWpos : 0 < self.waitingValidators.getSize := by omega
    rw [(MinPQ.min_eq_ok self.getPower).2 ⟨hpos₁, rfl⟩, Except.ok_bind,
      (MaxPQ.max_eq_ok self.getPower).2 ⟨hWpos, rfl⟩, Except.ok_bind] at h
    dsimp only at h
    by_cases hlt : self.getPower (a₁.getAddress 1) < self.getPower (self.waitingValidators.getAddress 1)
    · rw [if_pos hlt] at h
      obtain ⟨a₂, hpop, hi₂, hsize₂, hmem₂⟩ := MinPQ.pop_eq_ok self.getPower hi₁ hpos₁
      obtain ⟨w₂, hWpop, hWi₂, -, hWmem₂⟩ := MaxPQ.pop_eq_ok self.getPower hW hWpos
      rw [hpop, Except.ok_bind, hWpop, Except.ok_bind, Except.pure_eq_ok, Except.ok.injEq] at h
      subst h
      have hmA : self.activeValidators.contains (a₁.getAddress 1) = true :=
        (hmem₁ _).symm.trans (hi₁.contains_posToAddress le_rfl hpos₁)
      have hpA : self.activeValidators.contains (self.waitingValidators.getAddress 1) = false :=
        hw.not_active_of_waiting (hW.contains_posToAddress le_rfl hWpos)
      have hnewA : a₂.contains (self.waitingValidators.getAddress 1) = false := by
        simp [hmem₂, hmem₁, hpA]
      have hnewW : w₂.contains (a₁.getAddress 1) = false := by
        simp [hWmem₂, hw.disjoint _ hmA]
      obtain ⟨hi₃, hsize₃, hmem₃⟩ := MinPQ.insert_spec self.getPower hi₂ hnewA
      obtain ⟨hWi₃, -, hWmem₃⟩ := MaxPQ.insert_spec self.getPower hWi₂ hnewW
      refine hw.exchange hfull hmA hpA hi₃ hWi₃ (by omega) (fun a => ?_) (fun a => ?_)
      · rw [hmem₃, hmem₂, hmem₁]
      · rw [hWmem₃, hWmem₂]
    · rw [if_neg hlt, Except.pure_eq_ok, Except.ok.injEq] at h
      exact h ▸ hmoved

/-- An increase keeps an active address active, and makes one active while the active queue
has room. -/
theorem contains_increaseReshuffle (hw : self.Wf) {maybeActive : Address} {newPower : Nat}
    (h : self.increaseReshuffle maybeActive newPower = .ok self')
    (hroom : self.activeValidators.contains maybeActive = true ∨
      self.activeValidators.getSize < self.activeLimit) :
    self'.activeValidators.contains maybeActive = true := by
  unfold ValidatorSet.increaseReshuffle at h
  by_cases hact : self.activeValidators.contains maybeActive = true
  · rw [if_pos hact] at h
    obtain ⟨a', ha', -, -, hmem⟩ :=
      MinPQ.increaseReheapify_eq_ok self.getPower hw.active_indexed hact
    simp only [ha', Except.ok_bind, Except.pure_eq_ok, Except.ok.injEq] at h
    subst h
    exact (hmem maybeActive).trans hact
  · rw [if_neg hact, if_pos (hroom.resolve_left hact), Except.ok.injEq] at h
    subst h
    obtain ⟨-, -, hmem⟩ := MinPQ.insert_spec self.getPower hw.active_indexed (by simpa using hact)
    simp [hmem]

/-- A reshuffle only moves addresses between the queues: the rest of the set stays. -/
theorem increaseReshuffle_queues {maybeActive : Address} {newPower : Nat}
    (h : self.increaseReshuffle maybeActive newPower = .ok self') :
    ∃ active waiting, self' = { self with activeValidators := active, waitingValidators := waiting } := by
  unfold ValidatorSet.increaseReshuffle at h
  by_cases hact : self.activeValidators.contains maybeActive = true
  · -- an active address is reordered in the active queue
    rw [if_pos hact] at h
    obtain ⟨active, -, h⟩ := Except.bind_eq_ok.1 h
    exact ⟨_, _, (Except.ok.inj h).symm⟩
  rw [if_neg hact] at h
  by_cases hroom : self.activeLimit > self.activeValidators.getSize
  · -- the active queue has room for the address
    rw [if_pos hroom] at h
    exact ⟨_, _, (Except.ok.inj h).symm⟩
  rw [if_neg hroom] at h
  obtain ⟨top, -, h⟩ := Except.bind_eq_ok.1 h
  dsimp only at h
  by_cases hpower : top.2 < newPower
  · -- the least active validator and the address change places; a waiting address leaves the
    -- waiting queue first
    rw [if_pos hpower] at h
    obtain ⟨active, -, h⟩ := Except.bind_eq_ok.1 h
    split_ifs at h with hwait
    · obtain ⟨waiting, -, h⟩ := Except.bind_eq_ok.1 h
      exact ⟨_, _, (Except.ok.inj h).symm⟩
    · exact ⟨_, _, (Except.ok.inj h).symm⟩
  rw [if_neg hpower] at h
  by_cases hwait : self.waitingValidators.contains maybeActive = true
  · -- a waiting address is reordered in the waiting queue
    rw [if_pos hwait] at h
    obtain ⟨waiting, -, h⟩ := Except.bind_eq_ok.1 h
    exact ⟨_, _, (Except.ok.inj h).symm⟩
  · -- a new address waits
    rw [if_neg hwait] at h
    exact ⟨_, _, (Except.ok.inj h).symm⟩

/-- A reduction only moves addresses between the queues: the rest of the set stays. -/
theorem reduceReshuffle_queues {validator : Address} {newPower : Nat}
    (h : self.reduceReshuffle validator newPower = .ok self') :
    ∃ active waiting, self' = { self with activeValidators := active, waitingValidators := waiting } := by
  unfold ValidatorSet.reduceReshuffle at h
  by_cases hwait : self.waitingValidators.contains validator = true
  · -- a waiting validator leaves the waiting queue, or is reordered in it
    rw [if_pos hwait] at h
    split_ifs at h with hzero
    · obtain ⟨waiting, -, h⟩ := Except.bind_eq_ok.1 h
      exact ⟨_, _, (Except.ok.inj h).symm⟩
    · obtain ⟨waiting, -, h⟩ := Except.bind_eq_ok.1 h
      exact ⟨_, _, (Except.ok.inj h).symm⟩
  rw [if_neg hwait] at h
  by_cases hact : (!self.activeValidators.contains validator) = true
  · -- neither waiting nor active: refused
    rw [if_pos hact] at h
    cases h
  rw [if_neg hact] at h
  by_cases hzero : newPower = 0
  · -- an active validator leaves, and the greatest waiting one, if any, takes its place
    rw [if_pos hzero] at h
    obtain ⟨active, -, h⟩ := Except.bind_eq_ok.1 h
    by_cases hsize : self.waitingValidators.getSize ≠ 0
    · rw [if_pos hsize] at h
      obtain ⟨top, -, h⟩ := Except.bind_eq_ok.1 h
      obtain ⟨waiting, -, h⟩ := Except.bind_eq_ok.1 h
      exact ⟨_, _, (Except.ok.inj h).symm⟩
    · rw [if_neg hsize] at h
      exact ⟨_, _, (Except.ok.inj h).symm⟩
  · -- an active validator is reordered, then changes places with the greatest waiting one if
    -- that one has more power
    rw [if_neg hzero] at h
    obtain ⟨active, -, h⟩ := Except.bind_eq_ok.1 h
    by_cases hsize : self.waitingValidators.getSize = 0
    · rw [if_pos hsize] at h
      exact ⟨_, _, (Except.ok.inj h).symm⟩
    rw [if_neg hsize] at h
    obtain ⟨least, -, h⟩ := Except.bind_eq_ok.1 h
    obtain ⟨greatest, -, h⟩ := Except.bind_eq_ok.1 h
    dsimp only at h
    by_cases hlt : least.2 < greatest.2
    · rw [if_pos hlt] at h
      obtain ⟨active', -, h⟩ := Except.bind_eq_ok.1 h
      obtain ⟨waiting, -, h⟩ := Except.bind_eq_ok.1 h
      exact ⟨_, _, (Except.ok.inj h).symm⟩
    · rw [if_neg hlt] at h
      exact ⟨_, _, (Except.ok.inj h).symm⟩

end Reshuffle

/-! ## Confirmations -/

section Confirm

variable {self self' : ValidatorSet Address}

/-- Confirming a federated power keeps the set well formed. -/
theorem Wf.confirmFederatedPower (hw : self.Wf) {validator : Address} {power : Nat}
    (h : self.confirmFederatedPower validator power = .ok self') : self'.Wf := by
  unfold ValidatorSet.confirmFederatedPower at h
  dsimp only at h
  split_ifs at h with hsame hlt
  · rw [Except.ok.injEq] at h
    exact hw.congr (h ▸ rfl) (h ▸ rfl) (h ▸ rfl)
  · exact Wf.increaseReshuffle (by exact hw.congr rfl rfl rfl) h
  · exact Wf.reduceReshuffle (by exact hw.congr rfl rfl rfl) h

/-- Confirming a deposit keeps the set well formed. -/
theorem Wf.confirmDeposit (hw : self.Wf) {validator : Address} {amount : Nat}
    (h : self.confirmDeposit validator amount = .ok self') : self'.Wf :=
  Wf.increaseReshuffle (by exact hw.congr rfl rfl rfl) h

/-- Confirming a withdrawal keeps the set well formed. -/
theorem Wf.confirmWithdraw (hw : self.Wf) {validator : Address} {amount : Nat}
    (h : self.confirmWithdraw validator amount = .ok self') : self'.Wf := by
  unfold ValidatorSet.confirmWithdraw at h
  dsimp only at h
  by_cases hlt : (self.validators validator).confirmedCollateral < amount
  · rw [if_pos hlt] at h
    cases h
  rw [if_neg hlt, Except.bind_eq_ok] at h
  obtain ⟨s₁, h₁, h₂⟩ := h
  have hw₁ := Wf.reduceReshuffle (by exact hw.congr rfl rfl rfl) h₁
  by_cases hlt' : s₁.totalConfirmedCollateral < amount
  · rw [if_pos hlt'] at h₂
    cases h₂
  · rw [if_neg hlt', Except.ok.injEq] at h₂
    exact hw₁.congr (h₂ ▸ rfl) (h₂ ▸ rfl) (h₂ ▸ rfl)

omit [Inhabited Address] in
/-- Writing a validator's metadata keeps the set well formed. -/
theorem Wf.setMetadata (hw : self.Wf) (validator : Address) (metadata : List UInt8) :
    (self.setMetadata validator metadata).Wf :=
  hw.congr rfl rfl rfl

omit [Inhabited Address] in
/-- Recording a deposit keeps the set well formed. -/
theorem Wf.recordDeposit (hw : self.Wf) (validator : Address) (amount : Nat) :
    (self.recordDeposit validator amount).Wf :=
  hw.congr rfl rfl rfl

omit [Inhabited Address] in
/-- Recording a withdrawal keeps the set well formed. -/
theorem Wf.recordWithdraw (hw : self.Wf) {validator : Address} {amount : Nat}
    (h : self.recordWithdraw validator amount = .ok self') : self'.Wf := by
  unfold ValidatorSet.recordWithdraw at h
  dsimp only at h
  split_ifs at h
  rw [Except.ok.injEq] at h
  exact hw.congr (h ▸ rfl) (h ▸ rfl) (h ▸ rfl)

/-- A confirmed deposit adds the amount to the validator's confirmed collateral and to the total,
and changes nothing else but the queues. -/
theorem confirmDeposit_info {validator : Address} {amount : Nat}
    (h : self.confirmDeposit validator amount = .ok self') :
    self'.permissionMode = self.permissionMode ∧ self'.activeLimit = self.activeLimit ∧
      self'.totalConfirmedCollateral = self.totalConfirmedCollateral + amount ∧
      self'.validators = Function.update self.validators validator
        { self.validators validator with
          confirmedCollateral := (self.validators validator).confirmedCollateral + amount } := by
  obtain ⟨active, waiting, rfl⟩ := increaseReshuffle_queues h
  exact ⟨rfl, rfl, rfl, rfl⟩

/-- A confirmed deposit raises the validator's power by the amount, in collateral mode only. -/
theorem getPower_confirmDeposit {validator : Address} {amount : Nat}
    (h : self.confirmDeposit validator amount = .ok self') (a : Address) :
    self'.getPower a =
      self.getPower a + if self.permissionMode ≠ .Federated ∧ a = validator then amount else 0 := by
  obtain ⟨hmode, -, -, hvalidators⟩ := confirmDeposit_info h
  unfold getPower
  rw [hmode, hvalidators]
  by_cases hf : self.permissionMode = .Federated <;> by_cases ha : a = validator
  all_goals simp [hf, ha]

/-- A confirmed deposit keeps an active address active, and makes one active while the active
queue has room. -/
theorem contains_confirmDeposit (hw : self.Wf) {validator : Address} {amount : Nat}
    (h : self.confirmDeposit validator amount = .ok self')
    (hroom : self.activeValidators.contains validator = true ∨
      self.activeValidators.getSize < self.activeLimit) :
    self'.activeValidators.contains validator = true :=
  contains_increaseReshuffle (by exact hw.congr rfl rfl rfl) h hroom

/-- A confirmed federated power is written to the validator, and the rest of the set but the
queues stays. -/
theorem confirmFederatedPower_info {validator : Address} {power : Nat}
    (h : self.confirmFederatedPower validator power = .ok self') :
    self'.permissionMode = self.permissionMode ∧ self'.activeLimit = self.activeLimit ∧
      self'.totalConfirmedCollateral = self.totalConfirmedCollateral ∧
      self'.validators = Function.update self.validators validator
        { self.validators validator with federatedPower := power } := by
  unfold ValidatorSet.confirmFederatedPower at h
  dsimp only at h
  split_ifs at h
  · rw [Except.ok.injEq] at h
    subst h
    exact ⟨rfl, rfl, rfl, rfl⟩
  · obtain ⟨active, waiting, rfl⟩ := increaseReshuffle_queues h
    exact ⟨rfl, rfl, rfl, rfl⟩
  · obtain ⟨active, waiting, rfl⟩ := reduceReshuffle_queues h
    exact ⟨rfl, rfl, rfl, rfl⟩

end Confirm

end ValidatorSet

end Delorean.Staking
