import Mathlib

/-!
# The staking release queue

A validator's unstaked collateral is not paid at once: confirming the withdrawal adds a release
that matures `lockingDuration` blocks later (`LibStakingReleaseQueue.addNewRelease`), and `claim`
pays every matured release (`LibAddressStakingReleases.compact`). Each validator's releases are
a window `[startIdx, startIdx + length)` over a `uint16`-indexed mapping; `push` writes after the
window and `compact` moves its start past the releases it pays.

What the queue is for is `claimSpec`: the pending releases are a list in order of maturity, and a
claim pays the matured prefix and keeps the rest. `compact` agrees with it while the window starts
at zero (`compact_of_startIdx_zero`). But its loop runs `i` from `startIdx` up to `length`, the
number of pending releases, not to the window's end `startIdx + length`; once a partial claim has
moved the start, later claims see only part of the window, and a window whose start is at least
its length pays nothing at all, whatever the block (`compact_of_length_le_startIdx`).

The mapping is a function, zero at an unwritten index; `uint16` overflow in `push` is the checked
arithmetic's revert. Amounts and heights are natural numbers below `2 ^ 256`, which is not checked.
-/

namespace Delorean.Staking

/-- The reasons the staking library and the subnet actor's facets revert with. -/
inductive Revert (Address : Type) where
  | NoCollateralToWithdraw
  | WithdrawExceedingCollateral
  | AddressShouldBeValidator
  | PQEmpty
  | PQDoesNotContainAddress
  | CannotConfirmFutureChanges
  | InvalidConfigurationNumber
  | NotValidator (validator : Address)
  | NotEnoughFunds
  | SubnetAlreadyBootstrapped
  | NotEnoughBalance
  | CollateralIsZero
  | MethodNotAllowed (reason : String)
  | NotOwnerOfPublicKey
  | InvalidPublicKeyLength
  | CannotReleaseZero
  | NotEnoughCollateral
  | NotRegisteredSubnet
  | NotEnoughFundsToRelease
  | NotEnoughGenesisValidators
  | DuplicatedGenesisValidator
  | InvalidFederationPayload
  | NotOwner
  | InvalidCollateral
  | AlreadyRegisteredSubnet
  /-- `Address.sendValue` found less than the amount in the sender's balance. -/
  | InsufficientBalance
  /-- A Solidity panic; `0x11` is an arithmetic overflow or underflow. -/
  | Panic (code : Nat)
  deriving DecidableEq, Repr

/-- `StakingRelease`. -/
structure StakingRelease where
  releaseAt : Nat
  amount : Nat
  deriving DecidableEq, Repr

/-- The release an unwritten or deleted index reads. -/
def zeroRelease : StakingRelease := ⟨0, 0⟩

/-- `AddressStakingReleases`: `length` releases from `startIdx` on in a `uint16`-indexed mapping. -/
structure AddressStakingReleases where
  length : Nat
  startIdx : Nat
  releases : Nat → StakingRelease

namespace AddressStakingReleases

/-- The releases of a validator that has none. -/
def empty : AddressStakingReleases := ⟨0, 0, fun _ => zeroRelease⟩

/-- The pending releases: the window `[startIdx, startIdx + length)`, in order. -/
def window (self : AddressStakingReleases) : List StakingRelease :=
  (List.range' self.startIdx self.length).map self.releases

/-- `push`: write the release after the window. The `uint16` sums revert on overflow. -/
def push {Address : Type} (self : AddressStakingReleases) (release : StakingRelease) :
    Except (Revert Address) AddressStakingReleases :=
  let length := self.length
  if 2 ^ 16 ≤ self.startIdx + length then .error (.Panic 0x11)
  else
    let nextIdx := self.startIdx + length
    if 2 ^ 16 ≤ length + 1 then .error (.Panic 0x11)
    else .ok { self with releases := Function.update self.releases nextIdx release, length := length + 1 }

/-- The loop of `compact` from index `i`, with the new length and the amount so far: it stops at
`length`, the number of pending releases, or at the first release still locked at the block. -/
def compactLoop (length blockNumber : Nat) :
    (Nat → StakingRelease) → (i newLength amount : Nat) → Nat × Nat × Nat × (Nat → StakingRelease)
  | releases, i, newLength, amount =>
    if i < length then
      -- Releases are ordered by maturity: the first locked one ends the loop.
      if (releases i).releaseAt > blockNumber then (i, newLength, amount, releases)
      else
        compactLoop length blockNumber (Function.update releases i zeroRelease) (i + 1)
          (newLength - 1) (amount + (releases i).amount)
    else (i, newLength, amount, releases)
  termination_by _ i => length - i

/-- `compact` at block `blockNumber`: pay the matured releases, move the window's start past
them, and return the amount and the new length. -/
def compact {Address : Type} (self : AddressStakingReleases) (blockNumber : Nat) :
    Except (Revert Address) (Nat × Nat × AddressStakingReleases) :=
  let length := self.length
  if self.length = 0 then .error .NoCollateralToWithdraw
  else
    let (i, newLength, amount, releases) :=
      compactLoop length blockNumber self.releases self.startIdx length 0
    .ok (amount, newLength, { self with startIdx := i, length := newLength, releases })

/-! ## What `compact` pays -/

/-- The releases the loop pays from index `i`: the matured prefix of those at
`i, …, length - 1`. -/
def maturedFrom (length blockNumber : Nat) (releases : Nat → StakingRelease) (i : Nat) :
    List StakingRelease :=
  ((List.range' i (length - i)).map releases).takeWhile fun r => r.releaseAt ≤ blockNumber

theorem maturedFrom_update (length blockNumber : Nat) (releases : Nat → StakingRelease) (i : Nat)
    (r : StakingRelease) :
    maturedFrom length blockNumber (Function.update releases i r) (i + 1) =
      maturedFrom length blockNumber releases (i + 1) := by
  unfold maturedFrom
  congr 1
  refine List.map_congr_left fun t ht => ?_
  rw [List.mem_range'_1] at ht
  exact Function.update_of_ne (by omega) _ _

/-- The loop pays the matured prefix from `i`, zeroes it, and stops after it. -/
theorem compactLoop_eq (length blockNumber : Nat) (releases : Nat → StakingRelease)
    (i newLength amount : Nat) :
    compactLoop length blockNumber releases i newLength amount =
      let paid := maturedFrom length blockNumber releases i
      (i + paid.length, newLength - paid.length, amount + (paid.map (·.amount)).sum,
        fun t => if i ≤ t ∧ t < i + paid.length then zeroRelease else releases t) := by
  -- Induction along the loop; each paid release is the head of the matured prefix.
  induction releases, i, newLength, amount using compactLoop.induct length blockNumber with
  | case1 releases i newLength amount hi hlocked =>
    have hpaid : maturedFrom length blockNumber releases i = [] := by
      rw [maturedFrom, show length - i = (length - (i + 1)) + 1 by omega, List.range'_succ,
        List.map_cons, List.takeWhile_cons_of_neg (by simpa using hlocked)]
    rw [compactLoop, if_pos hi, if_pos hlocked]
    simp only [hpaid, List.length_nil, Nat.add_zero, Nat.sub_zero, List.map_nil, List.sum_nil]
    refine Prod.ext rfl (Prod.ext rfl (Prod.ext rfl (funext fun t => ?_)))
    simp only [if_neg (show ¬(i ≤ t ∧ t < i) by omega)]
  | case2 releases i newLength amount hi hmatured ih =>
    have hpaid : maturedFrom length blockNumber releases i =
        releases i :: maturedFrom length blockNumber releases (i + 1) := by
      rw [maturedFrom, show length - i = (length - (i + 1)) + 1 by omega, List.range'_succ,
        List.map_cons, List.takeWhile_cons_of_pos (by simpa using hmatured)]
      rfl
    rw [compactLoop, if_pos hi, if_neg hmatured, ih, maturedFrom_update, hpaid]
    simp only [List.length_cons, List.map_cons, List.sum_cons, Prod.mk.injEq]
    refine ⟨by omega, by omega, by omega, funext fun t => ?_⟩
    by_cases ht : t = i
    · subst ht
      simp
    · simp only [Function.update_of_ne ht]
      congr 1
      exact propext ⟨fun h => ⟨by omega, by omega⟩, fun h => ⟨by omega, by omega⟩⟩
  | case3 releases i newLength amount hi =>
    have hpaid : maturedFrom length blockNumber releases i = [] := by
      rw [maturedFrom, show length - i = 0 by omega, List.range'_zero, List.map_nil,
        List.takeWhile_nil]
    rw [compactLoop, if_neg hi]
    simp only [hpaid, List.length_nil, Nat.add_zero, Nat.sub_zero, List.map_nil, List.sum_nil]
    refine Prod.ext rfl (Prod.ext rfl (Prod.ext rfl (funext fun t => ?_)))
    simp only [if_neg (show ¬(i ≤ t ∧ t < i) by omega)]

/-- `compact` pays the matured prefix of the releases from `startIdx` to `length`, which are the
first `length - startIdx` releases of the window. -/
theorem compact_eq {Address : Type} (self : AddressStakingReleases) (blockNumber : Nat)
    (hlen : self.length ≠ 0) :
    let paid := maturedFrom self.length blockNumber self.releases self.startIdx
    (self.compact blockNumber : Except (Revert Address) _) =
      .ok ((paid.map (·.amount)).sum, self.length - paid.length,
        { startIdx := self.startIdx + paid.length, length := self.length - paid.length,
          releases := fun t =>
            if self.startIdx ≤ t ∧ t < self.startIdx + paid.length then zeroRelease
            else self.releases t }) := by
  intro paid
  rw [compact, if_neg hlen, compactLoop_eq]
  simp [paid]

/-- A window whose start is at least its length pays nothing, at every block, and is left as
it is. -/
theorem compact_of_length_le_startIdx {Address : Type} (self : AddressStakingReleases)
    (blockNumber : Nat) (hlen : self.length ≠ 0) (hstart : self.length ≤ self.startIdx) :
    (self.compact blockNumber : Except (Revert Address) _) = .ok (0, self.length, self) := by
  have hpaid : maturedFrom self.length blockNumber self.releases self.startIdx = [] := by
    rw [maturedFrom, show self.length - self.startIdx = 0 by omega, List.range'_zero,
      List.map_nil, List.takeWhile_nil]
  rw [compact_eq self blockNumber hlen]
  simp only [hpaid, List.map_nil, List.sum_nil, List.length_nil, Nat.add_zero, Nat.sub_zero]
  congr
  funext t
  simp only [if_neg (show ¬(self.startIdx ≤ t ∧ t < self.startIdx) by omega)]

/-! ## The queue it should be -/

/-- What a claim is for: the pending releases in order of maturity, of which a claim at the
block pays the matured prefix and keeps the rest. -/
def claimSpec (pending : List StakingRelease) (blockNumber : Nat) : Nat × List StakingRelease :=
  let paid := pending.takeWhile fun r => r.releaseAt ≤ blockNumber
  ((paid.map (·.amount)).sum, pending.drop paid.length)

/-- While the window starts at zero, `compact` is the claim it should be: it pays the matured
prefix of the pending releases and keeps the rest. -/
theorem compact_of_startIdx_zero {Address : Type} (self : AddressStakingReleases)
    (blockNumber : Nat) (hlen : self.length ≠ 0) (hstart : self.startIdx = 0) :
    ∃ r, (self.compact blockNumber : Except (Revert Address) _) =
        .ok ((claimSpec self.window blockNumber).1, r.length, r) ∧
      r.window = (claimSpec self.window blockNumber).2 := by
  obtain ⟨length, startIdx, releases⟩ := self
  dsimp only at hlen hstart
  subst hstart
  have hpaid : maturedFrom length blockNumber releases 0 =
      (window ⟨length, 0, releases⟩).takeWhile fun r => r.releaseAt ≤ blockNumber := by
    rw [maturedFrom, Nat.sub_zero]
    rfl
  have h : (compact ⟨length, 0, releases⟩ blockNumber : Except (Revert Address) _) = _ :=
    compact_eq ⟨length, 0, releases⟩ blockNumber hlen
  dsimp only at h
  rw [hpaid] at h
  dsimp only [claimSpec]
  refine ⟨⟨_, _, _⟩, h, ?_⟩
  -- The kept releases lie after the zeroed prefix.
  simp only [window]
  rw [← List.map_drop, List.drop_range', Nat.mul_one]
  refine List.map_congr_left fun t ht => ?_
  rw [List.mem_range'_1] at ht
  exact if_neg (by omega)

/-- Two releases from the start of the window, maturing at blocks 3 and 10: a claim at block 5
pays the first and keeps the second, as the claim should. -/
theorem compact_of_startIdx_zero_at_five :
    let self : AddressStakingReleases :=
      ⟨2, 0, fun t => if t = 0 then ⟨3, 7⟩ else if t = 1 then ⟨10, 4⟩ else zeroRelease⟩
    self.length ≠ 0 ∧ self.startIdx = 0 ∧
      ∃ r, (self.compact 5 : Except (Revert Nat) _) =
          .ok ((claimSpec self.window 5).1, r.length, r) ∧
        r.window = (claimSpec self.window 5).2 :=
  ⟨by decide, rfl, compact_of_startIdx_zero _ 5 (by decide) rfl⟩

end AddressStakingReleases

/-- `StakingReleaseQueue`. -/
structure StakingReleaseQueue (Address : Type) where
  lockingDuration : Nat
  releases : Address → AddressStakingReleases

namespace StakingReleaseQueue

variable {Address : Type} [DecidableEq Address]

/-- `addNewRelease` at block `blockNumber`: the release matures `lockingDuration` blocks later. -/
def addNewRelease (self : StakingReleaseQueue Address) (validator : Address) (amount : Nat)
    (blockNumber : Nat) : Except (Revert Address) (StakingReleaseQueue Address) := do
  let releaseAt := blockNumber + self.lockingDuration
  let r ← (self.releases validator).push ⟨releaseAt, amount⟩
  pure { self with releases := Function.update self.releases validator r }

/-- `claim` at block `blockNumber`: compact the validator's releases and pay the amount. When
none is left, `delete` resets the length and the start; a mapping inside a struct is not
cleared by `delete`, so the releases stay as `compact` left them. -/
def claim (self : StakingReleaseQueue Address) (validator : Address) (blockNumber : Nat) :
    Except (Revert Address) (StakingReleaseQueue Address × Nat) := do
  let (amount, newLength, r) ← (self.releases validator).compact blockNumber
  let r := if newLength = 0 then { r with length := 0, startIdx := 0 } else r
  pure ({ self with releases := Function.update self.releases validator r }, amount)

/-- A claim pays what `compact` pays. -/
theorem claim_eq_ok_of_compact {self : StakingReleaseQueue Address} {validator : Address}
    {blockNumber amount newLength : Nat} {r : AddressStakingReleases}
    (h : ((self.releases validator).compact blockNumber : Except (Revert Address) _) =
      .ok (amount, newLength, r)) :
    let r := if newLength = 0 then { r with length := 0, startIdx := 0 } else r
    self.claim validator blockNumber =
      .ok ({ self with releases := Function.update self.releases validator r }, amount) := by
  rw [claim, h]
  rfl

/-- A validator whose window starts at or after its length is paid nothing by any claim, and
its releases stay as they are. -/
theorem claim_of_length_le_startIdx {self : StakingReleaseQueue Address} {validator : Address}
    (hlen : (self.releases validator).length ≠ 0)
    (hstart : (self.releases validator).length ≤ (self.releases validator).startIdx)
    (blockNumber : Nat) :
    self.claim validator blockNumber = .ok (self, 0) := by
  rw [claim_eq_ok_of_compact
    (AddressStakingReleases.compact_of_length_le_startIdx _ blockNumber hlen hstart),
    if_neg hlen, Function.update_eq_self]

end StakingReleaseQueue

/-- With a locking duration of ten blocks, a validator unstakes 5 at block 0 and 7 at block 5.
A claim at block 12 pays the first release and moves the window's start to 1, with one release
left. From then on the window's start is not below its length: a claim at block 100, when the
second release has long matured, pays nothing, and so does every claim at every later block. -/
theorem claim_misses_matured_release :
    let q₀ : StakingReleaseQueue Nat := ⟨10, fun _ => .empty⟩
    let run : Except (Revert Nat) (StakingReleaseQueue Nat × Nat × Nat) := do
      let q₁ ← q₀.addNewRelease 1 5 0
      let q₂ ← q₁.addNewRelease 1 7 5
      let (q₃, paid₁) ← q₂.claim 1 12
      let (q₄, paid₂) ← q₃.claim 1 100
      pure (q₄, paid₁, paid₂)
    (run.map fun r => (r.2, (r.1.releases 1).window, (r.1.releases 1).length,
        (r.1.releases 1).startIdx)) = .ok ((5, 0), [⟨15, 7⟩], 1, 1) ∧
      ∀ q paid₁ paid₂, run = .ok (q, paid₁, paid₂) → ∀ blockNumber, q.claim 1 blockNumber = .ok (q, 0) := by
  intro q₀ run
  have hrun : (run.map fun r => (r.2, (r.1.releases 1).window, (r.1.releases 1).length,
      (r.1.releases 1).startIdx)) = .ok ((5, 0), [⟨15, 7⟩], 1, 1) := by
    decide +kernel
  refine ⟨hrun, fun q paid₁ paid₂ h blockNumber => ?_⟩
  rw [h] at hrun
  simp only [Except.map, Except.ok.injEq, Prod.mk.injEq] at hrun
  exact StakingReleaseQueue.claim_of_length_le_startIdx (by omega) (by omega) blockNumber

end Delorean.Staking
