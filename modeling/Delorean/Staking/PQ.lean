import Delorean.Staking.Releases
import Delorean.Lib.Except

/-!
# The validators' priority queues

`LibPQ` is an indexed binary heap over addresses: positions `1 … size` hold addresses
(`posToAddress`), and `addressToPos` gives each queued address its position, zero for one not
queued. `LibMinPQ` keeps the least power at position one, `LibMaxPQ` the greatest; the two are
the same code with the comparison reversed (`firstValueLarger`, `firstValueSmaller`), so their
loops are one definition `PQ.swim`, `PQ.sink` with the comparison as a parameter, and each queue's
operations are those applied to its own comparison. Only `increaseReheapify` and
`decreaseReheapify` differ beyond it: a min queue sinks an increased power and swims a decreased
one, a max queue the other way round.

A queue reads powers through `validators.getPower`; here the power of an address is the function
`getPower` the caller passes. The `uint16` positions and sizes are natural numbers in the
operations. Where the source's checked arithmetic leaves `uint16` first, at `sink`'s doubling of
the position, the section on it models the check: `sinkChecked` reverts from position `2 ^ 15`
on and is `sink` below that (`sinkChecked_eq_ok`), so the operations are exact for queues of
fewer than `2 ^ 15` addresses, and in a queue of `2 ^ 15` the last address cannot sink
(`minPQ_increaseReheapify_overflows`). `insert`'s `size + 1` reverts only on a full queue of
`2 ^ 16 - 1` addresses.

The queues keep their index (`PQ.Indexed`): positions and addresses are inverse on `1 … size`.
Every operation keeps it, and changes the set of queued addresses as its name says: `insert`
adds the address, `pop` removes the one at position one, `deleteReheapify` removes the given one,
and the reheapifies and the loops only move addresses (`PQ.SameMembers`).
-/

namespace Delorean.Staking

/-- `PQ`: the size and the two mappings. An unwritten position reads the zero address. -/
structure PQ (Address : Type) where
  size : Nat
  addressToPos : Address → Nat
  posToAddress : Nat → Address

namespace PQ

variable {Address : Type}

/-- The queue with no address. -/
def empty [Inhabited Address] : PQ Address := ⟨0, fun _ => 0, fun _ => default⟩

/-- `contains`. -/
def contains (self : PQ Address) (validator : Address) : Bool := self.addressToPos validator != 0

/-- `getPosOrRevert`. -/
def getPosOrRevert (self : PQ Address) (validator : Address) : Except (Revert Address) Nat :=
  let pos := self.addressToPos validator
  if pos = 0 then .error .PQDoesNotContainAddress else .ok pos

/-- `del`: forget the address at a position. -/
def del [DecidableEq Address] [Inhabited Address] (self : PQ Address) (pos : Nat) : PQ Address :=
  let addr := self.posToAddress pos
  { self with
    posToAddress := Function.update self.posToAddress pos default
    addressToPos := Function.update self.addressToPos addr 0 }

/-- `exchange`: swap the addresses at two positions. The source's `assert`s that both are at most
the size hold at every call. -/
def exchange [DecidableEq Address] (self : PQ Address) (pos1 pos2 : Nat) : PQ Address :=
  let addr1 := self.posToAddress pos1
  let addr2 := self.posToAddress pos2
  let addressToPos := Function.update (Function.update self.addressToPos addr1 pos2) addr2 pos1
  let posToAddress := Function.update (Function.update self.posToAddress pos2 addr1) pos1 addr2
  { self with addressToPos, posToAddress }

section Loops

variable [DecidableEq Address] (firstValueOut : Nat → Nat → Bool) (getPower : Address → Nat)

/-- `swim` of a queue whose order puts `b` above `a` when `firstValueOut a b`: move the address at
`pos`, of power `value`, up while its parent's power is out of order above it. -/
def swim (self : PQ Address) (pos value : Nat) : PQ Address :=
  if 1 < pos then
    -- `parentPos = pos >> 1`, of power `parentPower`.
    if !firstValueOut (getPower (self.posToAddress (pos / 2))) value then self
    else swim (self.exchange (pos / 2) pos) (pos / 2) value
  else self
  termination_by pos
  decreasing_by omega

/-- The child of `sink` to compare with: the first of the two unless the second is above it. -/
def childPosition (self : PQ Address) (pos1 pos2 : Nat) : Nat × Nat :=
  let value1 := getPower (self.posToAddress pos1)
  let value2 := getPower (self.posToAddress pos2)
  if !firstValueOut value1 value2 then (pos1, value1) else (pos2, value2)

omit [DecidableEq Address] in
theorem childPosition_fst (self : PQ Address) (pos1 pos2 : Nat) :
    (childPosition firstValueOut getPower self pos1 pos2).1 = pos1 ∨
      (childPosition firstValueOut getPower self pos1 pos2).1 = pos2 := by
  unfold childPosition
  dsimp only
  split <;> simp

set_option linter.unusedVariables false in
/-- `sink`: move the address at `pos`, of power `value`, down while the child it is compared with
should be above it. Positions start at one; at position zero, which no caller passes, the loop
is taken to stop. -/
def sink (self : PQ Address) (pos value : Nat) : PQ Address :=
  -- `childPos = pos * 2`, within `size`.
  if hpos : 0 < pos ∧ pos * 2 ≤ self.size then
    match hchild : (if pos * 2 < self.size then childPosition firstValueOut getPower self (pos * 2) (pos * 2 + 1)
        else (pos * 2, getPower (self.posToAddress (pos * 2)))) with
    | (c, childPower) =>
      if !firstValueOut value childPower then self
      else sink (self.exchange c pos) c value
  else self
  termination_by self.size + 1 - pos
  decreasing_by
    -- The child compared with is one of the two children, within the queue.
    have hsize : (self.exchange c pos).size = self.size := rfl
    rw [hsize]
    split at hchild
    · rcases childPosition_fst firstValueOut getPower self (pos * 2) (pos * 2 + 1) with h | h <;>
        rw [hchild] at h <;> simp only at h <;> omega
    · simp only [Prod.mk.injEq] at hchild
      omega

end Loops

section Ops

variable [DecidableEq Address] [Inhabited Address] (firstValueOut : Nat → Nat → Bool) (getPower : Address → Nat)

/-- `insert`: put the address at a new last position and swim it up. The caller makes sure it is
not queued yet. -/
def insert (self : PQ Address) (validator : Address) : PQ Address :=
  let size := self.size + 1
  let self := { self with
    addressToPos := Function.update self.addressToPos validator size
    posToAddress := Function.update self.posToAddress size validator
    size := size }
  swim firstValueOut getPower self size (getPower validator)

/-- `pop`: move the last address to position one, forget the first, and sink the new first. -/
def pop (self : PQ Address) : Except (Revert Address) (PQ Address) :=
  if self.size = 0 then .error .PQEmpty
  else
    let size := self.size
    let self := self.exchange 1 size
    let self := { self with size := size - 1 }.del size
    .ok (sink firstValueOut getPower self 1 (getPower (self.posToAddress 1)))

/-- `deleteReheapify`: move the last address to the deleted one's position, forget the deleted
one, and swim, then sink, the moved address. -/
def deleteReheapify (self : PQ Address) (validator : Address) : Except (Revert Address) (PQ Address) := do
  let pos ← self.getPosOrRevert validator
  let size := self.size
  let self := self.exchange pos size
  let self := { self with size := size - 1 }.del size
  if size = pos then return self
  let self := swim firstValueOut getPower self pos (getPower (self.posToAddress pos))
  return sink firstValueOut getPower self pos (getPower (self.posToAddress pos))

/-- The address at position one and its power: `min` of a min queue, `max` of a max queue. -/
def top (self : PQ Address) : Except (Revert Address) (Address × Nat) :=
  if self.size = 0 then .error .PQEmpty
  else
    let addr := self.posToAddress 1
    .ok (addr, getPower addr)

end Ops

/-! ## The index -/

/-- The index of a queue: the positions `1 … size` and the queued addresses are inverse. -/
structure Indexed (q : PQ Address) : Prop where
  pos_addr : ∀ p, 1 ≤ p → p ≤ q.size → q.addressToPos (q.posToAddress p) = p
  addr_pos : ∀ a, q.addressToPos a ≠ 0 →
    q.addressToPos a ≤ q.size ∧ q.posToAddress (q.addressToPos a) = a

theorem indexed_empty [Inhabited Address] : (empty : PQ Address).Indexed :=
  ⟨fun p hp hle => by simp [empty] at hle; omega, fun a ha => by simp [empty] at ha⟩

/-- Two queues with the same size and the same queued addresses. -/
def SameMembers (q q' : PQ Address) : Prop := q'.size = q.size ∧ ∀ a, q'.contains a = q.contains a

theorem SameMembers.refl (q : PQ Address) : SameMembers q q := ⟨rfl, fun _ => rfl⟩

theorem SameMembers.trans {q₁ q₂ q₃ : PQ Address} (h₁ : SameMembers q₁ q₂) (h₂ : SameMembers q₂ q₃) :
    SameMembers q₁ q₃ := ⟨h₂.1.trans h₁.1, fun a => (h₂.2 a).trans (h₁.2 a)⟩

section Indexed

variable {q : PQ Address}

@[simp]
theorem contains_eq_true {a : Address} : q.contains a = true ↔ q.addressToPos a ≠ 0 := by
  simp [contains]

theorem Indexed.posToAddress_inj (hq : q.Indexed) {i j : Nat} (hi : 1 ≤ i) (hi' : i ≤ q.size)
    (hj : 1 ≤ j) (hj' : j ≤ q.size) (h : q.posToAddress i = q.posToAddress j) : i = j := by
  rw [← hq.pos_addr i hi hi', ← hq.pos_addr j hj hj', h]

/-- The address at a position of the queue is queued. -/
theorem Indexed.contains_posToAddress (hq : q.Indexed) {p : Nat} (hp : 1 ≤ p) (hp' : p ≤ q.size) :
    q.contains (q.posToAddress p) = true := by
  rw [contains_eq_true, hq.pos_addr p hp hp']
  omega

/-- A queue that holds an address is not empty. -/
theorem Indexed.size_pos_of_contains (hq : q.Indexed) {a : Address} (ha : q.contains a = true) :
    0 < q.size := by
  have h := hq.addr_pos a (contains_eq_true.1 ha)
  have := contains_eq_true.1 ha
  omega

variable [DecidableEq Address]

theorem exchange_posToAddress (q : PQ Address) (i j p : Nat) :
    (q.exchange i j).posToAddress p = q.posToAddress (Equiv.swap i j p) := by
  simp only [exchange, Function.update_apply, Equiv.swap_apply_def]
  split_ifs <;> simp_all

theorem exchange_addressToPos (q : PQ Address) (i j : Nat) (a : Address) :
    (q.exchange i j).addressToPos a =
      if a = q.posToAddress j then i else if a = q.posToAddress i then j else q.addressToPos a := by
  simp only [exchange, Function.update_apply]

/-- Swapping two positions of the queue keeps its index and its addresses. -/
theorem Indexed.exchange (hq : q.Indexed) (i j : Nat) (hi : 1 ≤ i) (hi' : i ≤ q.size) (hj : 1 ≤ j)
    (hj' : j ≤ q.size) : (q.exchange i j).Indexed ∧ SameMembers q (q.exchange i j) := by
  have hinj := @hq.posToAddress_inj
  have hatp_i := hq.pos_addr i hi hi'
  have hatp_j := hq.pos_addr j hj hj'
  refine ⟨⟨fun p hp hp' => ?_, fun a ha => ?_⟩, rfl, fun a => ?_⟩
  · change p ≤ q.size at hp'
    rw [exchange_posToAddress, exchange_addressToPos, Equiv.swap_apply_def]
    by_cases hpi : p = i
    · simp [hpi]
    by_cases hpj : p = j
    · -- The address from `i` now sits at `j`; it is not the one from `j`.
      have hne : q.posToAddress i ≠ q.posToAddress j :=
        fun h => hpi (hpj.trans (hinj hi hi' hj hj' h).symm)
      have hji : j ≠ i := hpj ▸ hpi
      simp [hpj, hne, hji]
    · have hne_j : q.posToAddress p ≠ q.posToAddress j := fun h => hpj (hinj hp hp' hj hj' h)
      have hne_i : q.posToAddress p ≠ q.posToAddress i := fun h => hpi (hinj hp hp' hi hi' h)
      simp [hpi, hpj, hne_i, hne_j, hq.pos_addr p hp hp']
  · rw [exchange_addressToPos] at ha ⊢
    change _ ≤ q.size ∧ _
    by_cases ha_j : a = q.posToAddress j
    · simp [ha_j, exchange_posToAddress, hi']
    by_cases ha_i : a = q.posToAddress i
    · have hne : q.posToAddress i ≠ q.posToAddress j := ha_i ▸ ha_j
      simp [ha_i, hne, exchange_posToAddress, hj']
    · simp only [ha_i, ha_j, if_false] at ha ⊢
      obtain ⟨hle, hat⟩ := hq.addr_pos a ha
      refine ⟨hle, ?_⟩
      -- The address's own position is neither of the two.
      have hne_i : q.addressToPos a ≠ i := fun h => ha_i (by rw [← hat, h])
      have hne_j : q.addressToPos a ≠ j := fun h => ha_j (by rw [← hat, h])
      rw [exchange_posToAddress, Equiv.swap_apply_of_ne_of_ne hne_i hne_j, hat]
  · have key : (q.exchange i j).addressToPos a ≠ 0 ↔ q.addressToPos a ≠ 0 := by
      rw [exchange_addressToPos]
      by_cases ha_j : a = q.posToAddress j
      · rw [if_pos ha_j, ha_j, hatp_j]
        constructor <;> intro <;> omega
      by_cases ha_i : a = q.posToAddress i
      · rw [if_neg ha_j, if_pos ha_i, ha_i, hatp_i]
        constructor <;> intro <;> omega
      · rw [if_neg ha_j, if_neg ha_i]
    unfold PQ.contains
    rw [Bool.eq_iff_iff, bne_iff_ne, bne_iff_ne]
    exact key

section Loops

variable (firstValueOut : Nat → Nat → Bool) (getPower : Address → Nat)

/-- `swim` only moves addresses. -/
theorem Indexed.swim {q : PQ Address} (hq : q.Indexed) (pos value : Nat) (hpos : pos ≤ q.size) :
    (q.swim firstValueOut getPower pos value).Indexed ∧
      SameMembers q (q.swim firstValueOut getPower pos value) := by
  induction q, pos using PQ.swim.induct firstValueOut getPower value with
  | case1 q pos hlt hstop =>
    rw [PQ.swim, if_pos hlt, if_pos hstop]
    exact ⟨hq, .refl q⟩
  | case2 q pos hlt hmove ih =>
    -- One exchange with the parent, then the loop from the parent.
    obtain ⟨hq', hsame⟩ := hq.exchange (pos / 2) pos (by omega) (by omega) (by omega) hpos
    obtain ⟨hq'', hsame'⟩ := ih hq' (by rw [hsame.1]; omega)
    rw [PQ.swim, if_pos hlt, if_neg hmove]
    exact ⟨hq'', hsame.trans hsame'⟩
  | case3 q pos hle =>
    rw [PQ.swim, if_neg hle]
    exact ⟨hq, .refl q⟩

omit [DecidableEq Address] in
/-- The child `sink` compares with lies within the queue. -/
theorem sink_child_le {q : PQ Address} {pos c childPower : Nat} (hpos : 0 < pos ∧ pos * 2 ≤ q.size)
    (hchild : (if pos * 2 < q.size then childPosition firstValueOut getPower q (pos * 2) (pos * 2 + 1)
      else (pos * 2, getPower (q.posToAddress (pos * 2)))) = (c, childPower)) :
    pos < c ∧ c ≤ q.size := by
  split at hchild
  · rcases childPosition_fst firstValueOut getPower q (pos * 2) (pos * 2 + 1) with h | h <;>
      rw [hchild] at h <;> simp only at h <;> omega
  · simp only [Prod.mk.injEq] at hchild
    omega

/-- `sink` only moves addresses. -/
theorem Indexed.sink {q : PQ Address} (hq : q.Indexed) (pos value : Nat) :
    (q.sink firstValueOut getPower pos value).Indexed ∧
      SameMembers q (q.sink firstValueOut getPower pos value) := by
  induction q, pos using PQ.sink.induct firstValueOut getPower value with
  | case1 q pos hpos c childPower hchild hstop =>
    simp only [dite_eq_ite] at hchild
    rw [PQ.sink, dif_pos hpos]
    split
    · rename_i c' childPower' hchild'
      rw [hchild] at hchild'
      cases hchild'
      rw [if_pos hstop]
      exact ⟨hq, .refl q⟩
  | case2 q pos hpos c childPower hchild hmove ih =>
    -- One exchange with the child, then the loop from the child.
    simp only [dite_eq_ite] at hchild
    have hc := sink_child_le firstValueOut getPower hpos hchild
    obtain ⟨hq', hsame⟩ := hq.exchange c pos (by omega) hc.2 (by omega) (by omega)
    obtain ⟨hq'', hsame'⟩ := ih hq'
    rw [PQ.sink, dif_pos hpos]
    split
    · rename_i c' childPower' hchild'
      rw [hchild] at hchild'
      cases hchild'
      rw [if_neg hmove]
      exact ⟨hq'', hsame.trans hsame'⟩
  | case3 q pos hpos =>
    rw [PQ.sink, dif_neg hpos]
    exact ⟨hq, .refl q⟩

end Loops

end Indexed

/-! ## What each operation does to the queued addresses -/

section Ops

variable [DecidableEq Address] [Inhabited Address] (firstValueOut : Nat → Nat → Bool)
  (getPower : Address → Nat) {q : PQ Address}

/-- Forgetting the last position `n` removes its address. -/
theorem Indexed.delLast (hq : q.Indexed) {n : Nat} (hn : q.size = n) (hsize : 0 < n) :
    ({ q with size := n - 1 }.del n).Indexed ∧ ({ q with size := n - 1 }.del n).size = n - 1 ∧
      ∀ a, ({ q with size := n - 1 }.del n).contains a = (q.contains a && a != q.posToAddress n) := by
  subst hn
  have hinj := @hq.posToAddress_inj
  refine ⟨⟨fun p hp hp' => ?_, fun a ha => ?_⟩, rfl, fun a => ?_⟩
  · change p ≤ q.size - 1 at hp'
    have hne : q.posToAddress p ≠ q.posToAddress q.size :=
      fun h => absurd (hinj hp (by omega) (by omega) le_rfl h) (by omega)
    simp [PQ.del, Function.update_of_ne (show p ≠ q.size by omega), hne, hq.pos_addr p hp (by omega)]
  · by_cases hlast : a = q.posToAddress q.size
    · simp [PQ.del, hlast] at ha
    · simp only [PQ.del, Function.update_of_ne hlast] at ha ⊢
      obtain ⟨hle, hat⟩ := hq.addr_pos a ha
      have hne : q.addressToPos a ≠ q.size := fun h => hlast (by rw [← hat, h])
      refine ⟨by omega, ?_⟩
      rw [Function.update_of_ne hne, hat]
  · by_cases hlast : a = q.posToAddress q.size
    · simp [PQ.del, PQ.contains, hlast]
    · simp [PQ.del, PQ.contains, hlast]

omit [Inhabited Address] in
/-- `insert` adds a new address at one more position. -/
theorem Indexed.insert (hq : q.Indexed) {validator : Address} (hnew : q.contains validator = false) :
    (q.insert firstValueOut getPower validator).Indexed ∧
      (q.insert firstValueOut getPower validator).size = q.size + 1 ∧
      ∀ a, (q.insert firstValueOut getPower validator).contains a = (q.contains a || a == validator) := by
  have hv : q.addressToPos validator = 0 := by simpa [PQ.contains] using hnew
  -- The address written at the new last position, before it swims.
  let q₁ : PQ Address := { q with
    addressToPos := Function.update q.addressToPos validator (q.size + 1)
    posToAddress := Function.update q.posToAddress (q.size + 1) validator
    size := q.size + 1 }
  have hq₁ : q₁.Indexed := by
    refine ⟨fun p hp hp' => ?_, fun a ha => ?_⟩
    · change p ≤ q.size + 1 at hp'
      by_cases hlast : p = q.size + 1
      · simp [q₁, hlast]
      · have hp'' : p ≤ q.size := by omega
        have hne : q.posToAddress p ≠ validator := fun h => by
          have := hq.pos_addr p hp hp''
          rw [h, hv] at this
          omega
        simp [q₁, Function.update_of_ne hlast, hne, hq.pos_addr p hp hp'']
    · by_cases ha_v : a = validator
      · simp [q₁, ha_v]
      · simp only [q₁, Function.update_of_ne ha_v] at ha ⊢
        obtain ⟨hle, hat⟩ := hq.addr_pos a ha
        refine ⟨by omega, ?_⟩
        rw [Function.update_of_ne (show q.addressToPos a ≠ q.size + 1 by omega), hat]
  have hcontains : ∀ a, q₁.contains a = (q.contains a || a == validator) := by
    intro a
    by_cases ha_v : a = validator
    · simp [q₁, PQ.contains, ha_v]
    · simp [q₁, PQ.contains, ha_v]
  obtain ⟨hq', hsame⟩ := hq₁.swim firstValueOut getPower (q.size + 1)
    (getPower validator) le_rfl
  exact ⟨hq', hsame.1, fun a => (hsame.2 a).trans (hcontains a)⟩

/-- `pop` removes the address at position one. -/
theorem Indexed.pop (hq : q.Indexed) (hsize : 0 < q.size) :
    ∃ q', q.pop firstValueOut getPower = .ok q' ∧ q'.Indexed ∧ q'.size = q.size - 1 ∧
      ∀ a, q'.contains a = (q.contains a && a != q.posToAddress 1) := by
  obtain ⟨hq₁, hsame₁⟩ := hq.exchange 1 q.size le_rfl hsize hsize le_rfl
  have hlast : (q.exchange 1 q.size).posToAddress q.size = q.posToAddress 1 := by
    rw [exchange_posToAddress]
    simp
  obtain ⟨hq₂, hsize₂, hcontains₂⟩ := hq₁.delLast hsame₁.1 hsize
  obtain ⟨hq₃, hsame₃⟩ := hq₂.sink firstValueOut getPower 1
    (getPower (({ q.exchange 1 q.size with size := q.size - 1 }.del q.size).posToAddress 1))
  refine ⟨_, by rw [PQ.pop, if_neg (by omega)], hq₃, ?_, fun a => ?_⟩
  · rw [hsame₃.1, hsize₂]
  · rw [hsame₃.2 a, hcontains₂ a, hlast, hsame₁.2 a]

/-- `deleteReheapify` removes the given address. -/
theorem Indexed.deleteReheapify (hq : q.Indexed) {validator : Address}
    (hin : q.contains validator = true) :
    ∃ q', q.deleteReheapify firstValueOut getPower validator = .ok q' ∧ q'.Indexed ∧
      q'.size = q.size - 1 ∧ ∀ a, q'.contains a = (q.contains a && a != validator) := by
  have hpos : q.addressToPos validator ≠ 0 := by simpa [PQ.contains] using hin
  obtain ⟨hle, hat⟩ := hq.addr_pos validator hpos
  set pos := q.addressToPos validator with hpos_def
  obtain ⟨hq₁, hsame₁⟩ := hq.exchange pos q.size (by omega) hle (by omega) le_rfl
  have hlast : (q.exchange pos q.size).posToAddress q.size = validator := by
    rw [exchange_posToAddress]
    simp [hat]
  obtain ⟨hq₂, hsize₂, hcontains₂⟩ := hq₁.delLast hsame₁.1 (by omega)
  have hcontains : ∀ a, ({ q.exchange pos q.size with size := q.size - 1 }.del q.size).contains a =
      (q.contains a && a != validator) := by
    intro a
    rw [hcontains₂ a, hlast, hsame₁.2 a]
  have hget : q.getPosOrRevert validator = .ok pos := by simp [PQ.getPosOrRevert, hpos, pos]
  by_cases hlastpos : q.size = pos
  · refine ⟨_, ?_, hq₂, hsize₂, hcontains⟩
    rw [PQ.deleteReheapify, hget]
    exact if_pos hlastpos
  · -- The moved address swims, then sinks, at the deleted one's position.
    set q₂ := { q.exchange pos q.size with size := q.size - 1 }.del q.size
    obtain ⟨hq₃, hsame₃⟩ := hq₂.swim firstValueOut getPower pos
      (getPower (q₂.posToAddress pos)) (by rw [hsize₂]; omega)
    set q₃ := q₂.swim firstValueOut getPower pos (getPower (q₂.posToAddress pos))
    obtain ⟨hq₄, hsame₄⟩ := hq₃.sink firstValueOut getPower pos (getPower (q₃.posToAddress pos))
    refine ⟨_, ?_, hq₄, ?_, fun a => ?_⟩
    · rw [PQ.deleteReheapify, hget]
      exact if_neg hlastpos
    · rw [hsame₄.1, hsame₃.1, hsize₂]
    · rw [hsame₄.2 a, hsame₃.2 a, hcontains a]

omit [DecidableEq Address] [Inhabited Address] in
/-- A queued address's position. -/
theorem getPosOrRevert_of_contains {validator : Address} (hin : q.contains validator = true) :
    q.getPosOrRevert validator = .ok (q.addressToPos validator) := by
  have hpos : q.addressToPos validator ≠ 0 := by simpa [PQ.contains] using hin
  simp [PQ.getPosOrRevert, hpos]

omit [DecidableEq Address] [Inhabited Address] in
/-- `top` succeeds on a non-empty queue, with the address at position one and its power. -/
theorem top_eq_ok {r : Address × Nat} :
    q.top getPower = .ok r ↔ 0 < q.size ∧ r = (q.posToAddress 1, getPower (q.posToAddress 1)) := by
  unfold PQ.top
  split_ifs with hsize
  · simp [hsize]
  · simp only [Except.ok.injEq]
    constructor
    · rintro rfl
      exact ⟨by omega, rfl⟩
    · rintro ⟨-, rfl⟩
      rfl

end Ops

/-! ## The `uint16` arithmetic of `sink`

Positions and sizes are `uint16`, and Solidity's checked arithmetic reverts with `Panic 0x11`
where a result leaves them. `sink` doubles the position before each step (`childPos = pos * 2`),
which reverts from position `2 ^ 15` on, whether or not there is a child there. `sinkChecked` is
`sink` with that check: it is `sink` in a queue of fewer than `2 ^ 15` addresses
(`sinkChecked_eq_ok`), and reverts at any position from `2 ^ 15` on (`sinkChecked_of_le`). -/

section Checked

variable [DecidableEq Address] (firstValueOut : Nat → Nat → Bool) (getPower : Address → Nat)

set_option linter.unusedVariables false in
/-- `sink` with `childPos = pos * 2` computed on `uint16`. -/
def sinkChecked (self : PQ Address) (pos value : Nat) : Except (Revert Address) (PQ Address) :=
  if 2 ^ 16 ≤ pos * 2 then .error (.Panic 0x11)
  else if hpos : 0 < pos ∧ pos * 2 ≤ self.size then
    match hchild : (if pos * 2 < self.size then childPosition firstValueOut getPower self (pos * 2) (pos * 2 + 1)
        else (pos * 2, getPower (self.posToAddress (pos * 2)))) with
    | (c, childPower) =>
      if !firstValueOut value childPower then .ok self
      else sinkChecked (self.exchange c pos) c value
  else .ok self
  termination_by self.size + 1 - pos
  decreasing_by
    have hc := sink_child_le firstValueOut getPower hpos hchild
    have hsize : (self.exchange c pos).size = self.size := rfl
    rw [hsize]
    omega

/-- From position `2 ^ 15` on, `sink` reverts on its first doubling. -/
theorem sinkChecked_of_le {q : PQ Address} {pos : Nat} (value : Nat) (hpos : 2 ^ 15 ≤ pos) :
    q.sinkChecked firstValueOut getPower pos value = .error (.Panic 0x11) := by
  rw [sinkChecked, if_pos (by omega)]

/-- In a queue of fewer than `2 ^ 15` addresses, no doubling of a position leaves `uint16`, and
`sinkChecked` is `sink`. The induction follows the loop. -/
theorem sinkChecked_eq_ok {q : PQ Address} {pos : Nat} (value : Nat) (hsize : q.size < 2 ^ 15)
    (hpos : pos ≤ q.size) :
    q.sinkChecked firstValueOut getPower pos value = .ok (q.sink firstValueOut getPower pos value) := by
  induction q, pos using PQ.sink.induct firstValueOut getPower value with
  | case1 q pos hpos' c childPower hchild hstop =>
    simp only [dite_eq_ite] at hchild
    rw [sinkChecked, if_neg (by omega), dif_pos hpos', PQ.sink, dif_pos hpos']
    split
    · rename_i c' childPower' hchild'
      rw [hchild] at hchild'
      cases hchild'
      rw [if_pos hstop, if_pos hstop]
  | case2 q pos hpos' c childPower hchild hmove ih =>
    simp only [dite_eq_ite] at hchild
    have hc := sink_child_le firstValueOut getPower hpos' hchild
    rw [sinkChecked, if_neg (by omega), dif_pos hpos', PQ.sink, dif_pos hpos']
    split
    · rename_i c' childPower' hchild'
      rw [hchild] at hchild'
      cases hchild'
      rw [if_neg hmove, if_neg hmove]
      exact ih hsize hc.2
  | case3 q pos hpos' =>
    rw [sinkChecked, if_neg (by omega), dif_neg hpos', PQ.sink, dif_neg hpos']

end Checked

end PQ

/-- `MinPQ`. -/
structure MinPQ (Address : Type) where
  inner : PQ Address

/-- `MaxPQ`. -/
structure MaxPQ (Address : Type) where
  inner : PQ Address

/-- `LibMinPQ.firstValueLarger`. -/
def firstValueLarger (v1 v2 : Nat) : Bool := v1 > v2

/-- `LibMaxPQ.firstValueSmaller`. -/
def firstValueSmaller (v1 v2 : Nat) : Bool := v1 < v2

namespace MinPQ

variable {Address : Type} [DecidableEq Address] [Inhabited Address] (getPower : Address → Nat)

/-- `getSize`. -/
def getSize (self : MinPQ Address) : Nat := self.inner.size

/-- `contains`. -/
def contains (self : MinPQ Address) (validator : Address) : Bool := self.inner.contains validator

/-- `insert`. -/
def insert (self : MinPQ Address) (validator : Address) : MinPQ Address :=
  ⟨self.inner.insert firstValueLarger getPower validator⟩

/-- `pop`. -/
def pop (self : MinPQ Address) : Except (Revert Address) (MinPQ Address) :=
  MinPQ.mk <$> self.inner.pop firstValueLarger getPower

/-- `deleteReheapify`. -/
def deleteReheapify (self : MinPQ Address) (validator : Address) :
    Except (Revert Address) (MinPQ Address) :=
  MinPQ.mk <$> self.inner.deleteReheapify firstValueLarger getPower validator

/-- `increaseReheapify`: an increased power sinks. -/
def increaseReheapify (self : MinPQ Address) (validator : Address) :
    Except (Revert Address) (MinPQ Address) := do
  let pos ← self.inner.getPosOrRevert validator
  let val := getPower validator
  return ⟨self.inner.sink firstValueLarger getPower pos val⟩

/-- `decreaseReheapify`: a decreased power swims. -/
def decreaseReheapify (self : MinPQ Address) (validator : Address) :
    Except (Revert Address) (MinPQ Address) := do
  let pos ← self.inner.getPosOrRevert validator
  let val := getPower validator
  return ⟨self.inner.swim firstValueLarger getPower pos val⟩

/-- `min`. -/
def min (self : MinPQ Address) : Except (Revert Address) (Address × Nat) := self.inner.top getPower

/-- `getAddress`: the address at a position. -/
def getAddress (self : MinPQ Address) (i : Nat) : Address := self.inner.posToAddress i

/-! ### What each call does to the queued addresses -/

section Calls

variable {q : MinPQ Address}

omit [Inhabited Address] in
/-- `insert` of a new address. -/
theorem insert_spec (hq : q.inner.Indexed) {validator : Address} (hnew : q.contains validator = false) :
    (q.insert getPower validator).inner.Indexed ∧ (q.insert getPower validator).getSize = q.getSize + 1 ∧
      ∀ a, (q.insert getPower validator).contains a = (q.contains a || a == validator) :=
  hq.insert firstValueLarger getPower hnew

/-- `pop` of a non-empty queue removes the address at position one. -/
theorem pop_eq_ok (hq : q.inner.Indexed) (hsize : 0 < q.getSize) :
    ∃ q', q.pop getPower = .ok q' ∧ q'.inner.Indexed ∧ q'.getSize = q.getSize - 1 ∧
      ∀ a, q'.contains a = (q.contains a && a != q.getAddress 1) := by
  obtain ⟨p, hp, hpi, hps, hpc⟩ := hq.pop firstValueLarger getPower hsize
  exact ⟨⟨p⟩, by rw [MinPQ.pop, hp]; rfl, hpi, hps, hpc⟩

/-- `deleteReheapify` of a queued address removes it. -/
theorem deleteReheapify_eq_ok (hq : q.inner.Indexed) {validator : Address}
    (hin : q.contains validator = true) :
    ∃ q', q.deleteReheapify getPower validator = .ok q' ∧ q'.inner.Indexed ∧
      q'.getSize = q.getSize - 1 ∧ ∀ a, q'.contains a = (q.contains a && a != validator) := by
  obtain ⟨p, hp, hpi, hps, hpc⟩ := hq.deleteReheapify firstValueLarger getPower hin
  exact ⟨⟨p⟩, by rw [MinPQ.deleteReheapify, hp]; rfl, hpi, hps, hpc⟩

omit [Inhabited Address] in
/-- `increaseReheapify` of a queued address only moves addresses. -/
theorem increaseReheapify_eq_ok (hq : q.inner.Indexed) {validator : Address}
    (hin : q.contains validator = true) :
    ∃ q', q.increaseReheapify getPower validator = .ok q' ∧ q'.inner.Indexed ∧
      q'.getSize = q.getSize ∧ ∀ a, q'.contains a = q.contains a := by
  obtain ⟨hi, hsame⟩ := hq.sink firstValueLarger getPower (q.inner.addressToPos validator) (getPower validator)
  exact ⟨_, by rw [MinPQ.increaseReheapify, PQ.getPosOrRevert_of_contains hin]; rfl, hi, hsame⟩

omit [Inhabited Address] in
/-- `decreaseReheapify` of a queued address only moves addresses. -/
theorem decreaseReheapify_eq_ok (hq : q.inner.Indexed) {validator : Address}
    (hin : q.contains validator = true) :
    ∃ q', q.decreaseReheapify getPower validator = .ok q' ∧ q'.inner.Indexed ∧
      q'.getSize = q.getSize ∧ ∀ a, q'.contains a = q.contains a := by
  have hpos := (hq.addr_pos validator (by simpa [MinPQ.contains, PQ.contains] using hin)).1
  obtain ⟨hi, hsame⟩ := hq.swim firstValueLarger getPower _ (getPower validator) hpos
  exact ⟨_, by rw [MinPQ.decreaseReheapify, PQ.getPosOrRevert_of_contains hin]; rfl, hi, hsame⟩

omit [DecidableEq Address] [Inhabited Address] in
/-- `min` succeeds on a non-empty queue, with the address at position one and its power. -/
theorem min_eq_ok {r : Address × Nat} :
    q.min getPower = .ok r ↔ 0 < q.getSize ∧ r = (q.getAddress 1, getPower (q.getAddress 1)) :=
  PQ.top_eq_ok getPower

end Calls

/-! ### The `uint16` arithmetic -/

/-- `increaseReheapify` with the doubling of `sink` on `uint16`. -/
def increaseReheapifyChecked (self : MinPQ Address) (validator : Address) :
    Except (Revert Address) (MinPQ Address) := do
  let pos ← self.inner.getPosOrRevert validator
  let val := getPower validator
  MinPQ.mk <$> self.inner.sinkChecked firstValueLarger getPower pos val

omit [Inhabited Address] in
/-- In a queue of fewer than `2 ^ 15` addresses, it is `increaseReheapify`. -/
theorem increaseReheapifyChecked_eq {q : MinPQ Address} (hq : q.inner.Indexed)
    (hsize : q.getSize < 2 ^ 15) (validator : Address) :
    q.increaseReheapifyChecked getPower validator = q.increaseReheapify getPower validator := by
  unfold increaseReheapifyChecked increaseReheapify
  cases hpos : q.inner.getPosOrRevert validator with
  | error e => rfl
  | ok pos =>
    -- a queued address sits at a position within the queue
    have hle : pos ≤ q.inner.size := by
      unfold PQ.getPosOrRevert at hpos
      dsimp only at hpos
      split_ifs at hpos with h0
      cases hpos
      exact (hq.addr_pos validator h0).1
    rw [Except.ok_bind, Except.ok_bind]
    dsimp only
    rw [PQ.sinkChecked_eq_ok firstValueLarger getPower _ hsize hle]
    rfl

/-- Validators 1 and 2 queued with powers 1 and 2; validator 1's power then rises to 3, and
the `uint16` reheapify is the exact one. -/
theorem increaseReheapifyChecked_eq_two :
    let before : Nat → Nat := fun a => a
    let after : Nat → Nat := fun a => if a = 1 then 3 else a
    let q : MinPQ Nat := ((⟨PQ.empty⟩ : MinPQ Nat).insert before 1).insert before 2
    q.inner.Indexed ∧ q.getSize < 2 ^ 15 ∧
      q.increaseReheapifyChecked after 1 = q.increaseReheapify after 1 := by
  intro before after q
  obtain ⟨hi₁, hs₁, hc₁⟩ := insert_spec before PQ.indexed_empty
    (by decide : (⟨PQ.empty⟩ : MinPQ Nat).contains 1 = false)
  have hnew₂ : ((⟨PQ.empty⟩ : MinPQ Nat).insert before 1).contains 2 = false :=
    (hc₁ 2).trans (by decide)
  obtain ⟨hi₂, hs₂, -⟩ := insert_spec before hi₁ hnew₂
  have hsize : q.getSize < 2 ^ 15 := by
    rw [show q.getSize = 2 from hs₂.trans (by rw [hs₁]; rfl)]
    decide
  exact ⟨hi₂, hsize, increaseReheapifyChecked_eq after hi₂ hsize 1⟩

omit [DecidableEq Address] [Inhabited Address] in
/-- Among equal powers no parent is out of order, and `swim` stays where it is. -/
theorem swim_of_equal_power [DecidableEq Address] (q : PQ Address) (pos c : Nat) :
    q.swim firstValueLarger (fun _ => c) pos c = q := by
  rw [PQ.swim]
  split_ifs with h h'
  · rfl
  · simp [firstValueLarger] at h'
  · rfl

/-- The queue after inserting the addresses `1 … n` in turn, each of power one. -/
def equalPowerQueue (n : Nat) : MinPQ Nat :=
  ((List.range n).map (· + 1)).foldl (fun q a => q.insert (fun _ => 1) a) ⟨PQ.empty⟩

/-- Inserting addresses of equal power in turn fills the positions in that order. The induction
is on the number of addresses, one insert at the end. -/
theorem equalPowerQueue_addressToPos (n : Nat) :
    (equalPowerQueue n).getSize = n ∧
      ∀ a, 1 ≤ a → a ≤ n → (equalPowerQueue n).inner.addressToPos a = a := by
  induction n with
  | zero => exact ⟨rfl, fun a ha ha' => absurd ha' (by omega)⟩
  | succ n ih =>
    obtain ⟨hsize, hpos⟩ := ih
    rw [equalPowerQueue, List.range_succ, List.map_append, List.foldl_append, ← equalPowerQueue]
    generalize equalPowerQueue n = q at hsize hpos
    simp only [List.map_cons, List.map_nil, List.foldl_cons, List.foldl_nil, MinPQ.insert,
      PQ.insert, swim_of_equal_power, getSize]
    refine ⟨by rw [← hsize]; rfl, fun a ha ha' => ?_⟩
    rw [Function.update_apply]
    split_ifs with h
    · rw [h, ← hsize]
      rfl
    · exact hpos a ha (by rw [getSize] at hsize; omega)

/-- `2 ^ 15` validators inserted with equal power: when the last one's power goes up,
`increaseReheapify` sinks it from position `2 ^ 15`, where `pos * 2` overflows `uint16`. -/
theorem minPQ_increaseReheapify_overflows :
    let getPower : Nat → Nat := fun a => if a = 2 ^ 15 then 2 else 1
    (equalPowerQueue (2 ^ 15)).getSize = 2 ^ 15 ∧
      (equalPowerQueue (2 ^ 15)).contains (2 ^ 15) = true ∧
      (equalPowerQueue (2 ^ 15)).increaseReheapifyChecked getPower (2 ^ 15) = .error (.Panic 0x11) := by
  intro getPower
  obtain ⟨hsize, hpos⟩ := equalPowerQueue_addressToPos (2 ^ 15)
  have hlast := hpos (2 ^ 15) (by norm_num) le_rfl
  have hget : (equalPowerQueue (2 ^ 15)).inner.getPosOrRevert (2 ^ 15) = .ok (2 ^ 15) := by
    rw [PQ.getPosOrRevert, hlast, if_neg (by norm_num)]
  refine ⟨hsize, ?_, ?_⟩
  · rw [MinPQ.contains, PQ.contains, hlast]
    rfl
  · -- only rewriting here: evaluating the queue's loop in the kernel would build the queue
    rw [increaseReheapifyChecked, hget, Except.ok_bind]
    dsimp only
    rw [PQ.sinkChecked_of_le firstValueLarger getPower _ le_rfl]
    rfl

end MinPQ

namespace MaxPQ

variable {Address : Type} [DecidableEq Address] [Inhabited Address] (getPower : Address → Nat)

/-- `getSize`. -/
def getSize (self : MaxPQ Address) : Nat := self.inner.size

/-- `contains`. -/
def contains (self : MaxPQ Address) (validator : Address) : Bool := self.inner.contains validator

/-- `insert`. -/
def insert (self : MaxPQ Address) (validator : Address) : MaxPQ Address :=
  ⟨self.inner.insert firstValueSmaller getPower validator⟩

/-- `pop`. -/
def pop (self : MaxPQ Address) : Except (Revert Address) (MaxPQ Address) :=
  MaxPQ.mk <$> self.inner.pop firstValueSmaller getPower

/-- `deleteReheapify`. -/
def deleteReheapify (self : MaxPQ Address) (validator : Address) :
    Except (Revert Address) (MaxPQ Address) :=
  MaxPQ.mk <$> self.inner.deleteReheapify firstValueSmaller getPower validator

/-- `increaseReheapify`: an increased power swims. -/
def increaseReheapify (self : MaxPQ Address) (validator : Address) :
    Except (Revert Address) (MaxPQ Address) := do
  let pos ← self.inner.getPosOrRevert validator
  let power := getPower validator
  return ⟨self.inner.swim firstValueSmaller getPower pos power⟩

/-- `decreaseReheapify`: a decreased power sinks. -/
def decreaseReheapify (self : MaxPQ Address) (validator : Address) :
    Except (Revert Address) (MaxPQ Address) := do
  let pos ← self.inner.getPosOrRevert validator
  let power := getPower validator
  return ⟨self.inner.sink firstValueSmaller getPower pos power⟩

/-- `max`. -/
def max (self : MaxPQ Address) : Except (Revert Address) (Address × Nat) := self.inner.top getPower

/-- `getAddress`: the address at a position. -/
def getAddress (self : MaxPQ Address) (i : Nat) : Address := self.inner.posToAddress i

/-! ### What each call does to the queued addresses -/

section Calls

variable {q : MaxPQ Address}

omit [Inhabited Address] in
/-- `insert` of a new address. -/
theorem insert_spec (hq : q.inner.Indexed) {validator : Address} (hnew : q.contains validator = false) :
    (q.insert getPower validator).inner.Indexed ∧ (q.insert getPower validator).getSize = q.getSize + 1 ∧
      ∀ a, (q.insert getPower validator).contains a = (q.contains a || a == validator) :=
  hq.insert firstValueSmaller getPower hnew

/-- `pop` of a non-empty queue removes the address at position one. -/
theorem pop_eq_ok (hq : q.inner.Indexed) (hsize : 0 < q.getSize) :
    ∃ q', q.pop getPower = .ok q' ∧ q'.inner.Indexed ∧ q'.getSize = q.getSize - 1 ∧
      ∀ a, q'.contains a = (q.contains a && a != q.getAddress 1) := by
  obtain ⟨p, hp, hpi, hps, hpc⟩ := hq.pop firstValueSmaller getPower hsize
  exact ⟨⟨p⟩, by rw [MaxPQ.pop, hp]; rfl, hpi, hps, hpc⟩

/-- `deleteReheapify` of a queued address removes it. -/
theorem deleteReheapify_eq_ok (hq : q.inner.Indexed) {validator : Address}
    (hin : q.contains validator = true) :
    ∃ q', q.deleteReheapify getPower validator = .ok q' ∧ q'.inner.Indexed ∧
      q'.getSize = q.getSize - 1 ∧ ∀ a, q'.contains a = (q.contains a && a != validator) := by
  obtain ⟨p, hp, hpi, hps, hpc⟩ := hq.deleteReheapify firstValueSmaller getPower hin
  exact ⟨⟨p⟩, by rw [MaxPQ.deleteReheapify, hp]; rfl, hpi, hps, hpc⟩

omit [Inhabited Address] in
/-- `increaseReheapify` of a queued address only moves addresses. -/
theorem increaseReheapify_eq_ok (hq : q.inner.Indexed) {validator : Address}
    (hin : q.contains validator = true) :
    ∃ q', q.increaseReheapify getPower validator = .ok q' ∧ q'.inner.Indexed ∧
      q'.getSize = q.getSize ∧ ∀ a, q'.contains a = q.contains a := by
  have hpos := (hq.addr_pos validator (by simpa [MaxPQ.contains, PQ.contains] using hin)).1
  obtain ⟨hi, hsame⟩ := hq.swim firstValueSmaller getPower _ (getPower validator) hpos
  exact ⟨_, by rw [MaxPQ.increaseReheapify, PQ.getPosOrRevert_of_contains hin]; rfl, hi, hsame⟩

omit [Inhabited Address] in
/-- `decreaseReheapify` of a queued address only moves addresses. -/
theorem decreaseReheapify_eq_ok (hq : q.inner.Indexed) {validator : Address}
    (hin : q.contains validator = true) :
    ∃ q', q.decreaseReheapify getPower validator = .ok q' ∧ q'.inner.Indexed ∧
      q'.getSize = q.getSize ∧ ∀ a, q'.contains a = q.contains a := by
  obtain ⟨hi, hsame⟩ := hq.sink firstValueSmaller getPower (q.inner.addressToPos validator) (getPower validator)
  exact ⟨_, by rw [MaxPQ.decreaseReheapify, PQ.getPosOrRevert_of_contains hin]; rfl, hi, hsame⟩

omit [DecidableEq Address] [Inhabited Address] in
/-- `max` succeeds on a non-empty queue, with the address at position one and its power. -/
theorem max_eq_ok {r : Address × Nat} :
    q.max getPower = .ok r ↔ 0 < q.getSize ∧ r = (q.getAddress 1, getPower (q.getAddress 1)) :=
  PQ.top_eq_ok getPower

end Calls

end MaxPQ

end Delorean.Staking
