import Mathlib
import Delorean.Lib.CommonPrefix
import Delorean.Gateway.Ledger

/-!
# Cross-net messages follow the tree path

Subnets under one root form a tree in which a subnet's parent is its route without the last actor.
A message from `from` to `to` has to travel the tree path between them: up the route of `from` to
their lowest common ancestor, whose route is the common prefix of the two routes, and down the
route of `to` from there (`treePath`). The gateway of each subnet on the way commits the message
(`commitCrossMessage`): top-down, for the subnet `to.down(current)`, when `applyType` says it goes
down or the gateway's subnet is the common ancestor, and bottom-up otherwise, into the batch its
parent applies (`commitCrossMessage_direction`). So the subnet a message goes to next is
`nextHop`, and forwarding is following `nextHop` until the destination (`forward`).

The routing helpers are read through the longest common prefix of routes
(`List.IsCommonPrefixLength`): the `while` loop of `commonParent` and `down` computes it
(`isCommonPrefixLength_commonPrefixLength`), and on the path every subnet's route is a prefix of
one of the two routes that is at least as long as the common prefix. Each step of the path is a
hop of `nextHop` (`nextHop_up`, `nextHop_lca`, `nextHop_down`), so the path is a chain of hops that
visits no subnet twice and ends at `to` (`treePath_isChain`, `treePath_nodup`,
`treePath_getLast?`), and forwarding from `from` visits exactly it (`forward_of_isChain`).
-/

namespace Delorean.Gateway

variable {Address : Type} [DecidableEq Address]

section Loop

/-- The `while` loop of `commonParent` and `down` counts the equal pairs at the front of the two
routes. -/
theorem commonPrefixLength_eq_takeWhile_zip : ∀ r₁ r₂ : List Address,
    commonPrefixLength r₁ r₂ = ((r₁.zip r₂).takeWhile fun p => decide (p.1 = p.2)).length
  | [], _ => by simp [commonPrefixLength]
  | _ :: _, [] => by simp [commonPrefixLength]
  | a :: as, b :: bs => by
    by_cases hab : a = b
    · simp [commonPrefixLength, hab, commonPrefixLength_eq_takeWhile_zip as bs]
    · simp [commonPrefixLength, hab]

/-- The loop computes the length of the longest common prefix. -/
theorem isCommonPrefixLength_commonPrefixLength (r₁ r₂ : List Address) :
    List.IsCommonPrefixLength r₁ r₂ (commonPrefixLength r₁ r₂) := by
  rw [commonPrefixLength_eq_takeWhile_zip]
  exact List.isCommonPrefixLength_takeWhile_zip r₁ r₂

theorem commonPrefixLength_eq_of_isCommonPrefixLength {r₁ r₂ : List Address} {n : Nat}
    (h : List.IsCommonPrefixLength r₁ r₂ n) : commonPrefixLength r₁ r₂ = n :=
  (isCommonPrefixLength_commonPrefixLength r₁ r₂).unique h

end Loop

namespace SubnetID

variable {a b : SubnetID Address} {n : Nat}

theorem commonParent_of_isCommonPrefixLength (hr : a.root = b.root)
    (hn : List.IsCommonPrefixLength a.route b.route n) :
    a.commonParent b = ⟨a.root, a.route.take n⟩ := by
  rw [commonParent, if_neg (not_not.2 hr), commonPrefixLength_eq_of_isCommonPrefixLength hn]

theorem down_of_isCommonPrefixLength (hr : a.root = b.root)
    (hlt : b.route.length < a.route.length) (hn : List.IsCommonPrefixLength a.route b.route n) :
    a.down b = .ok ⟨a.root, a.route.take (n + 1)⟩ := by
  rw [down, if_neg (not_not.2 hr), if_neg (Nat.not_le.2 hlt),
    commonPrefixLength_eq_of_isCommonPrefixLength hn]

omit [DecidableEq Address] in
/-- The parent of a non-root prefix of a route is the prefix one shorter. -/
theorem getParentSubnet_take {root k : Nat} {r : List Address} (hk : 0 < k) (hkr : k ≤ r.length) :
    (⟨root, r.take k⟩ : SubnetID Address).getParentSubnet = .ok ⟨root, r.take (k - 1)⟩ := by
  have hlen : (r.take k).length = k := List.length_take_of_le hkr
  unfold getParentSubnet
  dsimp only
  rw [hlen, if_neg (Nat.pos_iff_ne_zero.1 hk), List.take_take, Nat.min_eq_left (Nat.sub_le k 1)]

end SubnetID

/-! ## The next hop -/

section Hop

variable {Hash : Type} [DecidableEq Hash] (env : Env Address Hash)

/-- The subnet the gateway of `current` sends the message to: `to.down(current)` when it commits
the message top-down, and its parent, which applies its bottom-up batches, otherwise. -/
def nextHop (m : IpcEnvelope Address) (current : SubnetID Address) :
    Except Revert (SubnetID Address) :=
  if m.applyType current == .TopDown ||
      (m.to_.subnetId.commonParent m.from_.subnetId).equals current then
    m.to_.subnetId.down current
  else current.getParentSubnet

/-- Forwarding hop by hop from `current`, for at most `fuel` hops: the subnets visited up to the
destination; none if a hop fails or the fuel runs out first. -/
def forward (m : IpcEnvelope Address) : Nat → SubnetID Address → Option (List (SubnetID Address))
  | 0, current => if current = m.to_.subnetId then some [current] else none
  | fuel + 1, current =>
    if current = m.to_.subnetId then some [current]
    else
      match nextHop m current with
      | .ok next => (forward m fuel next).map (current :: ·)
      | .error _ => none

variable {m m' : IpcEnvelope Address} {s s' : GatewayState Address Hash} {shouldBurn : Bool}

omit [DecidableEq Hash] in
/-- What a successful `commitCrossMessage` commits: the message top-down, for the subnet
`to.down(current)`, when it goes down or the gateway's subnet is the common ancestor; bottom-up
otherwise. -/
theorem commitCrossMessage_direction (h : commitCrossMessage env s m = .ok (s', m', shouldBurn)) :
    ((m.applyType s.networkName = .TopDown ∨
        m.to_.subnetId.commonParent m.from_.subnetId = s.networkName) →
      ∃ next, m.to_.subnetId.down s.networkName = .ok next ∧
        s'.topDownMsgs = s.topDownMsgs ++ [(next, m')]) ∧
    (¬ (m.applyType s.networkName = .TopDown ∨
        m.to_.subnetId.commonParent m.from_.subnetId = s.networkName) →
      s'.bottomUpMsgs = s.bottomUpMsgs ++ [m'] ∧ s'.topDownMsgs = s.topDownMsgs) := by
  rcases commitCrossMessage_eq_ok env h with ⟨hdir, hdown, -⟩ | ⟨hdir, hup, -⟩
  · -- top-down, for the subnet `commitTopDownMsg` goes down to
    obtain ⟨next, subnet, hnext, -, -, rfl⟩ := commitTopDownMsg_eq_ok hdown
    exact ⟨fun _ => ⟨next, hnext, rfl⟩, fun hn => absurd hdir hn⟩
  · -- bottom-up, into the batches
    obtain ⟨rfl, rfl⟩ := Prod.ext_iff.1 hup
    exact ⟨fun hy => absurd hy hdir, fun _ => ⟨rfl, rfl⟩⟩

omit [DecidableEq Hash] in
/-- The gateway commits the message towards `nextHop`: top-down for the next subnet, or
bottom-up, into the batch of its parent, which is the next subnet. -/
theorem commitCrossMessage_nextHop {next : SubnetID Address}
    (h : commitCrossMessage env s m = .ok (s', m', shouldBurn))
    (hnext : nextHop m s.networkName = .ok next) :
    ((m.applyType s.networkName = .TopDown ∨
        m.to_.subnetId.commonParent m.from_.subnetId = s.networkName) →
      s'.topDownMsgs = s.topDownMsgs ++ [(next, m')]) ∧
    (¬ (m.applyType s.networkName = .TopDown ∨
        m.to_.subnetId.commonParent m.from_.subnetId = s.networkName) →
      s'.bottomUpMsgs = s.bottomUpMsgs ++ [m'] ∧ s'.topDownMsgs = s.topDownMsgs ∧
        s.networkName.getParentSubnet = .ok next) := by
  obtain ⟨hdown, hup⟩ := commitCrossMessage_direction env h
  unfold nextHop at hnext
  simp only [Bool.or_eq_true, beq_iff_eq, SubnetID.equals_iff] at hnext
  constructor
  · intro hdir
    obtain ⟨next', hnext', htop⟩ := hdown hdir
    rw [if_pos hdir, hnext'] at hnext
    cases hnext
    exact htop
  · intro hdir
    rw [if_neg hdir] at hnext
    exact ⟨(hup hdir).1, (hup hdir).2, hnext⟩

end Hop

/-! ## The tree path -/

section Path

/-- The tree path from `from_` to `to_`: the subnets up the route of `from_` to the lowest
common ancestor, whose route is the common prefix of the two routes, then those down the route of
`to_`. -/
def treePath (from_ to_ : SubnetID Address) : List (SubnetID Address) :=
  let n := commonPrefixLength from_.route to_.route
  (List.range (from_.route.length + 1 - n)).map
      (fun i => ⟨from_.root, from_.route.take (from_.route.length - i)⟩) ++
    (List.range (to_.route.length - n)).map fun j => ⟨to_.root, to_.route.take (n + 1 + j)⟩

variable {m : IpcEnvelope Address} {r n : Nat} {F T : List Address}

theorem treePath_eq (hn : List.IsCommonPrefixLength F T n) :
    treePath ⟨r, F⟩ ⟨r, T⟩ =
      (List.range (F.length + 1 - n)).map (fun i => ⟨r, F.take (F.length - i)⟩) ++
        (List.range (T.length - n)).map fun j => ⟨r, T.take (n + 1 + j)⟩ := by
  rw [treePath, commonPrefixLength_eq_of_isCommonPrefixLength hn]

omit [DecidableEq Address] in
/-- Two subnets along one route are the same only at the same depth. -/
theorem eq_of_mk_take_eq {l : List Address} {a b : Nat} (ha : a ≤ l.length) (hb : b ≤ l.length)
    (h : (⟨r, l.take a⟩ : SubnetID Address) = ⟨r, l.take b⟩) : a = b := by
  have hlen := congrArg (fun c : SubnetID Address => c.route.length) h
  simp only [List.length_take, Nat.min_eq_left ha, Nat.min_eq_left hb] at hlen
  exact hlen

/-- The common ancestor `commitCrossMessage` compares the gateway's subnet with. -/
theorem commonParent_to_from (hfrom : m.from_.subnetId = ⟨r, F⟩) (hto : m.to_.subnetId = ⟨r, T⟩)
    (hn : List.IsCommonPrefixLength F T n) :
    m.to_.subnetId.commonParent m.from_.subnetId = ⟨r, F.take n⟩ := by
  rw [hto, hfrom,
    SubnetID.commonParent_of_isCommonPrefixLength (a := ⟨r, T⟩) (b := ⟨r, F⟩) rfl hn.symm]
  dsimp only
  rw [hn.take_eq]

/-- On the side of `from_`, at or below the common ancestor, the message goes up exactly when
`from_` lies strictly below the ancestor. -/
theorem applyType_take_from (hfrom : m.from_.subnetId = ⟨r, F⟩) (hto : m.to_.subnetId = ⟨r, T⟩)
    (hn : List.IsCommonPrefixLength F T n) {k : Nat} (hnk : n ≤ k) :
    m.applyType ⟨r, F.take k⟩ = if n < F.length then .BottomUp else .TopDown := by
  have hcur : (⟨r, F.take k⟩ : SubnetID Address).commonParent ⟨r, T⟩ = ⟨r, F.take n⟩ := by
    rw [SubnetID.commonParent_of_isCommonPrefixLength (a := ⟨r, F.take k⟩) (b := ⟨r, T⟩) rfl
      (hn.take_left hnk)]
    dsimp only
    rw [List.take_take, Nat.min_eq_left hnk]
  have hmsg : (⟨r, F⟩ : SubnetID Address).commonParent ⟨r, T⟩ = ⟨r, F.take n⟩ :=
    SubnetID.commonParent_of_isCommonPrefixLength rfl hn
  have hlen : (F.take n).length = n := List.length_take_of_le hn.le_left
  unfold IpcEnvelope.applyType
  rw [hfrom, hto]
  dsimp only
  rw [hcur, hmsg, hlen]
  by_cases hlt : n < F.length <;> simp [hlt]

/-- On the side of `to_`, strictly below the common ancestor, the message goes down. -/
theorem applyType_take_to (hfrom : m.from_.subnetId = ⟨r, F⟩) (hto : m.to_.subnetId = ⟨r, T⟩)
    (hn : List.IsCommonPrefixLength F T n) {j : Nat} (hnj : n < j) (hj : j ≤ T.length) :
    m.applyType ⟨r, T.take j⟩ = .TopDown := by
  have hcur : (⟨r, T.take j⟩ : SubnetID Address).commonParent ⟨r, T⟩ = ⟨r, T.take j⟩ := by
    rw [SubnetID.commonParent_of_isCommonPrefixLength (a := ⟨r, T.take j⟩) (b := ⟨r, T⟩) rfl
      (List.isCommonPrefixLength_take_self T hj)]
    dsimp only
    rw [List.take_take, Nat.min_self]
  have hmsg : (⟨r, F⟩ : SubnetID Address).commonParent ⟨r, T⟩ = ⟨r, F.take n⟩ :=
    SubnetID.commonParent_of_isCommonPrefixLength rfl hn
  -- the two ancestors differ in depth
  have hne : (⟨r, T.take j⟩ : SubnetID Address) ≠ ⟨r, F.take n⟩ := by
    intro heq
    have hlen := congrArg (fun c : SubnetID Address => c.route.length) heq
    simp only [List.length_take, Nat.min_eq_left hj, Nat.min_eq_left hn.le_left] at hlen
    omega
  unfold IpcEnvelope.applyType
  rw [hfrom, hto]
  dsimp only
  rw [hcur, hmsg]
  simp [hne]

/-- Below the common ancestor on the side of `from_`, the next hop is the parent. -/
theorem nextHop_up (hfrom : m.from_.subnetId = ⟨r, F⟩) (hto : m.to_.subnetId = ⟨r, T⟩)
    (hn : List.IsCommonPrefixLength F T n) {k : Nat} (hnk : n < k) (hk : k ≤ F.length) :
    nextHop m ⟨r, F.take k⟩ = .ok ⟨r, F.take (k - 1)⟩ := by
  have happ := applyType_take_from hfrom hto hn (Nat.le_of_lt hnk)
  rw [if_pos (Nat.lt_of_lt_of_le hnk hk)] at happ
  -- the gateway's subnet is deeper than the common ancestor
  have hne : (⟨r, F.take n⟩ : SubnetID Address) ≠ ⟨r, F.take k⟩ := fun heq =>
    Nat.ne_of_lt hnk (eq_of_mk_take_eq hn.le_left hk heq)
  unfold nextHop
  rw [happ, commonParent_to_from hfrom hto hn, if_neg (by simp [SubnetID.equals, hne])]
  exact SubnetID.getParentSubnet_take (Nat.lt_of_le_of_lt (Nat.zero_le n) hnk) hk

/-- At the common ancestor, the next hop is the first subnet down the route of `to_`. -/
theorem nextHop_lca (hfrom : m.from_.subnetId = ⟨r, F⟩) (hto : m.to_.subnetId = ⟨r, T⟩)
    (hn : List.IsCommonPrefixLength F T n) (hnT : n < T.length) :
    nextHop m ⟨r, F.take n⟩ = .ok ⟨r, T.take (n + 1)⟩ := by
  have hcpl : List.IsCommonPrefixLength T (F.take n) n := by
    rw [hn.take_eq]
    exact (List.isCommonPrefixLength_take_self T hn.le_right).symm
  have hlen : (F.take n).length = n := List.length_take_of_le hn.le_left
  unfold nextHop
  rw [commonParent_to_from hfrom hto hn, hto, if_pos (by simp [SubnetID.equals])]
  exact SubnetID.down_of_isCommonPrefixLength rfl (by rw [hlen]; exact hnT) hcpl

/-- Below the common ancestor on the side of `to_`, the next hop is one subnet further down. -/
theorem nextHop_down (hfrom : m.from_.subnetId = ⟨r, F⟩) (hto : m.to_.subnetId = ⟨r, T⟩)
    (hn : List.IsCommonPrefixLength F T n) {j : Nat} (hnj : n < j) (hj : j < T.length) :
    nextHop m ⟨r, T.take j⟩ = .ok ⟨r, T.take (j + 1)⟩ := by
  have happ := applyType_take_to hfrom hto hn hnj (Nat.le_of_lt hj)
  have hlen : (T.take j).length = j := List.length_take_of_le (Nat.le_of_lt hj)
  unfold nextHop
  rw [happ, hto, if_pos (by simp)]
  exact SubnetID.down_of_isCommonPrefixLength rfl (by rw [hlen]; exact hj)
    (List.isCommonPrefixLength_take_self T (Nat.le_of_lt hj)).symm

/-- Where the message goes down or the gateway is the common ancestor, the next hop is
`to.down(current)`. -/
theorem nextHop_of_topDown {current : SubnetID Address}
    (hdir : m.applyType current = .TopDown ∨
      m.to_.subnetId.commonParent m.from_.subnetId = current) :
    nextHop m current = m.to_.subnetId.down current := by
  unfold nextHop
  rw [if_pos (by simpa [SubnetID.equals] using hdir)]

/-- Otherwise it is the parent. -/
theorem nextHop_of_bottomUp {current : SubnetID Address}
    (hdir : ¬ (m.applyType current = .TopDown ∨
      m.to_.subnetId.commonParent m.from_.subnetId = current)) :
    nextHop m current = current.getParentSubnet := by
  unfold nextHop
  rw [if_neg (by simpa [SubnetID.equals] using hdir)]

/-- Each subnet of the tree path sends the message on to the next one. -/
theorem treePath_isChain (hfrom : m.from_.subnetId = ⟨r, F⟩) (hto : m.to_.subnetId = ⟨r, T⟩)
    (hn : List.IsCommonPrefixLength F T n) :
    (treePath ⟨r, F⟩ ⟨r, T⟩).IsChain (fun c d => nextHop m c = .ok d) := by
  have hnF := hn.le_left
  rw [treePath_eq hn, List.isChain_append, List.isChain_map, List.isChain_map, List.isChain_range,
    List.isChain_range]
  refine ⟨fun i hi => ?_, fun j hj => ?_, fun x hx y hy => ?_⟩
  · -- up the route of `from_`
    rw [nextHop_up hfrom hto hn (k := F.length - i) (by omega) (by omega), Nat.sub_sub]
  · -- down the route of `to_`
    rw [nextHop_down hfrom hto hn (j := n + 1 + j) (by omega) (by omega)]
    rfl
  · -- from the common ancestor to the first subnet below it on the side of `to_`
    have hF : F.length + 1 - n ≠ 0 := by omega
    simp only [List.getLast?_map, List.getLast?_range, if_neg hF, Option.map_some, Option.mem_def,
      Option.some.injEq] at hx
    have hT : T.length - n ≠ 0 := by
      intro hT
      simp [hT] at hy
    simp only [List.head?_map, List.head?_range, if_neg hT, Option.map_some, Option.mem_def,
      Option.some.injEq, Nat.add_zero] at hy
    have hdepth : F.length - (F.length + 1 - n - 1) = n := by omega
    rw [← hx, ← hy, hdepth]
    exact nextHop_lca hfrom hto hn (by omega)

/-- The tree path visits no subnet twice. -/
theorem treePath_nodup (hn : List.IsCommonPrefixLength F T n) :
    (treePath ⟨r, F⟩ ⟨r, T⟩).Nodup := by
  have hnF := hn.le_left
  have hnT := hn.le_right
  rw [treePath_eq hn, List.nodup_append]
  refine ⟨List.nodup_range.map_on ?_, List.nodup_range.map_on ?_, ?_⟩
  · -- up the route of `from_`, the depths differ
    intro i hi i' hi' heq
    rw [List.mem_range] at hi hi'
    have := eq_of_mk_take_eq (Nat.sub_le _ i) (Nat.sub_le _ i') heq
    omega
  · -- down the route of `to_`, likewise
    intro j hj j' hj' heq
    rw [List.mem_range] at hj hj'
    have := eq_of_mk_take_eq (l := T) (by omega) (by omega) heq
    omega
  · -- below the common ancestor, the two routes differ
    intro a ha b hb hab
    simp only [List.mem_map, List.mem_range] at ha hb
    obtain ⟨i, hi, rfl⟩ := ha
    obtain ⟨j, hj, rfl⟩ := hb
    simp only [SubnetID.mk.injEq, true_and] at hab
    have hlen := congrArg List.length hab
    simp only [List.length_take] at hlen
    have hk : F.length - i = n + 1 + j := by omega
    rw [hk] at hab
    exact hn.take_ne (by omega) (by omega) (by omega) hab

theorem treePath_head? (hn : List.IsCommonPrefixLength F T n) :
    (treePath ⟨r, F⟩ ⟨r, T⟩).head? = some ⟨r, F⟩ := by
  have hnF := hn.le_left
  rw [treePath_eq hn, List.head?_append, List.head?_map, List.head?_range, if_neg (by omega)]
  simp

/-- The tree path ends at `to_`: below the common ancestor on its side, or at the ancestor when
`to_` is the ancestor. -/
theorem treePath_getLast? (hn : List.IsCommonPrefixLength F T n) :
    (treePath ⟨r, F⟩ ⟨r, T⟩).getLast? = some ⟨r, T⟩ := by
  have hnF := hn.le_left
  have hnT := hn.le_right
  rw [treePath_eq hn, List.getLast?_append, List.getLast?_map, List.getLast?_range,
    List.getLast?_map, List.getLast?_range]
  by_cases hT : T.length - n = 0
  · have hdepth : F.length - (F.length + 1 - n - 1) = n := by omega
    rw [if_pos hT, if_neg (by omega), Option.map_none, Option.none_or, Option.map_some, hdepth,
      hn.take_eq, show n = T.length by omega, List.take_length]
  · have hdepth : n + 1 + (T.length - n - 1) = T.length := by omega
    rw [if_neg hT, Option.map_some, Option.some_or, hdepth, List.take_length]

/-- Along the tree path, the message goes up exactly at the subnets on the route of `from_`, when
`from_` lies strictly below the common ancestor. -/
theorem applyType_eq_bottomUp_iff (hfrom : m.from_.subnetId = ⟨r, F⟩)
    (hto : m.to_.subnetId = ⟨r, T⟩) (hn : List.IsCommonPrefixLength F T n) {c : SubnetID Address}
    (hc : c ∈ treePath ⟨r, F⟩ ⟨r, T⟩) :
    m.applyType c = .BottomUp ↔ c.route <+: F ∧ n < F.length := by
  rw [treePath_eq hn, List.mem_append, List.mem_map, List.mem_map] at hc
  rcases hc with ⟨i, hi, rfl⟩ | ⟨j, hj, rfl⟩
  · rw [List.mem_range] at hi
    rw [applyType_take_from hfrom hto hn (k := F.length - i) (by omega)]
    have hpre : F.take (F.length - i) <+: F := List.take_prefix _ _
    by_cases hlt : n < F.length <;> simp [hlt, hpre]
  · rw [List.mem_range] at hj
    rw [applyType_take_to hfrom hto hn (j := n + 1 + j) (by omega) (by omega)]
    -- below the ancestor on the side of `to_`, a subnet is not on the route of `from_`
    have hnot : ¬ T.take (n + 1 + j) <+: F := by
      intro hpre
      have hlen : (T.take (n + 1 + j)).length = n + 1 + j := List.length_take_of_le (by omega)
      have hle := hpre.length_le
      have htake := List.prefix_iff_eq_take.1 hpre
      rw [hlen] at htake hle
      exact hn.take_ne (by omega) hle (by omega) htake.symm
    simp [hnot]

/-- Forwarding follows a chain of hops that ends at the destination and visits no subnet twice,
given fuel for each hop. The induction is on the chain. -/
theorem forward_of_isChain (m : IpcEnvelope Address) :
    ∀ (l : List (SubnetID Address)) (x : SubnetID Address) (fuel : Nat),
      (x :: l).IsChain (fun c d => nextHop m c = .ok d) → (x :: l).Nodup →
      (x :: l).getLast (List.cons_ne_nil x l) = m.to_.subnetId → l.length ≤ fuel →
      forward m fuel x = some (x :: l)
  | [], x, fuel, _, _, hlast, _ => by
    have hx : x = m.to_.subnetId := hlast
    cases fuel <;> simp [forward, hx]
  | y :: l, x, fuel, hchain, hnodup, hlast, hfuel => by
    obtain ⟨hxy, hchain'⟩ := List.isChain_cons_cons.1 hchain
    obtain ⟨hx_notMem, hnodup'⟩ := List.nodup_cons.1 hnodup
    have hlast' : (y :: l).getLast (List.cons_ne_nil y l) = m.to_.subnetId := by
      rw [← hlast, List.getLast_cons (List.cons_ne_nil y l)]
    -- the destination comes later, and nothing is visited twice
    have hx : x ≠ m.to_.subnetId := by
      intro hx
      apply hx_notMem
      rw [hx, ← hlast']
      exact List.getLast_mem _
    obtain ⟨fuel, rfl⟩ : ∃ f, fuel = f + 1 := ⟨fuel - 1, by simp at hfuel; omega⟩
    have ih := forward_of_isChain m l y fuel hchain' hnodup' hlast' (by simpa using hfuel)
    simp only [forward, if_neg hx, hxy, ih, Option.map_some]

end Path

/-! ## Routing a message -/

/-- A message between two subnets under one root follows the tree path between them. At each
subnet of the path it goes up exactly when the subnet is on the route of `from` and `from` lies
strictly below the common ancestor. Each subnet short of `to` sends it to the next subnet of the
path, which is `to.down(current)` when it goes down or the subnet is the ancestor, and the parent
otherwise; a gateway there that commits the message commits it top-down for that next subnet in
the first case and bottom-up in the second. Forwarding from `from` therefore visits the path,
each subnet once, and ends at `to`. -/
theorem crossMsg_follows_treePath {Hash : Type} [DecidableEq Hash] (m : IpcEnvelope Address)
    (hroot : m.from_.subnetId.root = m.to_.subnetId.root) :
    let path := treePath m.from_.subnetId m.to_.subnetId
    let n := commonPrefixLength m.from_.subnetId.route m.to_.subnetId.route
    (∀ current ∈ path, m.applyType current = .BottomUp ↔
        current.route <+: m.from_.subnetId.route ∧ n < m.from_.subnetId.route.length) ∧
    (∀ (i : Nat) (hi : i + 1 < path.length),
      nextHop m path[i] = .ok path[i + 1] ∧
      ((m.applyType path[i] = .TopDown ∨
          m.to_.subnetId.commonParent m.from_.subnetId = path[i]) →
        m.to_.subnetId.down path[i] = .ok path[i + 1]) ∧
      (¬ (m.applyType path[i] = .TopDown ∨
          m.to_.subnetId.commonParent m.from_.subnetId = path[i]) →
        path[i].getParentSubnet = .ok path[i + 1]) ∧
      ∀ (env : Env Address Hash) (s s' : GatewayState Address Hash) (m' : IpcEnvelope Address)
        (shouldBurn : Bool), s.networkName = path[i] →
        commitCrossMessage env s m = .ok (s', m', shouldBurn) →
        ((m.applyType path[i] = .TopDown ∨
            m.to_.subnetId.commonParent m.from_.subnetId = path[i]) →
          s'.topDownMsgs = s.topDownMsgs ++ [(path[i + 1], m')]) ∧
        (¬ (m.applyType path[i] = .TopDown ∨
            m.to_.subnetId.commonParent m.from_.subnetId = path[i]) →
          s'.bottomUpMsgs = s.bottomUpMsgs ++ [m'] ∧ s'.topDownMsgs = s.topDownMsgs)) ∧
    path.head? = some m.from_.subnetId ∧ path.getLast? = some m.to_.subnetId ∧ path.Nodup ∧
    ∀ fuel, path.length - 1 ≤ fuel → forward m fuel m.from_.subnetId = some path := by
  obtain ⟨kind, ⟨⟨r, T⟩, rawTo⟩, ⟨⟨r', F⟩, rawFrom⟩, nonce, value, message⟩ := m
  dsimp only at hroot ⊢
  subst hroot
  have hfrom : (IpcEnvelope.mk kind ⟨⟨r', T⟩, rawTo⟩ ⟨⟨r', F⟩, rawFrom⟩ nonce value
    message).from_.subnetId = ⟨r', F⟩ := rfl
  have hto : (IpcEnvelope.mk kind ⟨⟨r', T⟩, rawTo⟩ ⟨⟨r', F⟩, rawFrom⟩ nonce value
    message).to_.subnetId = ⟨r', T⟩ := rfl
  have hn := isCommonPrefixLength_commonPrefixLength F T
  have hchain := treePath_isChain hfrom hto hn
  have hnodup := treePath_nodup (r := r') hn
  have hlast := treePath_getLast? (r := r') hn
  have hhead := treePath_head? (r := r') hn
  refine ⟨fun c hc => applyType_eq_bottomUp_iff hfrom hto hn hc, fun i hi => ?_, hhead, hlast,
    hnodup, fun fuel hfuel => ?_⟩
  · -- the hop from the `i`-th subnet, and what its gateway commits
    have hhop := hchain.getElem i hi
    refine ⟨hhop, fun hdir => ?_, fun hdir => ?_, fun env s s' m' shouldBurn hname hcommit => ?_⟩
    · rw [← nextHop_of_topDown hdir]
      exact hhop
    · rw [← nextHop_of_bottomUp hdir]
      exact hhop
    · rw [← hname] at hhop ⊢
      obtain ⟨htop, hup⟩ := commitCrossMessage_nextHop env hcommit hhop
      exact ⟨htop, fun hdir => ⟨(hup hdir).1, (hup hdir).2.1⟩⟩
  · -- forwarding from the head of the path
    have hne : treePath (⟨r', F⟩ : SubnetID Address) ⟨r', T⟩ ≠ [] := fun h => by
      rw [h] at hlast
      cases hlast
    obtain ⟨x, l, hxl⟩ := List.exists_cons_of_ne_nil hne
    rw [hxl] at hchain hnodup hlast hhead hfuel ⊢
    rw [List.head?_cons, Option.some.injEq] at hhead
    subst hhead
    rw [List.getLast?_eq_some_getLast (List.cons_ne_nil _ l), Option.some.injEq] at hlast
    exact forward_of_isChain _ l _ fuel hchain hnodup hlast (by simpa using hfuel)

/-- The route from `/r1/1/2` to `/r1/1/3/4`: up to `/r1/1`, the common ancestor, then down. -/
theorem crossMsg_follows_treePath_upDown :
    let m : IpcEnvelope Nat := ⟨.Call, ⟨⟨1, [1, 3, 4]⟩, 0⟩, ⟨⟨1, [1, 2]⟩, 0⟩, 0, 0, []⟩
    m.from_.subnetId.root = m.to_.subnetId.root ∧
      forward m 3 m.from_.subnetId = some [⟨1, [1, 2]⟩, ⟨1, [1]⟩, ⟨1, [1, 3]⟩, ⟨1, [1, 3, 4]⟩] := by
  intro m
  have hforward := (@crossMsg_follows_treePath Nat _ Nat _ m rfl).2.2.2.2.2 3 (by decide)
  exact ⟨rfl, hforward.trans (by decide)⟩

end Delorean.Gateway
