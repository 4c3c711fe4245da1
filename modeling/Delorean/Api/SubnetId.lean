import Delorean.Lib.CommonPrefix
import Delorean.Lib.Except

/-!
# Subnet identifiers of the IPC API

`SubnetID` of `ipc/api/src/subnet_id.rs`: the chain id of a root network and the route of
subnet actor addresses from it down to the subnet, over any type of addresses. The route algebra
(`parent`, `common_parent`, `down`, `up`) is defined as the source computes it and characterized
by the longest common prefix of the two routes (`List.IsCommonPrefixLength`): `common_parent`
computes it (`commonParent_eq_some_iff`), `parent` drops the last child
(`parent_eq_some_iff`), and `down` and `up` step one child below, resp. above, that prefix
(`down_eq_some_iff`, `up_eq_ok_some_iff`), which along a route are its neighbours
(`down_up_of_prefix`). Both read only the length of the common prefix, so they also answer for
two subnets of which neither is on the other's route, and `up` panics on Rust's `usize`
subtraction `i - 1` when the routes share no first child (`up_eq_error_iff`).

The text form is modelled on lists of characters, with the address format as a parameter:
`Display` prints the route as `/`-separated parts (`fmt_eq_intercalate`), and `FromStr` reads
them back whenever addresses read back their own text and print without a `/`
(`fromStr_fmt`).
-/

namespace Delorean.Api

/-- `SubnetID`: the chain id of the root network, a `u64`, and the route of subnet actors. -/
structure SubnetID (Address : Type) where
  root : Nat
  children : List Address
  deriving DecidableEq, Repr

/-- `Error::InvalidID`: the text that failed to parse and the reason. -/
inductive Error
  | InvalidID (id : List Char) (reason : String)
  deriving DecidableEq, Repr

namespace SubnetID

variable {Address : Type}

/-- `is_root`. -/
def isRoot (self : SubnetID Address) : Bool := self.children.isEmpty

/-- `parent`: `children[..len - 1]`, none for a root. -/
def parent (self : SubnetID Address) : Option (SubnetID Address) :=
  if self.children.isEmpty then none
  else some ⟨self.root, self.children.take (self.children.length - 1)⟩

section Routes

variable [DecidableEq Address]

/-- `common_parent`: the number of equal children at the front of the two routes, and the
subnet they lead to; none for different roots. -/
def commonParent (self other : SubnetID Address) : Option (Nat × SubnetID Address) :=
  if self.root ≠ other.root then none
  else
    let common := ((self.children.zip other.children).takeWhile fun p => decide (p.1 = p.2)).length
    some (common, ⟨self.root, self.children.take common⟩)

/-- `down`: `children[..i + 1]` for the common count `i`. The slice is in range, since
`i ≤ from.len < self.len`. -/
def down (self from_ : SubnetID Address) : Option (SubnetID Address) :=
  if self.children.length ≤ from_.children.length then none
  else
    match self.commonParent from_ with
    | some (i, _) => some ⟨self.root, self.children.take (i + 1)⟩
    | none => none

/-- `up`: `children[..i - 1]` for the common count `i`, where `i - 1` is a `usize` subtraction
that panics at `i = 0`. -/
def up (self from_ : SubnetID Address) : Except String (Option (SubnetID Address)) :=
  if self.children.length < from_.children.length then .ok none
  else
    match self.commonParent from_ with
    | some (i, _) =>
      if i = 0 then .error "attempt to subtract with overflow"
      else .ok (some ⟨self.root, self.children.take (i - 1)⟩)
    | none => .ok none

variable {a b c : SubnetID Address} {n : Nat}

theorem commonParent_eq_none_iff : a.commonParent b = none ↔ a.root ≠ b.root := by
  unfold commonParent
  split_ifs with hr <;> simp [hr]

/-- `common_parent` answers the length of the longest common prefix of the routes and the
subnet at the end of it. -/
theorem commonParent_eq_some_iff {m : Nat} :
    a.commonParent b = some (m, c) ↔
      a.root = b.root ∧ List.IsCommonPrefixLength a.children b.children m ∧
        c = ⟨a.root, a.children.take m⟩ := by
  have hcpl := List.isCommonPrefixLength_takeWhile_zip a.children b.children
  unfold commonParent
  split_ifs with hr
  · simp [hr]
  · rw [not_not] at hr
    simp only [Option.some.injEq, Prod.mk.injEq, hr, true_and]
    constructor
    · rintro ⟨rfl, rfl⟩
      exact ⟨hcpl, rfl⟩
    · rintro ⟨hm, rfl⟩
      rw [hcpl.unique hm]
      exact ⟨rfl, rfl⟩

theorem commonParent_of_root_eq (hr : a.root = b.root)
    (hn : List.IsCommonPrefixLength a.children b.children n) :
    a.commonParent b = some (n, ⟨a.root, a.children.take n⟩) :=
  commonParent_eq_some_iff.2 ⟨hr, hn, rfl⟩

/-- `down` answers one child below the common prefix, whenever the roots agree and the route
is longer than the other. -/
theorem down_eq_some_iff (hn : List.IsCommonPrefixLength a.children b.children n) :
    a.down b = some c ↔
      a.root = b.root ∧ b.children.length < a.children.length ∧
        c = ⟨a.root, a.children.take (n + 1)⟩ := by
  unfold down
  rcases Nat.lt_or_ge b.children.length a.children.length with hlt | hle
  · rw [if_neg (Nat.not_le.2 hlt)]
    by_cases hr : a.root = b.root
    · rw [commonParent_of_root_eq hr hn]
      simp [hr, hlt, eq_comm]
    · rw [commonParent_eq_none_iff.2 hr]
      simp [hr]
  · rw [if_pos hle]
    simp [Nat.not_lt.2 hle]

/-- `up` panics exactly when the roots agree, the route is at least as long as the other, and
the two routes do not start with the same child. -/
theorem up_eq_error_iff :
    (∃ e, a.up b = .error e) ↔
      a.root = b.root ∧ b.children.length ≤ a.children.length ∧
        (a.children = [] ∨ a.children.head? ≠ b.children.head?) := by
  obtain ⟨n, hn⟩ : ∃ n, List.IsCommonPrefixLength a.children b.children n :=
    ⟨_, List.isCommonPrefixLength_takeWhile_zip _ _⟩
  have hzero : n = 0 ↔ a.children = [] ∨ a.children.head? ≠ b.children.head? := by
    rw [← Nat.le_zero, ← not_lt, hn.pos_iff]
    simp only [not_and_or, ne_eq, not_not]
  unfold up
  rcases Nat.lt_or_ge a.children.length b.children.length with hlt | hle
  · rw [if_pos hlt]
    simp [Nat.not_le.2 hlt]
  · rw [if_neg (Nat.not_lt.2 hle)]
    by_cases hr : a.root = b.root
    · rw [commonParent_of_root_eq hr hn, ← hzero]
      dsimp only
      split_ifs with h0 <;> simp [hr, hle, h0]
    · rw [commonParent_eq_none_iff.2 hr]
      simp [hr]

/-- Otherwise, with the roots equal and the route not shorter, `up` answers one child above
the common prefix. -/
theorem up_eq_ok_some_iff (hn : List.IsCommonPrefixLength a.children b.children n) :
    a.up b = .ok (some c) ↔
      a.root = b.root ∧ b.children.length ≤ a.children.length ∧ 0 < n ∧
        c = ⟨a.root, a.children.take (n - 1)⟩ := by
  unfold up
  rcases Nat.lt_or_ge a.children.length b.children.length with hlt | hle
  · rw [if_pos hlt]
    simp [Nat.not_le.2 hlt]
  · rw [if_neg (Nat.not_lt.2 hle)]
    by_cases hr : a.root = b.root
    · rw [commonParent_of_root_eq hr hn]
      dsimp only
      split_ifs with h0
      · simp [h0]
      · simp [hr, hle, Nat.pos_of_ne_zero h0, eq_comm]
    · rw [commonParent_eq_none_iff.2 hr]
      simp [hr]

/-- Along a route, `down` and `up` are the route's neighbours: from a subnet of the route,
`down` is the next subnet of it and `up`, from a non-root subnet, the one above that subnet. The
common prefix is then the whole shorter route. -/
theorem down_up_of_prefix (hr : a.root = b.root) (hpre : b.children <+: a.children) :
    (b.children.length < a.children.length →
        a.down b = some ⟨a.root, a.children.take (b.children.length + 1)⟩) ∧
      (b.children ≠ [] → a.up b = .ok (some ⟨a.root, a.children.take (b.children.length - 1)⟩)) := by
  have hn := List.isCommonPrefixLength_takeWhile_zip a.children b.children
  have hlen : _ = b.children.length := hn.symm.prefix_iff.1 hpre
  constructor
  · intro hlt
    rw [down_eq_some_iff hn, hlen]
    exact ⟨hr, hlt, rfl⟩
  · intro hne
    rw [up_eq_ok_some_iff hn, hlen]
    exact ⟨hr, hpre.length_le, List.length_pos_iff.2 hne, rfl⟩

/-- The route `/r1/10/20` and its subnet `/r1/10`: `down` is `/r1/10/20` and `up` is `/r1`. -/
theorem down_up_of_prefix_r1_10 :
    let a : SubnetID Nat := ⟨1, [10, 20]⟩
    let b : SubnetID Nat := ⟨1, [10]⟩
    a.root = b.root ∧ b.children <+: a.children ∧
      (b.children.length < a.children.length → a.down b = some ⟨1, [10, 20]⟩) ∧
      (b.children ≠ [] → a.up b = .ok (some ⟨1, []⟩)) := by
  intro a b
  have hpre : b.children <+: a.children := ⟨[20], rfl⟩
  exact ⟨rfl, hpre, down_up_of_prefix rfl hpre⟩

/-- Off a route, `down` and `up` still answer, and `up` panics where the routes share no
first child: `down(/r1/10/20, /r1/30)` is `/r1/10` though `/r1/30` is not on the route,
`up(/r1/10, /r1)` panics, and `up(/r1/10/20, /r1/10/30)` is `/r1`. -/
theorem subnetID_down_up_off_route :
    let a : SubnetID Nat := ⟨1, [10, 20]⟩
    let b : SubnetID Nat := ⟨1, [30]⟩
    let c : SubnetID Nat := ⟨1, [10, 30]⟩
    let r : SubnetID Nat := ⟨1, []⟩
    (¬ b.children <+: a.children ∧ a.down b = some ⟨1, [10]⟩) ∧
      (SubnetID.up ⟨1, [10]⟩ r = .error "attempt to subtract with overflow") ∧
      (¬ c.children <+: a.children ∧ a.up c = .ok (some ⟨1, []⟩)) :=
  ⟨by decide, rfl, ⟨by decide, rfl⟩⟩

end Routes

section Text

variable (addrToString : Address → List Char) (addrFromStr : List Char → Except String Address)

/-- `Display`: `/r`, the root in decimal, and `/` before each child, folded onto the output as
the source's `write!` does. -/
def fmt (self : SubnetID Address) : List Char :=
  let children_str := self.children.foldl (fun output s => output ++ '/' :: addrToString s) []
  ['/', 'r'] ++ Nat.toDigits 10 self.root ++ children_str

/-- `u64::from_str`: an optional `+`, then decimal digits only, of a value below `2^64`. -/
def parseU64 (src : List Char) : Option Nat :=
  let digits := if src.head? = some '+' then src.drop 1 else src
  if digits.isEmpty then none
  else if digits.all Char.isDigit then
    let v := Nat.ofDigitChars 10 digits 0
    if v < 2 ^ 64 then some v else none
  else none

/-- `FromStr`: the segments after the first `/`, the first one the root after its `r`, the
others the children. `segments` is never empty, as the text starts with `/`, so `headD` stands
for the source's indexing without changing what is computed. -/
def fromStr (id : List Char) : Except Error (SubnetID Address) :=
  if !(List.isPrefixOf ['/', 'r'] id) then .error (.InvalidID id "expected to start with '/r'")
  else
    let segments := (id.splitOn '/').drop 1
    match parseU64 ((segments.headD []).drop 1) with
    | none => .error (.InvalidID id "invalid root ID")
    | some root => do
      let children ← (segments.drop 1).mapM fun addr =>
        (addrFromStr addr).mapError fun e =>
          .InvalidID id ("invalid child address " ++ String.ofList addr ++ ": " ++ e)
      pure ⟨root, children⟩

theorem foldl_append_sep (xs : List Address) (l : List Char) :
    xs.foldl (fun output s => output ++ '/' :: addrToString s) l =
      l ++ xs.flatMap fun s => '/' :: addrToString s := by
  induction xs generalizing l with
  | nil => simp
  | cons x xs ih => simp [ih]

theorem append_flatMap_eq_intercalate (xs : List Address) (l : List Char) :
    l ++ xs.flatMap (fun s => '/' :: addrToString s) =
      ['/'].intercalate (l :: xs.map addrToString) := by
  induction xs generalizing l with
  | nil => simp
  | cons x xs ih =>
    rw [List.flatMap_cons, List.map_cons, List.intercalate_cons_cons, ← ih]
    simp

/-- The printed form is the route's parts joined by `/`: an empty part, `r` and the root,
then the children. -/
theorem fmt_eq_intercalate (a : SubnetID Address) :
    fmt addrToString a =
      ['/'].intercalate ([] :: ('r' :: Nat.toDigits 10 a.root) :: a.children.map addrToString) := by
  rw [List.intercalate_cons_cons, ← append_flatMap_eq_intercalate, fmt, foldl_append_sep]
  simp

example : fmt (Nat.toDigits 10) (⟨123, [1001]⟩ : SubnetID Nat) =
    ['/', 'r', '1', '2', '3', '/', '1', '0', '0', '1'] := by decide

/-- A character that is not a decimal digit is not printed in a number: neither the `+` that
`u64::from_str` skips nor the `/` that separates the parts. -/
theorem not_mem_toDigits {c : Char} (hc : c.isDigit = false) (n : Nat) : c ∉ Nat.toDigits 10 n := by
  intro h
  have hdigit := Nat.isDigit_of_mem_toDigits (by decide) (by decide) h
  rw [hc] at hdigit
  exact Bool.false_ne_true hdigit

/-- The decimal digits of a `u64` parse back to it. -/
theorem parseU64_toDigits {n : Nat} (hn : n < 2 ^ 64) : parseU64 (Nat.toDigits 10 n) = some n := by
  have hdigit : ∀ c ∈ Nat.toDigits 10 n, c.isDigit :=
    fun _ hc => Nat.isDigit_of_mem_toDigits (by decide) (by decide) hc
  have hplus : (Nat.toDigits 10 n).head? ≠ some '+' :=
    fun h => not_mem_toDigits (by decide) n (List.mem_of_mem_head? h)
  have hne : (Nat.toDigits 10 n).isEmpty = false := List.isEmpty_eq_false_iff.2 Nat.toDigits_ne_nil
  unfold parseU64
  simp only [if_neg hplus, hne, Bool.false_eq_true, if_false, List.all_eq_true.2 hdigit, if_true,
    Nat.ofDigitChars_ten_toDigits, if_pos hn]

/-- Reading back the printed children gives them back, if every address reads back its own
text. -/
theorem mapM_addrFromStr (haddr : ∀ x, addrFromStr (addrToString x) = .ok x)
    (g : List Char → String → Error) (xs : List Address) :
    ((xs.map addrToString).mapM fun addr => (addrFromStr addr).mapError (g addr)) = .ok xs := by
  induction xs with
  | nil => rfl
  | cons x xs ih =>
    rw [List.map_cons, List.mapM_cons, haddr, ih]
    rfl

/-- `FromStr` reads back what `Display` prints, for a root that is a `u64`, whenever addresses
read back their own text and none prints a `/`. -/
theorem fromStr_fmt (haddr : ∀ x, addrFromStr (addrToString x) = .ok x)
    (hslash : ∀ x, '/' ∉ addrToString x) (a : SubnetID Address) (hroot : a.root < 2 ^ 64) :
    fromStr addrFromStr (fmt addrToString a) = .ok a := by
  have hsplit : (fmt addrToString a).splitOn '/' =
      [] :: ('r' :: Nat.toDigits 10 a.root) :: a.children.map addrToString := by
    rw [fmt_eq_intercalate]
    refine List.splitOn_intercalate '/' ?_ (List.cons_ne_nil _ _)
    intro l hl
    rcases List.mem_cons.1 hl with rfl | hl
    · simp
    rcases List.mem_cons.1 hl with rfl | hl
    · intro hmem
      rcases List.mem_cons.1 hmem with h | h
      · exact absurd h (by decide)
      · exact not_mem_toDigits (by decide) _ h
    obtain ⟨x, -, rfl⟩ := List.mem_map.1 hl
    exact hslash x
  have hstart : List.isPrefixOf ['/', 'r'] (fmt addrToString a) = true := by
    simp [fmt]
  unfold fromStr
  rw [hstart, hsplit]
  simp only [Bool.not_true, Bool.false_eq_true, if_false, List.drop_succ_cons, List.drop_zero,
    List.headD_cons, parseU64_toDigits hroot]
  rw [mapM_addrFromStr addrToString addrFromStr haddr]
  rfl

/-- Decimal addresses read back their own digits and print no `/`, so `/r314/1001/7` reads back
as the subnet it prints. -/
theorem fromStr_fmt_decimal :
    let toStr : Nat → List Char := Nat.toDigits 10
    let ofStr : List Char → Except String Nat := fun s => .ok (Nat.ofDigitChars 10 s 0)
    (∀ x, ofStr (toStr x) = .ok x) ∧ (∀ x, '/' ∉ toStr x) ∧ (314 : Nat) < 2 ^ 64 ∧
      fromStr ofStr (fmt toStr (⟨314, [1001, 7]⟩ : SubnetID Nat)) = .ok ⟨314, [1001, 7]⟩ := by
  intro toStr ofStr
  have hread : ∀ x, ofStr (toStr x) = .ok x := fun x => by
    simp only [ofStr, toStr, Nat.ofDigitChars_ten_toDigits]
  have hslash : ∀ x, '/' ∉ toStr x := not_mem_toDigits (by decide)
  exact ⟨hread, hslash, by decide, fromStr_fmt toStr ofStr hread hslash _ (by decide)⟩

end Text

end SubnetID

end Delorean.Api
