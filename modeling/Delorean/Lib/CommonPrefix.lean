import Mathlib

/-!
# The longest common prefix of two lists

The length of the longest common prefix of two lists, by its defining property
(`List.IsCommonPrefixLength`): the lists agree on their first `n` elements and, if both go on,
differ at the next one. Counting the equal pairs at the front of `zip` computes it
(`isCommonPrefixLength_takeWhile_zip`). The lemmas are what a routing proof needs of it: it is
unique and symmetric, it is the whole length of a list exactly when the list is a prefix of the
other, and it does not change when one list is cut at or above it.
-/

namespace List

variable {α : Type}

/-- `n` is the length of the longest common prefix of `l₁` and `l₂`. -/
structure IsCommonPrefixLength (l₁ l₂ : List α) (n : Nat) : Prop where
  le_left : n ≤ l₁.length
  le_right : n ≤ l₂.length
  take_eq : l₁.take n = l₂.take n
  getElem_ne : ∀ (h₁ : n < l₁.length) (h₂ : n < l₂.length), l₁[n] ≠ l₂[n]

/-- Two lists that agree on their first `m` elements agree at every position below `m`. -/
theorem getElem_eq_of_take_eq {l₁ l₂ : List α} {m i : Nat} (h : l₁.take m = l₂.take m) (hi : i < m)
    (h₁ : i < l₁.length) (h₂ : i < l₂.length) : l₁[i] = l₂[i] := by
  have hget := congrArg (fun l => l[i]?) h
  simp only [getElem?_take, hi, if_true, getElem?_eq_getElem h₁, getElem?_eq_getElem h₂,
    Option.some.injEq] at hget
  exact hget

/-- A list and a prefix of it of length `k` have a common prefix of length `k`. -/
theorem isCommonPrefixLength_take_self (l : List α) {k : Nat} (hk : k ≤ l.length) :
    IsCommonPrefixLength (l.take k) l k where
  le_left := by simp [hk]
  le_right := hk
  take_eq := by simp
  getElem_ne h₁ _ := absurd h₁ (by simp)

/-- The count of equal pairs at the front of `zip` is the length of the longest common prefix.
The induction is on the first list, the second taken apart alongside. -/
theorem isCommonPrefixLength_takeWhile_zip [DecidableEq α] :
    ∀ l₁ l₂ : List α,
      IsCommonPrefixLength l₁ l₂ ((l₁.zip l₂).takeWhile fun p => decide (p.1 = p.2)).length
  | [], l₂ => ⟨by simp, by simp, by simp, fun h₁ => absurd h₁ (by simp)⟩
  | _ :: _, [] => ⟨by simp, by simp, by simp, fun _ h₂ => absurd h₂ (by simp)⟩
  | a :: as, b :: bs => by
    by_cases hab : a = b
    · subst hab
      obtain ⟨hle₁, hle₂, htake, hne⟩ := isCommonPrefixLength_takeWhile_zip as bs
      simp only [zip_cons_cons, takeWhile_cons, decide_true]
      refine ⟨by simpa using hle₁, by simpa using hle₂, by simp [htake], fun h₁ h₂ => ?_⟩
      simpa using hne (by simpa using h₁) (by simpa using h₂)
    · simp only [zip_cons_cons, takeWhile_cons, decide_eq_true_eq, hab, if_false, length_nil]
      exact ⟨Nat.zero_le _, Nat.zero_le _, by simp, fun _ _ => by simpa using hab⟩

namespace IsCommonPrefixLength

variable {l₁ l₂ : List α} {n : Nat}

theorem symm (h : IsCommonPrefixLength l₁ l₂ n) : IsCommonPrefixLength l₂ l₁ n :=
  ⟨h.le_right, h.le_left, h.take_eq.symm, fun h₂ h₁ heq => h.getElem_ne h₁ h₂ heq.symm⟩

/-- It is the longest: any agreement on a front of both lists is at most as long. -/
theorem le_of_take_eq (h : IsCommonPrefixLength l₁ l₂ n) {m : Nat} (h₁ : m ≤ l₁.length)
    (h₂ : m ≤ l₂.length) (htake : l₁.take m = l₂.take m) : m ≤ n := by
  by_contra hlt
  rw [Nat.not_le] at hlt
  exact h.getElem_ne (by omega) (by omega) (getElem_eq_of_take_eq htake hlt _ _)

theorem unique {m : Nat} (h : IsCommonPrefixLength l₁ l₂ n) (h' : IsCommonPrefixLength l₁ l₂ m) :
    n = m :=
  Nat.le_antisymm (h'.le_of_take_eq h.le_left h.le_right h.take_eq)
    (h.le_of_take_eq h'.le_left h'.le_right h'.take_eq)

/-- Cutting the first list at or above the common prefix keeps it. -/
theorem take_left (h : IsCommonPrefixLength l₁ l₂ n) {k : Nat} (hk : n ≤ k) :
    IsCommonPrefixLength (l₁.take k) l₂ n where
  le_left := by
    have := h.le_left
    simp only [length_take]
    omega
  le_right := h.le_right
  take_eq := by rw [take_take, Nat.min_eq_left hk, h.take_eq]
  getElem_ne h₁ h₂ := by
    rw [getElem_take]
    exact h.getElem_ne (by simp at h₁; omega) h₂

/-- A list is a prefix of the other exactly when the common prefix is the whole of it. -/
theorem prefix_iff (h : IsCommonPrefixLength l₁ l₂ n) : l₁ <+: l₂ ↔ n = l₁.length := by
  constructor
  · intro hpre
    have hlen := hpre.length_le
    have htake : l₁.take l₁.length = l₂.take l₁.length := by
      rw [take_length]
      exact prefix_iff_eq_take.1 hpre
    exact Nat.le_antisymm h.le_left (h.le_of_take_eq le_rfl hlen htake)
  · intro hn
    have htake := h.take_eq
    rw [hn, take_length] at htake
    rw [htake]
    exact take_prefix _ _

/-- The common prefix is not empty exactly when both lists start with the same element. -/
theorem pos_iff (h : IsCommonPrefixLength l₁ l₂ n) : 0 < n ↔ l₁ ≠ [] ∧ l₁.head? = l₂.head? := by
  match l₁, l₂, h with
  | [], _, h => simp [Nat.le_zero.1 h.le_left]
  | _ :: _, [], h => simp [Nat.le_zero.1 h.le_right]
  | a :: as, b :: bs, h =>
    simp only [ne_eq, reduceCtorEq, not_false_eq_true, head?_cons, Option.some.injEq, true_and]
    constructor
    · intro hn
      exact getElem_eq_of_take_eq h.take_eq hn (by simp) (by simp)
    · intro hab
      refine Nat.pos_of_ne_zero fun h0 => ?_
      subst h0
      exact h.getElem_ne (by simp) (by simp) (by simpa using hab)

/-- Above the common prefix, the fronts of the two lists differ. -/
theorem take_ne (h : IsCommonPrefixLength l₁ l₂ n) {k : Nat} (hk : n < k) (h₁ : k ≤ l₁.length)
    (h₂ : k ≤ l₂.length) : l₁.take k ≠ l₂.take k :=
  fun htake => Nat.not_le.2 hk (h.le_of_take_eq h₁ h₂ htake)

end IsCommonPrefixLength

end List
