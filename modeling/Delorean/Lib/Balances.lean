import Mathlib

/-!
# Balances over a list of keys

A ledger that keeps a balance per key, the list of keys with a non-zero balance, and a total,
keeps the total equal to the sum of the balances over the keys. These lemmas say what one write
does to that sum: a write at a key not in the list leaves it (`sum_map_update_of_not_mem`), and a
write at a key of a duplicate-free list replaces the key's old balance by the new one
(`sum_map_update_of_mem`). Removing a key by swap-and-pop, as Solidity arrays do it (the last key
takes the removed key's place and the array is popped), leaves the other keys up to order
(`dropLast_set_getLastD_perm`).
-/

namespace List

variable {α M : Type} [DecidableEq α] [AddCommMonoid M]

/-- A write at a key not in the list leaves the sum over the list. -/
theorem sum_map_update_of_not_mem {l : List α} {a : α} (ha : a ∉ l) (f : α → M) (x : M) :
    (l.map (Function.update f a x)).sum = (l.map f).sum := by
  congr 1
  refine List.map_congr_left fun b hb => ?_
  exact Function.update_of_ne (fun h : b = a => ha (h ▸ hb)) x f

/-- A write at a key of a duplicate-free list replaces the key's balance in the sum. -/
theorem sum_map_update_of_mem {l : List α} (hl : l.Nodup) {a : α} (ha : a ∈ l) (f : α → M)
    (x : M) : (l.map (Function.update f a x)).sum + f a = (l.map f).sum + x := by
  have hrest : a ∉ l.erase a := fun h => ((hl.mem_erase_iff).1 h).1 rfl
  rw [← List.sum_map_erase _ ha, ← List.sum_map_erase f ha, sum_map_update_of_not_mem hrest,
    Function.update_self]
  abel

omit [DecidableEq α] in
/-- Swap-and-pop: the last element takes the place of the `i`-th, and the last place is dropped.
The result is the list without its `i`-th element, up to order. -/
theorem dropLast_set_getLastD_perm {l : List α} {i : Nat} (hi : i < l.length) (d : α) :
    (l.set i (l.getLastD d)).dropLast.Perm (l.eraseIdx i) := by
  -- Split the list at the removed place, and the part after it at its last element.
  obtain ⟨front, x, back, rfl, rfl⟩ :
      ∃ front x back, l = front ++ x :: back ∧ front.length = i :=
    ⟨l.take i, l[i], l.drop (i + 1), by rw [← List.drop_eq_getElem_cons, List.take_append_drop],
      List.length_take_of_le hi.le⟩
  have herase : ∀ back : List α, (front ++ x :: back).eraseIdx front.length = front ++ back :=
    fun back => by simp [List.eraseIdx_append_of_length_le le_rfl]
  have hset : ∀ (back : List α) (y : α),
      (front ++ x :: back).set front.length y = front ++ y :: back := fun back y => by simp
  rcases List.eq_nil_or_concat back with rfl | ⟨rest, z, rfl⟩
  · -- The removed element is the last: nothing moves.
    rw [herase, List.getLastD_eq_getLast?, List.getLast?_append_of_ne_nil _ (by simp), hset]
    simp
  · -- The last element `z` moves to the removed place.
    rw [List.concat_eq_append, herase, List.getLastD_eq_getLast?, hset]
    have hlast : (front ++ x :: (rest ++ [z])).getLast?.getD d = z := by
      rw [← List.cons_append, ← List.append_assoc, List.getLast?_concat]
      rfl
    rw [hlast, ← List.cons_append, ← List.append_assoc, List.dropLast_concat]
    exact List.Perm.append_left front (List.perm_append_singleton z rest).symm

end List
