import Mathlib

/-!
# A map under a sequence of writes

A store keyed by some index, written by a sequence of `(key, value)` writes, answers a lookup with
the last write to that key, or with what it held before the writes when there is none: the last
writer wins. `AList.insertAll` applies the writes in order, and `lookup_insertAll` is that rule;
`AList.writeAll` also erases, on a write of `none`, and `lookup_writeAll` is the same rule for it.
-/

namespace AList

variable {α β : Type} [DecidableEq α]

/-- Apply the writes `ws` to `m`, first to last. -/
def insertAll (ws : List (α × β)) (m : AList fun _ : α => β) : AList fun _ : α => β :=
  ws.foldl (fun m w => m.insert w.1 w.2) m

/-- The last write to a key, if any. -/
def lastWrite (ws : List (α × β)) (k : α) : Option β :=
  (ws.reverse.find? fun w => decide (w.1 = k)).map Prod.snd

@[simp]
theorem insertAll_nil (m : AList fun _ : α => β) : insertAll [] m = m := rfl

theorem insertAll_append (ws ws' : List (α × β)) (m : AList fun _ : α => β) :
    insertAll (ws ++ ws') m = insertAll ws' (insertAll ws m) := by
  simp [insertAll, List.foldl_append]

@[simp]
theorem lastWrite_nil (k : α) : lastWrite ([] : List (α × β)) k = none := rfl

/-- Changing the values of the writes changes the last write the same way. -/
theorem lastWrite_map_snd {γ : Type} (ws : List (α × β)) (f : β → γ) (k : α) :
    lastWrite (ws.map fun w => (w.1, f w.2)) k = (lastWrite ws k).map f := by
  unfold lastWrite
  rw [← List.map_reverse, List.find?_map, Option.map_map, Option.map_map]
  rfl

/-- Renaming the keys of the writes injectively keeps the last write to each key. -/
theorem lastWrite_map_fst {α' : Type} [DecidableEq α'] {f : α → α'} (hf : Function.Injective f)
    (ws : List (α × β)) (k : α) :
    lastWrite (ws.map fun w => (f w.1, w.2)) (f k) = lastWrite ws k := by
  unfold lastWrite
  rw [← List.map_reverse, List.find?_map, Option.map_map]
  simp only [Function.comp_def, hf.eq_iff]

/-- A write appended at the end is the last one to its key. -/
theorem lastWrite_append_singleton (ws : List (α × β)) (w : α × β) (k : α) :
    lastWrite (ws ++ [w]) k = if w.1 = k then some w.2 else lastWrite ws k := by
  by_cases hw : w.1 = k
  · simp [lastWrite, hw]
  · simp [lastWrite, hw]

theorem lastWrite_append (ws ws' : List (α × β)) (k : α) :
    lastWrite (ws ++ ws') k = (lastWrite ws' k).or (lastWrite ws k) := by
  simp [lastWrite, List.find?_append, Option.map_or]

theorem lastWrite_eq_none_iff {ws : List (α × β)} {k : α} :
    lastWrite ws k = none ↔ ∀ w ∈ ws, w.1 ≠ k := by
  simp [lastWrite]

/-- The last write to a key is one of the writes. -/
theorem mem_of_lastWrite_eq_some {ws : List (α × β)} {k : α} {b : β} (h : lastWrite ws k = some b) :
    (k, b) ∈ ws := by
  obtain ⟨w, hw, rfl⟩ := Option.map_eq_some_iff.1 h
  have hmem := List.mem_reverse.1 (List.mem_of_find?_eq_some hw)
  have hk : w.1 = k := by simpa using List.find?_some hw
  rw [← hk]
  exact hmem

/-- When every write to a key writes the same value, the last one does. -/
theorem lastWrite_eq_some_of_forall {ws : List (α × β)} {k : α} {b : β} (hmem : (k, b) ∈ ws)
    (hall : ∀ w ∈ ws, w.1 = k → w.2 = b) : lastWrite ws k = some b := by
  cases h : lastWrite ws k with
  | none => exact absurd rfl (lastWrite_eq_none_iff.1 h _ hmem)
  | some b' => exact congrArg some (hall _ (mem_of_lastWrite_eq_some h) rfl)

/-- The last writer wins: a lookup after the writes returns the last write to the key, and what
the map held before when no write touched it. The induction is on the writes from the back. -/
theorem lookup_insertAll (ws : List (α × β)) (m : AList fun _ : α => β) (k : α) :
    (insertAll ws m).lookup k = (lastWrite ws k).or (m.lookup k) := by
  induction ws using List.reverseRecOn with
  | nil => simp
  | append_singleton ws w ih =>
    rw [insertAll_append, lastWrite_append_singleton]
    by_cases hw : w.1 = k
    · subst hw
      simp [insertAll]
    · simp only [insertAll, List.foldl_cons, List.foldl_nil, if_neg hw]
      rw [lookup_insert_ne (Ne.symm hw)]
      exact ih

/-- Apply the writes `ws` to `m`, first to last: a write of `some b` sets the key to `b`, a write of
`none` erases it. -/
def writeAll (ws : List (α × Option β)) (m : AList fun _ : α => β) : AList fun _ : α => β :=
  ws.foldl (fun m w => match w.2 with | some b => m.insert w.1 b | none => m.erase w.1) m

/-- The last writer wins, erasures included. -/
theorem lookup_writeAll (ws : List (α × Option β)) (m : AList fun _ : α => β) (k : α) :
    (writeAll ws m).lookup k = (lastWrite ws k).getD (m.lookup k) := by
  induction ws using List.reverseRecOn with
  | nil => simp [writeAll]
  | append_singleton ws w ih =>
    rw [lastWrite_append_singleton]
    obtain ⟨k', b⟩ := w
    by_cases hw : k' = k
    · subst hw
      cases b <;> simp [writeAll, List.foldl_append]
    · simp only [writeAll, List.foldl_append, List.foldl_cons, List.foldl_nil, if_neg hw]
      cases b with
      | none => rw [lookup_erase_ne (Ne.symm hw)]; exact ih
      | some b => rw [lookup_insert_ne (Ne.symm hw)]; exact ih

/-! ### Weights

A map to natural numbers read as weights: what a set of keys weighs is at most the sum of all the
values. -/

/-- The values a set of keys looks up add up to at most the sum of all the values. The induction
is on the entries: the head's key counts once, and every other key looks past the head. -/
theorem sum_getD_lookup_le (m : AList fun _ : α => ℕ) (S : Finset α) :
    ∑ k ∈ S, (m.lookup k).getD 0 ≤ (m.entries.map Sigma.snd).sum := by
  obtain ⟨l, hl⟩ := m
  show ∑ k ∈ S, (l.dlookup k).getD 0 ≤ (l.map Sigma.snd).sum
  -- No duplicate keys are needed: a lookup finds the first entry of its key.
  clear hl
  induction l generalizing S with
  | nil => simp
  | cons e t ih =>
    by_cases he : e.1 ∈ S
    · have htail : ∀ k ∈ S.erase e.1, ((e :: t).dlookup k).getD 0 = (t.dlookup k).getD 0 :=
        fun k hk => by rw [List.dlookup_cons_ne t e (Finset.ne_of_mem_erase hk)]
      calc ∑ k ∈ S, ((e :: t).dlookup k).getD 0
          = e.2 + ∑ k ∈ S.erase e.1, (t.dlookup k).getD 0 := by
            rw [← Finset.add_sum_erase S _ he, Finset.sum_congr rfl htail, List.dlookup_cons_eq]
            rfl
        _ ≤ e.2 + (t.map Sigma.snd).sum := Nat.add_le_add_left (ih _) _
        _ = ((e :: t).map Sigma.snd).sum := by simp
    · have hrest : ∀ k ∈ S, ((e :: t).dlookup k).getD 0 = (t.dlookup k).getD 0 :=
        fun k hk => by rw [List.dlookup_cons_ne t e (fun h => he (h ▸ hk))]
      calc ∑ k ∈ S, ((e :: t).dlookup k).getD 0 = ∑ k ∈ S, (t.dlookup k).getD 0 :=
            Finset.sum_congr rfl hrest
        _ ≤ (t.map Sigma.snd).sum := ih S
        _ ≤ ((e :: t).map Sigma.snd).sum := by simp

end AList
