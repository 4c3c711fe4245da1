import Mathlib

/-!
# Reasoning about `Except` computations

Fallible code is modelled in the `Except` monad: a call either returns a value or stops with an
error, and a `do` block stops at its first error. These lemmas take such a block apart without
unfolding `bind`: a successful run of `x >>= f` is a successful `x` followed by a successful `f`
(`bind_eq_ok`), a block that starts from a value or an error evaluates on (`ok_bind`,
`error_bind`), a guard that throws passes or stops the block (`guard_eq_ok`), relabelling
errors keeps a success (`mapError_eq_ok`), a traversal that succeeds succeeded at every element
(`forall₂_of_mapM_eq_ok`), and a loop that appends what each step returns is a traversal whose
lists are flattened (`foldlM_append_eq_ok_iff`).
-/

namespace Except

variable {ε α β : Type}

@[simp]
theorem pure_eq_ok (a : α) : (pure a : Except ε α) = .ok a := rfl

@[simp]
theorem ok_bind (a : α) (f : α → Except ε β) : (Except.ok a >>= f) = f a := rfl

@[simp]
theorem error_bind (e : ε) (f : α → Except ε β) : (Except.error e >>= f) = Except.error e := rfl

/-- A block that succeeds ran its first step successfully and then the rest. -/
theorem bind_eq_ok {x : Except ε α} {f : α → Except ε β} {b : β} :
    (x >>= f) = .ok b ↔ ∃ a, x = .ok a ∧ f a = .ok b := by
  cases x with
  | error e => simp
  | ok a => simp

@[simp]
theorem ok_map (a : α) (f : α → β) : (Except.ok a : Except ε α).map f = .ok (f a) := rfl

/-- A map of a block succeeds when the block does, with the mapped value. -/
theorem map_eq_ok {x : Except ε α} {f : α → β} {b : β} :
    x.map f = .ok b ↔ ∃ a, x = .ok a ∧ f a = b := by
  cases x with
  | error e => simp [Except.map]
  | ok a => simp

/-- Relabelling the error leaves a success as it was. -/
@[simp]
theorem mapError_eq_ok {ε' : Type} {x : Except ε α} {f : ε → ε'} {a : α} :
    x.mapError f = .ok a ↔ x = .ok a := by
  cases x <;> simp [Except.mapError]

/-- A traversal that succeeds maps each element to the value at its position. -/
theorem forall₂_of_mapM_eq_ok {f : α → Except ε β} :
    ∀ {xs : List α} {ys : List β}, xs.mapM f = .ok ys → List.Forall₂ (fun x y => f x = .ok y) xs ys
  | [], ys, h => by
    simp only [List.mapM_nil, pure_eq_ok, Except.ok.injEq] at h
    subst h
    exact .nil
  | x :: xs, ys, h => by
    rw [List.mapM_cons, bind_eq_ok] at h
    obtain ⟨y, hy, h⟩ := h
    rw [bind_eq_ok] at h
    obtain ⟨ys', hys', h⟩ := h
    simp only [pure_eq_ok, Except.ok.injEq] at h
    subst h
    exact .cons hy (forall₂_of_mapM_eq_ok hys')

/-- A loop that appends what each step returns succeeds as the traversal of the steps does, with
the traversal's lists flattened onto the start. -/
theorem foldlM_append_eq_ok_iff {f : α → Except ε (List β)} :
    ∀ {xs : List α} {acc v : List β},
      xs.foldlM (fun v x => do let r ← f x; pure (v ++ r)) acc = .ok v ↔
        ∃ rs, xs.mapM f = .ok rs ∧ v = acc ++ rs.flatten
  | [], acc, v => by simp [eq_comm]
  | x :: xs, acc, v => by
    rw [List.foldlM_cons, List.mapM_cons]
    cases hx : f x with
    | error e => simp
    | ok r =>
      simp only [ok_bind, pure_bind]
      rw [foldlM_append_eq_ok_iff]
      constructor
      · rintro ⟨rs, hrs, rfl⟩
        exact ⟨r :: rs, by rw [hrs]; rfl, by simp⟩
      · rintro ⟨rs', hrs', rfl⟩
        obtain ⟨rs, hrs, h⟩ := bind_eq_ok.1 hrs'
        rw [pure_eq_ok, Except.ok.injEq] at h
        subst h
        exact ⟨rs, hrs, by simp⟩

/-- A guard of a `do` block, `if c then throw e` before the rest `x` (the block elaborates with
`x` in both branches): the block succeeds exactly when the guard passes and the rest succeeds. -/
@[simp]
theorem guard_eq_ok {c : Prop} [Decidable c] {e : ε} {x : Except ε α} {a : α} :
    (if c then (throw e : Except ε PUnit) >>= (fun _ => x) else x) = .ok a ↔ ¬c ∧ x = .ok a := by
  by_cases hc : c
  · rw [if_pos hc]
    -- the guard throws, and the block with it
    refine ⟨fun h => ?_, fun h => absurd hc h.1⟩
    cases h
  · rw [if_neg hc]
    exact ⟨fun h => ⟨hc, h⟩, And.right⟩

end Except
