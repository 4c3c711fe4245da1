import Mathlib

/-!
# Reachable states of a transition system

A system is given by the predicate its initial states satisfy and a step relation. A state is
reachable when some run of steps leads to it from an initial state. The one proof rule here is
the invariant rule: a property of the initial states that every step preserves holds of every
reachable state. `Reachable.invariant` states it once, so that each safety result about a system
is two small goals, and `Reachable.invariant_of_reachable` lets a step's proof use facts already
known of every reachable state.
-/

variable {σ : Type} {init : σ → Prop} {step : σ → σ → Prop}

/-- `s` is reached from an initial state by finitely many steps. -/
def Reachable (init : σ → Prop) (step : σ → σ → Prop) (s : σ) : Prop :=
  ∃ s₀, init s₀ ∧ Relation.ReflTransGen step s₀ s

namespace Reachable

theorem of_init {s : σ} (h : init s) : Reachable init step s := ⟨s, h, .refl⟩

theorem tail {s s' : σ} (h : Reachable init step s) (hs : step s s') :
    Reachable init step s' := by
  obtain ⟨s₀, h₀, hrun⟩ := h
  exact ⟨s₀, h₀, hrun.tail hs⟩

/-- The invariant rule: what holds initially and is kept by every step holds of every reachable
state. -/
theorem invariant {I : σ → Prop} (h₀ : ∀ s, init s → I s)
    (hstep : ∀ s s', I s → step s s' → I s') {s : σ} (h : Reachable init step s) : I s := by
  obtain ⟨s₀, hi, hrun⟩ := h
  induction hrun with
  | refl => exact h₀ s₀ hi
  | tail _ hs ih => exact hstep _ _ ih hs

/-- The invariant rule where a step may also use a property `J` already known of every reachable
state. -/
theorem invariant_of_reachable {I J : σ → Prop} (hJ : ∀ s, Reachable init step s → J s)
    (h₀ : ∀ s, init s → I s) (hstep : ∀ s s', J s → I s → step s s' → I s') {s : σ}
    (h : Reachable init step s) : I s := by
  have hIJ : I s ∧ Reachable init step s := by
    refine invariant (I := fun s => I s ∧ Reachable init step s)
      (fun s hs => ⟨h₀ s hs, of_init hs⟩) (fun s s' hs hst => ?_) h
    exact ⟨hstep s s' (hJ s hs.2) hs.1 hst, hs.2.tail hst⟩
  exact hIJ.1

end Reachable
