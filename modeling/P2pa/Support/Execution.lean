import Mathlib.Data.Set.Finite.Basic
import Mathlib.Order.Interval.Set.Infinite
import Mathlib.Order.Interval.Finset.Nat
import P2pa.Support.Machine

/-!
# Runs without end

An execution goes on for as long as some action is enabled, and stays where it is from then
on.  It takes finitely many steps exactly when it gets to a state in which no action is
enabled.
-/

namespace Machine

variable {S A : Type*}

structure Execution (step : S → A → Option S) (init : S) where
  state : Nat → S
  act : Nat → A
  start : state 0 = init
  next : ∀ i, step (state i) (act i) = some (state (i + 1)) ∨
    (∀ a, step (state i) a = none) ∧ state (i + 1) = state i

namespace Execution

variable {step : S → A → Option S} {init : S} (e : Execution step init)

def steps (n : Nat) : Set Nat :=
  {i | n ≤ i ∧ step (e.state i) (e.act i) = some (e.state (i + 1))}

variable {e} {n : Nat}

theorem invariant (Inv : S → Prop)
    (hstep : ∀ i, n ≤ i → Inv (e.state i) →
      step (e.state i) (e.act i) = some (e.state (i + 1)) → Inv (e.state (i + 1)))
    (hn : Inv (e.state n)) {i : Nat} (hi : n ≤ i) : Inv (e.state i) := by
  induction i, hi using Nat.le_induction with
  | base => exact hn
  | succ i hi ih =>
      rcases e.next i with htaken | ⟨-, hstays⟩
      · exact hstep i hi ih htaken
      · rw [hstays]
        exact ih

theorem finite_steps_iff :
    (e.steps n).Finite ↔ ∃ i, n ≤ i ∧ ∀ a, step (e.state i) a = none := by
  constructor
  · intro hfinite
    by_contra hgoes
    have hall : e.steps n = Set.Ici n := by
      ext i
      refine ⟨fun h => h.1, fun hi => ⟨hi, ?_⟩⟩
      rcases e.next i with htaken | ⟨hnone, -⟩
      · exact htaken
      · exact absurd ⟨i, hi, hnone⟩ hgoes
    rw [hall] at hfinite
    exact Set.Ici_infinite n hfinite
  · rintro ⟨i, -, hnone⟩
    apply (Set.finite_Iio i).subset
    rintro j ⟨-, htaken⟩
    by_contra hj
    rw [Set.mem_Iio, not_lt] at hj
    have hrests : ∀ a, step (e.state j) a = none := by
      refine e.invariant (fun s => ∀ a, step s a = none) (fun k _ hk hstep => ?_) hnone hj
      rw [hk (e.act k)] at hstep
      cases hstep
    rw [hrests] at htaken
    cases htaken

end Execution

end Machine
