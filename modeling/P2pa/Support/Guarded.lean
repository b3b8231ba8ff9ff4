import Mathlib.Data.Nat.Find
import Mathlib.Logic.Function.Iterate
import Mathlib.Order.Bounds.Defs

/-!
# A step that is only taken where it is allowed

`guarded ok g` takes the step `g` where its result is allowed and stays where it is
elsewhere.  Where the iterates of `g` never come back to what is allowed, the iterates of
the guarded step are those of `g` up to the last one allowed, and rest there.
-/

namespace Guarded

variable {α : Type*}

/-- Once an iterate is not allowed none after it is. -/
def Leaves (ok : α → Prop) (g : α → α) (x : α) : Prop :=
  ∀ i, ok (g^[i + 1] x) → ok (g^[i] x)

theorem Leaves.of_le {ok : α → Prop} {g : α → α} {x : α} (h : Leaves ok g x) {i j : Nat}
    (hij : i ≤ j) (hj : ok (g^[j] x)) : ok (g^[i] x) := by
  induction j, hij using Nat.le_induction with
  | base => exact hj
  | succ j _ ih => exact ih (h j hj)

section Step

variable (ok : α → Prop) [DecidablePred ok] (g : α → α)

def guarded (x : α) : α := if ok (g x) then g x else x

/-- The greatest number of steps, `n` at most, after which the iterate is allowed. -/
def reach (x : α) (n : Nat) : Nat := Nat.findGreatest (fun i => ok (g^[i] x)) n

end Step

variable {ok : α → Prop} [DecidablePred ok] {g : α → α} {x : α}

theorem isGreatest_reach (hx : ok x) (n : Nat) :
    IsGreatest {i | i ≤ n ∧ ok (g^[i] x)} (reach ok g x n) := by
  constructor
  · have hzero : ok (g^[0] x) := hx
    exact ⟨Nat.findGreatest_le n,
      Nat.findGreatest_spec (P := fun i => ok (g^[i] x)) (Nat.zero_le n) hzero⟩
  · rintro i ⟨hin, hi⟩
    exact Nat.le_findGreatest hin hi

theorem guarded_iterate (hx : ok x) (h : Leaves ok g x) (n : Nat) :
    (guarded ok g)^[n] x = g^[reach ok g x n] x := by
  induction n with
  | zero => rfl
  | succ n ih =>
      obtain ⟨⟨hle, -⟩, hmax⟩ := isGreatest_reach (g := g) hx n
      rw [Function.iterate_succ_apply', ih, guarded, ← Function.iterate_succ_apply' g]
      by_cases hnext : ok (g^[reach ok g x n + 1] x)
      · -- nothing is left out: one more step is allowed only after all `n`
        have hall : reach ok g x n = n := by
          by_contra hne
          have := hmax ⟨by omega, hnext⟩
          omega
        rw [if_pos hnext, hall]
        rw [hall] at hnext
        rw [reach, Nat.findGreatest_eq hnext]
      · have hlast : ¬ ok (g^[n + 1] x) := fun hok => hnext (h.of_le (by omega) hok)
        rw [if_neg hnext]
        congr 1
        exact (Nat.findGreatest_of_not hlast).symm

theorem le_guarded [Preorder α] (h : x ≤ g x) : x ≤ guarded ok g x := by
  unfold guarded
  split
  · exact h
  · exact le_refl x

end Guarded
