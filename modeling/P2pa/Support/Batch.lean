import Mathlib.Data.List.Basic
import Mathlib.Data.List.Range

/-!
# Cutting a list into batches

`batch n xs k` is the `k`-th of the consecutive batches of `n` entries `xs` is cut
into; the last of them may be shorter, and those after it are empty.
-/

namespace Batch

variable {α : Type*}

def batch (n : Nat) (xs : List α) (k : Nat) : List α := (xs.drop (n * k)).take n

theorem length_batch_le (n : Nat) (xs : List α) (k : Nat) : (batch n xs k).length ≤ n := by
  rw [batch, List.length_take]
  exact Nat.min_le_left _ _

theorem mem_of_mem_batch {n : Nat} {xs : List α} {k : Nat} {x : α} (h : x ∈ batch n xs k) :
    x ∈ xs := List.mem_of_mem_drop (List.mem_of_mem_take h)

theorem batch_append_zero {n : Nat} {xs : List α} (ys : List α) (h : xs.length = n) :
    batch n (xs ++ ys) 0 = xs := by
  rw [batch, Nat.mul_zero, List.drop_zero, ← h, List.take_left]

theorem drop_append_succ {n : Nat} {xs : List α} (ys : List α) (k : Nat)
    (h : xs.length = n) : (xs ++ ys).drop (n * (k + 1)) = ys.drop (n * k) := by
  have hsplit : n * (k + 1) = xs.length + n * k := by
    rw [h, Nat.mul_succ, Nat.add_comm]
  rw [hsplit, List.drop_length_add_append]

theorem batch_append_succ {n : Nat} {xs : List α} (ys : List α) (k : Nat)
    (h : xs.length = n) : batch n (xs ++ ys) (k + 1) = batch n ys k := by
  rw [batch, batch, drop_append_succ ys k h]

theorem batch_of_rest {n : Nat} {xs : List α} {k : Nat} (h : (xs.drop (n * k)).length ≤ n) :
    batch n xs k = xs.drop (n * k) := List.take_of_length_le h

theorem flatMap_range_batch (n m : Nat) (xs : List α) :
    (List.range m).flatMap (batch n xs) = xs.take (n * m) := by
  induction m with
  | zero => simp
  | succ m ih =>
      rw [List.range_succ, List.flatMap_append, ih, List.flatMap_singleton, batch,
        Nat.mul_succ, List.take_add]

end Batch
