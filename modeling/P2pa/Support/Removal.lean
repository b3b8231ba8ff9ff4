import Mathlib.Data.List.Basic

/-!
# Removing entries of a list by their indices

Each removal shifts the entries behind it, so indices that were collected in one pass over
a list can be removed one after the other if the last one comes first.
-/

namespace Removal

variable {α : Type*}

/-- `none` where the index is out of range. -/
def remove (xs : List α) (i : Nat) : Option (List α) :=
  if i < xs.length then some (xs.eraseIdx i) else none

def removeAll (xs : List α) : List Nat → Option (List α)
  | [] => some xs
  | i :: is => (remove xs i).bind fun xs => removeAll xs is

def indices (p : Nat → Bool) (xs : List α) : List Nat :=
  (xs.zipIdx.filter fun e => p e.2).map Prod.snd

def others (p : Nat → Bool) (xs : List α) : List α :=
  (xs.zipIdx.filter fun e => !p e.2).map Prod.fst

/-! ## One entry more -/

theorem zipIdx_cons (x : α) (xs : List α) :
    (x :: xs).zipIdx = (x, 0) :: xs.zipIdx.map fun e => (e.1, e.2 + 1) := by
  rw [List.zipIdx_cons, List.zipIdx_succ]

theorem indices_cons (p : Nat → Bool) (x : α) (xs : List α) :
    indices p (x :: xs) =
      (if p 0 then [0] else []) ++ (indices (fun i => p (i + 1)) xs).map (· + 1) := by
  unfold indices
  rw [zipIdx_cons, List.filter_cons, List.filter_map]
  cases p 0 <;> simp [Function.comp_def]

theorem others_cons (p : Nat → Bool) (x : α) (xs : List α) :
    others p (x :: xs) =
      (if p 0 then [] else [x]) ++ others (fun i => p (i + 1)) xs := by
  unfold others
  rw [zipIdx_cons, List.filter_cons, List.filter_map]
  cases p 0 <;> simp [Function.comp_def]

theorem remove_cons_succ (x : α) (xs : List α) (i : Nat) :
    remove (x :: xs) (i + 1) = (remove xs i).map (x :: ·) := by
  unfold remove
  rw [List.length_cons]
  by_cases h : i < xs.length
  · rw [if_pos h, if_pos (by omega), List.eraseIdx_cons_succ]
    rfl
  · rw [if_neg h, if_neg (by omega)]
    rfl

theorem removeAll_append (xs : List α) (is js : List Nat) :
    removeAll xs (is ++ js) = (removeAll xs is).bind fun ys => removeAll ys js := by
  induction is generalizing xs with
  | nil => rfl
  | cons i is ih =>
      rw [List.cons_append, removeAll, removeAll, Option.bind_assoc]
      congr 1
      funext ys
      exact ih ys

/-- Behind an entry that stays. -/
theorem removeAll_map_succ (x : α) (xs : List α) (is : List Nat) :
    removeAll (x :: xs) (is.map (· + 1)) = (removeAll xs is).map (x :: ·) := by
  induction is generalizing xs with
  | nil => rfl
  | cons i is ih =>
      rw [List.map_cons, removeAll, removeAll, remove_cons_succ]
      cases remove xs i with
      | none => rfl
      | some ys => exact ih ys

/-- The entries at the indices go and the others stay, in their order. -/
theorem removeAll_indices (p : Nat → Bool) (xs : List α) :
    removeAll xs (indices p xs).reverse = some (others p xs) := by
  induction xs generalizing p with
  | nil => rfl
  | cons x xs ih =>
      rw [indices_cons, others_cons, List.reverse_append, ← List.map_reverse,
        removeAll_append, removeAll_map_succ, ih]
      cases p 0 with
      | true => rfl
      | false => rfl

theorem count_others [DecidableEq α] {p : Nat → Bool} {xs : List α} {x : α}
    (h : ∀ i, xs[i]? = some x → p i = false) : (others p xs).count x = xs.count x := by
  induction xs generalizing p with
  | nil => rfl
  | cons y ys ih =>
      have hrest : (others (fun i => p (i + 1)) ys).count x = ys.count x :=
        ih fun i hi => h (i + 1) (by rw [List.getElem?_cons_succ, hi])
      rw [others_cons, List.count_append, hrest, List.count_cons]
      by_cases hy : y = x
      · have hp : p 0 = false := h 0 (by rw [hy]; rfl)
        rw [hp, hy]
        simp [Nat.add_comm]
      · cases p 0 <;> simp [hy]

end Removal
