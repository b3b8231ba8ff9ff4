import Mathlib.Data.List.Basic

/-!
# The entries under the key seen first

A fold that remembers the key of the first entry it is given, and drops the entries of
every other key.
-/

namespace FirstKey

variable {κ α : Type*} [DecidableEq κ]

/-- The state is the key, once an entry was seen, and the values kept. -/
def keep (state : Option κ × List α) (entry : κ × α) : Option κ × List α :=
  match state.1 with
  | none => (some entry.1, state.2 ++ [entry.2])
  | some key => if entry.1 = key then (some key, state.2 ++ [entry.2]) else state

def under (key : κ) (entries : List (κ × α)) : List α :=
  (entries.filter fun entry => entry.1 = key).map Prod.snd

theorem under_cons_self (key : κ) (value : α) (entries : List (κ × α)) :
    under key ((key, value) :: entries) = value :: under key entries := by
  unfold under
  rw [List.filter_cons_of_pos (by simp), List.map_cons]

theorem under_cons_of_ne {key : κ} {entry : κ × α} (h : entry.1 ≠ key)
    (entries : List (κ × α)) : under key (entry :: entries) = under key entries := by
  unfold under
  rw [List.filter_cons_of_neg (by simpa using h)]

/-- No entry is dropped where there is one key. -/
theorem under_map_pair (key : κ) (values : List α) :
    under key (values.map fun value => (key, value)) = values := by
  induction values with
  | nil => rfl
  | cons value values ih => rw [List.map_cons, under_cons_self, ih]

theorem mem_under {key : κ} {value : α} {entries : List (κ × α)}
    (h : value ∈ under key entries) : (key, value) ∈ entries := by
  obtain ⟨⟨key', value'⟩, hentry, rfl⟩ := List.mem_map.mp h
  obtain ⟨hmem, hkey⟩ := List.mem_filter.mp hentry
  rwa [← of_decide_eq_true hkey]

theorem foldl_keep_some (key : κ) (values : List α) (entries : List (κ × α)) :
    entries.foldl keep (some key, values) = (some key, values ++ under key entries) := by
  induction entries generalizing values with
  | nil => exact congrArg (some key, ·) (List.append_nil values).symm
  | cons entry entries ih =>
      rw [List.foldl_cons]
      by_cases hkey : entry.1 = key
      · have hstep : keep (some key, values) entry = (some key, values ++ [entry.2]) :=
          if_pos hkey
        rw [hstep, ih, ← hkey, under_cons_self entry.1 entry.2, List.append_assoc,
          List.singleton_append]
      · have hstep : keep (some key, values) entry = (some key, values) := if_neg hkey
        rw [hstep, ih, under_cons_of_ne hkey]

theorem foldl_keep_cons (entry : κ × α) (entries : List (κ × α)) :
    (entry :: entries).foldl keep (none, []) =
      (some entry.1, under entry.1 (entry :: entries)) := by
  have hstep : keep (none, []) entry = (some entry.1, [entry.2]) := rfl
  rw [List.foldl_cons, hstep, foldl_keep_some, under_cons_self entry.1 entry.2,
    List.singleton_append]

end FirstKey
