import P2pa.Support.Machine
import P2pa.Utils.Growth

/-!
# How far apart the calls of a back-off are

Calls that are each made once the back-off has expired.  Neighbours are further apart than the
timeout between them, so that failures in a row are as far apart as a geometric series grows.
-/

namespace P2pa.Utils.ExponentialBackoff

/-- Each call is made when the back-off that the calls before it have left has expired. -/
def Spaced : ExponentialBackoff → List Call → Prop
  | _, [] => True
  | b, call :: rest => b.isExpired call.1 = true ∧ Spaced (b.startNext call.1 call.2) rest

theorem spaced_cons {b : ExponentialBackoff} {call : Call} {rest : List Call} :
    b.Spaced (call :: rest) ↔
      b.isExpired call.1 = true ∧ (b.startNext call.1 call.2).Spaced rest := Iff.rfl

theorem after_append (b : ExponentialBackoff) (calls more : List Call) :
    b.after (calls ++ more) = (b.after calls).after more := List.foldl_append

theorem spaced_append {b : ExponentialBackoff} {calls more : List Call} :
    b.Spaced (calls ++ more) ↔ b.Spaced calls ∧ (b.after calls).Spaced more := by
  induction calls generalizing b with
  | nil => exact (and_iff_right trivial).symm
  | cons call calls ih =>
      have hafter : b.after (call :: calls) = (b.startNext call.1 call.2).after calls := rfl
      rw [List.cons_append, hafter, spaced_cons, spaced_cons, ih, and_assoc]

def retry (b : ExponentialBackoff) (call : Call) : Option ExponentialBackoff :=
  if b.isExpired call.1 then some (b.startNext call.1 call.2) else none

theorem spaced_of_run {b b' : ExponentialBackoff} {calls : List Call}
    (hrun : Machine.run retry b calls = some b') : b.Spaced calls ∧ b' = b.after calls := by
  induction calls generalizing b with
  | nil =>
      cases hrun
      exact ⟨trivial, rfl⟩
  | cons call calls ih =>
      obtain ⟨u, hu, hrest⟩ := Option.bind_eq_some_iff.mp hrun
      obtain ⟨hexpired, hnext⟩ := Option.ite_none_right_eq_some.mp hu
      cases hnext
      obtain ⟨hspaced, hafter⟩ := ih hrest
      exact ⟨⟨hexpired, hspaced⟩, hafter⟩

theorem lt_of_isExpired {b : ExponentialBackoff} {now next : Instant} {result : Bool}
    (h : (b.startNext now result).isExpired next = true) :
    now + (b.startNext now result).timeout.nanos < next := by
  unfold isExpired elapsed at h
  rw [startNext_started, decide_eq_true_eq, Nat.lt_sub_iff_add_lt, Nat.add_comm] at h
  exact h

/-! ## The least distance -/

def Floored (b : ExponentialBackoff) : Prop := b.resetVal ≤ b.timeout ∧ 1 ≤ b.backoffFactor

theorem floored_startNext {b : ExponentialBackoff} (h : b.Floored) (now : Instant)
    (result : Bool) : (b.startNext now result).Floored := by
  obtain ⟨hreset, hfactor⟩ := startNext_settings b now result
  unfold Floored
  rw [hreset, hfactor]
  refine ⟨?_, h.2⟩
  cases result with
  | true => exact le_refl b.resetVal.nanos
  | false =>
      have hpos : 1 ≤ b.backoffFactor.toNat := h.2
      change b.resetVal.nanos ≤ (b.startNext now false).timeout.nanos
      rw [startNext_failure]
      exact h.1.trans (Guarded.le_guarded (Nat.le_mul_of_pos_right _ hpos))

theorem floored_after {b : ExponentialBackoff} (h : b.Floored) (calls : List Call) :
    (b.after calls).Floored := by
  induction calls generalizing b with
  | nil => exact h
  | cons call calls ih => exact ih (floored_startNext h call.1 call.2)

theorem gap {b : ExponentialBackoff} {first second : Call} {rest : List Call}
    (hspaced : b.Spaced (first :: second :: rest)) :
    first.1 + (b.startNext first.1 first.2).timeout.nanos < second.1 :=
  lt_of_isExpired hspaced.2.1

theorem gap_floor {b : ExponentialBackoff} (h : b.Floored) {first second : Call}
    {rest : List Call} (hspaced : b.Spaced (first :: second :: rest)) :
    first.1 + b.resetVal.nanos < second.1 := by
  have hfloor := (floored_startNext h first.1 first.2).1
  rw [(startNext_settings b first.1 first.2).1] at hfloor
  exact (Nat.add_le_add_left hfloor _).trans_lt (gap hspaced)

/-- Any two calls are further apart than `reset_val` for each call from one to the other. -/
theorem apart {b : ExponentialBackoff} (h : b.Floored) {first last : Call}
    {between rest : List Call} (hspaced : b.Spaced (first :: between ++ last :: rest)) :
    first.1 + (between.length + 1) * b.resetVal.nanos < last.1 := by
  induction between generalizing b first with
  | nil =>
      rw [List.length_nil, Nat.zero_add, Nat.one_mul]
      exact gap_floor h hspaced
  | cons second between ih =>
      have hrest := ih (floored_startNext h first.1 first.2) hspaced.2
      rw [(startNext_settings b first.1 first.2).1] at hrest
      calc first.1 + (between.length + 1 + 1) * b.resetVal.nanos
          = first.1 + b.resetVal.nanos + (between.length + 1) * b.resetVal.nanos := by ring
        _ < second.1 + (between.length + 1) * b.resetVal.nanos :=
            Nat.add_lt_add_right (gap_floor h hspaced) _
        _ < last.1 := hrest

/-! ## Failures in a row -/

theorem startNext_failure_fits {b : ExponentialBackoff} (now : Instant)
    (hfits : Representable (b.timeout.nanos * b.backoffFactor.toNat)) :
    (b.startNext now false).timeout.nanos = b.timeout.nanos * b.backoffFactor.toNat := by
  rw [startNext_failure, Guarded.guarded, if_pos hfits]

theorem fits_first {factor base n : Nat}
    (hfits : Representable (base * factor ^ (n + 1))) : Representable (base * factor) := by
  refine le_trans (Nat.mul_le_mul_left base ?_) hfits
  exact Nat.le_self_pow n.succ_ne_zero factor

/-- The call after some failures in a row is later than the first of them by the sum of the
timeouts between. -/
theorem slower {b : ExponentialBackoff} {first next : Call} {failed rest : List Call}
    (hspaced : b.Spaced (first :: failed ++ next :: rest))
    (hfailed : ∀ call ∈ first :: failed, call.2 = false)
    (hfits : Representable (b.timeout.nanos * b.backoffFactor.toNat ^ (failed.length + 1))) :
    first.1 + ∑ k ∈ Finset.range (failed.length + 1),
      b.timeout.nanos * b.backoffFactor.toNat ^ (k + 1) < next.1 := by
  induction failed generalizing b first with
  | nil =>
      have hgap := gap hspaced
      rw [hfailed first List.mem_cons_self,
        startNext_failure_fits _ (fits_first hfits)] at hgap
      simpa using hgap
  | cons second failed ih =>
      have hgap := gap hspaced
      obtain ⟨-, hkept⟩ := startNext_settings b first.1 first.2
      have htimeout : (b.startNext first.1 first.2).timeout.nanos =
          b.timeout.nanos * b.backoffFactor.toNat := by
        rw [hfailed first List.mem_cons_self]
        exact startNext_failure_fits _ (fits_first hfits)
      have hfits' : Representable ((b.startNext first.1 first.2).timeout.nanos *
          (b.startNext first.1 first.2).backoffFactor.toNat ^ (failed.length + 1)) := by
        rwa [htimeout, hkept, mul_assoc, ← pow_succ']
      have hrest := ih hspaced.2
        (fun call hcall => hfailed call (List.mem_cons_of_mem _ hcall)) hfits'
      rw [htimeout] at hgap
      rw [htimeout, hkept] at hrest
      rw [List.length_cons, Finset.sum_range_succ', zero_add, pow_one]
      simp only [mul_assoc, ← pow_succ'] at hrest
      calc first.1 + (_ + b.timeout.nanos * b.backoffFactor.toNat)
          = first.1 + b.timeout.nanos * b.backoffFactor.toNat + _ := by
            rw [Nat.add_comm _ (b.timeout.nanos * _), Nat.add_assoc]
        _ < second.1 + _ := Nat.add_lt_add_right hgap _
        _ < next.1 := hrest

end P2pa.Utils.ExponentialBackoff
