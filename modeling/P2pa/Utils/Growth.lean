import P2pa.Support.Guarded
import P2pa.Utils.Backoff

/-!
# How a back-off grows

After any calls of `start_next` the timeout is the one at the last success, or at the
start, times the factor once for each failure since, as long as the product is a
`Duration`.
-/

namespace P2pa.Utils.ExponentialBackoff

open Guarded

/-- A call of `start_next`: when, and the result it is told. -/
abbrev Call := Instant × Bool

def after (b : ExponentialBackoff) (calls : List Call) : ExponentialBackoff :=
  calls.foldl (fun b call => b.startNext call.1 call.2) b

/-- What the timeout grows from: `reset_val` once a success has been reported. -/
def base (b : ExponentialBackoff) (calls : List Call) : Duration :=
  if calls.any fun call => call.2 then b.resetVal else b.timeout

def failures (calls : List Call) : Nat := (calls.reverse.takeWhile fun call => !call.2).length

def Representable (nanos : Nat) : Prop := nanos ≤ Duration.maxNanos

instance (nanos : Nat) : Decidable (Representable nanos) :=
  inferInstanceAs (Decidable (nanos ≤ Duration.maxNanos))

theorem failures_success (calls : List Call) (now : Instant) :
    failures (calls ++ [(now, true)]) = 0 := by
  simp [failures]

theorem failures_failure (calls : List Call) (now : Instant) :
    failures (calls ++ [(now, false)]) = failures calls + 1 := by
  simp [failures]

section Step

variable (b : ExponentialBackoff) (now : Instant)

theorem startNext_success : (b.startNext now true).timeout = b.resetVal := rfl

theorem startNext_failure :
    (b.startNext now false).timeout.nanos =
      guarded Representable (· * b.backoffFactor.toNat) b.timeout.nanos := by
  unfold guarded Representable
  by_cases h : b.timeout.nanos * b.backoffFactor.toNat ≤ Duration.maxNanos
  · have hmul : b.timeout.checkedMul b.backoffFactor =
        some ⟨b.timeout.nanos * b.backoffFactor.toNat, h⟩ := dif_pos h
    simp [startNext, hmul, h]
  · have hmul : b.timeout.checkedMul b.backoffFactor = none := dif_neg h
    simp [startNext, hmul, h]

theorem startNext_settings (result : Bool) :
    (b.startNext now result).resetVal = b.resetVal ∧
      (b.startNext now result).backoffFactor = b.backoffFactor := by
  unfold startNext
  split
  · exact ⟨rfl, rfl⟩
  · split <;> exact ⟨rfl, rfl⟩

end Step

/-! ## Any number of calls -/

theorem after_concat (b : ExponentialBackoff) (calls : List Call) (call : Call) :
    b.after (calls ++ [call]) = (b.after calls).startNext call.1 call.2 := by
  rw [after, List.foldl_concat]
  rfl

theorem after_settings (b : ExponentialBackoff) (calls : List Call) :
    (b.after calls).resetVal = b.resetVal ∧
      (b.after calls).backoffFactor = b.backoffFactor := by
  induction calls using List.reverseRecOn with
  | nil => exact ⟨rfl, rfl⟩
  | append_singleton calls call ih =>
      obtain ⟨hreset, hfactor⟩ := startNext_settings (b.after calls) call.1 call.2
      rw [after_concat, hreset, hfactor]
      exact ih

theorem base_success (b : ExponentialBackoff) (calls : List Call) (now : Instant) :
    b.base (calls ++ [(now, true)]) = b.resetVal := by
  simp [base]

theorem base_failure (b : ExponentialBackoff) (calls : List Call) (now : Instant) :
    b.base (calls ++ [(now, false)]) = b.base calls := by
  have hany : (calls ++ [(now, false)]).any (fun call => call.2) =
      calls.any fun call => call.2 := by
    rw [List.any_append]
    exact Bool.or_false _
  rw [base, hany]
  rfl

/-- The timeout is a guarded product, one step for each failure. -/
theorem after_timeout (b : ExponentialBackoff) (calls : List Call) :
    (b.after calls).timeout.nanos =
      (guarded Representable (· * b.backoffFactor.toNat))^[failures calls]
        (b.base calls).nanos := by
  induction calls using List.reverseRecOn with
  | nil => simp [after, base, failures]
  | append_singleton calls call ih =>
      obtain ⟨now, result⟩ := call
      obtain ⟨hreset, hfactor⟩ := after_settings b calls
      rw [after_concat]
      cases result with
      | true =>
          rw [failures_success, base_success, startNext_success, hreset]
          rfl
      | false =>
          rw [failures_failure, base_failure, Function.iterate_succ_apply', ← ih,
            startNext_failure, hfactor]

theorem leaves_of_one_le {factor : Nat} (h : 1 ≤ factor) (base : Nat) :
    Leaves Representable (· * factor) base := by
  intro i hi
  rw [Function.iterate_succ_apply'] at hi
  exact (Nat.le_mul_of_pos_right _ h).trans hi

theorem mul_iterate (factor base n : Nat) : (· * factor)^[n] base = base * factor ^ n :=
  congrFun (mul_right_iterate factor n) base

structure Grown (b : ExponentialBackoff) (calls : List Call) : Prop where
  /-- A power of the factor for each failure since the last success, but no more than keep
  the product a `Duration`. -/
  power : ∃ j, (b.after calls).timeout.nanos =
      (b.base calls).nanos * b.backoffFactor.toNat ^ j ∧
    IsGreatest {i | i ≤ failures calls ∧
      Representable ((b.base calls).nanos * b.backoffFactor.toNat ^ i)} j
  longer : ∀ now, (b.after calls).timeout ≤ ((b.after calls).startNext now false).timeout
  restored : ∀ now, ((b.after calls).startNext now true).timeout = b.resetVal

theorem backoff_law (b : ExponentialBackoff) (hfactor : 1 ≤ b.backoffFactor)
    (calls : List Call) : Grown b calls := by
  have hpos : 1 ≤ b.backoffFactor.toNat := hfactor
  obtain ⟨hreset, hkept⟩ := after_settings b calls
  have hbase : Representable (b.base calls).nanos := (b.base calls).le_max
  constructor
  · refine ⟨reach Representable (· * b.backoffFactor.toNat) (b.base calls).nanos
      (failures calls), ?_, ?_⟩
    · rw [after_timeout, guarded_iterate hbase (leaves_of_one_le hpos _), mul_iterate]
    · have hgreatest :=
        isGreatest_reach (g := (· * b.backoffFactor.toNat)) hbase (failures calls)
      simpa only [mul_iterate] using hgreatest
  · intro now
    change (b.after calls).timeout.nanos ≤ _
    rw [startNext_failure, hkept]
    exact le_guarded (Nat.le_mul_of_pos_right _ hpos)
  · intro now
    rw [startNext_success, hreset]

theorem backoff_law_default :
    Grown default [(0, false), (1, true), (2, false), (3, false)] :=
  backoff_law default (by decide) _

end P2pa.Utils.ExponentialBackoff
