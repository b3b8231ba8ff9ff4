import P2pa.Utils.Backoff

/-!
# Timers and probing

`behaviours/mdns_bhv/timer.rs` and `ProbeState` of `iface.rs`.  A timer first fires
at `start` and then every `period`; whether it has fired is the business of the
runtime.
-/

namespace P2pa.Mdns

open Utils

structure Timer where
  start : Instant
  period : Duration
deriving DecidableEq, Repr

namespace Timer

/-- `Timer::at`; the period is `Duration::MAX`. -/
def «at» (instant : Instant) : Timer where
  start := instant
  period := ⟨Duration.maxNanos, Nat.le_refl _⟩

/-- `none` is the panic of tokio on a period of zero. -/
def intervalAt (start : Instant) (duration : Duration) : Option Timer :=
  if duration.nanos = 0 then none else some { start, period := duration }

/-- `none` is, besides, the panic of `now + duration` past the last instant. -/
def interval (now : Instant) (duration : Duration) : Option Timer :=
  (Instant.checkedAdd now duration).bind fun start => intervalAt start duration

theorem interval_eq_some_iff {now : Instant} {duration : Duration} {timer : Timer} :
    interval now duration = some timer ↔
      now + duration.nanos ≤ Instant.maxNanos ∧ duration.nanos ≠ 0 ∧
        timer = { start := now + duration.nanos, period := duration } := by
  unfold interval Instant.checkedAdd intervalAt
  by_cases hlast : now + duration.nanos ≤ Instant.maxNanos
  · by_cases hzero : duration.nanos = 0
    · simp [hzero]
    · simp [hlast, hzero, eq_comm]
  · simp [hlast]

end Timer

inductive ProbeState
  | probing (queryInterval : Duration)
  | finished (queryInterval : Duration)
deriving DecidableEq, Repr

def ProbeState.interval : ProbeState → Duration
  | .probing queryInterval => queryInterval
  | .finished queryInterval => queryInterval

end P2pa.Mdns
