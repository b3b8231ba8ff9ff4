import Mathlib

/-!
# Durations, instants and the exponential back-off

The arithmetic of `std::time` that the program uses, and `ExponentialBackoff` of
`utils.rs`.  The clock is an argument: a function that reads `Instant::now()`
takes the instant it reads.
-/

namespace P2pa.Utils

def Duration.maxNanos : Nat := (2 ^ 64 - 1) * 1000000000 + 999999999

/-- `std::time::Duration`, as its number of nanoseconds. -/
structure Duration where
  nanos : Nat
  le_max : nanos ≤ Duration.maxNanos
deriving DecidableEq, Repr

/-- `std::time::Instant`: nanoseconds on the monotonic clock. -/
abbrev Instant := Nat

namespace Duration

@[ext] theorem ext {d e : Duration} (h : d.nanos = e.nanos) : d = e := by
  cases d
  cases e
  cases h
  rfl

instance : LE Duration := ⟨fun d e => d.nanos ≤ e.nanos⟩
instance : LT Duration := ⟨fun d e => d.nanos < e.nanos⟩
instance (d e : Duration) : Decidable (d ≤ e) :=
  inferInstanceAs (Decidable (d.nanos ≤ e.nanos))
instance (d e : Duration) : Decidable (d < e) :=
  inferInstanceAs (Decidable (d.nanos < e.nanos))

def fromSecs (secs : UInt64) : Duration where
  nanos := secs.toNat * 1000000000
  le_max := by
    have := secs.toNat_lt
    unfold maxNanos
    omega

def fromMillis (millis : UInt64) : Duration where
  nanos := millis.toNat * 1000000
  le_max := by
    have := millis.toNat_lt
    unfold maxNanos
    omega

def asSecs (d : Duration) : Nat := d.nanos / 1000000000

def subsecNanos (d : Duration) : Nat := d.nanos % 1000000000

def checkedAdd (d e : Duration) : Option Duration :=
  if h : d.nanos + e.nanos ≤ maxNanos then some ⟨d.nanos + e.nanos, h⟩ else none

def checkedMul (d : Duration) (factor : UInt32) : Option Duration :=
  if h : d.nanos * factor.toNat ≤ maxNanos then some ⟨d.nanos * factor.toNat, h⟩
  else none

end Duration

/-- The last instant there is: the seconds of an `Instant` are a signed 64-bit number. -/
def Instant.maxNanos : Nat := (2 ^ 63 - 1) * 1000000000 + 999999999

def Instant.checkedAdd (instant : Instant) (d : Duration) : Option Instant :=
  if instant + d.nanos ≤ Instant.maxNanos then some (instant + d.nanos) else none

/-- `Instant::elapsed` at the instant `now`; it saturates at zero. -/
def elapsed (started now : Instant) : Nat := now - started

structure ExponentialBackoff where
  resetVal : Duration
  backoffFactor : UInt32
  timeout : Duration
  started : Option Instant
deriving DecidableEq, Repr

namespace ExponentialBackoff

/-- `none` is the panic of `next_timeout * backoff_factor`. -/
def new (backoffFactor : UInt32) (nextTimeout : Duration) : Option ExponentialBackoff :=
  (nextTimeout.checkedMul backoffFactor).map fun timeout =>
    { resetVal := nextTimeout, backoffFactor, timeout, started := none }

def default : ExponentialBackoff where
  resetVal := .fromMillis 500
  backoffFactor := 2
  timeout := .fromMillis 500
  started := none

def startNext (b : ExponentialBackoff) (now : Instant) (result : Bool) :
    ExponentialBackoff :=
  if result then
    { b with timeout := b.resetVal, started := some now }
  else
    match b.timeout.checkedMul b.backoffFactor with
    | some r => { b with timeout := r, started := some now }
    | none => { b with started := some now }

def isExpired (b : ExponentialBackoff) (now : Instant) : Bool :=
  match b.started with
  | some started => b.timeout.nanos < elapsed started now
  | none => true

@[simp] theorem startNext_started (b : ExponentialBackoff) (now : Instant)
    (result : Bool) : (b.startNext now result).started = some now := by
  unfold startNext
  split
  · rfl
  · split <;> rfl

@[simp] theorem isExpired_default (now : Instant) : default.isExpired now = true := rfl

/-- A back-off started at this very instant has not expired, whatever its timeout. -/
@[simp] theorem isExpired_startNext (b : ExponentialBackoff) (now : Instant)
    (result : Bool) : (b.startNext now result).isExpired now = false := by
  simp [isExpired, elapsed]

end ExponentialBackoff

end P2pa.Utils
