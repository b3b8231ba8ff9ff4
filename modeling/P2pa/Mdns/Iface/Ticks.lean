import P2pa.Mdns.Iface.Probing

/-!
# What a tick of an interface's timer can panic on

A tick doubles the probe interval while the task is probing, and arms the next timer.  The
intervals come from the configuration, so whether either is possible depends on them and on
the clock.
-/

namespace P2pa.Mdns.Iface

open Utils Wire

def InterfaceState.rearm (s : InterfaceState) (now : Instant) : Option InterfaceState :=
  (probe s).bind fun s => s.resetTimer now

/-- The tick of the round, if there is one, does not panic over the timer. -/
def TickSafe (s : InterfaceState) (r : Round) : Prop :=
  ∀ now id, r.tick = some (now, id) → (s.rearm now).isSome

/-- While the task probes with the interval `probe`, the double of it is a `Duration`, and
the timer that the tick arms fires before the last instant. -/
structure TickFits (probe : Duration) (s : InterfaceState) (now : Instant) : Prop where
  doubled : s.probeState = .probing probe → probe.nanos * 2 ≤ Duration.maxNanos
  probing : s.probeState = .probing probe → probe.nanos * 2 < s.queryInterval.nanos →
    now + probe.nanos ≤ Instant.maxNanos
  querying : (s.probeState = .probing probe → s.queryInterval.nanos ≤ probe.nanos * 2) →
    now + s.queryInterval.nanos ≤ Instant.maxNanos

structure Timed (settings : Settings) (probe : Duration) (s : InterfaceState) : Prop where
  sameSettings : s.toSettings = settings
  armed : Armed s
  probing : ∀ p, s.probeState = .probing p → p = probe

theorem resetTimer_isSome_iff (s : InterfaceState) (now : Instant) :
    (s.resetTimer now).isSome ↔
      now + s.probeState.interval.nanos ≤ Instant.maxNanos ∧
        s.probeState.interval.nanos ≠ 0 := by
  unfold InterfaceState.resetTimer
  rw [Option.isSome_map, Option.isSome_iff_exists]
  simp only [Timer.interval_eq_some_iff]
  constructor
  · rintro ⟨timer, hlast, hpos, -⟩
    exact ⟨hlast, hpos⟩
  · rintro ⟨hlast, hpos⟩
    exact ⟨_, hlast, hpos, rfl⟩

/-- A tick panics over the name of the service or over the timer. -/
theorem tick_isSome_iff {s : InterfaceState} {r : Round} {now : Instant} {id : UInt16}
    (h : r.tick = some (now, id)) :
    (s.tick r).isSome ↔ (buildQuery id s.config.serviceName).isSome ∧ TickSafe s r := by
  have hsafe : TickSafe s r ↔ (s.rearm now).isSome := by
    unfold TickSafe
    simp [h]
  rw [hsafe]
  unfold InterfaceState.tick InterfaceState.rearm InterfaceState.probe
  rw [h]
  cases hquery : buildQuery id s.config.serviceName with
  | none => simp [hquery]
  | some packet =>
      cases hstate : s.probeState with
      | finished d => simp [hquery, hstate, InterfaceState.resetTimer, Option.isSome_bind]
      | probing p =>
          cases hdouble : p.checkedMul 2 <;>
            simp [hquery, hdouble, InterfaceState.resetTimer, Option.isSome_bind]

theorem rearm_isSome_iff {settings : Settings} {probe : Duration} {s : InterfaceState}
    (h : Timed settings probe s) (hprobe : probe.nanos ≠ 0)
    (hquery : settings.queryInterval.nanos ≠ 0) (now : Instant) :
    (s.rearm now).isSome ↔ TickFits probe s now := by
  have hinterval : s.queryInterval = settings.queryInterval := congrArg _ h.sameSettings
  rw [← hinterval] at hquery
  unfold InterfaceState.rearm InterfaceState.probe
  cases hstate : s.probeState with
  | finished d =>
      have hd : d = s.queryInterval := (h.armed.period d hstate).1
      dsimp only
      rw [Option.bind_some, resetTimer_isSome_iff, hstate]
      change now + d.nanos ≤ _ ∧ d.nanos ≠ 0 ↔ _
      rw [hd, and_iff_left hquery]
      refine ⟨fun hlast => ⟨?_, ?_, fun _ => hlast⟩, fun hfits => hfits.querying ?_⟩
      · rw [hstate]
        nofun
      · rw [hstate]
        nofun
      · rw [hstate]
        nofun
  | probing p =>
      obtain rfl := h.probing p hstate
      dsimp only
      by_cases hdouble : p.nanos * 2 ≤ Duration.maxNanos
      · have htwice : p.checkedMul 2 = some ⟨p.nanos * 2, hdouble⟩ := dif_pos hdouble
        rw [htwice, Option.map_some, Option.bind_some, resetTimer_isSome_iff]
        dsimp only
        by_cases hreached : s.queryInterval ≤ (⟨p.nanos * 2, hdouble⟩ : Duration)
        · have hreached' : s.queryInterval.nanos ≤ p.nanos * 2 := hreached
          rw [if_pos hreached]
          change now + s.queryInterval.nanos ≤ _ ∧ s.queryInterval.nanos ≠ 0 ↔ _
          rw [and_iff_left hquery]
          refine ⟨fun hlast => ⟨fun _ => hdouble, ?_, fun _ => hlast⟩, fun hfits =>
            hfits.querying fun _ => hreached'⟩
          intro _ hshort
          omega
        · have hshort : p.nanos * 2 < s.queryInterval.nanos := Nat.lt_of_not_le hreached
          rw [if_neg hreached]
          change now + p.nanos ≤ _ ∧ p.nanos ≠ 0 ↔ _
          rw [and_iff_left hprobe]
          refine ⟨fun hlast => ⟨fun _ => hdouble, fun _ _ => hlast, ?_⟩, fun hfits =>
            hfits.probing hstate hshort⟩
          intro hlong
          exact absurd (hlong hstate) hreached
      · have htwice : p.checkedMul 2 = none := dif_neg hdouble
        rw [htwice]
        exact iff_of_false nofun fun hfits => hdouble (hfits.doubled hstate)

/-! ## Runs -/

section Run

variable (H : Hickory) (lib : Libp2p)

theorem timed_step {settings : Settings} {probe : Duration} {task task' : Task}
    {rounds : List Round} (h : Timed settings probe task.state)
    (hstep : task.step H lib rounds = some task') : Timed settings probe task'.state := by
  obtain ⟨o, hpoll, hstatus, rfl⟩ := step_eq_some H lib hstep
  have hprobed := (kept_probed H lib).poll hpoll hstatus
  refine ⟨hprobed.settings.trans h.sameSettings, hprobed.armed h.armed, fun p hp => ?_⟩
  exact h.probing p ((hprobed.probing h.armed p).mp hp).1

def Task.round (task : Task) (r : Round) : Option Task := task.step H lib [r]

def TicksSafe (s : InterfaceState) (rounds : List Round) : Prop :=
  Machine.Tried (Task.round H lib) (fun task r => TickSafe task.state r)
    { state := s, calls := [] } rounds

def TicksFit (probe : Duration) (s : InterfaceState) (rounds : List Round) : Prop :=
  Machine.Tried (Task.round H lib)
    (fun task r => ∀ now id, r.tick = some (now, id) → TickFits probe task.state now)
    { state := s, calls := [] } rounds

variable (addr : IpAddr) (config : ServiceConfig) (localPeerId : PeerId) (jitter : Fin 100)
  (now : Instant)

/-- The task is built, and handles the ticks of a run, without a panic over the timer. -/
def Steady (rounds : List Round) : Prop :=
  ∃ s, InterfaceState.new addr config localPeerId jitter now = some s ∧
    TicksSafe H lib s rounds

/-- The condition: the probe interval is not zero, the query interval with the jitter is a
`Duration`, and the ticks come where they fit. -/
structure IntervalsOk (rounds : List Round) : Prop where
  probe : config.probeInterval.nanos ≠ 0
  query : config.queryInterval.nanos + jitter.val * 1000000 ≤ Duration.maxNanos
  ticks : ∀ s, InterfaceState.new addr config localPeerId jitter now = some s →
    TicksFit H lib config.probeInterval s rounds

theorem new_isSome_iff :
    (InterfaceState.new addr config localPeerId jitter now).isSome ↔
      config.probeInterval.nanos ≠ 0 ∧
        config.queryInterval.nanos + jitter.val * 1000000 ≤ Duration.maxNanos := by
  have hjitter : (Duration.fromMillis (UInt64.ofNat jitter.val)).nanos =
      jitter.val * 1000000 := by
    have hlt := jitter.isLt
    change (UInt64.ofNat jitter.val).toNat * 1000000 = _
    rw [UInt64.toNat_ofNat_of_lt' (Nat.lt_trans hlt (by decide))]
  rw [← hjitter]
  unfold InterfaceState.new Duration.checkedAdd Timer.intervalAt
  by_cases hquery : config.queryInterval.nanos +
      (Duration.fromMillis (UInt64.ofNat jitter.val)).nanos ≤ Duration.maxNanos
  · by_cases hprobe : config.probeInterval.nanos = 0
    · simp [hquery, hprobe]
    · simp [hquery, hprobe]
  · simp [hquery]

theorem ticksSafe_iff (hlt : config.probeInterval < config.queryInterval)
    (hprobe : config.probeInterval.nanos ≠ 0) {s : InterfaceState}
    (hnew : InterfaceState.new addr config localPeerId jitter now = some s)
    (rounds : List Round) :
    TicksSafe H lib s rounds ↔ TicksFit H lib config.probeInterval s rounds := by
  obtain ⟨hstart, harmed, hquery⟩ := new_probing hnew
  have hlt' : config.probeInterval.nanos < config.queryInterval.nanos := hlt
  have hpos : s.toSettings.queryInterval.nanos ≠ 0 := by omega
  apply Machine.tried_iff_of_invariant fun task =>
    Timed s.toSettings config.probeInterval task.state
  · exact fun task r task' htask hstep => timed_step H lib htask hstep
  · intro task r htask
    unfold TickSafe
    simp only [rearm_isSome_iff htask hprobe hpos]
  · refine ⟨rfl, harmed, fun p hp => ?_⟩
    rw [hstart] at hp
    cases hp
    rfl

/-- The ticks of a run are handled without a panic over the timer exactly when the
intervals allow it. -/
theorem steady_iff (hlt : config.probeInterval < config.queryInterval) (rounds : List Round) :
    Steady H lib addr config localPeerId jitter now rounds ↔
      IntervalsOk H lib addr config localPeerId jitter now rounds := by
  have hsome := new_isSome_iff addr config localPeerId jitter now
  constructor
  · rintro ⟨s, hnew, hsafe⟩
    obtain ⟨hprobe, hquery⟩ := hsome.mp (Option.isSome_iff_exists.mpr ⟨s, hnew⟩)
    refine ⟨hprobe, hquery, fun t ht => ?_⟩
    rw [hnew] at ht
    cases ht
    exact (ticksSafe_iff H lib addr config localPeerId jitter now hlt hprobe hnew rounds).mp
      hsafe
  · rintro ⟨hprobe, hquery, hticks⟩
    obtain ⟨s, hnew⟩ := Option.isSome_iff_exists.mp (hsome.mpr ⟨hprobe, hquery⟩)
    exact ⟨s, hnew, (ticksSafe_iff H lib addr config localPeerId jitter now hlt hprobe hnew
      rounds).mpr (hticks s hnew)⟩

end Run

end P2pa.Mdns.Iface
