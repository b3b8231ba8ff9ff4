import P2pa.Rendezvous.Poll

/-!
# The refresh timer

Runs in which every tick comes when the timer is due.  A tick arms the next timer one
refresh interval after itself, and that is the only thing in a run that can panic.
-/

namespace P2pa.Rendezvous

open Utils Mdns

/-! ## Ticks that are due -/

/-- Each tick comes when it is due: the first one from `first` on, each other one a period
after the one before it. -/
def Due (period : Nat) : Instant → List Instant → Prop
  | _, [] => True
  | first, now :: ticks => first ≤ now ∧ Due period (now + period) ticks

def dueAfter (period : Nat) : Instant → List Instant → Instant
  | first, [] => first
  | _, now :: ticks => dueAfter period (now + period) ticks

theorem due_append_iff (period : Nat) (first : Instant) (ts us : List Instant) :
    Due period first (ts ++ us) ↔
      Due period first ts ∧ Due period (dueAfter period first ts) us := by
  induction ts generalizing first with
  | nil => exact (and_iff_right trivial).symm
  | cons now ts ih =>
      rw [List.cons_append, Due, Due, dueAfter, ih, and_assoc]

/-! ## One tick -/

/-- The timer that a tick at this instant arms fires before the last instant. -/
def Fits (ttl : Option UInt64) (now : Instant) : Prop :=
  now + (refreshInterval ttl).nanos ≤ Instant.maxNanos

/-- The interval is the refresh interval, probing or not. -/
structure Paced (ttl : Option UInt64) (b : Behaviour) : Prop where
  sameTtl : b.ttl = ttl
  interval : b.probeState.interval = refreshInterval ttl

def afterTick (ttl : Duration) : ProbeState → ProbeState
  | .probing interval => if ttl ≤ interval then .finished ttl else .probing interval
  | .finished interval => .finished interval

theorem interval_afterTick {ttl : Duration} {probeState : ProbeState}
    (h : probeState.interval = ttl) : (afterTick ttl probeState).interval = ttl := by
  cases probeState with
  | probing interval =>
      rw [afterTick]
      split
      · rfl
      · exact h
  | finished interval => exact h

theorem tick_eq (b : Behaviour) (now : Instant) :
    tick b now =
      (Timer.interval now (afterTick (refreshInterval b.ttl) b.probeState).interval).map
        fun timeout => { registerAll b with
          probeState := afterTick (refreshInterval b.ttl) b.probeState, timeout } := by
  have hstate : (registerAll b).probeState = b.probeState := rfl
  unfold tick
  dsimp only
  rw [hstate]
  cases b.probeState with
  | probing interval => rfl
  | finished interval => rfl

section Ticks

variable {ttl : Option UInt64} {b b' : Behaviour} {now : Instant} {ticks : List Instant}

theorem tick_paced (h : Paced ttl b) (now : Instant) :
    tick b now = (Timer.interval now (refreshInterval ttl)).map fun timeout =>
      { registerAll b with
        probeState := afterTick (refreshInterval ttl) b.probeState, timeout } := by
  rw [tick_eq, h.sameTtl, interval_afterTick h.interval]

theorem tick_isSome_iff (h : Paced ttl b) (hpos : (refreshInterval ttl).nanos ≠ 0) :
    (tick b now).isSome ↔ Fits ttl now := by
  rw [tick_paced h, Option.isSome_map, Option.isSome_iff_exists]
  simp only [Timer.interval_eq_some_iff]
  constructor
  · rintro ⟨timer, hlast, -, -⟩
    exact hlast
  · intro hlast
    exact ⟨_, hlast, hpos, rfl⟩

theorem tick_spec (h : Paced ttl b) (htick : tick b now = some b') :
    Paced ttl b' ∧ b'.timeout.start = now + (refreshInterval ttl).nanos := by
  rw [tick_paced h] at htick
  obtain ⟨timeout, htimeout, rfl⟩ := Option.map_eq_some_iff.mp htick
  obtain ⟨-, -, rfl⟩ := Timer.interval_eq_some_iff.mp htimeout
  exact ⟨⟨h.sameTtl, interval_afterTick h.interval⟩, rfl⟩

/-! ## The ticks of a run -/

theorem pollTimer_spec (h : Paced ttl b) (hpoll : pollTimer b ticks = some b') :
    Paced ttl b' ∧
      b'.timeout.start = dueAfter (refreshInterval ttl).nanos b.timeout.start ticks := by
  induction ticks generalizing b with
  | nil =>
      cases hpoll
      exact ⟨h, rfl⟩
  | cons now ticks ih =>
      unfold pollTimer at hpoll
      split at hpoll
      · obtain ⟨mid, htick, hrest⟩ := Option.bind_eq_some_iff.mp hpoll
        obtain ⟨hmid, hstart⟩ := tick_spec h htick
        obtain ⟨hpaced, hdue⟩ := ih hmid hrest
        rw [hstart] at hdue
        exact ⟨hpaced, hdue⟩
      · cases hpoll

theorem pollTimer_isSome_iff (h : Paced ttl b) (hpos : (refreshInterval ttl).nanos ≠ 0)
    (hdue : Due (refreshInterval ttl).nanos b.timeout.start ticks) :
    (pollTimer b ticks).isSome ↔ ∀ now ∈ ticks, Fits ttl now := by
  induction ticks generalizing b with
  | nil => simp [pollTimer]
  | cons now ticks ih =>
      obtain ⟨hready, hrest⟩ := hdue
      have hfits : (tick b now).isSome ↔ Fits ttl now := tick_isSome_iff h hpos
      rw [pollTimer, if_pos hready, List.forall_mem_cons, ← hfits]
      cases htick : tick b now with
      | none => simp
      | some mid =>
          obtain ⟨hmid, hstart⟩ := tick_spec h htick
          rw [← hstart] at hrest
          simpa using ih hmid hrest

end Ticks

/-! ## Runs -/

variable {P : Type}

def Input.ticks : Input P → List Instant
  | .poll ticks _ => ticks
  | _ => []

def pacePart (b : Behaviour) : Option UInt64 × ProbeState × Timer :=
  (b.ttl, b.probeState, b.timeout)

theorem paced_of_pacePart {ttl : Option UInt64} {b b' : Behaviour}
    (hpart : pacePart b' = pacePart b) (h : Paced ttl b) :
    Paced ttl b' ∧ b'.timeout.start = b.timeout.start := by
  have httl : b'.ttl = b.ttl := congrArg Prod.fst hpart
  have hprobe : b'.probeState = b.probeState := congrArg (·.2.1) hpart
  have htimeout : b'.timeout = b.timeout := congrArg (·.2.2) hpart
  refine ⟨⟨httl.trans h.sameTtl, ?_⟩, by rw [htimeout]⟩
  rw [hprobe]
  exact h.interval

theorem register_pacePart (lib : Libp2p) (b : Behaviour) (node : Multiaddr) (ns : String) :
    pacePart (settle b (register lib b node ns)) = pacePart b := by
  unfold register
  split <;> rfl

theorem unregister_pacePart (lib : Libp2p) (b : Behaviour) (ns : String) :
    pacePart (settle b (unregister lib b ns)) = pacePart b := by
  unfold unregister
  split <;> rfl

theorem discover_pacePart (lib : Libp2p) (b : Behaviour) (node : Multiaddr) (ns : String) :
    pacePart (settle b (discover lib b node ns)) = pacePart b := by
  unfold discover
  split <;> rfl

theorem onSwarmEvent_pacePart (b : Behaviour) (event : FromSwarm) :
    pacePart (onSwarmEvent b event) = pacePart b := by
  unfold onSwarmEvent
  dsimp only
  split <;> rfl

theorem handleEvent_pacePart (b : Behaviour) (event : ClientEvent) :
    pacePart (handleEvent b event) = pacePart b := by
  cases event <;> rfl

theorem emit_pacePart (b : Behaviour) : pacePart (emit b).1 = pacePart b := by
  unfold emit
  split <;> rfl

section Run

variable {lib : Libp2p} {ttl : Option UInt64} {w w' : Wrapper P} {input : Input P}

theorem step_spec (h : Paced ttl w.behaviour) (hstep : w.step lib input = some w') :
    Paced ttl w'.behaviour ∧ w'.behaviour.timeout.start =
      dueAfter (refreshInterval ttl).nanos w.behaviour.timeout.start input.ticks := by
  cases input with
  | register node ns =>
      cases hstep
      exact paced_of_pacePart (register_pacePart _ _ _ _) h
  | unregister ns =>
      cases hstep
      exact paced_of_pacePart (unregister_pacePart _ _ _) h
  | discover node ns =>
      cases hstep
      exact paced_of_pacePart (discover_pacePart _ _ _ _) h
  | swarm event =>
      cases hstep
      exact paced_of_pacePart (onSwarmEvent_pacePart _ _) h
  | poll ticks yields =>
      obtain ⟨polled, hpolled, rfl⟩ := Option.map_eq_some_iff.mp hstep
      obtain ⟨b, hticks, hpoll⟩ := Option.map_eq_some_iff.mp hpolled
      obtain ⟨hpaced, hstart⟩ := pollTimer_spec h hticks
      obtain ⟨hpaced', hstart'⟩ := paced_of_pacePart
        (keeps_forward pacePart handleEvent_pacePart emit_pacePart hpoll) hpaced
      exact ⟨hpaced', hstart'.trans hstart⟩

theorem step_isSome_iff (h : Paced ttl w.behaviour)
    (hpos : (refreshInterval ttl).nanos ≠ 0)
    (hdue : Due (refreshInterval ttl).nanos w.behaviour.timeout.start input.ticks) :
    (w.step lib input).isSome ↔ ∀ now ∈ input.ticks, Fits ttl now := by
  cases input with
  | poll ticks yields =>
      change (((pollTimer w.behaviour ticks).map _).map _).isSome ↔ _
      rw [Option.isSome_map, Option.isSome_map]
      exact pollTimer_isSome_iff h hpos hdue
  | _ => simp [Wrapper.step, Input.ticks]

theorem run_isSome_iff (h : Paced ttl w.behaviour) (hpos : (refreshInterval ttl).nanos ≠ 0)
    {inputs : List (Input P)}
    (hdue : Due (refreshInterval ttl).nanos w.behaviour.timeout.start
      (inputs.flatMap Input.ticks)) :
    (Machine.run (Wrapper.step lib) w inputs).isSome ↔
      ∀ now ∈ inputs.flatMap Input.ticks, Fits ttl now := by
  induction inputs generalizing w with
  | nil => simp
  | cons input inputs ih =>
      rw [List.flatMap_cons, due_append_iff] at hdue
      obtain ⟨hnow, hrest⟩ := hdue
      have hfits : (w.step lib input).isSome ↔ ∀ now ∈ input.ticks, Fits ttl now :=
        step_isSome_iff h hpos hnow
      rw [Machine.run_cons, List.flatMap_cons, List.forall_mem_append, ← hfits]
      cases hstep : w.step lib input with
      | none => simp
      | some mid =>
          obtain ⟨hmid, hstart⟩ := step_spec h hstep
          rw [← hstart] at hrest
          simpa using ih hmid hrest

end Run

/-- The behaviour is built, and goes through a run, without a panic. -/
def Steady (lib : Libp2p) (currentId : PeerId) (ttl : Option UInt64) (now : Instant)
    (inputs : List (Input P)) : Prop :=
  ∃ b, new currentId ttl now = some b ∧
    (Machine.run (Wrapper.step lib)
      { behaviour := b, ledger := (.empty : Ledger ClientEvent Event P) } inputs).isSome

theorem nanos_refreshInterval_eq_zero_iff (ttl : Option UInt64) :
    (refreshInterval ttl).nanos = 0 ↔ ttl = some 0 := by
  change (ttl.getD 30).toNat * 1000000000 = 0 ↔ _
  cases ttl with
  | none => simp
  | some secs =>
      rw [Option.getD_some, Nat.mul_eq_zero, or_iff_left (by decide),
        ← UInt64.toNat_zero, UInt64.toNat_inj, Option.some_inj]

theorem steady_iff (lib : Libp2p) (currentId : PeerId) {ttl : Option UInt64} {now : Instant}
    {inputs : List (Input P)}
    (hdue : Due (refreshInterval ttl).nanos now (inputs.flatMap Input.ticks)) :
    Steady lib currentId ttl now inputs ↔
      ttl ≠ some 0 ∧ ∀ tick ∈ inputs.flatMap Input.ticks, Fits ttl tick := by
  unfold Steady new Timer.intervalAt
  by_cases hzero : (refreshInterval ttl).nanos = 0
  · have httl := (nanos_refreshInterval_eq_zero_iff ttl).mp hzero
    rw [if_pos hzero]
    refine iff_of_false ?_ fun h => h.1 httl
    rintro ⟨b, ⟨⟩, -⟩
  · have httl := mt (nanos_refreshInterval_eq_zero_iff ttl).mpr hzero
    rw [if_neg hzero]
    simp only [Option.map_some, Option.some_inj, exists_eq_left']
    have hpaced : Paced ttl (empty currentId ttl ⟨now, refreshInterval ttl⟩) := ⟨rfl, rfl⟩
    rw [run_isSome_iff hpaced hzero hdue]
    exact (and_iff_right httl).symm

end P2pa.Rendezvous
