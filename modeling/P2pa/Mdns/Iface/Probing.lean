import P2pa.Mdns.Iface.Buffers

/-!
# When an interface task stops to probe

A tick compares the doubled probe interval with the query interval, and puts the probe
interval back as it was if the double is the smaller one.  So the first tick ends the
probing or none does; the other way out is a response that names another peer.
-/

namespace P2pa.Mdns.Iface

open Utils Wire

def Call.isTick : Call → Bool
  | tick _ => true
  | _ => false

def ticks (calls : List Call) : Nat := calls.countP Call.isTick

theorem ticks_append (a b : List Call) : ticks (a ++ b) = ticks a + ticks b :=
  List.countP_append

section Probing

variable (H : Hickory) (lib : Libp2p)

/-- The calls end a probing with the interval `p`. -/
def Stops (settings : Settings) (p : Duration) (calls : List Call) : Prop :=
  (settings.queryInterval.nanos ≤ p.nanos * 2 ∧ 0 < ticks calls) ∨
    ∃ call ∈ calls, call.extracted H lib settings ≠ []

theorem stops_append_iff (settings : Settings) (p : Duration) (a b : List Call) :
    Stops H lib settings p (a ++ b) ↔
      Stops H lib settings p a ∨ Stops H lib settings p b := by
  have hpos : 0 < ticks a + ticks b ↔ 0 < ticks a ∨ 0 < ticks b := by omega
  have hcalls : (∃ call ∈ a ++ b, call.extracted H lib settings ≠ []) ↔
      (∃ call ∈ a, call.extracted H lib settings ≠ []) ∨
        ∃ call ∈ b, call.extracted H lib settings ≠ [] := by
    simp only [List.mem_append, or_and_right, exists_or]
  unfold Stops
  rw [ticks_append, hpos, hcalls, and_or_left, or_or_or_comm]

/-- An address waits to be reported only after the probing, and from its end on the
timer has the query interval. -/
structure Armed (s : InterfaceState) : Prop where
  found : s.discovered ≠ [] → s.probeState = .finished s.queryInterval
  period : ∀ d, s.probeState = .finished d →
    d = s.queryInterval ∧ s.timeout.period = s.queryInterval

structure Probed (s : InterfaceState) (calls : List Call) (t : InterfaceState) : Prop where
  settings : t.toSettings = s.toSettings
  armed : Armed s → Armed t
  probing : Armed s → ∀ p, t.probeState = .probing p ↔
    s.probeState = .probing p ∧ ¬ Stops H lib s.toSettings p calls

section Stages

variable {H lib} {s t u : InterfaceState} {a b : List Call}

theorem Probed.refl (s : InterfaceState) : Probed H lib s [] s where
  settings := rfl
  armed := id
  probing _ p := by simp [Stops, ticks]

theorem Probed.trans (h₁ : Probed H lib s a t) (h₂ : Probed H lib t b u) :
    Probed H lib s (a ++ b) u where
  settings := h₂.settings.trans h₁.settings
  armed harmed := h₂.armed (h₁.armed harmed)
  probing harmed p := by
    rw [h₂.probing (h₁.armed harmed) p, h₁.probing harmed p, h₁.settings,
      stops_append_iff]
    tauto

theorem Probed.of_idle {call : Call} (hsettings : t.toSettings = s.toSettings)
    (hprobe : t.probeState = s.probeState) (htimeout : t.timeout = s.timeout)
    (hdiscovered : t.discovered ≠ [] → s.discovered ≠ []) (htick : call.isTick = false)
    (hextracted : call.extracted H lib s.toSettings = []) : Probed H lib s [call] t where
  settings := hsettings
  armed harmed := by
    have hquery : t.queryInterval = s.queryInterval := congrArg _ hsettings
    constructor
    · intro hne
      rw [hprobe, hquery]
      exact harmed.found (hdiscovered hne)
    · rw [hprobe, hquery, htimeout]
      exact harmed.period
  probing _ p := by
    rw [hprobe]
    simp [Stops, ticks, htick, hextracted]

/-! ## The stages -/

theorem resetTimer_spec {now : Instant} (h : s.resetTimer now = some t) :
    t.probeState = s.probeState ∧ t.timeout.period = s.probeState.interval := by
  obtain ⟨timeout, htimeout, rfl⟩ := Option.map_eq_some_iff.mp h
  obtain ⟨-, -, rfl⟩ := Timer.interval_eq_some_iff.mp htimeout
  exact ⟨rfl, rfl⟩

/-- The comparison of a tick. -/
theorem probe_spec (h : s.probe = some t) :
    (∀ p, t.probeState = .probing p ↔
      s.probeState = .probing p ∧ ¬ s.queryInterval.nanos ≤ p.nanos * 2) ∧
      ∀ d, t.probeState = .finished d →
        d = s.queryInterval ∨ s.probeState = .finished d := by
  unfold InterfaceState.probe at h
  cases hstate : s.probeState with
  | finished d =>
      rw [hstate] at h
      cases h
      rw [hstate]
      exact ⟨fun p => by simp, fun e he => .inr he⟩
  | probing interval =>
      rw [hstate] at h
      obtain ⟨twice, htwice, rfl⟩ := Option.map_eq_some_iff.mp h
      have hnanos : twice.nanos = interval.nanos * 2 := by
        unfold Duration.checkedMul at htwice
        split at htwice
        · cases htwice
          rfl
        · cases htwice
      have hle : s.queryInterval ≤ twice ↔ s.queryInterval.nanos ≤ interval.nanos * 2 := by
        rw [← hnanos]
        exact Iff.rfl
      dsimp only
      by_cases hreached : s.queryInterval ≤ twice
      · rw [if_pos hreached]
        refine ⟨fun p => ⟨nofun, ?_⟩, fun d hd => ?_⟩
        · rintro ⟨hp, hnot⟩
          cases hp
          exact absurd (hle.mp hreached) hnot
        · cases hd
          exact .inl rfl
      · rw [if_neg hreached]
        refine ⟨fun p => ⟨fun hp => ?_, fun hp => hp.1⟩, nofun⟩
        cases hp
        exact ⟨rfl, fun hnanos => hreached (hle.mpr hnanos)⟩

theorem probed_tick {r : Round} {stage : Stage} (h : s.tick r = some stage) :
    Probed H lib s stage.calls stage.state := by
  cases ticked h with
  | idle _ => exact .refl s
  | fired now id packet probed armed _ _ hprobed harmed =>
      have hsame := sameBuffers_probe hprobed
      have hreset := sameBuffers_resetTimer harmed
      have hsettings : armed.toSettings = s.toSettings :=
        hreset.settings.trans hsame.settings
      have hquery : armed.queryInterval = s.queryInterval := congrArg _ hsettings
      obtain ⟨hstate, hperiod⟩ := resetTimer_spec harmed
      obtain ⟨hprobing, hfinished⟩ := probe_spec hprobed
      refine ⟨hsettings, fun hs => ⟨fun hne => ?_, fun d hd => ?_⟩, fun hs p => ?_⟩
      · dsimp only at hne ⊢
        rw [hreset.discovered, hsame.discovered] at hne
        have hdone := hs.found hne
        cases hnow : armed.probeState with
        | probing p =>
            rw [hstate, hprobing, hdone] at hnow
            cases hnow.1
        | finished d =>
            rw [hstate] at hnow
            rw [hquery]
            rcases hfinished d hnow with rfl | hbefore
            · rfl
            · rw [(hs.period d hbefore).1]
      · dsimp only at hd ⊢
        rw [hperiod, ← hstate, hd, hquery]
        rw [hstate] at hd
        have hd' : d = s.queryInterval := by
          rcases hfinished d hd with rfl | hbefore
          · rfl
          · exact (hs.period d hbefore).1
        exact ⟨hd', hd'⟩
      · dsimp only
        rw [hstate, hprobing]
        apply and_congr_right
        intro _
        simp [Stops, ticks, Call.isTick, Call.extracted]

theorem probed_write (s : InterfaceState) (r : Round) :
    Probed H lib s (s.write r).calls (s.write r).state := by
  unfold InterfaceState.write
  cases s.sendBuffer with
  | nil => exact .refl s
  | cons packet rest =>
      cases r.write <;> exact .of_idle rfl rfl rfl id rfl rfl

theorem probed_send (s : InterfaceState) (r : Round) :
    Probed H lib s (s.send r).calls (s.send r).state := by
  unfold InterfaceState.send
  by_cases hready : r.ready = true
  · rw [if_pos hready]
    cases hbuffer : s.discovered with
    | nil => exact .refl s
    | cons tuple rest =>
        have hne : s.discovered ≠ [] := by simp [hbuffer]
        cases r.send <;> exact .of_idle rfl rfl rfl (fun _ => hne) rfl rfl
  · rw [if_neg hready]
    exact .refl s

theorem probed_response {outcome : ReadOutcome} {around : Surroundings}
    {response : MdnsResponse}
    (hextracted : (Call.read outcome around).extracted H lib s.toSettings =
      response.extractDiscovered lib around.now s.localPeerId)
    (h : s.handlePacket lib around (.response response) = some t) :
    Probed H lib s [.read outcome around] t := by
  have hstops : ∀ p, Stops H lib s.toSettings p [.read outcome around] ↔
      response.extractDiscovered lib around.now s.localPeerId ≠ [] := by
    intro p
    rw [← hextracted]
    simp [Stops, ticks, Call.isTick]
  unfold InterfaceState.handlePacket at h
  dsimp only at h
  split at h
  · rename_i hne
    have hreset := sameBuffers_resetTimer h
    obtain ⟨hstate, hperiod⟩ := resetTimer_spec h
    have hsettings : t.toSettings = s.toSettings := hreset.settings
    have hquery : t.queryInterval = s.queryInterval := congrArg _ hsettings
    refine ⟨hsettings, fun hs => ⟨fun _ => ?_, fun d hd => ?_⟩, fun hs p => ?_⟩
    · rw [hstate, hquery]
    · rw [hstate] at hd
      cases hd
      exact ⟨hquery.symm, by rw [hperiod, hquery]; rfl⟩
    · rw [hstate, hstops]
      refine ⟨nofun, ?_⟩
      rintro ⟨hp, hnone⟩
      rw [not_not.mp hnone, List.append_nil] at hne
      rw [hs.found hne] at hp
      cases hp
  · rename_i hnil
    cases h
    have hnil' := List.append_eq_nil_iff.mp (not_not.mp hnil)
    refine .of_idle rfl rfl rfl (fun hne => ?_) rfl (by rw [hextracted, hnil'.2])
    exact absurd (List.append_eq_nil_iff.mpr hnil') hne

theorem probed_read {r : Round} {o : Outcome} (h : s.read H lib r = some o) :
    Probed H lib s o.calls o.state := by
  have hextracted := extracted_read H lib s.toSettings r.read r.around
  obtain ⟨hcalls, hcases⟩ := read_cases h
  rw [hcalls]
  rcases hcases with ⟨hnone, hstate⟩ | ⟨packet, hpacket, hhandled⟩
  · rw [hnone] at hextracted
    rw [hstate]
    exact .of_idle rfl rfl rfl id rfl hextracted
  · rw [hpacket] at hextracted
    cases packet with
    | query query =>
        obtain ⟨packets, -, hstate⟩ := Option.bind_eq_some_iff.mp hhandled
        rw [← Option.some.inj hstate]
        exact .of_idle rfl rfl rfl id rfl hextracted
    | response response => exact probed_response hextracted hhandled
    | serviceDiscovery discovery =>
        obtain ⟨packet, -, hstate⟩ := Option.bind_eq_some_iff.mp hhandled
        rw [← Option.some.inj hstate]
        exact .of_idle rfl rfl rfl id rfl hextracted

theorem kept_probed (H : Hickory) (lib : Libp2p) : Kept H lib (Probed H lib) where
  refl := .refl
  trans := .trans
  tick := probed_tick
  write := probed_write
  send s r _ := probed_send s r
  read := probed_read

end Stages

/-! ## Runs -/

variable {addr : IpAddr} {config : ServiceConfig} {localPeerId : PeerId} {jitter : Fin 100}
  {now : Instant} {s : InterfaceState}

theorem new_probing
    (h : InterfaceState.new addr config localPeerId jitter now = some s) :
    s.probeState = .probing config.probeInterval ∧ Armed s ∧
      config.queryInterval.nanos ≤ s.queryInterval.nanos := by
  obtain ⟨queryInterval, hquery, h⟩ := Option.bind_eq_some_iff.mp h
  obtain ⟨timeout, -, h⟩ := Option.bind_eq_some_iff.mp h
  cases h
  refine ⟨rfl, ⟨fun hne => absurd rfl hne, nofun⟩, ?_⟩
  unfold Duration.checkedAdd at hquery
  split at hquery
  · cases hquery
    exact Nat.le_add_right _ _
  · cases hquery

/-- In every state a new task gets to: the probing is over once `probeInterval`, doubled
with every tick, has reached the query interval, exactly when already the first doubling
reaches it or a response has brought the address of another peer.  And once it is over
it stays over, with every timer armed with the query interval. -/
theorem probing_ends_iff (hlt : config.probeInterval < config.queryInterval)
    (hnew : InterfaceState.new addr config localPeerId jitter now = some s)
    {polls : List (List Round)} {task : Task}
    (hrun : Machine.run (Task.step H lib) { state := s, calls := [] } polls = some task) :
    ((s.queryInterval.nanos ≤ config.probeInterval.nanos * 2 ^ ticks task.calls →
        task.state.probeState = .finished s.queryInterval) ↔
      (s.queryInterval.nanos ≤ config.probeInterval.nanos * 2 ^ ticks task.calls →
        s.queryInterval.nanos ≤ config.probeInterval.nanos * 2 ∨
          ∃ call ∈ task.calls, call.extracted H lib s.toSettings ≠ [])) ∧
      (task.state.probeState = .finished s.queryInterval → ∀ polls' task',
        Machine.run (Task.step H lib) task polls' = some task' →
          task'.state.probeState = .finished s.queryInterval ∧
            task'.state.timeout.period = s.queryInterval) := by
  obtain ⟨hstart, harmed, hquery⟩ := new_probing hnew
  obtain ⟨calls, hcalls, hprobed⟩ := (kept_probed H lib).run hrun
  rw [List.nil_append] at hcalls
  subst hcalls
  have harmed' := hprobed.armed harmed
  have hquery' : task.state.queryInterval = s.queryInterval :=
    congrArg _ hprobed.settings
  refine ⟨imp_congr_right fun hdue => ?_, fun hdone polls' task' hrest => ?_⟩
  · have hlt' : config.probeInterval.nanos < config.queryInterval.nanos := hlt
    have hticks : 0 < ticks task.calls := by
      rw [Nat.pos_iff_ne_zero]
      intro hzero
      rw [hzero, Nat.pow_zero, Nat.mul_one] at hdue
      omega
    have hstops : Stops H lib s.toSettings config.probeInterval task.calls ↔
        s.queryInterval.nanos ≤ config.probeInterval.nanos * 2 ∨
          ∃ call ∈ task.calls, call.extracted H lib s.toSettings ≠ [] := by
      unfold Stops
      rw [and_iff_left hticks]
    have hprobing := hprobed.probing harmed
    rw [← hstops]
    cases hstate : task.state.probeState with
    | finished d =>
        refine iff_of_true ?_ ?_
        · rw [(harmed'.period d hstate).1, hquery']
        · by_contra hopen
          have := (hprobing config.probeInterval).mpr ⟨hstart, hopen⟩
          rw [hstate] at this
          cases this
    | probing p =>
        obtain ⟨hp, hopen⟩ := (hprobing p).mp hstate
        rw [hstart] at hp
        cases hp
        exact iff_of_false nofun hopen
  · obtain ⟨rest, -, hrest⟩ := (kept_probed H lib).run hrest
    have hquery'' : task'.state.queryInterval = s.queryInterval :=
      (congrArg _ hrest.settings).trans hquery'
    have harmed'' := hrest.armed harmed'
    cases hstate : task'.state.probeState with
    | finished d =>
        obtain ⟨hd, hperiod⟩ := harmed''.period d hstate
        rw [hd, hperiod, hquery'']
        exact ⟨rfl, rfl⟩
    | probing p =>
        have hp := ((hrest.probing harmed' p).mp hstate).1
        rw [hdone] at hp
        cases hp

end Probing

/-! ## An interface without other peers -/

def tickRound : Round := { Round.quiet with tick := some (0, 7), write := .ok }

theorem probing_ends_iff_defaults :
    ∃ s task, InterfaceState.new sampleIp sampleConfig samplePeerId 0 0 = some s ∧
      Machine.run (Task.step Hickory.plain sampleLibp2p) { state := s, calls := [] }
        [[tickRound, Round.quiet]] = some task ∧
      ((s.queryInterval.nanos ≤ sampleConfig.probeInterval.nanos * 2 ^ ticks task.calls →
          task.state.probeState = .finished s.queryInterval) ↔
        (s.queryInterval.nanos ≤ sampleConfig.probeInterval.nanos * 2 ^ ticks task.calls →
          s.queryInterval.nanos ≤ sampleConfig.probeInterval.nanos * 2 ∨
            ∃ call ∈ task.calls,
              call.extracted Hickory.plain sampleLibp2p s.toSettings ≠ [])) ∧
      (task.state.probeState = .finished s.queryInterval → ∀ polls' task',
        Machine.run (Task.step Hickory.plain sampleLibp2p) task polls' = some task' →
          task'.state.probeState = .finished s.queryInterval ∧
            task'.state.timeout.period = s.queryInterval) := by
  have hrun : ((InterfaceState.new sampleIp sampleConfig samplePeerId 0 0).bind fun s =>
      Machine.run (Task.step Hickory.plain sampleLibp2p) { state := s, calls := [] }
        [[tickRound, Round.quiet]]).isSome = true := by
    decide
  obtain ⟨task, htask⟩ := Option.isSome_iff_exists.mp hrun
  obtain ⟨s, hnew, hrun⟩ := Option.bind_eq_some_iff.mp htask
  exact ⟨s, task, hnew, hrun,
    probing_ends_iff Hickory.plain sampleLibp2p (by decide) hnew hrun⟩

def slowConfig : ServiceConfig :=
  { sampleConfig with probeInterval := .fromSecs 1, queryInterval := .fromSecs 10 }

/-- After four ticks sixteen seconds are enough, but the task still probes. -/
theorem probing_ends_fails :
    slowConfig.probeInterval < slowConfig.queryInterval ∧
      ∃ s task, InterfaceState.new sampleIp slowConfig samplePeerId 0 0 = some s ∧
        Machine.run (Task.step Hickory.plain sampleLibp2p) { state := s, calls := [] }
          (List.replicate 4 [tickRound, Round.quiet]) = some task ∧
        s.queryInterval.nanos ≤ slowConfig.probeInterval.nanos * 2 ^ ticks task.calls ∧
        task.state.probeState ≠ .finished s.queryInterval := by
  have hrun : ((InterfaceState.new sampleIp slowConfig samplePeerId 0 0).bind fun s =>
      (Machine.run (Task.step Hickory.plain sampleLibp2p) { state := s, calls := [] }
        (List.replicate 4 [tickRound, Round.quiet])).map fun task =>
          (s.queryInterval.nanos, ticks task.calls, task.state.probeState)) =
        some (10000000000, 4, .probing (.fromSecs 1)) := by
    decide
  obtain ⟨s, hnew, hrun⟩ := Option.bind_eq_some_iff.mp hrun
  obtain ⟨task, hrun, hvalues⟩ := Option.map_eq_some_iff.mp hrun
  simp only [Prod.mk.injEq] at hvalues
  obtain ⟨hquery, hticks, hstate⟩ := hvalues
  refine ⟨by decide, s, task, hnew, hrun, ?_, ?_⟩
  · rw [hquery, hticks]
    decide
  · rw [hstate]
    nofun

end P2pa.Mdns.Iface
