import P2pa.Mdns.Iface.Ticks
import P2pa.Rendezvous.Ticks

/-!
# The timers of the two behaviours

The refresh timer of the rendezvous behaviour and the timers of the interface tasks get
their periods from the configuration.  Of a time to live nothing is checked, and of the
intervals of the interface tasks only which one is the shorter.
-/

namespace P2pa

open Utils Mdns.Iface

/-- Neither behaviour panics over a timer, when it is built or at a tick, exactly when no
period is zero, the sums and the doubles of the intervals are durations, and every timer
fires before the last instant. -/
theorem timers_never_panic_iff (H : Hickory) (lib : Libp2p) {P : Type} (currentId : PeerId)
    {ttl : Option UInt64} {now : Instant} {inputs : List (Rendezvous.Input P)}
    (hdue : Rendezvous.Due (Rendezvous.refreshInterval ttl).nanos now
      (inputs.flatMap Rendezvous.Input.ticks))
    (addr : IpAddr) {config : Mdns.ServiceConfig}
    (hlt : config.probeInterval < config.queryInterval) (jitter : Fin 100)
    (started : Instant) (rounds : List Round) :
    Rendezvous.Steady lib currentId ttl now inputs ∧
        Mdns.Iface.Steady H lib addr config currentId jitter started rounds ↔
      (ttl ≠ some 0 ∧ ∀ tick ∈ inputs.flatMap Rendezvous.Input.ticks,
        Rendezvous.Fits ttl tick) ∧
        IntervalsOk H lib addr config currentId jitter started rounds :=
  and_congr (Rendezvous.steady_iff lib currentId hdue)
    (steady_iff H lib addr config currentId jitter started hlt rounds)

theorem timers_never_panic_iff_defaults :
    Rendezvous.Steady sampleLibp2p samplePeerId none 0
          [(.poll [0, 30000000000] [] : Rendezvous.Input Unit)] ∧
        Mdns.Iface.Steady Hickory.plain sampleLibp2p sampleIp sampleConfig samplePeerId 0 0
          [tickRound] ↔
      ((none : Option UInt64) ≠ some 0 ∧
        ∀ tick ∈ [(.poll [0, 30000000000] [] : Rendezvous.Input Unit)].flatMap
          Rendezvous.Input.ticks, Rendezvous.Fits none tick) ∧
        IntervalsOk Hickory.plain sampleLibp2p sampleIp sampleConfig samplePeerId 0 0
          [tickRound] :=
  timers_never_panic_iff Hickory.plain sampleLibp2p samplePeerId
    (show Rendezvous.Due _ 0 [0, 30000000000] from ⟨by decide, by decide, trivial⟩) sampleIp
    (by decide) 0 0 [tickRound]

theorem timers_never_panic_fails :
    ¬ ∀ (H : Hickory) (lib : Libp2p) (currentId : PeerId) (ttl : Option UInt64)
      (now : Instant) (inputs : List (Rendezvous.Input Unit)),
      Rendezvous.Due (Rendezvous.refreshInterval ttl).nanos now
        (inputs.flatMap Rendezvous.Input.ticks) →
      ∀ (addr : IpAddr) (config : Mdns.ServiceConfig),
        config.probeInterval < config.queryInterval →
        ∀ (jitter : Fin 100) (started : Instant) (rounds : List Round),
          Rendezvous.Steady lib currentId ttl now inputs ∧
            Mdns.Iface.Steady H lib addr config currentId jitter started rounds := by
  intro h
  obtain ⟨⟨b, hnew, -⟩, -⟩ := h Hickory.plain sampleLibp2p samplePeerId (some 0) 0 [] trivial
    sampleIp sampleConfig (by decide) 0 0 []
  cases hnew

end P2pa
