import P2pa.Rendezvous.Cookies

/-!
# The rendezvous wrapper passes on what the client yields

Runs of the calls of the node, the events of the swarm and `poll`.  The ticks of the
timer leave the events alone, and the loop returns the actions and queues what the
client has discovered and registered.
-/

namespace P2pa.Rendezvous

open Utils

inductive Input (P : Type)
  | register (rdvzNode : Multiaddr) (ns : String)
  | unregister (ns : String)
  | discover (rdvzNode : Multiaddr) (ns : String)
  | swarm (event : FromSwarm)
  | poll (ticks : List Instant) (yields : List (ToSwarm ClientEvent P))

structure Wrapper (P : Type) where
  behaviour : Behaviour
  ledger : Ledger ClientEvent Event P

namespace Wrapper

variable {P : Type}

def start (currentId : PeerId) (ttl : Option UInt64) (timeout : Mdns.Timer) : Wrapper P where
  behaviour := empty currentId ttl timeout
  ledger := .empty

def step (lib : Libp2p) (w : Wrapper P) : Input P → Option (Wrapper P)
  | .register node ns =>
      some { w with behaviour := settle w.behaviour (register lib w.behaviour node ns) }
  | .unregister ns =>
      some { w with behaviour := settle w.behaviour (unregister lib w.behaviour ns) }
  | .discover node ns =>
      some { w with behaviour := settle w.behaviour (discover lib w.behaviour node ns) }
  | .swarm event => some { w with behaviour := onSwarmEvent w.behaviour event }
  | .poll ticks yields =>
      (poll w.behaviour ticks yields).map fun polled =>
        { behaviour := polled.state, ledger := w.ledger.record yields polled }

end Wrapper

/-- One `Discovered` for what the client has discovered, without the node itself, and one
`Registered` for a registration. -/
def image (currentId : PeerId) : ClientEvent → List Event
  | .discovered _ registrations _ => [.discovered (found currentId registrations)]
  | .registered ns => [.registered ns]
  | .other => []

/-! ## What is found -/

theorem mem_foldl_insert {α β : Type} [BEq β] [LawfulBEq β] (f : α → β) (xs : List α)
    (acc : List β) (y : β) :
    y ∈ xs.foldl (fun acc x => acc.insert (f x)) acc ↔ y ∈ acc ∨ ∃ x ∈ xs, f x = y := by
  induction xs generalizing acc with
  | nil => simp
  | cons x xs ih =>
      have hcomm : y = f x ↔ f x = y := eq_comm
      rw [List.foldl_cons, ih, List.mem_insert_iff, hcomm]
      simp only [List.mem_cons, exists_eq_or_imp]
      tauto

theorem nodup_foldl_insert {α β : Type} [BEq β] [LawfulBEq β] (f : α → β) (xs : List α)
    {acc : List β} (h : acc.Nodup) : (xs.foldl (fun acc x => acc.insert (f x)) acc).Nodup := by
  induction xs generalizing acc with
  | nil => exact h
  | cons x xs ih => exact ih h.insert

def addRegistration (currentId : PeerId) (discovered : List (PeerId × Multiaddr))
    (registration : Registration) : List (PeerId × Multiaddr) :=
  if registration.peerId = currentId then discovered
  else
    registration.addresses.foldl
      (fun discovered address => discovered.insert (registration.peerId, address))
      discovered

theorem found_eq (currentId : PeerId) (registrations : List Registration) :
    found currentId registrations = registrations.foldl (addRegistration currentId) [] := rfl

theorem mem_addRegistration_iff (currentId : PeerId) (r : Registration)
    (discovered : List (PeerId × Multiaddr)) (peerId : PeerId) (address : Multiaddr) :
    (peerId, address) ∈ addRegistration currentId discovered r ↔
      (peerId, address) ∈ discovered ∨
        peerId ≠ currentId ∧ r.peerId = peerId ∧ address ∈ r.addresses := by
  unfold addRegistration
  by_cases hself : r.peerId = currentId
  · have hnone : ¬ (peerId ≠ currentId ∧ r.peerId = peerId ∧ address ∈ r.addresses) :=
      fun h => h.1 (h.2.1.symm.trans hself)
    rw [if_pos hself, or_iff_left hnone]
  · have hpair : (∃ a ∈ r.addresses, (r.peerId, a) = (peerId, address)) ↔
        peerId ≠ currentId ∧ r.peerId = peerId ∧ address ∈ r.addresses := by
      constructor
      · rintro ⟨a, ha, heq⟩
        cases heq
        exact ⟨hself, rfl, ha⟩
      · rintro ⟨-, rfl, ha⟩
        exact ⟨address, ha, rfl⟩
    rw [if_neg hself, mem_foldl_insert (fun address => (r.peerId, address)), hpair]

theorem mem_found_iff (currentId : PeerId) (registrations : List Registration)
    (peerId : PeerId) (address : Multiaddr) :
    (peerId, address) ∈ found currentId registrations ↔
      peerId ≠ currentId ∧
        ∃ r ∈ registrations, r.peerId = peerId ∧ address ∈ r.addresses := by
  have hfold : ∀ acc, (peerId, address) ∈ registrations.foldl (addRegistration currentId) acc ↔
      (peerId, address) ∈ acc ∨ (peerId ≠ currentId ∧
        ∃ r ∈ registrations, r.peerId = peerId ∧ address ∈ r.addresses) := by
    induction registrations with
    | nil => simp
    | cons r rs ih =>
        intro acc
        rw [List.foldl_cons, ih, mem_addRegistration_iff]
        simp only [List.mem_cons, exists_eq_or_imp]
        tauto
  rw [found_eq, hfold, or_iff_right List.not_mem_nil]

theorem nodup_found (currentId : PeerId) (registrations : List Registration) :
    (found currentId registrations).Nodup := by
  have hfold : ∀ acc : List (PeerId × Multiaddr), acc.Nodup →
      (registrations.foldl (addRegistration currentId) acc).Nodup := by
    induction registrations with
    | nil => exact fun acc h => h
    | cons r rs ih =>
        intro acc h
        rw [List.foldl_cons]
        apply ih
        unfold addRegistration
        split
        · exact h
        · exact nodup_foldl_insert (fun address => (r.peerId, address)) r.addresses h
  exact hfold [] List.nodup_nil

/-! ## What touches the queue of events -/

def eventPart (b : Behaviour) : PeerId × List Event := (b.currentId, b.eventQueue)

theorem register_eventPart (lib : Libp2p) (b : Behaviour) (node : Multiaddr) (ns : String) :
    eventPart (settle b (register lib b node ns)) = eventPart b := by
  unfold register
  split <;> rfl

theorem unregister_eventPart (lib : Libp2p) (b : Behaviour) (ns : String) :
    eventPart (settle b (unregister lib b ns)) = eventPart b := by
  unfold unregister
  split <;> rfl

theorem discover_eventPart (lib : Libp2p) (b : Behaviour) (node : Multiaddr) (ns : String) :
    eventPart (settle b (discover lib b node ns)) = eventPart b := by
  unfold discover
  split <;> rfl

theorem onSwarmEvent_eventPart (b : Behaviour) (event : FromSwarm) :
    eventPart (onSwarmEvent b event) = eventPart b := by
  unfold onSwarmEvent
  dsimp only
  split <;> rfl

theorem tick_eventPart {b b' : Behaviour} {now : Instant} (h : tick b now = some b') :
    eventPart b' = eventPart b := by
  unfold tick at h
  obtain ⟨timeout, -, rfl⟩ := Option.map_eq_some_iff.mp h
  rfl

theorem pollTimer_keeps {α : Type} (part : Behaviour → α)
    (htick : ∀ {b b' : Behaviour} {now : Instant}, tick b now = some b' → part b' = part b)
    {b b' : Behaviour} {ticks : List Instant} (h : pollTimer b ticks = some b') :
    part b' = part b := by
  induction ticks generalizing b with
  | nil =>
      cases h
      rfl
  | cons now ticks ih =>
      unfold pollTimer at h
      split at h
      · rw [Option.bind_eq_some_iff] at h
        obtain ⟨b₁, hb₁, hrest⟩ := h
        exact (ih hrest).trans (htick hb₁)
      · cases h

theorem handleEvent_currentId (b : Behaviour) (event : ClientEvent) :
    (handleEvent b event).currentId = b.currentId := by
  cases event <;> rfl

theorem handleEvent_eventQueue (b : Behaviour) (event : ClientEvent) :
    (handleEvent b event).eventQueue = b.eventQueue ++ image b.currentId event := by
  cases event with
  | discovered node registrations cookie => rfl
  | registered ns => rfl
  | other => exact (List.append_nil _).symm

theorem emit_currentId (b : Behaviour) : (emit b).1.currentId = b.currentId := by
  unfold emit
  split <;> rfl

theorem emit_eventQueue (b : Behaviour) :
    (emit b).2.toList ++ (emit b).1.eventQueue = b.eventQueue := by
  unfold emit
  split
  · next hqueue => rw [hqueue, Option.toList_some, List.singleton_append]
  · rfl

/-! ## Runs -/

variable {P : Type}

structure Wrapper.Transparent (currentId : PeerId) (w : Wrapper P) : Prop where
  samePeer : w.behaviour.currentId = currentId
  balanced : w.ledger.Balanced (image currentId) w.behaviour.eventQueue

theorem Wrapper.Transparent.of_eventPart {currentId : PeerId} {w : Wrapper P}
    (h : w.Transparent currentId) {b : Behaviour} (hb : eventPart b = eventPart w.behaviour) :
    Wrapper.Transparent currentId { w with behaviour := b } := by
  have hpeer : b.currentId = w.behaviour.currentId := congrArg Prod.fst hb
  have hqueue : b.eventQueue = w.behaviour.eventQueue := congrArg Prod.snd hb
  constructor
  · exact hpeer.trans h.samePeer
  · dsimp only
    rw [hqueue]
    exact h.balanced

theorem transparent_start (currentId : PeerId) (ttl : Option UInt64) (timeout : Mdns.Timer) :
    (Wrapper.start currentId ttl timeout : Wrapper P).Transparent currentId :=
  ⟨rfl, Ledger.balanced_empty _⟩

theorem transparent_poll {currentId : PeerId} {w w' : Wrapper P} {lib : Libp2p}
    (h : w.Transparent currentId) {ticks : List Instant}
    {yields : List (ToSwarm ClientEvent P)}
    (hstep : w.step lib (.poll ticks yields) = some w') : w'.Transparent currentId := by
  obtain ⟨polled, hpolled, rfl⟩ := Option.map_eq_some_iff.mp hstep
  obtain ⟨b, hb, hpoll⟩ := Option.map_eq_some_iff.mp hpolled
  have hticks := h.of_eventPart (pollTimer_keeps eventPart tick_eventPart hb)
  obtain ⟨hpeer, taken, hyields, hpasses⟩ := passes_forward
    (fun b : Behaviour => b.currentId = currentId)
    (fun b event hb => (handleEvent_currentId b event).trans hb)
    (fun b event hb => by rw [handleEvent_eventQueue, hb])
    (fun b hb => (emit_currentId b).trans hb) emit_eventQueue hticks.samePeer hpoll
  exact ⟨hpeer, hticks.balanced.record hyields hpasses⟩

theorem transparent_step {currentId : PeerId} {w w' : Wrapper P} {lib : Libp2p}
    {input : Input P} (h : w.Transparent currentId) (hstep : w.step lib input = some w') :
    w'.Transparent currentId := by
  cases input with
  | register node ns =>
      cases hstep
      exact h.of_eventPart (register_eventPart _ _ _ _)
  | unregister ns =>
      cases hstep
      exact h.of_eventPart (unregister_eventPart _ _ _)
  | discover node ns =>
      cases hstep
      exact h.of_eventPart (discover_eventPart _ _ _ _)
  | swarm event =>
      cases hstep
      exact h.of_eventPart (onSwarmEvent_eventPart _ _)
  | poll ticks yields => exact transparent_poll h hstep

end P2pa.Rendezvous
