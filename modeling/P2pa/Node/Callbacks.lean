import P2pa.Node.Messages
import P2pa.Node.Shutdown
import P2pa.Support.Simulation

/-!
# What the callback of `execute` is called with

The callback gets the messages that the event loop has sent, one after the other.  The task
that calls it never goes to sleep over a message.
-/

namespace P2pa.Node.Shutdown

def calledWith (s : System) : Act → List Event
  | .pollEvent => if s.execute = .pollEvent then s.pending.toList else []
  | _ => []

def callbacks (lib : Libp2p) (inner : NodeInner) (acts : List Act) : List Event :=
  Machine.answers (step lib) calledWith (initial inner) acts

/-- The events handed to the callback are the first ones that the loop has sent, and what it
has sent is what the swarm has yielded, perhaps with gaps. -/
structure InOrder (s : System) (called : List Event) : Prop where
  called : called = s.loop.toClient.take s.received
  received : s.received ≤ s.loop.toClient.length
  sent : s.loop.toClient.Sublist (messages s.loop.yielded)

theorem inOrder_initial (inner : NodeInner) : InOrder (initial inner) [] :=
  ⟨rfl, Nat.le_refl 0, List.Sublist.refl []⟩

section Step

variable {lib : Libp2p} {s t : System} {a : Act} {called : List Event}

/-- The loop only adds to what it has sent, and adds what is yielded. -/
theorem step_sends {w w' : World} {a : Node.Act} (hstep : Node.step lib w a = some w') :
    ∃ events yields, w'.toClient = w.toClient ++ events ∧ w'.yielded = w.yielded ++ yields ∧
      events.Sublist (messages yields) := by
  have hnone : w'.toClient = w.toClient → w'.yielded = w.yielded →
      ∃ events yields, w'.toClient = w.toClient ++ events ∧ w'.yielded = w.yielded ++ yields ∧
        events.Sublist (messages yields) := by
    intro hclient hyielded
    refine ⟨[], [], ?_, ?_, List.Sublist.refl []⟩
    · rw [hclient, List.append_nil]
    · rw [hyielded, List.append_nil]
  cases step_transition hstep with
  | send cmd halive =>
      apply hnone
      · unfold World.send
        split <;> rfl
      · unfold World.send
        split <;> rfl
  | receive o event hmode =>
      refine ⟨_, [event], receive_toClient lib o w event, receive_yielded lib o w event, ?_⟩
      have hmessage : messages [event] = event.message.toList := messages_snoc [] event
      rw [hmessage]
      split
      · exact List.Sublist.refl _
      · exact List.nil_sublist _
  | shake o event hs hmode =>
      obtain ⟨inner, mode, -, heq⟩ := shake_frame o w hs event
      rw [heq]
      exact ⟨[], [event], (List.append_nil _).symm, rfl, List.nil_sublist _⟩
  | _ => exact hnone rfl rfl

theorem InOrder.loop (h : InOrder s called) {a : Node.Act} {loop : World}
    (hstep : Node.step lib s.loop a = some loop) : InOrder { s with loop } called := by
  obtain ⟨events, yields, hclient, hyielded, hsub⟩ := step_sends hstep
  constructor
  · change called = loop.toClient.take s.received
    rw [hclient, List.take_append_of_le_length h.received]
    exact h.called
  · change s.received ≤ loop.toClient.length
    rw [hclient, List.length_append]
    exact Nat.le_add_right_of_le h.received
  · change loop.toClient.Sublist (messages loop.yielded)
    unfold messages at hsub ⊢
    rw [hclient, hyielded, List.filterMap_append]
    exact h.sent.append hsub

/-- The next event is the one behind those received. -/
theorem InOrder.receive (h : InOrder s called) {event : Event}
    (hpending : s.pending = some event) :
    InOrder { s with received := s.received + 1, execute := .calling event }
      (called ++ [event]) := by
  obtain ⟨hlt, -⟩ := List.getElem?_eq_some_iff.mp hpending
  refine ⟨?_, hlt, h.sent⟩
  change called ++ [event] = s.loop.toClient.take (s.received + 1)
  rw [List.take_add_one, h.called]
  exact congrArg (s.loop.toClient.take s.received ++ ·) (congrArg Option.toList hpending).symm

theorem inOrder_step (h : InOrder s called) (hstep : step lib s a = some t) :
    InOrder t (called ++ calledWith s a) := by
  have hsame : ∀ {t : System}, t.loop.toClient = s.loop.toClient →
      t.loop.yielded = s.loop.yielded → t.received = s.received → calledWith s a = [] →
        InOrder t (called ++ calledWith s a) := by
    intro t hclient hyielded hreceived hnone
    rw [hnone, List.append_nil]
    constructor
    · rw [hclient, hreceived]
      exact h.called
    · rw [hclient, hreceived]
      exact h.received
    · rw [hclient, hyielded]
      exact h.sent
  cases system_transition hstep with
  | loop a loop hloop =>
      change InOrder _ (called ++ [])
      rw [List.append_nil]
      exact h.loop hloop
  | shutdown hrunning =>
      have hsend : (s.loop.send .shutdown).toClient = s.loop.toClient ∧
          (s.loop.send .shutdown).yielded = s.loop.yielded := by
        unfold World.send
        split <;> exact ⟨rfl, rfl⟩
      exact hsame hsend.1 hsend.2 rfl rfl
  | received event hexecute hpending =>
      have hcalled : calledWith s .pollEvent = [event] := by
        unfold calledWith
        rw [if_pos hexecute, hpending, Option.toList_some]
      rw [hcalled]
      exact h.receive hpending
  | notReceived hexecute hpending =>
      have hcalled : calledWith s .pollEvent = [] := by
        unfold calledWith
        rw [if_pos hexecute, hpending, Option.toList_none]
      exact hsame rfl rfl rfl hcalled
  | _ => exact hsame rfl rfl rfl rfl

theorem received_of_quiescent (hquiet : Quiescent lib s) (hrunning : s.execute ≠ .ended) :
    s.loop.toClient.length ≤ s.received := by
  cases hexecute : s.execute with
  | ended => exact absurd hexecute hrunning
  | spawned =>
      have hstart := hquiet .start rfl
      simp [step, hexecute] at hstart
  | pollEvent =>
      have hpoll := hquiet .pollEvent rfl
      simp only [step, hexecute] at hpoll
      split at hpoll <;> cases hpoll
  | pollKill =>
      have hpoll := hquiet .pollKill rfl
      simp only [step, hexecute] at hpoll
      split at hpoll <;> cases hpoll
  | calling event =>
      have hcallback := hquiet (.callback true) rfl
      simp [step, hexecute] at hcallback
  | parked =>
      have hwake := hquiet .wake rfl
      have hready : s.ready = false := by
        cases hready : s.ready with
        | false => rfl
        | true => simp [step, hexecute, hready] at hwake
      unfold System.ready at hready
      simp only [Bool.or_eq_false_iff, Option.isSome_eq_false_iff, Option.isNone_iff_eq_none]
        at hready
      exact List.getElem?_eq_none_iff.mp hready.1.1

end Step

/-- The callback is called with the first messages that the loop has sent, each once and in
order, and those are messages that the swarm has yielded.  Unless the task has ended, it has
been called with all of them once neither task can go on. -/
theorem callbacks_in_order {lib : Libp2p} {inner : NodeInner} {acts : List Act} {s : System}
    (hrun : Machine.run (step lib) (initial inner) acts = some s) :
    callbacks lib inner acts = s.loop.toClient.take s.received ∧
      (callbacks lib inner acts).Sublist (messages s.loop.yielded) ∧
      (Quiescent lib s → s.execute ≠ .ended → callbacks lib inner acts = s.loop.toClient) := by
  -- the second machine keeps what is called so far
  have hlog : ∀ (events called : List Event),
      Machine.run (fun called event => some (called ++ [event])) called events =
        some (called ++ events) := by
    intro events
    induction events with
    | nil => exact fun called => congrArg some (List.append_nil called).symm
    | cons event events ih =>
        intro called
        rw [Machine.run_cons, Option.bind_some, ih, List.append_assoc, List.singleton_append]
  have hinv : InOrder s (callbacks lib inner acts) := by
    refine Machine.run_answers (R := InOrder) ?_ (inOrder_initial inner) hrun (hlog _ _)
    intro s a s' called called' h hstep hcalled
    rw [hlog] at hcalled
    cases hcalled
    exact inOrder_step h hstep
  refine ⟨hinv.called, ?_, fun hquiet hrunning => ?_⟩
  · rw [hinv.called]
    exact (List.take_sublist _ _).trans hinv.sent
  · rw [hinv.called]
    exact List.take_of_length_le (received_of_quiescent hquiet hrunning)

def callbackActs : List Act :=
  [.loop (.event sampleOracle (.behaviour (.gossip (.msgReceived "chat" [72, 105])))),
    .loop (.event sampleOracle (.behaviour (.gossip (.msgReceived "chat" [72, 111])))),
    .start, .pollEvent, .callback true]

theorem callbacks_in_order_sample :
    ∃ s called, Machine.run (step sampleLibp2p) (initial sampleInner) callbackActs = some s ∧
      called = callbacks sampleLibp2p sampleInner callbackActs ∧
      called = s.loop.toClient.take s.received ∧ called.Sublist (messages s.loop.yielded) ∧
      (Quiescent sampleLibp2p s → s.execute ≠ .ended → called = s.loop.toClient) :=
  ⟨_, _, rfl, rfl, callbacks_in_order (show Machine.run (step sampleLibp2p)
    (initial sampleInner) callbackActs = some _ from rfl)⟩

end P2pa.Node.Shutdown
