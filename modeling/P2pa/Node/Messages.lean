import P2pa.Node.EventLoop

/-!
# Gossip messages on their way to the client

Every event of the swarm is taken by one of two loops.  The main loop sends a
message on; the handshake with a relay drops it like any event it does not wait for.
-/

namespace P2pa.Node

def SwarmEvent.message : SwarmEvent → Option Event
  | .behaviour (.gossip event) => some (clientEvent event)
  | _ => none

def messages (events : List SwarmEvent) : List Event := events.filterMap SwarmEvent.message

theorem messages_snoc (events : List SwarmEvent) (event : SwarmEvent) :
    messages (events ++ [event]) = messages events ++ event.message.toList := by
  rw [messages, List.filterMap_append, ← messages]
  cases hmessage : event.message <;> simp [hmessage]

theorem handleSwarmEvent_sends (lib : Libp2p) (o : Oracle) (clientAlive : Bool)
    (n : NodeInner) (event : SwarmEvent) :
    (handleSwarmEvent lib o clientAlive n event).2.1 =
      if clientAlive then event.message.toList else [] := by
  cases event with
  | behaviour event =>
      unfold handleSwarmEvent handleEvent
      cases event with
      | gossip event => cases clientAlive <;> rfl
      | mdns event => cases event <;> cases clientAlive <;> rfl
      | rdvz event => cases event <;> cases clientAlive <;> rfl
      | _ => cases clientAlive <;> rfl
  | connectionEstablished endpoint => cases endpoint <;> cases clientAlive <;> rfl
  | _ => cases clientAlive <;> rfl

theorem receive_toClient (lib : Libp2p) (o : Oracle) (w : World) (event : SwarmEvent) :
    (w.receive lib o event).toClient =
      w.toClient ++ if w.nodeAlive then event.message.toList else [] := by
  rw [← handleSwarmEvent_sends lib o w.nodeAlive w.inner event]
  rfl

theorem receive_yielded (lib : Libp2p) (o : Oracle) (w : World) (event : SwarmEvent) :
    (w.receive lib o event).yielded = w.yielded ++ [event] := rfl

/-- The client has been sent the messages that the swarm yielded, in this order and
each once. -/
def Delivered (w : World) : Prop := w.toClient = messages w.yielded

/-- The condition on a step: a message is yielded to the main loop, while there is a
client to send it to. -/
def DeliveredStep (w : World) : Act → Prop
  | .event _ (.behaviour (.gossip _)) => w.mode = .selecting ∧ w.nodeAlive = true
  | _ => True

theorem deliveredStep_event (w : World) (o : Oracle) (event : SwarmEvent) :
    DeliveredStep w (.event o event) ↔
      event.message = none ∨ (w.mode = .selecting ∧ w.nodeAlive = true) := by
  cases event with
  | behaviour event => cases event <;> simp [DeliveredStep, SwarmEvent.message]
  | _ => simp [DeliveredStep, SwarmEvent.message]

/-- In the main loop an event is delivered exactly when it meets the condition. -/
theorem delivered_receive_iff {lib : Libp2p} {o : Oracle} {w : World} {event : SwarmEvent}
    (hw : Delivered w) (hmode : w.mode = .selecting) :
    Delivered (w.receive lib o event) ↔ DeliveredStep w (.event o event) := by
  rw [Delivered, receive_toClient, receive_yielded, messages_snoc, hw,
    List.append_cancel_left_eq, deliveredStep_event]
  cases w.nodeAlive with
  | true => simp [hmode]
  | false =>
      change [] = event.message.toList ↔ _
      rw [eq_comm, Option.toList_eq_nil_iff]
      simp

/-- The handshake drops every message. -/
theorem delivered_shake_iff {o : Oracle} {w : World} {hs : Handshake} {event : SwarmEvent}
    (hw : Delivered w) (hmode : w.mode = .relaying hs) :
    Delivered (w.shake o hs event) ↔ DeliveredStep w (.event o event) := by
  obtain ⟨inner, mode, -, heq⟩ := shake_frame o w hs event
  rw [heq, deliveredStep_event]
  change w.toClient = messages (w.yielded ++ [event]) ↔ _
  rw [messages_snoc, hw, List.self_eq_append_right, Option.toList_eq_nil_iff]
  simp [hmode]

theorem delivered_step_iff {lib : Libp2p} {w w' : World} {a : Act} (hw : Delivered w)
    (hstep : step lib w a = some w') : Delivered w' ↔ DeliveredStep w a := by
  cases step_transition hstep with
  | send cmd halive =>
      refine iff_of_true ?_ trivial
      unfold World.send
      split
      · exact hw
      · exact hw
  | receive o event hmode => exact delivered_receive_iff hw hmode
  | shake o event hs hmode => exact delivered_shake_iff hw hmode
  | _ => exact iff_of_true hw trivial

/-- Along a run the client is sent exactly the messages that were yielded, exactly
when no message is yielded to a handshake with a relay. -/
theorem messages_delivered_iff (lib : Libp2p) (inner : NodeInner) (acts : List Act) :
    Machine.Along (step lib) (fun _ _ w' => Delivered w') (initial inner) acts ↔
      Machine.Along (step lib) (fun w a _ => DeliveredStep w a) (initial inner) acts := by
  apply Machine.along_iff_of_invariant Delivered
  · intro w a w' hw hstep hok
    have hw' : Delivered w' := (delivered_step_iff hw hstep).mpr hok
    exact ⟨hw', hw'⟩
  · intro w a w' hw hstep hw'
    exact (delivered_step_iff hw hstep).mp hw'
  · rfl

/-- A message that arrives while the node waits for a relay is lost. -/
theorem messages_delivered_fails :
    ¬ ∀ lib inner acts,
      Machine.Along (step lib) (fun _ _ w' => Delivered w') (initial inner) acts := by
  intro h
  have hrun := h sampleLibp2p sampleInner
    [.send (.listenViaRelay
        "/ip4/1.2.3.4/tcp/5000/p2p/QmYyQSo1c1Ym7orWxLYvCrM2EmxFTANf8wXmmE7DWjhx5N"),
      .command sampleOracle,
      .event sampleOracle (.behaviour (.gossip (.msgReceived "test" [72, 105])))]
  obtain ⟨-, hrun⟩ := hrun _ rfl
  obtain ⟨-, hrun⟩ := hrun _ rfl
  obtain ⟨hlast, -⟩ := hrun _ rfl
  cases hlast

end P2pa.Node
