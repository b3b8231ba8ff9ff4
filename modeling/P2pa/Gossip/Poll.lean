import P2pa.Gossip.Republish

/-!
# The gossip wrapper passes on what gossipsub yields

Runs of the calls of the node and of `poll`.  Republishing leaves the events alone, and
the loop returns the actions and queues the messages from other peers.
-/

namespace P2pa.Gossip

open Utils Wire

inductive Input (P : Type)
  | addExplicitPeers (peers : List PeerId)
  | publish (accepted : Bool) (topic : String) (contents : Bytes)
  | subscribe (topic : String)
  | unsubscribe (topic : String)
  | poll (now : Instant) (answers : Stream' Bool) (yields : List (ToSwarm GossipsubEvent P))

structure Wrapper (P : Type) where
  behaviour : Behaviour
  ledger : Ledger GossipsubEvent Event P

namespace Wrapper

variable {P : Type}

def start (localPeerId : PeerId) (enableRepublish : Bool) : Wrapper P where
  behaviour := new localPeerId enableRepublish
  ledger := .empty

def step (w : Wrapper P) : Input P → Option (Wrapper P)
  | .addExplicitPeers peers =>
      some { w with behaviour := addExplicitPeers w.behaviour peers }
  | .publish accepted topic contents =>
      some { w with behaviour := publish w.behaviour accepted topic contents }
  | .subscribe topic => some { w with behaviour := subscribe w.behaviour topic }
  | .unsubscribe topic => some { w with behaviour := unsubscribe w.behaviour topic }
  | .poll now answers yields =>
      let polled := poll w.behaviour now answers yields
      some { behaviour := polled.state, ledger := w.ledger.record yields polled }

end Wrapper

/-- One `MsgReceived` for a message that another peer has passed on. -/
def image (localPeerId : PeerId) : GossipsubEvent → List Event
  | .message propagationSource topic data =>
      if localPeerId = propagationSource then [] else [.msgReceived topic data]
  | .other => []

/-! ## What touches the queue of events -/

def eventPart (b : Behaviour) : PeerId × List Event := (b.localPeerId, b.eventQueue)

theorem publish_eventPart (b : Behaviour) (accepted : Bool) (topic : String)
    (contents : Bytes) : eventPart (publish b accepted topic contents) = eventPart b := by
  unfold publish
  dsimp only
  split <;> rfl

theorem subscribe_eventPart (b : Behaviour) (topic : String) :
    eventPart (subscribe b topic) = eventPart b := by
  unfold subscribe
  split <;> rfl

theorem unsubscribe_eventPart (b : Behaviour) (topic : String) :
    eventPart (unsubscribe b topic) = eventPart b := by
  unfold unsubscribe
  split <;> rfl

theorem drainPublish_eventPart (b : Behaviour) (answers : Stream' Bool) :
    eventPart (drainPublish b answers).1 = eventPart b := by
  unfold drainPublish
  rcases drainMessages_cases b.inProgressMessages answers b rfl with
    ⟨-, heq⟩ | ⟨sent, message, rest, -, -, -, heq⟩
  · rw [heq]
    rfl
  · rw [heq]
    rfl

theorem republish_eventPart (b : Behaviour) (now : Instant) (answers : Stream' Bool) :
    eventPart (republish b now answers) = eventPart b := by
  unfold republish
  split
  · exact drainPublish_eventPart b answers
  · rfl

theorem handleEvent_localPeerId (b : Behaviour) (event : GossipsubEvent) :
    (handleEvent b event).localPeerId = b.localPeerId := by
  unfold handleEvent
  split
  · split <;> rfl
  · rfl

theorem handleEvent_eventQueue (b : Behaviour) (event : GossipsubEvent) :
    (handleEvent b event).eventQueue = b.eventQueue ++ image b.localPeerId event := by
  unfold handleEvent image
  cases event with
  | message propagationSource topic data =>
      dsimp only
      by_cases hlocal : b.localPeerId = propagationSource
      · rw [if_pos hlocal, if_pos hlocal, List.append_nil]
      · rw [if_neg hlocal, if_neg hlocal]
  | other => exact (List.append_nil _).symm

theorem emit_localPeerId (b : Behaviour) : (emit b).1.localPeerId = b.localPeerId := by
  unfold emit
  split <;> rfl

theorem emit_eventQueue (b : Behaviour) :
    (emit b).2.toList ++ (emit b).1.eventQueue = b.eventQueue := by
  unfold emit
  split
  · next hqueue => rw [hqueue, Option.toList_some, List.singleton_append]
  · rfl

/-! ## Runs -/

variable {P : Type}

structure Wrapper.Transparent (localPeerId : PeerId) (w : Wrapper P) : Prop where
  samePeer : w.behaviour.localPeerId = localPeerId
  balanced : w.ledger.Balanced (image localPeerId) w.behaviour.eventQueue

theorem Wrapper.Transparent.of_eventPart {localPeerId : PeerId} {w : Wrapper P}
    (h : w.Transparent localPeerId) {b : Behaviour} (hb : eventPart b = eventPart w.behaviour) :
    Wrapper.Transparent localPeerId { w with behaviour := b } := by
  have hpeer : b.localPeerId = w.behaviour.localPeerId := congrArg Prod.fst hb
  have hqueue : b.eventQueue = w.behaviour.eventQueue := congrArg Prod.snd hb
  constructor
  · exact hpeer.trans h.samePeer
  · dsimp only
    rw [hqueue]
    exact h.balanced

theorem transparent_start (localPeerId : PeerId) (enableRepublish : Bool) :
    (Wrapper.start localPeerId enableRepublish : Wrapper P).Transparent localPeerId :=
  ⟨rfl, Ledger.balanced_empty _⟩

theorem transparent_poll {localPeerId : PeerId} {w : Wrapper P}
    (h : w.Transparent localPeerId) (now : Instant) (answers : Stream' Bool)
    (yields : List (ToSwarm GossipsubEvent P)) {w' : Wrapper P}
    (hstep : w.step (.poll now answers yields) = some w') : w'.Transparent localPeerId := by
  cases hstep
  have hrepublish := h.of_eventPart (republish_eventPart w.behaviour now answers)
  obtain ⟨hpeer, taken, hyields, hpasses⟩ := passes_forward
    (fun b : Behaviour => b.localPeerId = localPeerId)
    (fun b event hb => (handleEvent_localPeerId b event).trans hb)
    (fun b event hb => by rw [handleEvent_eventQueue, hb])
    (fun b hb => (emit_localPeerId b).trans hb) emit_eventQueue
    hrepublish.samePeer (rfl : _ = poll w.behaviour now answers yields)
  exact ⟨hpeer, hrepublish.balanced.record hyields hpasses⟩

theorem transparent_step {localPeerId : PeerId} {w w' : Wrapper P} {input : Input P}
    (h : w.Transparent localPeerId) (hstep : w.step input = some w') :
    w'.Transparent localPeerId := by
  cases input with
  | addExplicitPeers peers =>
      cases hstep
      exact h.of_eventPart rfl
  | publish accepted topic contents =>
      cases hstep
      exact h.of_eventPart (publish_eventPart _ _ _ _)
  | subscribe topic =>
      cases hstep
      exact h.of_eventPart (subscribe_eventPart _ _)
  | unsubscribe topic =>
      cases hstep
      exact h.of_eventPart (unsubscribe_eventPart _ _)
  | poll now answers yields => exact transparent_poll h now answers yields hstep

end P2pa.Gossip
