import P2pa.Node.Messages
import P2pa.Node.Whole.Model

/-!
# Messages from gossipsub to the client

What gossipsub yields goes through the queue of the behaviour, an event of the swarm and the
event channel.
-/

namespace P2pa.Node.Whole

open Utils

/-! ## What the client is sent -/

/-- The client is sent a part of the messages in their order, and all of them while it is
there and no relay has been asked for. -/
structure Sent (w : World) : Prop where
  part : w.toClient.Sublist (messages w.yielded)
  all : w.nodeAlive = true → (∀ address, .listenViaRelay address ∉ w.handled) →
    Delivered w ∧ ∀ hs, w.mode ≠ .relaying hs

theorem sent_initial (inner : NodeInner) : Sent (Node.initial inner) :=
  ⟨List.Sublist.refl _, fun _ _ => ⟨rfl, nofun⟩⟩

theorem sent_step {lib : Libp2p} {w w' : World} {a : Node.Act} (h : Sent w)
    (hstep : Node.step lib w a = some w') : Sent w' := by
  cases step_transition hstep with
  | send cmd halive =>
      unfold World.send
      split
      · exact h
      · exact ⟨h.part, h.all⟩
  | dropNode halive => exact ⟨h.part, nofun⟩
  | recvError hmode => exact h
  | command o cmd rest hmode hcommands =>
      refine ⟨h.part, fun halive hnone => ?_⟩
      have hbefore := h.all halive fun address hin =>
        hnone address (List.mem_append_left _ hin)
      refine ⟨hbefore.1, fun hs hrelaying => ?_⟩
      obtain ⟨address, rfl, -⟩ := relaying_of_handleCommand hrelaying
      exact hnone address (List.mem_append_right _ (List.mem_singleton_self _))
  | receive o event hmode =>
      constructor
      · rw [receive_toClient, receive_yielded, messages_snoc]
        apply h.part.append
        split
        · exact List.Sublist.refl _
        · exact List.nil_sublist _
      · intro halive hnone
        obtain ⟨hdelivered, -⟩ := h.all halive hnone
        constructor
        · rw [delivered_receive_iff hdelivered hmode, deliveredStep_event]
          exact .inr ⟨hmode, halive⟩
        · intro hs
          rw [receive_mode]
          cases (handleSwarmEvent lib o w.nodeAlive w.inner event).2.2 <;> exact nofun
  | shake o event hs hmode =>
      obtain ⟨inner, mode, -, heq⟩ := shake_frame o w hs event
      rw [heq]
      constructor
      · change w.toClient.Sublist (messages (w.yielded ++ [event]))
        rw [messages_snoc]
        exact h.part.trans (List.sublist_append_left _ _)
      · intro halive hnone
        exact absurd hmode ((h.all halive hnone).2 hs)
  | timeout hs hmode =>
      refine ⟨h.part, fun halive hnone => ?_⟩
      exact absurd hmode ((h.all halive hnone).2 hs)

/-! ## What gossipsub has yielded -/

def gossipEvent : SwarmEvent → Option Gossip.Event
  | .behaviour (.gossip event) => some event
  | _ => none

theorem messages_eq (events : List SwarmEvent) :
    messages events = (events.filterMap gossipEvent).map clientEvent := by
  unfold messages
  rw [List.map_filterMap]
  congr 1
  funext event
  cases event with
  | behaviour event => cases event <;> rfl
  | _ => rfl

/-- What was queued at the start, and the messages of other peers yielded since. -/
def heard (inner : NodeInner) (s : System) : List Gossip.Event :=
  inner.swarm.gossip.eventQueue ++
    s.gossipsub.flatMap (Gossip.image inner.swarm.gossip.localPeerId)

/-- What has been heard has been handed to the loop, or waits in the queue. -/
structure Heard (inner : NodeInner) (s : System) : Prop where
  samePeer : s.loop.inner.swarm.gossip.localPeerId = inner.swarm.gossip.localPeerId
  sent : Sent s.loop
  queued : s.loop.yielded.filterMap gossipEvent ++ s.loop.inner.swarm.gossip.eventQueue =
    heard inner s

theorem heard_initial (inner : NodeInner) (mdns : Option Mdns.World) :
    Heard inner (initial inner mdns) :=
  ⟨rfl, sent_initial inner, (List.append_nil _).symm⟩

section Step

variable {P : Type} {lib : Libp2p} {inner : NodeInner} {s s' : System}

theorem gossip_of_eventPart {b b' : Gossip.Behaviour}
    (h : Gossip.eventPart b' = Gossip.eventPart b) :
    b'.localPeerId = b.localPeerId ∧ b'.eventQueue = b.eventQueue :=
  ⟨congrArg Prod.fst h, congrArg Prod.snd h⟩

theorem Heard.loop (h : Heard inner s) {a : Node.Act} {s₁ : System}
    (hgossipsub : s₁.gossipsub = s.gossipsub) (hstep : Node.step lib s.loop a = some s₁.loop)
    (hevent : (eventOf a).bind gossipEvent = none) : Heard inner s₁ := by
  obtain ⟨hpeer, hqueue⟩ := gossip_of_eventPart (step_eventParts hstep).1
  have hsame : (eventOf a).toList.filterMap gossipEvent = [] := by
    cases hof : eventOf a with
    | none => rfl
    | some event =>
        rw [hof, Option.bind_some] at hevent
        rw [Option.toList_some, List.filterMap_cons_none hevent, List.filterMap_nil]
  refine ⟨hpeer.trans h.samePeer, sent_step h.sent hstep, ?_⟩
  unfold heard
  rw [step_yielded hstep, List.filterMap_append, hsame, List.append_nil, hqueue, hgossipsub]
  exact h.queued

theorem Heard.delivers (h : Heard inner s) {o : Oracle} {event : Option BehaviourEvent}
    (hevent : ∀ e, event = some e → gossipEvent (.behaviour e) = none)
    (hs' : Delivers lib s o event s') : Heard inner s' := by
  cases hs' with
  | nothing => exact h
  | event event loop hstep => exact h.loop rfl hstep (hevent event rfl)

/-- A poll returns the first of what was queued and what it has taken, or keeps it all. -/
theorem poll_gossip (b : Gossip.Behaviour) (now : Instant) (answers : Stream' Bool)
    (yields : List (ToSwarm Gossip.GossipsubEvent P))
    {polled : Polled Gossip.Behaviour Gossip.GossipsubEvent Gossip.Event P}
    (hpolled : Gossip.poll b now answers yields = polled) :
    polled.state.localPeerId = b.localPeerId ∧
      (returnedEvent polled).toList ++ polled.state.eventQueue =
        b.eventQueue ++ (eventsTaken yields polled).flatMap (Gossip.image b.localPeerId) := by
  have hrepublish := Gossip.republish_eventPart b now answers
  have hpeer : (Gossip.republish b now answers).localPeerId = b.localPeerId :=
    congrArg Prod.fst hrepublish
  have hqueue : (Gossip.republish b now answers).eventQueue = b.eventQueue :=
    congrArg Prod.snd hrepublish
  obtain ⟨hsame, taken, hyields, hpasses⟩ := passes_forward
    (fun b' : Gossip.Behaviour => b'.localPeerId = b.localPeerId)
    (fun b' event hb' => (Gossip.handleEvent_localPeerId b' event).trans hb')
    (fun b' event hb' => by rw [Gossip.handleEvent_eventQueue, hb'])
    (fun b' hb' => (Gossip.emit_localPeerId b').trans hb') Gossip.emit_eventQueue
    hpeer hpolled
  refine ⟨hsame, ?_⟩
  rw [toList_returnedEvent, taken_of_append hyields, hpasses.events, hqueue]

theorem heard_pollGossip (h : Heard inner s) {o : Oracle} {now : Instant}
    {answers : Stream' Bool} {yields : List (ToSwarm Gossip.GossipsubEvent P)}
    {polled : Polled Gossip.Behaviour Gossip.GossipsubEvent Gossip.Event P}
    (hpolled : Gossip.poll s.loop.inner.swarm.gossip now answers yields = polled)
    {s₁ : System} (hloop : s₁.loop = withGossip s.loop polled.state)
    (hgossipsub : s₁.gossipsub = s.gossipsub ++ eventsTaken yields polled)
    (hs' : Delivers lib s₁ o ((returnedEvent polled).map .gossip) s') : Heard inner s' := by
  obtain ⟨hpeer, hqueue⟩ := poll_gossip _ now answers yields hpolled
  have hsent : Sent s₁.loop := by
    rw [hloop]
    exact ⟨h.sent.part, h.sent.all⟩
  have hpeer₁ : s₁.loop.inner.swarm.gossip.localPeerId = inner.swarm.gossip.localPeerId := by
    rw [hloop]
    exact hpeer.trans h.samePeer
  -- the event returned is no more in the queue, and not yet with the loop
  have hqueued : s₁.loop.yielded.filterMap gossipEvent ++ (returnedEvent polled).toList ++
      s₁.loop.inner.swarm.gossip.eventQueue = heard inner s₁ := by
    unfold heard
    rw [hloop, hgossipsub, List.flatMap_append, ← List.append_assoc]
    change s.loop.yielded.filterMap gossipEvent ++ _ ++ polled.state.eventQueue =
      heard inner s ++ _
    rw [List.append_assoc, hqueue, ← List.append_assoc, h.queued, h.samePeer]
  generalize hreturned : returnedEvent polled = returned at hs' hqueued
  cases returned with
  | none =>
      cases hs'
      refine ⟨hpeer₁, hsent, ?_⟩
      rw [Option.toList_none, List.append_nil] at hqueued
      exact hqueued
  | some event =>
      cases hs' with
      | event _ loop hstep =>
          obtain ⟨hpeer', hqueue'⟩ := gossip_of_eventPart (step_eventParts hstep).1
          refine ⟨hpeer'.trans hpeer₁, sent_step hsent hstep, ?_⟩
          dsimp only
          rw [step_yielded hstep, List.filterMap_append, hqueue']
          exact hqueued

theorem heard_step (h : Heard inner s) {a : Act P} (hstep : step lib s a = some s') :
    Heard inner s' := by
  cases transition hstep with
  | loop a loop helse hloop =>
      refine h.loop rfl hloop ?_
      cases a with
      | event o event =>
          change gossipEvent event = none
          cases event with
          | behaviour event =>
              cases event with
              | gossip event => cases helse
              | _ => rfl
          | _ => rfl
      | _ => rfl
  | fromSwarm event => exact ⟨h.samePeer, ⟨h.sent.part, h.sent.all⟩, h.queued⟩
  | pollGossip o now answers yields polled hpolled _ hs' =>
      exact heard_pollGossip h hpolled rfl rfl hs'
  | pollRdvz o ticks yields b hb polled hpolled _ hs' =>
      have hmid : Heard inner { s with
          loop := withRdvz s.loop (some polled.state)
          client := s.client ++ eventsTaken yields polled } :=
        ⟨h.samePeer, ⟨h.sent.part, h.sent.all⟩, h.queued⟩
      apply hmid.delivers _ hs'
      rintro e he
      obtain ⟨event, -, rfl⟩ := Option.map_eq_some_iff.mp he
      rfl
  | pollMdns o a w w' hw hpolled _ hs' =>
      have hmid : Heard inner { s with mdns := some w' } := ⟨h.samePeer, h.sent, h.queued⟩
      apply hmid.delivers _ hs'
      rintro e he
      obtain ⟨event, -, rfl⟩ := Option.map_eq_some_iff.mp he
      rfl
  | pollDht o now answer drainNow answers fuel reads yields b hb polled hpolled _ hs' =>
      have hmid : Heard inner { s with loop := withDht s.loop (some polled.state) } :=
        ⟨h.samePeer, ⟨h.sent.part, h.sent.all⟩, h.queued⟩
      apply hmid.delivers _ hs'
      rintro e he
      obtain ⟨event, -, rfl⟩ := Option.map_eq_some_iff.mp he
      rfl

end Step

/-- The client is sent only messages of other peers that gossipsub has yielded, none twice
and in their order; as long as it is there and no relay has been asked for, it has been sent
all of them but those that wait in the queue. -/
theorem gossip_reaches_client {P : Type} {lib : Libp2p} {inner : NodeInner}
    {mdns : Option Mdns.World} {acts : List (Act P)} {s : System}
    (hrun : Machine.run (step lib) (initial inner mdns) acts = some s) :
    s.loop.toClient.Sublist ((heard inner s).map clientEvent) ∧
      (s.loop.nodeAlive = true → (∀ address, .listenViaRelay address ∉ s.loop.handled) →
        s.loop.toClient ++ s.loop.inner.swarm.gossip.eventQueue.map clientEvent =
          (heard inner s).map clientEvent) := by
  have hheard : Heard inner s :=
    Machine.run_invariant (Heard inner) (fun _ _ _ h hstep => heard_step h hstep)
      (heard_initial inner mdns) hrun
  constructor
  · rw [← hheard.queued, List.map_append, ← messages_eq]
    exact hheard.sent.part.trans (List.sublist_append_left _ _)
  · intro halive hnone
    obtain ⟨hdelivered, -⟩ := hheard.sent.all halive hnone
    rw [← hheard.queued, List.map_append, ← messages_eq, ← hdelivered]

/-! ## A message on its way to the client -/

def otherPeer : PeerId where
  multihash := [18, 1, 7]

def pollTwo : Act Unit :=
  .pollGossip sampleOracle 0 (Stream'.const true)
    [.generateEvent (.message otherPeer "chat" [72, 105]),
      .generateEvent (.message samplePeerId "chat" [72, 111])]

theorem gossip_reaches_client_sample :
    ∃ s, Machine.run (step sampleLibp2p) (initial sampleInner none) [pollTwo, pollTwo] = some s ∧
      s.loop.toClient.Sublist ((heard sampleInner s).map clientEvent) ∧
      (s.loop.nodeAlive = true → (∀ address, .listenViaRelay address ∉ s.loop.handled) →
        s.loop.toClient ++ s.loop.inner.swarm.gossip.eventQueue.map clientEvent =
          (heard sampleInner s).map clientEvent) :=
  ⟨_, rfl, gossip_reaches_client (show Machine.run (step sampleLibp2p) (initial sampleInner none)
    [pollTwo, pollTwo] = some _ from rfl)⟩

end P2pa.Node.Whole
