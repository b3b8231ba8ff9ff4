import P2pa.Node.Whole.Model

/-!
# Messages from the client to gossipsub

What the client publishes goes through the command channel, and waits in the behaviour until
gossipsub accepts it.
-/

namespace P2pa.Node.Whole

open Utils

def publishOf : Command → Option Gossip.Message
  | .publish topic contents => some (topic, contents)
  | _ => none

def publishes (cmds : List Command) : List Gossip.Message := cmds.filterMap publishOf

def messagePart (b : Gossip.Behaviour) : Bool × List Gossip.Message :=
  (b.enableRepublish, b.inProgressMessages)

def Fifo (w : World) : Prop := w.sent = w.handled ++ w.commands

/-- What the commands handled have published is accepted or in progress. -/
structure Published (inner : NodeInner) (s : System) : Prop where
  enabled : s.loop.inner.swarm.gossip.enableRepublish = true
  fifo : Fifo s.loop
  conserved : (publishes s.loop.handled : Multiset Gossip.Message) +
      inner.swarm.gossip.inProgressMessages =
    s.accepted + s.loop.inner.swarm.gossip.inProgressMessages

theorem published_initial {inner : NodeInner} (mdns : Option Mdns.World)
    (henable : inner.swarm.gossip.enableRepublish = true) :
    Published inner (initial inner mdns) where
  enabled := henable
  fifo := rfl
  conserved := rfl

section Publish

variable {P : Type} {lib : Libp2p} {inner : NodeInner} {s s' : System}

theorem Published.frame (h : Published inner s)
    (hpart : messagePart s'.loop.inner.swarm.gossip = messagePart s.loop.inner.swarm.gossip)
    (hfifo : Fifo s'.loop)
    (hhandled : publishes s'.loop.handled = publishes s.loop.handled)
    (haccepted : s'.accepted = s.accepted) : Published inner s' := by
  have henabled : s'.loop.inner.swarm.gossip.enableRepublish = _ := congrArg Prod.fst hpart
  have hmessages : s'.loop.inner.swarm.gossip.inProgressMessages = _ := congrArg Prod.snd hpart
  refine ⟨henabled.trans h.enabled, hfifo, ?_⟩
  rw [hhandled, haccepted, hmessages]
  exact h.conserved

/-- What is in progress after a command, with what gossipsub has accepted. -/
theorem gossipAfter_balance {b : Gossip.Behaviour} (henable : b.enableRepublish = true)
    (o : Oracle) (cmd : Command) :
    (gossipAfter o b cmd).enableRepublish = true ∧
      (publishes [cmd] : Multiset Gossip.Message) + b.inProgressMessages =
        published o cmd + (gossipAfter o b cmd).inProgressMessages := by
  have hnone : (publishes [cmd] = []) → messagePart (gossipAfter o b cmd) = messagePart b →
      published o cmd = [] → (gossipAfter o b cmd).enableRepublish = true ∧
      (publishes [cmd] : Multiset Gossip.Message) + b.inProgressMessages =
        published o cmd + (gossipAfter o b cmd).inProgressMessages := by
    intro hpublishes hpart hpublished
    have henabled : (gossipAfter o b cmd).enableRepublish = _ := congrArg Prod.fst hpart
    have hmessages : (gossipAfter o b cmd).inProgressMessages = _ := congrArg Prod.snd hpart
    rw [hpublishes, hpublished, hmessages]
    exact ⟨henabled.trans henable, rfl⟩
  cases cmd with
  | publish topic contents =>
      have hbalance := Gossip.apply_balance henable
        (.publish topic contents (Stream'.const o.publish))
      have henabled := Gossip.enableRepublish_apply b
        (.publish topic contents (Stream'.const o.publish))
      refine ⟨henabled.trans henable, hbalance.trans ?_⟩
      rw [Gossip.publish_offers]
      rfl
  | subscribe topic =>
      apply hnone rfl _ rfl
      unfold gossipAfter Gossip.subscribe
      dsimp only
      split <;> rfl
  | unsubscribe topic =>
      apply hnone rfl _ rfl
      unfold gossipAfter Gossip.unsubscribe
      dsimp only
      split <;> rfl
  | _ => exact hnone rfl rfl rfl

theorem publishes_append (cmds more : List Command) :
    publishes (cmds ++ more) = publishes cmds ++ publishes more := List.filterMap_append

theorem fifo_step {w w' : World} {a : Node.Act} (h : Fifo w)
    (hstep : Node.step lib w a = some w') : Fifo w' := by
  unfold Fifo at h
  cases step_transition hstep with
  | send cmd halive =>
      unfold World.send
      split
      · exact h
      · change w.sent ++ [cmd] = w.handled ++ (w.commands ++ [cmd])
        rw [h, List.append_assoc]
  | command o cmd rest hmode hcommands =>
      change w.sent = w.handled ++ [cmd] ++ rest
      rw [h, hcommands, List.append_assoc, List.singleton_append]
  | shake o event hs hmode =>
      obtain ⟨inner, mode, -, heq⟩ := shake_frame o w hs event
      rw [heq]
      exact h
  | _ => exact h

theorem step_handled {w w' : World} {a : Node.Act} (hstep : Node.step lib w a = some w')
    (ha : ∀ o, a ≠ .command o) : w'.handled = w.handled := by
  cases step_transition hstep with
  | send cmd halive =>
      unfold World.send
      split <;> rfl
  | command o cmd rest hmode hcommands => exact absurd rfl (ha o)
  | shake o event hs hmode =>
      obtain ⟨inner, mode, -, heq⟩ := shake_frame o w hs event
      rw [heq]
  | _ => rfl

theorem published_loop (h : Published inner s) {a : Node.Act} {loop : World}
    (hstep : Node.step lib s.loop a = some loop) :
    Published inner { s with loop, accepted := s.accepted ++ acceptedBy s.loop a } := by
  have hfifo := fifo_step h.fifo hstep
  by_cases hcommand : ∃ o, a = .command o
  · obtain ⟨o, rfl⟩ := hcommand
    cases step_transition hstep with
    | command o cmd rest hmode hcommands =>
        obtain ⟨hgossip, -⟩ := handleCommand_behaviours lib o s.loop.inner cmd
        obtain ⟨henabled, hbalance⟩ := gossipAfter_balance h.enabled o cmd
        have haccepted : acceptedBy s.loop (.command o) = published o cmd := by
          unfold acceptedBy
          rw [hcommands]
          rfl
        refine ⟨?_, hfifo, ?_⟩
        · change (handleCommand lib o s.loop.inner cmd).1.swarm.gossip.enableRepublish = true
          rw [hgossip]
          exact henabled
        · change ((publishes (s.loop.handled ++ [cmd]) : List Gossip.Message) :
              Multiset Gossip.Message) + _ =
            _ + (handleCommand lib o s.loop.inner cmd).1.swarm.gossip.inProgressMessages
          rw [hgossip, haccepted, publishes_append, ← Multiset.coe_add, ← Multiset.coe_add,
            add_right_comm, h.conserved, add_assoc,
            add_comm _ (publishes [cmd] : Multiset Gossip.Message), hbalance, add_assoc]
  · have hother : ∀ o, a ≠ .command o := fun o heq => hcommand ⟨o, heq⟩
    have haccepted : acceptedBy s.loop a = [] := by
      cases a with
      | command o => exact absurd rfl (hother o)
      | _ => rfl
    have hpart : messagePart loop.inner.swarm.gossip = messagePart s.loop.inner.swarm.gossip := by
      have hcalls := step_calls hstep
      generalize loop.inner.swarm.gossip = gossip, loop.inner.swarm.rdvz = rdvz at hcalls ⊢
      cases hcalls with
      | command o cmd rest hcommands => exact absurd rfl (hother o)
      | received o event => rfl
      | none a hcommand => rfl
    apply h.frame hpart hfifo
    · exact congrArg publishes (step_handled hstep hother)
    · rw [haccepted, List.append_nil]

theorem republish_balance {b : Gossip.Behaviour} (henable : b.enableRepublish = true)
    (now : Instant) (answers : Stream' Bool) :
    (Gossip.republish b now answers).enableRepublish = true ∧
      (b.inProgressMessages : Multiset Gossip.Message) =
        republished b now answers + (Gossip.republish b now answers).inProgressMessages := by
  unfold Gossip.republish republished
  split
  · have hbalance := Gossip.apply_balance henable (.drainPublish answers)
    have henabled := Gossip.enableRepublish_apply b (.drainPublish answers)
    exact ⟨henabled.trans henable, (zero_add _).symm.trans hbalance⟩
  · exact ⟨henable, (zero_add _).symm⟩

theorem published_pollGossip (h : Published inner s) {now : Instant} {answers : Stream' Bool}
    {yields : List (ToSwarm Gossip.GossipsubEvent P)}
    {polled : Polled Gossip.Behaviour Gossip.GossipsubEvent Gossip.Event P}
    (hpolled : Gossip.poll s.loop.inner.swarm.gossip now answers yields = polled)
    {s₁ : System} (hloop : s₁.loop = withGossip s.loop polled.state)
    (haccepted : s₁.accepted = s.accepted ++
      republished s.loop.inner.swarm.gossip now answers) : Published inner s₁ := by
  obtain ⟨henabled, hbalance⟩ := republish_balance h.enabled now answers
  have henabled' : polled.state.enableRepublish = _ :=
    poll_frame Gossip.Behaviour.enableRepublish (fun _ => rfl) hpolled
  have hmessages : polled.state.inProgressMessages = _ :=
    poll_frame Gossip.Behaviour.inProgressMessages (fun _ => rfl) hpolled
  have hconserved := h.conserved
  rw [hbalance, ← add_assoc, Multiset.coe_add] at hconserved
  constructor
  · rw [hloop]
    exact henabled'.trans henabled
  · rw [hloop]
    exact h.fifo
  · rw [hloop, haccepted]
    change _ = _ + (polled.state.inProgressMessages : Multiset Gossip.Message)
    rw [hmessages]
    exact hconserved

theorem Published.delivers (h : Published inner s) {o : Oracle} {event : Option BehaviourEvent}
    (hs' : Delivers lib s o event s') : Published inner s' := by
  cases hs' with
  | nothing => exact h
  | event event loop hstep =>
      have hloop := published_loop h hstep
      change Published inner { s with loop, accepted := s.accepted ++ [] } at hloop
      rw [List.append_nil] at hloop
      exact hloop

theorem published_step (h : Published inner s) {a : Act P} (hstep : step lib s a = some s') :
    Published inner s' := by
  cases transition hstep with
  | loop a loop helse hloop => exact published_loop h hloop
  | fromSwarm event => exact h.frame rfl h.fifo rfl rfl
  | pollGossip o now answers yields polled hpolled _ hs' =>
      exact (published_pollGossip h hpolled rfl rfl).delivers hs'
  | pollRdvz o ticks yields b hb polled hpolled _ hs' =>
      exact (h.frame rfl h.fifo rfl rfl : Published inner { s with
        loop := withRdvz s.loop (some polled.state)
        client := s.client ++ eventsTaken yields polled }).delivers hs'
  | pollMdns o a w w' hw hpolled _ hs' =>
      exact (h.frame rfl h.fifo rfl rfl : Published inner { s with mdns := some w' }).delivers hs'
  | pollDht o now answer drainNow answers fuel reads yields b hb polled hpolled _ hs' =>
      exact (h.frame rfl h.fifo rfl rfl : Published inner { s with
        loop := withDht s.loop (some polled.state) }).delivers hs'

end Publish

/-- Every message that the client has sent to be published is accepted by gossipsub, in
progress, or still in the command channel, as often as it was sent, whatever the order in
which commands, events and polls come. -/
theorem publishes_conserved {P : Type} {lib : Libp2p} {inner : NodeInner}
    {mdns : Option Mdns.World} (henable : inner.swarm.gossip.enableRepublish = true)
    {acts : List (Act P)} {s : System}
    (hrun : Machine.run (step lib) (initial inner mdns) acts = some s) :
    (publishes s.loop.sent : Multiset Gossip.Message) + inner.swarm.gossip.inProgressMessages =
      s.accepted + s.loop.inner.swarm.gossip.inProgressMessages +
        publishes s.loop.commands := by
  have hpublished : Published inner s :=
    Machine.run_invariant (Published inner) (fun _ _ _ h hstep => published_step h hstep)
      (published_initial mdns henable) hrun
  rw [hpublished.fifo, publishes_append, ← Multiset.coe_add, add_right_comm,
    hpublished.conserved]

/-- Two messages, of which gossipsub refuses the first one at first. -/
def publishActs : List (Act Unit) :=
  [.loop (.send (.publish "chat" [72, 105])), .loop (.send (.publish "chat" [72, 111])),
    .loop (.command { sampleOracle with publish := false }),
    .pollGossip sampleOracle 0 (Stream'.const true) []]

theorem publishes_conserved_sample :
    ∃ s, Machine.run (step sampleLibp2p) (initial sampleInner none) publishActs = some s ∧
      (publishes s.loop.sent : Multiset Gossip.Message) +
          sampleInner.swarm.gossip.inProgressMessages =
        s.accepted + s.loop.inner.swarm.gossip.inProgressMessages +
          publishes s.loop.commands :=
  ⟨_, rfl, publishes_conserved rfl (show Machine.run (step sampleLibp2p)
    (initial sampleInner none) publishActs = some _ from rfl)⟩

end P2pa.Node.Whole
