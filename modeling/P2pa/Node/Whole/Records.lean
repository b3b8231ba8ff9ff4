import P2pa.Dht.Puts
import P2pa.Dht.Refine
import P2pa.Node.Whole.Requests
import P2pa.Support.Simulation

/-!
# Records from the client to kad

In a run of the whole node the DHT behaviour does what it does in a run of its own: a command
is an action there, a poll a run of its parts.  So no record is lost on the way from the
client to kad.
-/

namespace P2pa.Node.Whole

open Utils

def putOf : Command → Option (Dht.Bytes × Dht.Bytes)
  | .putRecord key value => some (key, value)
  | _ => none

def puts (cmds : List Command) : List (Dht.Bytes × Dht.Bytes) := cmds.filterMap putOf

section Answers

variable {P : Type} (lib : Libp2p)

def commandActs (o : Oracle) : Command → List Dht.Act
  | .beginBootstrap => [.beginBootstrap]
  | .addKnownPeer peer address =>
      (peerOf lib peer address).toList.map fun pair => .addAddress pair.1 pair.2
  | .addBootNode peer address =>
      (peerOf lib peer address).toList.map fun pair => .addBootnodes pair.1 pair.2
  | .putRecord key value => [.putRecord o.now o.putRecord key value]
  | .getRecord key retry => [.getRecord o.queryId key retry]
  | _ => []

def dhtActs (s : System) : Act P → List Dht.Act
  | .loop (.command o) => s.loop.commands.head?.elim [] (commandActs lib o)
  | .pollDht _ now answer drainNow answers fuel reads yields =>
      s.loop.inner.swarm.dht.elim [] fun b =>
        Dht.pollActs b now answer drainNow answers fuel reads yields
  | _ => []

end Answers

/-- The DHT behaviour is as in the run of its own, where the records of the commands handled
are submitted since the state `w₀`. -/
structure Refines (w₀ : Dht.World) (s : System) (w : Dht.World) : Prop where
  same : ∃ b, s.loop.inner.swarm.dht = some b ∧ Dht.Same b w.behaviour
  submitted : w.submitted = w₀.submitted + puts s.loop.handled

section Refine

variable {P : Type} {lib : Libp2p} {s s' : System} {w₀ w w' : Dht.World}

theorem same_command {b : Dht.Behaviour} (h : Dht.Same b w.behaviour) {o : Oracle} {cmd : Command}
    (hrun : Machine.run Dht.step w (commandActs lib o cmd) = some w') :
    Dht.Same (dhtAfter lib o b cmd) w'.behaviour := by
  cases cmd with
  | beginBootstrap =>
      cases hrun
      exact h.beginBootstrap
  | addKnownPeer peer address =>
      change Machine.run Dht.step w ((peerOf lib peer address).toList.map _) = some w' at hrun
      change Dht.Same ((peerOf lib peer address).elim b _) w'.behaviour
      cases hpeer : peerOf lib peer address with
      | none =>
          rw [hpeer] at hrun
          cases hrun
          exact h
      | some pair =>
          rw [hpeer] at hrun
          cases hrun
          exact h.addAddress pair.1 pair.2
  | addBootNode peer address =>
      change Machine.run Dht.step w ((peerOf lib peer address).toList.map _) = some w' at hrun
      change Dht.Same ((peerOf lib peer address).elim b _) w'.behaviour
      cases hpeer : peerOf lib peer address with
      | none =>
          rw [hpeer] at hrun
          cases hrun
          exact h
      | some pair =>
          rw [hpeer] at hrun
          cases hrun
          exact h.addBootnodes pair.1 pair.2
  | putRecord key value =>
      obtain ⟨w₁, hw₁, hrest⟩ := Option.bind_eq_some_iff.mp hrun
      cases hrest
      obtain ⟨-, heq⟩ := Option.ite_none_right_eq_some.mp hw₁
      cases heq
      exact h.putRecord _ _ _
  | getRecord key retry =>
      obtain ⟨w₁, hw₁, hrest⟩ := Option.bind_eq_some_iff.mp hrun
      cases hrest
      obtain ⟨-, heq⟩ := Option.ite_none_right_eq_some.mp hw₁
      cases heq
      exact h.getRecord _ _ _ _
  | _ =>
      cases hrun
      exact h

theorem commandActs_submits (o : Oracle) (cmd : Command) :
    (commandActs lib o cmd).filterMap Dht.submits = (putOf cmd).toList := by
  cases cmd with
  | addKnownPeer peer address =>
      change ((peerOf lib peer address).toList.map _).filterMap Dht.submits = []
      cases peerOf lib peer address <;> rfl
  | addBootNode peer address =>
      change ((peerOf lib peer address).toList.map _).filterMap Dht.submits = []
      cases peerOf lib peer address <;> rfl
  | _ => rfl

theorem refines_loop (h : Refines w₀ s w) {a : Node.Act}
    (hstep : Node.step lib s.loop a = some s'.loop)
    (hrun : Machine.run Dht.step w (dhtActs lib s (.loop a : Act P)) = some w') :
    Refines w₀ s' w' := by
  obtain ⟨b, hb, hsame⟩ := h.same
  rcases step_dht hstep with ⟨o, cmd, rest, rfl, hcommands, hhandled, hdht⟩ | ⟨hother, hdht⟩
  · have hacts : dhtActs lib s (.loop (.command o) : Act P) = commandActs lib o cmd := by
      change s.loop.commands.head?.elim [] (commandActs lib o) = _
      rw [hcommands]
      rfl
    rw [hacts] at hrun
    constructor
    · rw [hdht, hb, Option.map_some]
      exact ⟨_, rfl, same_command hsame hrun⟩
    · rw [Dht.run_submitted hrun, commandActs_submits, h.submitted, hhandled]
      unfold puts
      rw [filterMap_snoc, ← Multiset.coe_add, add_comm, add_assoc]
  · have hacts : dhtActs lib s (.loop a : Act P) = [] := by
      cases a with
      | command o => exact absurd rfl (hother o)
      | _ => rfl
    rw [hacts] at hrun
    cases hrun
    constructor
    · rw [hdht]
      exact h.same
    · rw [step_handled hstep hother]
      exact h.submitted

/-- An event that is delivered does nothing to the DHT behaviour. -/
theorem Refines.delivers (h : Refines w₀ s w) {o : Oracle} {event : Option BehaviourEvent}
    (hs' : Delivers lib s o event s') : Refines w₀ s' w := by
  cases hs' with
  | nothing => exact h
  | event event loop hstep =>
      have hloop : Refines w₀ { s with loop } w := refines_loop (P := Unit) h hstep rfl
      exact hloop

theorem refines_step (h : Refines w₀ s w) {a : Act P} (hstep : step lib s a = some s')
    (hrun : Machine.run Dht.step w (dhtActs lib s a) = some w') : Refines w₀ s' w' := by
  cases transition hstep with
  | loop a loop helse hloop =>
      have hrefines : Refines w₀ { s with
          loop, accepted := s.accepted ++ acceptedBy s.loop a } w' := refines_loop h hloop hrun
      exact hrefines
  | fromSwarm event =>
      cases hrun
      exact ⟨h.same, h.submitted⟩
  | pollGossip o now answers yields polled hpolled _ hs' =>
      cases hrun
      refine Refines.delivers ?_ hs'
      exact ⟨h.same, h.submitted⟩
  | pollRdvz o ticks yields b hb polled hpolled _ hs' =>
      cases hrun
      refine Refines.delivers ?_ hs'
      exact ⟨h.same, h.submitted⟩
  | pollMdns o a w₁ w₂ hw hpolled _ hs' =>
      cases hrun
      refine Refines.delivers ?_ hs'
      exact ⟨h.same, h.submitted⟩
  | pollDht o now answer drainNow answers fuel reads yields b hb polled hpolled _ hs' =>
      obtain ⟨b', hb', hsame⟩ := h.same
      cases hb.symm.trans hb'
      have hacts : dhtActs lib s (.pollDht o now answer drainNow answers fuel reads yields) =
          Dht.pollActs b now answer drainNow answers fuel reads yields := by
        change s.loop.inner.swarm.dht.elim [] _ = _
        rw [hb]
        rfl
      rw [hacts] at hrun
      refine Refines.delivers ⟨⟨_, rfl, Dht.same_poll hsame hpolled hrun⟩, ?_⟩ hs'
      rw [Dht.run_submitted hrun, Dht.pollActs_submits, h.submitted]
      exact zero_add _

end Refine

/-- The DHT behaviour of the node is in a state of a run of its own, which goes on from what
was done before the loop has started.  Every record that the client has sent to be put is stored
with success, with a query in progress, queued, or still in the command channel, as often as it
was sent, if kad gives fresh ids and tells only of queries that it runs. -/
theorem records_conserved {P : Type} {lib : Libp2p} {inner : NodeInner}
    {mdns : Option Mdns.World} {replicationFactor : Nat} {before : List Dht.Act}
    {w₀ : Dht.World} {b₀ : Dht.Behaviour}
    (hbefore : Machine.run Dht.step (Dht.initial replicationFactor) before = some w₀)
    (hdht : inner.swarm.dht = some b₀) (hsame : Dht.Same b₀ w₀.behaviour) {acts : List (Act P)}
    {s : System} (hrun : Machine.run (step lib) (initial inner mdns) acts = some s) {w : Dht.World}
    (hkad : Machine.run Dht.step w₀
      (Machine.answers (step lib) (dhtActs lib) (initial inner mdns) acts) = some w) :
    ∃ b, s.loop.inner.swarm.dht = some b ∧ Dht.Same b w.behaviour ∧
      w₀.submitted + (puts s.loop.sent : Multiset (Dht.Bytes × Dht.Bytes)) =
        Dht.held b + w.succeeded + puts s.loop.commands := by
  have hfifo : Fifo s.loop := by
    have hinitial : Fifo (initial inner mdns).loop := rfl
    refine Machine.run_invariant (fun s : System => Fifo s.loop) (fun s a s' h hstep => ?_)
      hinitial hrun
    exact loop_keeps fifo_step id (fun h _ => h) (fun h _ _ => h) (fun h _ _ => h) h hstep
  have hrefines : Refines w₀ s w :=
    Machine.run_answers (R := Refines w₀) (fun h hstep hrun => refines_step h hstep hrun)
      ⟨⟨_, hdht, hsame⟩, (add_zero _).symm⟩ hrun hkad
  have hputs : Dht.PutInv w := by
    have hstep : ∀ w a w', Dht.PutInv w → Dht.step w a = some w' → Dht.PutInv w' :=
      fun _ _ _ h hstep => Dht.putInv_step h hstep
    have hstart : Dht.PutInv w₀ :=
      Machine.run_invariant Dht.PutInv hstep (Dht.putInv_initial replicationFactor) hbefore
    exact Machine.run_invariant Dht.PutInv hstep hstart hkad
  obtain ⟨b, hb, hsame⟩ := hrefines.same
  have hheld : Dht.held w.behaviour = Dht.held b := by
    obtain ⟨queue, heq⟩ := hsame
    rw [heq]
    rfl
  refine ⟨b, hb, hsame, ?_⟩
  have happend : puts s.loop.sent = puts s.loop.handled ++ puts s.loop.commands := by
    unfold puts
    rw [hfifo, List.filterMap_append]
  rw [happend, ← Multiset.coe_add, ← add_assoc, ← hrefines.submitted, hputs.conserved, hheld]

def bootActs : List Dht.Act :=
  [.addAddress samplePeerId sampleAddr, .addBootnodes samplePeerId sampleAddr]

def bootedInner : NodeInner where
  swarm := .build (Gossip.new samplePeerId true) none (some (Dht.addBootnodes
    (Dht.addAddress (Dht.new 1) samplePeerId sampleAddr) samplePeerId sampleAddr))
  dialingRelays := []

/-- Kad stores the first record, the second one is still in the channel. -/
def recordActs : List (Act Unit) :=
  [.loop (.send (.putRecord [1] [2])), .loop (.send (.putRecord [3] [4])),
    .loop (.command sampleOracle),
    .pollDht sampleOracle 0 (.ok 1) 0 (fun _ => { putRecord := .ok 2, getRecord := 3 }) 0
      (Stream'.const (0, 4))
      [.generateEvent (.outboundQueryProgressed 0 (.putRecord (.ok ())) true)]]

theorem records_conserved_sample :
    ∃ (s : System) (w₀ w : Dht.World) (b : Dht.Behaviour),
      Machine.run Dht.step (Dht.initial 1) bootActs = some w₀ ∧
      Machine.run (step sampleLibp2p) (initial bootedInner none) recordActs = some s ∧
      puts s.loop.sent = [([1], [2]), ([3], [4])] ∧
      s.loop.inner.swarm.dht = some b ∧ Dht.Same b w.behaviour ∧
      w₀.submitted + (puts s.loop.sent : Multiset (Dht.Bytes × Dht.Bytes)) =
        Dht.held b + w.succeeded + puts s.loop.commands := by
  obtain ⟨b, hconserved⟩ := records_conserved
    (show Machine.run Dht.step (Dht.initial 1) bootActs = some _ from rfl)
    (show bootedInner.swarm.dht = some _ from rfl) ⟨_, rfl⟩
    (show Machine.run (step sampleLibp2p) (initial bootedInner none) recordActs = some _ from rfl)
    (show Machine.run Dht.step _ (Machine.answers (step sampleLibp2p)
      (dhtActs sampleLibp2p) (initial bootedInner none) recordActs) = some _ from rfl)
  exact ⟨_, _, _, b, rfl, rfl, rfl, hconserved⟩

end P2pa.Node.Whole
