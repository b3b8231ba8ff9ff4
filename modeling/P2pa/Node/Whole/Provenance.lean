import P2pa.Node.Announce
import P2pa.Node.Whole.Model

/-!
# Nothing is done without a cause

Every address that the node dials, listens on or announces, and every peer it adds as an
explicit peer, goes back to a command of the client or to something that the swarm, a
rendezvous point or the local network has reported.
-/

namespace P2pa.Node.Whole

open Utils

section Causes

variable (lib : Libp2p) (inner : NodeInner) (w : World)

def dialOf : Command → Option Multiaddr
  | .dial text | .listenViaRelay text => lib.multiaddrFromStr text
  | _ => none

/-- The client has asked to listen via the relay at the address. -/
def Requested (address : Multiaddr) : Prop :=
  ∃ text, .listenViaRelay text ∈ w.handled ∧ lib.multiaddrFromStr text = some address

inductive DialCause (addr : Multiaddr) : Prop
  | before (h : addr ∈ inner.swarm.dialed)
  | command (cmd : Command) (hcmd : cmd ∈ w.handled) (haddr : dialOf lib cmd = some addr)
  | discovered (found : List (PeerId × Multiaddr)) (pair : PeerId × Multiaddr)
      (hevent : .behaviour (.rdvz (.discovered found)) ∈ w.yielded) (hpair : pair ∈ found)
      (haddr : addr = addressWithP2p lib pair)
  | closed (endpoint : ConnectedPoint) (hevent : .connectionClosed endpoint ∈ w.yielded)
      (hrelayed : lib.isRelayed endpoint = true) (haddr : addr = lib.getRemoteAddress endpoint)

inductive ListenCause (addr : Multiaddr) : Prop
  | before (h : addr ∈ inner.swarm.listening)
  | circuit (relay : Multiaddr) (h : Requested lib w relay) (haddr : addr = relay.push .p2pCircuit)

inductive AnnounceCause (addr : Multiaddr) : Prop
  | before (h : addr ∈ inner.swarm.externalAddresses)
  | listening (hevent : .newListenAddr addr ∈ w.yielded) (hloopback : isLoopback addr = false)
  | observed (peer : PeerId) (hevent : .behaviour (.identifyReceived peer addr) ∈ w.yielded)
  | circuit (relay : Multiaddr) (h : Requested lib w relay) (haddr : addr = relay.push .p2pCircuit)

inductive ExplicitCause (peer : PeerId) : Prop
  | before (h : .addExplicitPeer peer ∈ inner.swarm.gossip.gossip)
  | mdns (pairs : List Mdns.Pair) (hevent : .behaviour (.mdns (.discovered pairs)) ∈ w.yielded)
      (hpeer : peer ∈ pairs.map Prod.fst)
  | dcutr (hevent : .behaviour (.dcutr peer true) ∈ w.yielded)

/-- All that the node has asked of the swarm has a cause, and every dial that the client has
asked for has been made. -/
structure Caused : Prop where
  dialed : ∀ addr ∈ w.inner.swarm.dialed, DialCause lib inner w addr
  listening : ∀ addr ∈ w.inner.swarm.listening, ListenCause lib inner w addr
  announced : ∀ addr ∈ w.inner.swarm.externalAddresses, AnnounceCause lib inner w addr
  explicit : ∀ peer, .addExplicitPeer peer ∈ w.inner.swarm.gossip.gossip →
    ExplicitCause inner w peer
  relaying : ∀ hs, w.mode = .relaying hs → Requested lib w hs.address
  asked : ∀ cmd ∈ w.handled, ∀ addr, dialOf lib cmd = some addr → addr ∈ w.inner.swarm.dialed

end Causes

/-! ## Causes stay causes -/

section Mono

variable {lib : Libp2p} {inner : NodeInner} {w w' : World}

structure Later (w w' : World) : Prop where
  handled : w.handled ⊆ w'.handled
  yielded : w.yielded ⊆ w'.yielded

theorem Later.refl (w : World) : Later w w := ⟨List.Subset.refl _, List.Subset.refl _⟩

theorem Requested.mono (hlater : Later w w') {address : Multiaddr}
    (h : Requested lib w address) : Requested lib w' address := by
  obtain ⟨text, hcmd, hparse⟩ := h
  exact ⟨text, hlater.handled hcmd, hparse⟩

theorem DialCause.mono (hlater : Later w w') {addr : Multiaddr} (h : DialCause lib inner w addr) :
    DialCause lib inner w' addr := by
  cases h with
  | before h => exact .before h
  | command cmd hcmd haddr => exact .command cmd (hlater.handled hcmd) haddr
  | discovered found pair hevent hpair haddr =>
      exact .discovered found pair (hlater.yielded hevent) hpair haddr
  | closed endpoint hevent hrelayed haddr =>
      exact .closed endpoint (hlater.yielded hevent) hrelayed haddr

theorem ListenCause.mono (hlater : Later w w') {addr : Multiaddr}
    (h : ListenCause lib inner w addr) : ListenCause lib inner w' addr := by
  cases h with
  | before h => exact .before h
  | circuit relay h haddr => exact .circuit relay (h.mono hlater) haddr

theorem AnnounceCause.mono (hlater : Later w w') {addr : Multiaddr}
    (h : AnnounceCause lib inner w addr) : AnnounceCause lib inner w' addr := by
  cases h with
  | before h => exact .before h
  | listening hevent hloopback => exact .listening (hlater.yielded hevent) hloopback
  | observed peer hevent => exact .observed peer (hlater.yielded hevent)
  | circuit relay h haddr => exact .circuit relay (h.mono hlater) haddr

theorem ExplicitCause.mono (hlater : Later w w') {peer : PeerId}
    (h : ExplicitCause inner w peer) : ExplicitCause inner w' peer := by
  cases h with
  | before h => exact .before h
  | mdns pairs hevent hpeer => exact .mdns pairs (hlater.yielded hevent) hpeer
  | dcutr hevent => exact .dcutr (hlater.yielded hevent)

end Mono

/-! ## What a step asks of the swarm -/

section Frame

variable (lib : Libp2p) (o : Oracle) (n : NodeInner)

def calls (n : NodeInner) : List Multiaddr × List Multiaddr × List Multiaddr :=
  (n.swarm.dialed, n.swarm.listening, n.swarm.externalAddresses)

theorem handleCommand_calls (cmd : Command) :
    calls (handleCommand lib o n cmd).1 =
      (n.swarm.dialed ++ (dialOf lib cmd).toList, n.swarm.listening,
        n.swarm.externalAddresses) := by
  have hsame : calls n = (n.swarm.dialed ++ [], n.swarm.listening, n.swarm.externalAddresses) := by
    rw [List.append_nil]
    rfl
  have hdht : ∀ f, calls (Node.withDht n f).1 =
      (n.swarm.dialed ++ [], n.swarm.listening, n.swarm.externalAddresses) := fun f =>
    ((withDht_ifEnabled n f).keeps calls fun _ => rfl).trans hsame
  have hrdvz : ∀ f, calls (Node.withRdvz n f).1 =
      (n.swarm.dialed ++ [], n.swarm.listening, n.swarm.externalAddresses) := fun f =>
    ((withRdvz_ifEnabled n f).keeps calls fun _ => rfl).trans hsame
  cases cmd with
  | dial text =>
      simp only [handleCommand, parseAddr, NodeInner.dial, dialOf]
      cases lib.multiaddrFromStr text with
      | none => exact hsame
      | some addr => rfl
  | listenViaRelay text =>
      simp only [handleCommand, parseAddr, NodeInner.dial, dialOf]
      cases lib.multiaddrFromStr text with
      | none => exact hsame
      | some addr => rfl
  | beginBootstrap => exact hdht _
  | addKnownPeer peer address => exact hdht _
  | addBootNode peer address => exact hdht _
  | putRecord key value => exact hdht _
  | getRecord key retry => exact hdht _
  | register point ns => exact hrdvz _
  | unregister ns => exact hrdvz _
  | discover point ns => exact hrdvz _
  | _ => exact hsame

theorem dialDiscovered_dialed (peers : List (PeerId × Multiaddr)) :
    n.swarm.dialed ⊆ (dialDiscovered lib o n peers).1.swarm.dialed ∧
      ∀ addr ∈ (dialDiscovered lib o n peers).1.swarm.dialed, addr ∈ n.swarm.dialed ∨
        ∃ pair ∈ peers, addr = addressWithP2p lib pair := by
  induction peers generalizing n with
  | nil => exact ⟨List.Subset.refl _, fun addr haddr => .inl haddr⟩
  | cons peer rest ih =>
      rw [dialDiscovered]
      dsimp only
      have hfirst : ∀ addr ∈ n.swarm.dialed ++ [addressWithP2p lib peer],
          addr ∈ n.swarm.dialed ∨ ∃ pair ∈ peer :: rest, addr = addressWithP2p lib pair := by
        intro addr haddr
        rcases List.mem_append.mp haddr with hin | hlast
        · exact .inl hin
        · exact .inr ⟨peer, List.mem_cons_self, List.mem_singleton.mp hlast⟩
      split
      · obtain ⟨hsub, hcause⟩ := ih (n.dial o (addressWithP2p lib peer)).1
        refine ⟨List.Subset.trans (List.subset_append_left _ _) hsub, fun addr haddr => ?_⟩
        rcases hcause addr haddr with hin | ⟨pair, hpair, heq⟩
        · exact hfirst addr hin
        · exact .inr ⟨pair, List.mem_cons_of_mem _ hpair, heq⟩
      · exact ⟨List.subset_append_left _ _, hfirst⟩

/-- What the main loop asks of the swarm for an event. -/
theorem handleSwarmEvent_calls (clientAlive : Bool) (event : SwarmEvent) :
    let n' := (handleSwarmEvent lib o clientAlive n event).1
    n.swarm.dialed ⊆ n'.swarm.dialed ∧
    (∀ addr ∈ n'.swarm.dialed, addr ∈ n.swarm.dialed ∨
      (∃ found pair, event = .behaviour (.rdvz (.discovered found)) ∧ pair ∈ found ∧
        addr = addressWithP2p lib pair) ∨
      ∃ endpoint, event = .connectionClosed endpoint ∧ lib.isRelayed endpoint = true ∧
        addr = lib.getRemoteAddress endpoint) ∧
    n'.swarm.listening = n.swarm.listening ∧
    ∀ addr ∈ n'.swarm.externalAddresses, addr ∈ n.swarm.externalAddresses ∨
      event = .newListenAddr addr ∧ isLoopback addr = false := by
  have hsame : ∀ n' : NodeInner, calls n' = calls n → n.swarm.dialed ⊆ n'.swarm.dialed ∧
      (∀ addr ∈ n'.swarm.dialed, addr ∈ n.swarm.dialed ∨
        (∃ found pair, event = .behaviour (.rdvz (.discovered found)) ∧ pair ∈ found ∧
          addr = addressWithP2p lib pair) ∨
        ∃ endpoint, event = .connectionClosed endpoint ∧ lib.isRelayed endpoint = true ∧
          addr = lib.getRemoteAddress endpoint) ∧
      n'.swarm.listening = n.swarm.listening ∧
      ∀ addr ∈ n'.swarm.externalAddresses, addr ∈ n.swarm.externalAddresses ∨
        event = .newListenAddr addr ∧ isLoopback addr = false := by
    intro n' heq
    have hdialed : n'.swarm.dialed = n.swarm.dialed := congrArg (·.1) heq
    have hexternal : n'.swarm.externalAddresses = n.swarm.externalAddresses :=
      congrArg (·.2.2) heq
    rw [hdialed, hexternal]
    exact ⟨List.Subset.refl _, fun addr haddr => .inl haddr, congrArg (·.2.1) heq,
      fun addr haddr => .inl haddr⟩
  intro n'
  cases event with
  | behaviour event =>
      cases event with
      | gossip event => exact hsame n' (by cases clientAlive <;> rfl)
      | mdns event => exact hsame n' (by cases event <;> rfl)
      | dcutr remotePeerId ok => exact hsame n' (by cases ok <;> rfl)
      | rdvz event =>
          cases event with
          | registered ns => exact hsame n' rfl
          | discovered found =>
              obtain ⟨hkept, hdialed⟩ := dialDiscovered_dialed lib o n found
              have haddresses : addresses n' = addresses n := dialDiscovered_addresses n found
              have hexternal : n'.swarm.externalAddresses = n.swarm.externalAddresses :=
                congrArg Prod.snd haddresses
              rw [hexternal]
              refine ⟨hkept, fun addr haddr => ?_, congrArg Prod.fst haddresses,
                fun addr haddr => .inl haddr⟩
              rcases hdialed addr haddr with hin | ⟨pair, hpair, heq⟩
              · exact .inl hin
              · exact .inr (.inl ⟨found, pair, rfl, hpair, heq⟩)
      | _ => exact hsame n' rfl
  | newListenAddr address =>
      cases hloopback : isLoopback address with
      | true => exact hsame n' (by simp only [n', handleSwarmEvent, hloopback]; rfl)
      | false =>
          have hn' : n' = n.addExternalAddress address := by
            simp only [n', handleSwarmEvent, hloopback]
            rfl
          rw [hn']
          refine ⟨List.Subset.refl _, fun addr haddr => .inl haddr, rfl, fun addr haddr => ?_⟩
          rcases List.mem_append.mp haddr with hin | hlast
          · exact .inl hin
          · rw [List.mem_singleton.mp hlast]
            exact .inr ⟨rfl, hloopback⟩
  | connectionEstablished endpoint => exact hsame n' (by cases endpoint <;> rfl)
  | connectionClosed endpoint =>
      cases hrelayed : lib.isRelayed endpoint with
      | false => exact hsame n' (by simp only [n', handleSwarmEvent, hrelayed]; rfl)
      | true =>
          have hn' : n' = (n.dial o (lib.getRemoteAddress endpoint)).1 := by
            simp only [n', handleSwarmEvent, hrelayed]
            rfl
          rw [hn']
          refine ⟨List.subset_append_left _ _, fun addr haddr => ?_, rfl,
            fun addr haddr => .inl haddr⟩
          rcases List.mem_append.mp haddr with hin | hlast
          · exact .inl hin
          · rw [List.mem_singleton.mp hlast]
            exact .inr (.inr ⟨endpoint, rfl, hrelayed, rfl⟩)
  | other => exact hsame n' rfl

theorem shake_calls (w : World) (hs : Handshake) (event : SwarmEvent) :
    (w.shake o hs event).inner.swarm.dialed = w.inner.swarm.dialed ∧
    (∀ addr ∈ (w.shake o hs event).inner.swarm.listening,
      addr ∈ w.inner.swarm.listening ∨ addr = hs.address.push .p2pCircuit) ∧
    ∀ addr ∈ (w.shake o hs event).inner.swarm.externalAddresses,
      addr ∈ w.inner.swarm.externalAddresses ∨
        (∃ peer, event = .behaviour (.identifyReceived peer addr)) ∨
        addr = hs.address.push .p2pCircuit := by
  have hhandshake : ((handshakeEvent w.inner hs event).1.swarm.dialed = w.inner.swarm.dialed ∧
      (handshakeEvent w.inner hs event).1.swarm.listening = w.inner.swarm.listening) ∧
      ∀ addr ∈ (handshakeEvent w.inner hs event).1.swarm.externalAddresses,
        addr ∈ w.inner.swarm.externalAddresses ∨
          ∃ peer, event = .behaviour (.identifyReceived peer addr) := by
    unfold handshakeEvent
    split
    · exact ⟨⟨rfl, rfl⟩, fun addr haddr => .inl haddr⟩
    · next peer observedAddr =>
        refine ⟨⟨rfl, rfl⟩, fun addr haddr => ?_⟩
        rcases List.mem_append.mp haddr with hin | hlast
        · exact .inl hin
        · exact .inr ⟨peer, by rw [List.mem_singleton.mp hlast]⟩
    · exact ⟨⟨rfl, rfl⟩, fun addr haddr => .inl haddr⟩
  obtain ⟨⟨hdialed, hlistening⟩, hexternal⟩ := hhandshake
  -- after the last event the node listens via the relay, and announces that if it may
  have hlisten : ∀ addr ∈ (handshakeEvent w.inner hs event).1.swarm.listening ++
      [hs.address.push .p2pCircuit],
      addr ∈ w.inner.swarm.listening ∨ addr = hs.address.push .p2pCircuit := by
    intro addr haddr
    rw [hlistening] at haddr
    exact (List.mem_append.mp haddr).imp_right List.mem_singleton.mp
  have hannounce := fun addr haddr => (hexternal addr haddr).imp_right (Or.inl
    (b := addr = hs.address.push .p2pCircuit))
  unfold World.shake
  dsimp only
  split
  · rw [handshakeEvent_address]
    unfold listenViaRelay
    dsimp only
    split
    · refine ⟨hdialed, hlisten, fun addr haddr => ?_⟩
      rcases List.mem_append.mp haddr with hin | hlast
      · exact hannounce addr hin
      · exact .inr (.inr (List.mem_singleton.mp hlast))
    · exact ⟨hdialed, hlisten, hannounce⟩
  · refine ⟨hdialed, fun addr haddr => ?_, hannounce⟩
    rw [hlistening] at haddr
    exact .inl haddr

variable {o} in
theorem shake_relaying {w : World} {hs hs' : Handshake} {event : SwarmEvent}
    (h : (w.shake o hs event).mode = .relaying hs') : hs'.address = hs.address := by
  unfold World.shake at h
  dsimp only at h
  split at h
  · cases h
  · cases h
    exact handshakeEvent_address w.inner hs event

end Frame

/-! ## Steps -/

section Step

variable {lib : Libp2p} {inner : NodeInner} {w w' : World}

structure Adds (lib : Libp2p) (inner : NodeInner) (w w' : World) : Prop where
  later : Later w w'
  kept : w.inner.swarm.dialed ⊆ w'.inner.swarm.dialed
  dialed : ∀ addr ∈ w'.inner.swarm.dialed,
    addr ∈ w.inner.swarm.dialed ∨ DialCause lib inner w' addr
  listening : ∀ addr ∈ w'.inner.swarm.listening,
    addr ∈ w.inner.swarm.listening ∨ ListenCause lib inner w' addr
  announced : ∀ addr ∈ w'.inner.swarm.externalAddresses,
    addr ∈ w.inner.swarm.externalAddresses ∨ AnnounceCause lib inner w' addr
  explicit : ∀ peer, .addExplicitPeer peer ∈ w'.inner.swarm.gossip.gossip →
    .addExplicitPeer peer ∈ w.inner.swarm.gossip.gossip ∨ ExplicitCause inner w' peer
  relaying : ∀ hs, w'.mode = .relaying hs → Requested lib w' hs.address
  asked : ∀ cmd ∈ w'.handled, cmd ∈ w.handled ∨
    ∀ addr, dialOf lib cmd = some addr → addr ∈ w'.inner.swarm.dialed

theorem Caused.adds (h : Caused lib inner w) (hadds : Adds lib inner w w') :
    Caused lib inner w' where
  dialed addr haddr := (hadds.dialed addr haddr).elim
    (fun hin => (h.dialed addr hin).mono hadds.later) id
  listening addr haddr := (hadds.listening addr haddr).elim
    (fun hin => (h.listening addr hin).mono hadds.later) id
  announced addr haddr := (hadds.announced addr haddr).elim
    (fun hin => (h.announced addr hin).mono hadds.later) id
  explicit peer hpeer := (hadds.explicit peer hpeer).elim
    (fun hin => (h.explicit peer hin).mono hadds.later) id
  relaying := hadds.relaying
  asked cmd hcmd addr haddr := (hadds.asked cmd hcmd).elim
    (fun hin => hadds.kept (h.asked cmd hin addr haddr)) fun hnew => hnew addr haddr

theorem adds_nothing (hlater : Later w w') (hcalls : calls w'.inner = calls w.inner)
    (hexplicit : ∀ peer, .addExplicitPeer peer ∈ w'.inner.swarm.gossip.gossip →
      .addExplicitPeer peer ∈ w.inner.swarm.gossip.gossip)
    (hrelaying : ∀ hs, w'.mode = .relaying hs → Requested lib w' hs.address)
    (hhandled : w'.handled = w.handled) : Adds lib inner w w' := by
  have hdialed : w'.inner.swarm.dialed = w.inner.swarm.dialed := congrArg (·.1) hcalls
  have hlistening : w'.inner.swarm.listening = w.inner.swarm.listening :=
    congrArg (·.2.1) hcalls
  have hexternal : w'.inner.swarm.externalAddresses = w.inner.swarm.externalAddresses :=
    congrArg (·.2.2) hcalls
  constructor
  · exact hlater
  · rw [hdialed]
    exact List.Subset.refl _
  · rw [hdialed]
    exact fun addr haddr => .inl haddr
  · rw [hlistening]
    exact fun addr haddr => .inl haddr
  · rw [hexternal]
    exact fun addr haddr => .inl haddr
  · exact fun peer hpeer => .inl (hexplicit peer hpeer)
  · exact hrelaying
  · rw [hhandled]
    exact fun cmd hcmd => .inl hcmd

theorem explicit_gossipAfter {o : Oracle} {b : Gossip.Behaviour} {cmd : Command} {peer : PeerId}
    (h : .addExplicitPeer peer ∈ (gossipAfter o b cmd).gossip) :
    .addExplicitPeer peer ∈ b.gossip := by
  have hlast : ∀ call : Gossip.GossipCall, call ≠ .addExplicitPeer peer →
      .addExplicitPeer peer ∈ b.gossip ++ [call] → .addExplicitPeer peer ∈ b.gossip := by
    intro call hcall hmem
    rcases List.mem_append.mp hmem with hin | hend
    · exact hin
    · exact absurd (List.mem_singleton.mp hend).symm hcall
  cases cmd with
  | publish topic contents =>
      unfold gossipAfter Gossip.publish at h
      dsimp only at h
      split at h <;> exact hlast (.publish topic contents) nofun h
  | subscribe topic =>
      unfold gossipAfter Gossip.subscribe at h
      dsimp only at h
      split at h
      · exact h
      · exact hlast (.subscribe topic) nofun h
  | unsubscribe topic =>
      unfold gossipAfter Gossip.unsubscribe at h
      dsimp only at h
      split at h
      · exact hlast (.unsubscribe topic) nofun h
      · exact h
  | _ => exact h

theorem adds_handle (o : Oracle) (cmd : Command) (rest : List Command) :
    Adds lib inner w (w.handle lib o cmd rest) := by
  have hcalls := handleCommand_calls lib o w.inner cmd
  have hdialed : (w.handle lib o cmd rest).inner.swarm.dialed =
      w.inner.swarm.dialed ++ (dialOf lib cmd).toList := congrArg (·.1) hcalls
  have hlistening : (w.handle lib o cmd rest).inner.swarm.listening =
      w.inner.swarm.listening := congrArg (·.2.1) hcalls
  have hexternal : (w.handle lib o cmd rest).inner.swarm.externalAddresses =
      w.inner.swarm.externalAddresses := congrArg (·.2.2) hcalls
  have hhandled : cmd ∈ (w.handle lib o cmd rest).handled :=
    List.mem_append_right _ (List.mem_singleton_self _)
  constructor
  · exact ⟨List.subset_append_left _ _, List.Subset.refl _⟩
  · rw [hdialed]
    exact List.subset_append_left _ _
  · rw [hdialed]
    intro addr haddr
    rcases List.mem_append.mp haddr with hin | hlast
    · exact .inl hin
    · exact .inr (.command cmd hhandled (Option.mem_toList.mp hlast))
  · rw [hlistening]
    exact fun addr haddr => .inl haddr
  · rw [hexternal]
    exact fun addr haddr => .inl haddr
  · intro peer hpeer
    change _ ∈ (handleCommand lib o w.inner cmd).1.swarm.gossip.gossip at hpeer
    rw [(handleCommand_behaviours lib o w.inner cmd).1] at hpeer
    exact .inl (explicit_gossipAfter hpeer)
  · intro hs hrelaying
    obtain ⟨text, rfl, hparse⟩ := relaying_of_handleCommand hrelaying
    exact ⟨text, hhandled, hparse⟩
  · intro cmd' hcmd'
    rcases List.mem_append.mp hcmd' with hin | hlast
    · exact .inl hin
    · refine .inr fun addr haddr => ?_
      rw [List.mem_singleton.mp hlast] at haddr
      rw [hdialed, haddr]
      exact List.mem_append_right _ (List.mem_singleton_self _)

theorem adds_receive (o : Oracle) (event : SwarmEvent) :
    Adds lib inner w (w.receive lib o event) := by
  obtain ⟨hkept, hdialed, hlistening, hexternal⟩ :=
    handleSwarmEvent_calls lib o w.inner w.nodeAlive event
  have hyielded : event ∈ (w.receive lib o event).yielded :=
    List.mem_append_right _ (List.mem_singleton_self _)
  constructor
  · exact ⟨List.Subset.refl _, List.subset_append_left _ _⟩
  · exact hkept
  · intro addr haddr
    rcases hdialed addr haddr with hin | ⟨found, pair, rfl, hpair, heq⟩ |
      ⟨endpoint, rfl, hrelayed, heq⟩
    · exact .inl hin
    · exact .inr (.discovered found pair hyielded hpair heq)
    · exact .inr (.closed endpoint hyielded hrelayed heq)
  · intro addr haddr
    change addr ∈ (handleSwarmEvent lib o w.nodeAlive w.inner event).1.swarm.listening at haddr
    rw [hlistening] at haddr
    exact .inl haddr
  · intro addr haddr
    rcases hexternal addr haddr with hin | ⟨rfl, hloopback⟩
    · exact .inl hin
    · exact .inr (.listening hyielded hloopback)
  · intro peer hpeer
    change _ ∈ (handleSwarmEvent lib o w.nodeAlive w.inner event).1.swarm.gossip.gossip at hpeer
    rw [(handleSwarmEvent_behaviours lib o w.inner w.nodeAlive event).1] at hpeer
    rcases List.mem_append.mp hpeer with hin | hnew
    · exact .inl hin
    · obtain ⟨peer', hpeer', heq⟩ := List.mem_map.mp hnew
      cases heq
      refine .inr ?_
      unfold explicitPeers at hpeer'
      split at hpeer'
      · exact .mdns _ hyielded hpeer'
      · rw [List.mem_singleton.mp hpeer']
        exact .dcutr hyielded
      · cases hpeer'
  · intro hs hrelaying
    rw [receive_mode] at hrelaying
    revert hrelaying
    cases (handleSwarmEvent lib o w.nodeAlive w.inner event).2.2 <;> nofun
  · exact fun cmd hcmd => .inl hcmd

theorem adds_shake (o : Oracle) {hs : Handshake} (event : SwarmEvent)
    (hrequested : Requested lib w hs.address) : Adds lib inner w (w.shake o hs event) := by
  obtain ⟨hdialed, hlistening, hexternal⟩ := shake_calls o w hs event
  obtain ⟨n', mode, -, heq⟩ := shake_frame o w hs event
  have hlater : Later w (w.shake o hs event) := by
    rw [heq]
    exact ⟨List.Subset.refl _, List.subset_append_left _ _⟩
  have hyielded : event ∈ (w.shake o hs event).yielded := by
    rw [heq]
    exact List.mem_append_right _ (List.mem_singleton_self _)
  constructor
  · exact hlater
  · rw [hdialed]
    exact List.Subset.refl _
  · rw [hdialed]
    exact fun addr haddr => .inl haddr
  · intro addr haddr
    rcases hlistening addr haddr with hin | rfl
    · exact .inl hin
    · exact .inr (.circuit _ (hrequested.mono hlater) rfl)
  · intro addr haddr
    rcases hexternal addr haddr with hin | ⟨peer, rfl⟩ | rfl
    · exact .inl hin
    · exact .inr (.observed peer hyielded)
    · exact .inr (.circuit _ (hrequested.mono hlater) rfl)
  · intro peer hpeer
    rw [(shake_behaviours o w hs event).1] at hpeer
    exact .inl hpeer
  · intro hs' hrelaying
    rw [shake_relaying hrelaying]
    exact hrequested.mono hlater
  · rw [heq]
    exact fun cmd hcmd => .inl hcmd

theorem adds_step {a : Node.Act} (h : Caused lib inner w) (hstep : Node.step lib w a = some w') :
    Adds lib inner w w' := by
  cases step_transition hstep with
  | send cmd halive =>
      unfold World.send
      split
      · exact adds_nothing (.refl w) rfl (fun _ h => h) h.relaying rfl
      · exact adds_nothing ⟨List.Subset.refl _, List.Subset.refl _⟩ rfl (fun _ h => h)
          h.relaying rfl
  | dropNode halive =>
      exact adds_nothing ⟨List.Subset.refl _, List.Subset.refl _⟩ rfl (fun _ h => h)
        h.relaying rfl
  | command o cmd rest hmode hcommands => exact adds_handle o cmd rest
  | recvError hmode => exact adds_nothing (.refl w) rfl (fun _ h => h) h.relaying rfl
  | receive o event hmode => exact adds_receive o event
  | shake o event hs hmode => exact adds_shake o event (h.relaying hs hmode)
  | timeout hs hmode =>
      exact adds_nothing ⟨List.Subset.refl _, List.Subset.refl _⟩ rfl (fun _ h => h) nofun rfl

end Step

/-! ## What the behaviours report -/

/-- The event is of what the client of the rendezvous behaviour has yielded. -/
def Learned (inner : NodeInner) (s : System) (event : Rendezvous.Event) : Prop :=
  ∃ b, inner.swarm.rdvz = some b ∧
    ∃ clientEvent ∈ s.client, event ∈ Rendezvous.image b.currentId clientEvent

/-- The reports of the behaviours have causes. -/
structure Traced (inner : NodeInner) (s : System) : Prop where
  rdvz : ∀ event, .behaviour (.rdvz event) ∈ s.loop.yielded → Learned inner s event
  samePeer : ∀ b, s.loop.inner.swarm.rdvz = some b →
    ∃ b₀, inner.swarm.rdvz = some b₀ ∧ b.currentId = b₀.currentId
  queued : ∀ b, s.loop.inner.swarm.rdvz = some b → ∀ event ∈ b.eventQueue, Learned inner s event
  mdns : ∀ event, .behaviour (.mdns event) ∈ s.loop.yielded →
    ∃ w, s.mdns = some w ∧ event ∈ w.events
  agree : ∀ w, s.mdns = some w → Mdns.Agree w

theorem traced_initial {inner : NodeInner} {mdns : Option Mdns.World}
    (hqueue : ∀ b, inner.swarm.rdvz = some b → b.eventQueue = [])
    (hmdns : ∀ w, mdns = some w → Mdns.Agree w) : Traced inner (initial inner mdns) where
  rdvz := nofun
  samePeer b hb := ⟨b, hb, rfl⟩
  queued b hb event hevent := by
    rw [hqueue b hb] at hevent
    cases hevent
  mdns := nofun
  agree := hmdns

section Trace

variable {P : Type} {lib : Libp2p} {inner : NodeInner} {s s' : System}

theorem Traced.loop (h : Traced inner s) {a : Node.Act} {s₁ : System}
    (hstep : Node.step lib s.loop a = some s₁.loop) (hmdns : s₁.mdns = s.mdns)
    (hclient : s₁.client = s.client)
    (hrdvz : ∀ event, eventOf a = some (.behaviour (.rdvz event)) → Learned inner s event)
    (hreport : ∀ event, eventOf a = some (.behaviour (.mdns event)) →
      ∃ w, s.mdns = some w ∧ event ∈ w.events) : Traced inner s₁ := by
  have hlearned : ∀ event, Learned inner s event → Learned inner s₁ event := by
    rintro event ⟨b, hb, clientEvent, hin, hevent⟩
    rw [← hclient] at hin
    exact ⟨b, hb, clientEvent, hin, hevent⟩
  have hnew : ∀ event, event ∈ s₁.loop.yielded → event ∈ s.loop.yielded ∨
      eventOf a = some event := by
    intro event hevent
    rw [step_yielded hstep] at hevent
    exact (List.mem_append.mp hevent).imp_right Option.mem_toList.mp
  have hpart := (step_eventParts hstep).2
  have hbehaviour : ∀ b, s₁.loop.inner.swarm.rdvz = some b → ∃ b', s.loop.inner.swarm.rdvz =
      some b' ∧ b.currentId = b'.currentId ∧ b.eventQueue = b'.eventQueue := by
    intro b hb
    rw [hb, Option.map_some, eq_comm, Option.map_eq_some_iff] at hpart
    obtain ⟨b', hb', heq⟩ := hpart
    exact ⟨b', hb', (congrArg Prod.fst heq).symm, (congrArg Prod.snd heq).symm⟩
  constructor
  · intro event hevent
    apply hlearned
    rcases hnew _ hevent with hold | htaken
    · exact h.rdvz event hold
    · exact hrdvz event htaken
  · intro b hb
    obtain ⟨b', hb', hpeer, -⟩ := hbehaviour b hb
    obtain ⟨b₀, hb₀, hpeer₀⟩ := h.samePeer b' hb'
    exact ⟨b₀, hb₀, hpeer.trans hpeer₀⟩
  · intro b hb event hevent
    obtain ⟨b', hb', -, hqueue⟩ := hbehaviour b hb
    rw [hqueue] at hevent
    exact hlearned event (h.queued b' hb' event hevent)
  · intro event hevent
    rw [hmdns]
    rcases hnew _ hevent with hold | htaken
    · exact h.mdns event hold
    · exact hreport event htaken
  · rw [hmdns]
    exact h.agree

theorem Traced.delivers (h : Traced inner s) {o : Oracle} {event : Option BehaviourEvent}
    (hrdvz : ∀ e, event = some (.rdvz e) → Learned inner s e)
    (hreport : ∀ e, event = some (.mdns e) → ∃ w, s.mdns = some w ∧ e ∈ w.events)
    (hs' : Delivers lib s o event s') : Traced inner s' := by
  cases hs' with
  | nothing => exact h
  | event event loop hstep =>
      refine h.loop hstep rfl rfl ?_ ?_
      · intro e he
        cases he
        exact hrdvz e rfl
      · intro e he
        cases he
        exact hreport e rfl

theorem explicit_poll {b : Gossip.Behaviour} {now : Instant} {answers : Stream' Bool}
    {yields : List (ToSwarm Gossip.GossipsubEvent P)}
    {polled : Polled Gossip.Behaviour Gossip.GossipsubEvent Gossip.Event P}
    (hpolled : Gossip.poll b now answers yields = polled) {peer : PeerId}
    (h : .addExplicitPeer peer ∈ polled.state.gossip) : .addExplicitPeer peer ∈ b.gossip := by
  have hkept : polled.state.gossip = (Gossip.republish b now answers).gossip :=
    poll_frame Gossip.Behaviour.gossip (fun _ => rfl) hpolled
  have hcalls : ∀ messages : List Gossip.Message,
      .addExplicitPeer peer ∈ b.gossip ++ messages.map Gossip.publishCall →
        .addExplicitPeer peer ∈ b.gossip := by
    intro messages hmem
    rcases List.mem_append.mp hmem with hin | hpublish
    · exact hin
    · obtain ⟨message, -, heq⟩ := List.mem_map.mp hpublish
      cases heq
  rw [hkept] at h
  unfold Gossip.republish at h
  split at h
  · unfold Gossip.drainPublish at h
    rcases Gossip.drainMessages_cases b.inProgressMessages answers b rfl with
      ⟨-, heq⟩ | ⟨sent, message, rest, -, -, -, heq⟩
    · rw [heq] at h
      exact hcalls _ h
    · rw [heq] at h
      exact hcalls _ h
  · exact h

theorem caused_initial (inner : NodeInner) : Caused lib inner (Node.initial inner) where
  dialed _ haddr := .before haddr
  listening _ haddr := .before haddr
  announced _ haddr := .before haddr
  explicit _ hpeer := .before hpeer
  relaying := nofun
  asked := nofun

theorem caused_step (h : Caused lib inner s.loop) {a : Act P} (hstep : step lib s a = some s') :
    Caused lib inner s'.loop := by
  have hsame : ∀ {w w' : World}, Caused lib inner w → w'.handled = w.handled →
      w'.yielded = w.yielded → w'.mode = w.mode → calls w'.inner = calls w.inner →
      (∀ peer, .addExplicitPeer peer ∈ w'.inner.swarm.gossip.gossip →
        .addExplicitPeer peer ∈ w.inner.swarm.gossip.gossip) → Caused lib inner w' := by
    intro w w' h hhandled hyielded hmode hcalls hexplicit
    have hlater : Later w w' := ⟨hhandled ▸ List.Subset.refl _, hyielded ▸ List.Subset.refl _⟩
    apply h.adds (adds_nothing hlater hcalls hexplicit _ hhandled)
    intro hs hrelaying
    rw [hmode] at hrelaying
    exact (h.relaying hs hrelaying).mono hlater
  refine loop_keeps (fun h hstep => h.adds (adds_step h hstep)) ?_ ?_ ?_ ?_ h hstep
  · exact fun h => hsame h rfl rfl rfl rfl fun _ hpeer => hpeer
  · exact fun h hpolled => hsame h rfl rfl rfl rfl fun _ hpeer => explicit_poll hpolled hpeer
  · exact fun h _ _ => hsame h rfl rfl rfl rfl fun _ hpeer => hpeer
  · exact fun h _ _ => hsame h rfl rfl rfl rfl fun _ hpeer => hpeer

/-- The event that a poll of the rendezvous behaviour returns was queued, or is of what the
client has yielded. -/
theorem poll_rdvz {b : Rendezvous.Behaviour} {ticks : List Instant}
    {yields : List (ToSwarm Rendezvous.ClientEvent P)}
    {polled : Polled Rendezvous.Behaviour Rendezvous.ClientEvent Rendezvous.Event P}
    (hpolled : Rendezvous.poll b ticks yields = some polled) :
    polled.state.currentId = b.currentId ∧
      (returnedEvent polled).toList ++ polled.state.eventQueue =
        b.eventQueue ++ (eventsTaken yields polled).flatMap (Rendezvous.image b.currentId) := by
  obtain ⟨b', hb', hpoll⟩ := Option.map_eq_some_iff.mp hpolled
  have hticks := Rendezvous.pollTimer_keeps Rendezvous.eventPart Rendezvous.tick_eventPart hb'
  have hpeer : b'.currentId = b.currentId := congrArg Prod.fst hticks
  have hqueue : b'.eventQueue = b.eventQueue := congrArg Prod.snd hticks
  obtain ⟨hsame, taken, hyields, hpasses⟩ := passes_forward
    (fun b' : Rendezvous.Behaviour => b'.currentId = b.currentId)
    (fun b' event hb' => (Rendezvous.handleEvent_currentId b' event).trans hb')
    (fun b' event hb' => by rw [Rendezvous.handleEvent_eventQueue, hb'])
    (fun b' hb' => (Rendezvous.emit_currentId b').trans hb') Rendezvous.emit_eventQueue
    hpeer hpoll
  refine ⟨hsame, ?_⟩
  rw [toList_returnedEvent, taken_of_append hyields, hpasses.events, hqueue]

theorem traced_pollRdvz (h : Traced inner s) {ticks : List Instant}
    {yields : List (ToSwarm Rendezvous.ClientEvent P)} {b : Rendezvous.Behaviour}
    (hb : s.loop.inner.swarm.rdvz = some b)
    {polled : Polled Rendezvous.Behaviour Rendezvous.ClientEvent Rendezvous.Event P}
    (hpolled : Rendezvous.poll b ticks yields = some polled) {s₁ : System}
    (hs₁ : s₁ = { s with
      loop := withRdvz s.loop (some polled.state)
      client := s.client ++ eventsTaken yields polled }) :
    Traced inner s₁ ∧ ∀ e, returnedEvent polled = some e → Learned inner s₁ e := by
  obtain ⟨hpeer, hevents⟩ := poll_rdvz hpolled
  obtain ⟨b₀, hb₀, hpeer₀⟩ := h.samePeer b hb
  subst hs₁
  have hmono : ∀ event, Learned inner s event → Learned inner { s with
      loop := withRdvz s.loop (some polled.state)
      client := s.client ++ eventsTaken yields polled } event := by
    rintro event ⟨b', hb', clientEvent, hin, hevent⟩
    exact ⟨b', hb', clientEvent, List.mem_append_left _ hin, hevent⟩
  have hlearned : ∀ event, event ∈ (returnedEvent polled).toList ++ polled.state.eventQueue →
      Learned inner { s with
        loop := withRdvz s.loop (some polled.state)
        client := s.client ++ eventsTaken yields polled } event := by
    intro event hevent
    rw [hevents] at hevent
    rcases List.mem_append.mp hevent with hqueued | htaken
    · exact hmono event (h.queued b hb event hqueued)
    · obtain ⟨clientEvent, hin, himage⟩ := List.mem_flatMap.mp htaken
      rw [hpeer₀] at himage
      exact ⟨b₀, hb₀, clientEvent, List.mem_append_right _ hin, himage⟩
  refine ⟨⟨fun event hevent => hmono event (h.rdvz event hevent), ?_, ?_, h.mdns, h.agree⟩, ?_⟩
  · rintro b' ⟨⟩
    exact ⟨b₀, hb₀, hpeer.trans hpeer₀⟩
  · rintro b' ⟨⟩ event hevent
    exact hlearned event (List.mem_append_right _ hevent)
  · intro e he
    apply hlearned
    rw [he]
    exact List.mem_append_left _ (List.mem_singleton_self _)

theorem traced_step (h : Traced inner s) {a : Act P} (hstep : step lib s a = some s') :
    Traced inner s' := by
  cases transition hstep with
  | loop a loop helse hloop =>
      refine h.loop hloop rfl rfl ?_ ?_
      · intro e he
        cases a with
        | event o event =>
            cases he
            cases helse
        | _ => cases he
      · intro e he
        cases a with
        | event o event =>
            cases he
            cases helse
        | _ => cases he
  | fromSwarm event =>
      refine ⟨h.rdvz, ?_, ?_, h.mdns, h.agree⟩
      · intro b hb
        obtain ⟨b', hb', rfl⟩ := Option.map_eq_some_iff.mp hb
        obtain ⟨b₀, hb₀, hpeer⟩ := h.samePeer b' hb'
        have hpart := Rendezvous.onSwarmEvent_eventPart b' event
        exact ⟨b₀, hb₀, (congrArg Prod.fst hpart).trans hpeer⟩
      · intro b hb e he
        obtain ⟨b', hb', rfl⟩ := Option.map_eq_some_iff.mp hb
        have hqueue : (Rendezvous.onSwarmEvent b' event).eventQueue = b'.eventQueue :=
          congrArg Prod.snd (Rendezvous.onSwarmEvent_eventPart b' event)
        rw [hqueue] at he
        exact h.queued b' hb' e he
  | pollGossip o now answers yields polled hpolled _ hs' =>
      have hmid : Traced inner { s with
          loop := withGossip s.loop polled.state
          gossipsub := s.gossipsub ++ eventsTaken yields polled
          accepted := s.accepted ++ republished s.loop.inner.swarm.gossip now answers } :=
        ⟨h.rdvz, h.samePeer, h.queued, h.mdns, h.agree⟩
      apply hmid.delivers _ _ hs'
      · intro e he
        obtain ⟨event, -, heq⟩ := Option.map_eq_some_iff.mp he
        cases heq
      · intro e he
        obtain ⟨event, -, heq⟩ := Option.map_eq_some_iff.mp he
        cases heq
  | pollRdvz o ticks yields b hb polled hpolled _ hs' =>
      obtain ⟨hmid, hreturned⟩ := traced_pollRdvz h hb hpolled rfl
      apply hmid.delivers _ _ hs'
      · intro e he
        obtain ⟨returned, hevent, heq⟩ := Option.map_eq_some_iff.mp he
        cases heq
        exact hreturned _ hevent
      · intro e he
        obtain ⟨event, -, heq⟩ := Option.map_eq_some_iff.mp he
        cases heq
  | pollMdns o a w w' hw hpolled _ hs' =>
      obtain ⟨-, hevents, -⟩ := Mdns.step_spec hpolled
      have hmid : Traced inner { s with mdns := some w' } := by
        refine ⟨h.rdvz, h.samePeer, h.queued, fun e he => ?_, ?_⟩
        · obtain ⟨w₀, hw₀, hin⟩ := h.mdns e he
          cases hw.symm.trans hw₀
          refine ⟨w', rfl, ?_⟩
          rw [hevents]
          exact List.mem_append_left _ hin
        · rintro w₀ ⟨⟩
          exact Mdns.agree_step (h.agree w hw) hpolled
      apply hmid.delivers _ _ hs'
      · intro e he
        obtain ⟨event, -, heq⟩ := Option.map_eq_some_iff.mp he
        cases heq
      · intro e he
        obtain ⟨event, hevent, heq⟩ := Option.map_eq_some_iff.mp he
        cases heq
        refine ⟨w', rfl, ?_⟩
        cases hpolled
        apply List.mem_append_left
        apply List.mem_append_right
        exact Option.mem_toList.mpr hevent
  | pollDht o now answer drainNow answers fuel reads yields b hb polled hpolled _ hs' =>
      have hmid : Traced inner { s with loop := withDht s.loop (some polled.state) } :=
        ⟨h.rdvz, h.samePeer, h.queued, h.mdns, h.agree⟩
      apply hmid.delivers _ _ hs'
      · intro e he
        obtain ⟨event, -, heq⟩ := Option.map_eq_some_iff.mp he
        cases heq
      · intro e he
        obtain ⟨event, -, heq⟩ := Option.map_eq_some_iff.mp he
        cases heq

end Trace

/-- Behind a report of a discovery stands a registration of another peer, or what the
interface tasks have extracted from a response of one. -/
structure Reported (peerId : PeerId) (s : System) : Prop where
  rdvz : ∀ found, .behaviour (.rdvz (.discovered found)) ∈ s.loop.yielded → ∀ pair ∈ found,
    pair.1 ≠ peerId ∧ ∃ node registrations cookie,
      .discovered node registrations cookie ∈ s.client ∧
        ∃ r ∈ registrations, r.peerId = pair.1 ∧ pair.2 ∈ r.addresses
  mdns : ∀ pairs, .behaviour (.mdns (.discovered pairs)) ∈ s.loop.yielded → ∀ pair ∈ pairs,
    pair.1 ≠ peerId ∧ ∃ w round t, s.mdns = some w ∧ round ∈ w.rounds ∧
      (pair.1, pair.2, t) ∈ round.received

theorem Traced.reported {lib : Libp2p} {inner : NodeInner} {s : System} {peerId : PeerId}
    (h : Traced inner s) (hrdvz : ∀ b, inner.swarm.rdvz = some b → b.currentId = peerId)
    (hextracted : ∀ w, s.mdns = some w → ∀ round ∈ w.rounds, ∀ tuple ∈ round.received,
      Mdns.Extracted lib peerId tuple) : Reported peerId s where
  rdvz found hevent pair hpair := by
    obtain ⟨b, hb, clientEvent, hin, himage⟩ := h.rdvz _ hevent
    cases clientEvent with
    | discovered node registrations cookie =>
        cases List.mem_singleton.mp himage
        obtain ⟨hother, hregistration⟩ :=
          (Rendezvous.mem_found_iff b.currentId registrations pair.1 pair.2).mp hpair
        rw [hrdvz b hb] at hother
        exact ⟨hother, node, registrations, cookie, hin, hregistration⟩
    | registered ns => cases List.mem_singleton.mp himage
    | other => cases himage
  mdns pairs hevent pair hpair := by
    obtain ⟨w, hw, hin⟩ := h.mdns _ hevent
    obtain ⟨t, round, hround, hreceived⟩ := Mdns.received_of_event (h.agree w hw) hin hpair
    exact ⟨(hextracted w hw round hround _ hreceived).ne_local, w, round, t, hw, hround,
      hreceived⟩

/-- In every run the node dials, listens on, announces and favours only what it has a cause
for, every dial the client asks for is made, and no discovery is of the node itself if the
interface tasks pass on what they extract. -/
theorem effects_caused {P : Type} {lib : Libp2p} {inner : NodeInner} {mdns : Option Mdns.World}
    {peerId : PeerId}
    (hrdvz : ∀ b, inner.swarm.rdvz = some b → b.currentId = peerId ∧ b.eventQueue = [])
    (hmdns : ∀ w, mdns = some w → ∃ config,
      Machine.Reachable Mdns.step (Mdns.initial config peerId) w)
    {acts : List (Act P)} {s : System}
    (hrun : Machine.run (step lib) (initial inner mdns) acts = some s)
    (hextracted : ∀ w, s.mdns = some w → ∀ round ∈ w.rounds, ∀ tuple ∈ round.received,
      Mdns.Extracted lib peerId tuple) :
    Caused lib inner s.loop ∧ Reported peerId s := by
  have hagree : ∀ w, mdns = some w → Mdns.Agree w := by
    intro w hw
    obtain ⟨config, polls, hpolls⟩ := hmdns w hw
    exact Machine.run_invariant Mdns.Agree (fun _ _ _ h hstep => Mdns.agree_step h hstep)
      (Mdns.agree_initial config peerId) hpolls
  have hcaused : Caused lib inner s.loop :=
    Machine.run_invariant (fun s => Caused lib inner s.loop)
      (fun _ _ _ h hstep => caused_step h hstep) (caused_initial inner) hrun
  have htraced : Traced inner s :=
    Machine.run_invariant (Traced inner) (fun _ _ _ h hstep => traced_step h hstep)
      (traced_initial (fun b hb => (hrdvz b hb).2) hagree) hrun
  exact ⟨hcaused, htraced.reported (fun b hb => (hrdvz b hb).1) hextracted⟩

/-! ## A peer found on a rendezvous point and on the local network -/

def pointInner : NodeInner where
  swarm := .build (Gossip.new samplePeerId true)
    (some (Rendezvous.empty samplePeerId none (Mdns.Timer.at 0))) none
  dialingRelays := []

def tracedMdns : Mdns.World :=
  Mdns.initial ⟨.fromSecs 360, .fromSecs 300, .fromSecs 1, false⟩ samplePeerId

def tracedActs : List (Act Unit) :=
  [.pollRdvz sampleOracle [] [.generateEvent (.discovered ⟨[18, 1, 8]⟩
      [{ peerId := ⟨[18, 1, 7]⟩, addresses := [sampleAddr] },
        { peerId := samplePeerId, addresses := [sampleAddr] }] { id := 0, ns := none })],
    .pollMdns sampleOracle
      { ifEvents := [], received := [(⟨[18, 1, 7]⟩, sampleAddr, 9)], now := 8 }]

theorem effects_caused_sample :
    ∃ s, Machine.run (step sampleLibp2p) (initial pointInner (some tracedMdns)) tracedActs =
        some s ∧ Caused sampleLibp2p pointInner s.loop ∧ Reported samplePeerId s := by
  refine ⟨_, rfl, effects_caused ?_ ?_ (show Machine.run (step sampleLibp2p)
    (initial pointInner (some tracedMdns)) tracedActs = some _ from rfl) ?_⟩
  · rintro b ⟨⟩
    exact ⟨rfl, rfl⟩
  · rintro w ⟨⟩
    exact ⟨_, [], rfl⟩
  · -- the tuple is extracted from a response that names the peer with its address
    rintro w ⟨⟩ round hround tuple htuple
    cases List.mem_singleton.mp hround
    cases List.mem_singleton.mp htuple
    let peer : Mdns.Iface.MdnsPeer := { addrs := [sampleAddr], peerId := ⟨[18, 1, 7]⟩, ttl := 0 }
    exact ⟨{ peers := [peer], src := ⟨.v4 0x01020304, 5353⟩ }, 9, by decide⟩

end P2pa.Node.Whole
