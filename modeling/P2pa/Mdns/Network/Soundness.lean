import P2pa.Mdns.Iface.Overheard
import P2pa.Mdns.Network.Model

/-!
# Where a discovery comes from

Whatever is lost, repeated or reordered, and however the datagrams are cut: a node learns of
a peer only the addresses the peer listened on when it answered a query of the same service,
as the sender's address translates them.
-/

namespace P2pa.Mdns.Network

open Utils Wire Iface

/-! ## What a tuple rests on -/

section Learnt

variable (H : Hickory) (lib : Libp2p) {n m : Nat} (lan : Lan n m)

/-- Every random name drawn is one of `generate_peer_name`, and the addresses the nodes
listen on print without a space and are parsed back. -/
def Net.Regular (net : Net n m) : Prop :=
  ∀ i outcome around, Call.read outcome around ∈ (net.tasks i).calls →
    around.Regular lib (lan.host (lan.owner i)).peerId

/-- The packet is of an answer of the interface `j` to a query, given when its node listened
on the address. -/
def Answers (net : Net n m) (j : Fin n) (addr : Multiaddr) (data : Bytes) : Prop :=
  ∃ outcome around query, Call.read outcome around ∈ (net.tasks j).calls ∧
    (Call.read outcome around).packet H lib (net.tasks j).state.toSettings =
      some (.query query) ∧
    addr ∈ around.listenAddresses ∧
    data ∈ (Call.read outcome around).enqueued H lib (net.tasks j).state.toSettings

def HeardAt (net : Net n m) (i j : Fin n) (data : Bytes) (now : Instant) : Prop :=
  data ∈ (net.tasks j).calls.filterMap sent ∧
    ∃ around, Call.read (.datagram data (lan.source j)) around ∈ (net.tasks i).calls ∧
      around.now = now

/-- How the node `v` has come to know the tuple: its interface `i` has read at `now` the
packet `data` from `j`, which answers with the address `addr`. -/
structure Learnt (net : Net n m) (v : Fin m) (tuple : Discovered) (i j : Fin n)
    (addr : Multiaddr) (data : Bytes) (now : Instant) : Prop where
  owner : lan.owner i = v
  service : (lan.host (lan.owner j)).name = (lan.host v).name
  peerId : tuple.1 = (lan.host (lan.owner j)).peerId
  other : tuple.1 ≠ (lan.host v).peerId
  answers : Answers H lib net j addr data
  heard : HeardAt lan net i j data now
  translated : lib.addressTranslation addr (observedFrom (lan.source j)) = some tuple.2.1
  expires : tuple.2.2 = now +
    min (((lan.host (lan.owner j)).config.ttl.nanos + 999999999) / 1000000000) (2 ^ 32 - 1) *
      1000000000

variable {H lib lan} {net : Net n m}

/-- What a task has sent it has built for one of its calls. -/
theorem Balanced.enqueued {task : Task} (h : Balanced H lib task) {data : Bytes}
    (hdata : data ∈ task.calls.filterMap sent) :
    ∃ call ∈ task.calls, data ∈ call.enqueued H lib task.state.toSettings := by
  obtain ⟨s, -, hsendBuffer, haccounted⟩ := h
  have hpackets := haccounted.sendBuffer
  rw [hsendBuffer] at hpackets
  obtain ⟨call, hcall, hsent⟩ := List.mem_filterMap.mp hdata
  have hcompleted : data ∈ task.calls.filterMap Call.completed := by
    refine List.mem_filterMap.mpr ⟨call, hcall, ?_⟩
    unfold sent at hsent
    split at hsent
    · exact hsent
    · cases hsent
  have hmem := List.mem_append_left task.state.sendBuffer hcompleted
  rw [hpackets.of_empty] at hmem
  rw [haccounted.settings]
  exact List.mem_flatMap.mp hmem

/-- What a task has reported it has extracted from a datagram. -/
theorem Balanced.extracted {task : Task} (h : Balanced H lib task) {tuple : Discovered}
    (htuple : tuple ∈ task.calls.filterMap Call.accepted) :
    ∃ data src around, Call.read (.datagram data src) around ∈ task.calls ∧
      tuple ∈ (Call.read (.datagram data src) around).extracted H lib
        task.state.toSettings := by
  obtain ⟨s, hdiscovered, -, haccounted⟩ := h
  have hfound := haccounted.discovered
  rw [hdiscovered] at hfound
  have hmem := List.mem_append_left task.state.discovered htuple
  rw [hfound.of_empty] at hmem
  obtain ⟨call, hcall, htuple⟩ := List.mem_flatMap.mp hmem
  rw [haccounted.settings]
  match call with
  | .read (.datagram data src) around => exact ⟨data, src, around, hcall, htuple⟩
  | .read .wouldBlock around => cases htuple
  | .read .error around => cases htuple
  | .read .pending around => cases htuple
  | .tick id => cases htuple
  | .write packet dst outcome => cases htuple
  | .send tuple' outcome => cases htuple

theorem learnt_of_accepted (hH : H.Sequential) (hvalid : ∀ v, ValidName (lan.host v).name)
    (hprints : ∀ v, H.PrintsNames (lan.host v).name) (hnet : Recorded H lib lan net)
    (hregular : net.Regular lib lan) {i : Fin n} {tuple : Discovered} (htuple : tuple ∈ (net.tasks i).calls.filterMap Call.accepted) :
    ∃ j addr data now, Learnt H lib lan net (lan.owner i) tuple i j addr data now := by
  obtain ⟨data, src, around, hread, hextracted⟩ := (hnet.balanced i).extracted htuple
  rw [extracted_eq, mem_extractDiscovered_iff] at hextracted
  obtain ⟨peer, hpeer, hother, addr, haddr, newAddr, htranslated, rfl⟩ := hextracted
  have hdelivered : (⟨data, src⟩ : Datagram) ∈ (net.tasks i).calls.filterMap delivered :=
    List.mem_filterMap.mpr ⟨_, hread, rfl⟩
  obtain ⟨j, hsrc, hsent⟩ := hnet.delivered i _ hdelivered
  obtain ⟨call, hcall, henqueued⟩ := (hnet.balanced j).enqueued hsent
  dsimp only at hsrc
  have hi := hnet.configured i
  have hj := hnet.configured j
  obtain ⟨hname, hid, httl, query, outcome, around', rfl, hpacket, haddrs⟩ :=
    mem_told hH hj.config (hvalid _) (hprints _)
      (fun outcome around heq => by
        rw [hj.localPeerId]
        exact hregular j outcome around (heq ▸ hcall))
      henqueued hi.config hpeer
  refine ⟨j, addr, data, around.now, rfl, hname, ?_, ?_, ?_, ?_, ?_, ?_⟩
  · dsimp only
    rw [hid, hj.localPeerId]
  · dsimp only
    rw [← hi.localPeerId]
    exact hother
  · exact ⟨outcome, around', query, hcall, hpacket,
      List.mem_of_mem_take (List.mem_filter.mp (haddrs addr haddr)).1, henqueued⟩
  · exact ⟨hsent, around, hsrc ▸ hread, rfl⟩
  · rw [← hsrc]
    exact htranslated
  · dsimp only
    rw [httl, toNat_durationToSecs, hj.ttl]

/-- In every state of the network, each entry of a node's table and each pair it was told of
in an event is from another node of the same service, which has answered a query while it
listened on the address, and the entry lasts for the ttl of that node since a datagram of it
was read. -/
theorem discoveries_learnt (hH : H.Sequential) (hvalid : ∀ v, ValidName (lan.host v).name)
    (hprints : ∀ v, H.PrintsNames (lan.host v).name)
    {start : Net n m} (hstarted : Started lan start) {acts : List (Act n m)}
    (hrun : Machine.run (Net.step H lib lan) start acts = some net)
    (hregular : net.Regular lib lan) (v : Fin m) :
    (∀ pair t, (pair, t) ∈ (net.worlds v).behaviour.discoveredNodes →
        ∃ i j addr data now, Learnt H lib lan net v (pair.1, pair.2, t) i j addr data now) ∧
      ∀ event ∈ (net.worlds v).events, ∀ pair ∈ event.pairs,
        ∃ t i j addr data now, Learnt H lib lan net v (pair.1, pair.2, t) i j addr data now := by
  have hnet := recorded_of_run hstarted hrun
  have hreceived : ∀ tuple, (∃ round ∈ (net.worlds v).rounds, tuple ∈ round.received) →
      ∃ i j addr data now, Learnt H lib lan net v tuple i j addr data now := by
    intro tuple hround
    obtain ⟨i, rfl, haccepted⟩ := (hnet.received v tuple).mp (.inr hround)
    exact ⟨i, learnt_of_accepted hH hvalid hprints hnet hregular haccepted⟩
  constructor
  · intro pair t hentry
    exact hreceived _ (received_of_entry (hnet.agree v) hentry)
  · intro event hevent pair hpair
    obtain ⟨t, hround⟩ := received_of_event (hnet.agree v) hevent hpair
    exact ⟨t, hreceived _ hround⟩

end Learnt

/-! ## Two nodes -/

def otherHost : Host where
  peerId := ⟨[18, 32]⟩
  config := ServiceConfig.default
  name := ""

def sampleLan : Lan 2 2 where
  host v := if v = 0 then otherHost else { otherHost with peerId := samplePeerId }
  owner i := i
  source i := if i = 0 then ⟨.v4 0x01020305, 40000⟩ else ⟨.v4 0x01020304, 40001⟩

def sampleStart : Net 2 2 where
  tasks i := {
    state := (InterfaceState.new sampleIp (sampleLan.host i).service (sampleLan.host i).peerId
      0 0).get (by revert i; decide)
    calls := [] }
  inFlight := 0
  inboxes _ := []
  worlds v := Mdns.initial (sampleLan.host v).service.toConfig (sampleLan.host v).peerId

theorem started_sample : Started sampleLan sampleStart where
  calls _ := rfl
  state _ := ⟨sampleIp, 0, 0, (Option.some_get _).symm⟩
  inFlight := rfl
  inboxes _ := rfl
  worlds _ := rfl

theorem validName_sample (v : Fin 2) : ValidName (sampleLan.host v).name := by
  have hname : (sampleLan.host v).name = "" := by
    revert v
    decide
  rw [hname]
  exact ⟨⟨by decide, by decide, by decide⟩, ⟨by decide, by decide, by decide⟩⟩

theorem printsNames_sample (v : Fin 2) : Hickory.plain.PrintsNames (sampleLan.host v).name := by
  refine Hickory.plain_prints.printsNames ⟨(validName_sample v).service, ?_⟩
    ⟨(validName_sample v).metaQuery, ?_⟩ <;> revert v <;> decide

def sampleQuery : Bytes := (buildQuery 7 otherHost.service.serviceName).getD []

def sampleAnswer : Bytes :=
  ((buildQueryResponse sampleLibp2p 7 samplePeerId [sampleAddr] otherHost.config.ttl
    otherHost.service.serviceName (List.replicate 32 97)).getD []).headD []

def sampleAround (listenAddresses : List Multiaddr) : Surroundings where
  now := 0
  listenAddresses
  peerName := List.replicate 32 97

/-- The first node asks, the second one answers, and the first one is polled. -/
def sampleActs : List (Act 2 2) :=
  [.round 0 { Iface.Round.quiet with tick := some (0, 7), write := .ok },
    .round 1 { Iface.Round.quiet with
      read := .datagram sampleQuery (sampleLan.source 0), around := sampleAround [sampleAddr] },
    .round 1 { Iface.Round.quiet with write := .ok },
    .round 0 { Iface.Round.quiet with
      read := .datagram sampleAnswer (sampleLan.source 1), around := sampleAround [] },
    .round 0 { Iface.Round.quiet with ready := true, send := .ok },
    .poll 0 [] 1]

def sampleCalls (i : Fin 2) : List Call :=
  if i = 0 then
    [.tick 7, .write sampleQuery ⟨.v4 0xe00000fb, 5353⟩ .ok,
      .read (.datagram sampleAnswer (sampleLan.source 1)) (sampleAround []),
      .send (samplePeerId, sampleAddr, 300000000000) .ok]
  else
    [.read (.datagram sampleQuery (sampleLan.source 0)) (sampleAround [sampleAddr]),
      .write sampleAnswer ⟨.v4 0xe00000fb, 5353⟩ .ok]

theorem run_sample :
    ∃ net, Machine.run (Net.step Hickory.plain sampleLibp2p sampleLan) sampleStart sampleActs =
        some net ∧
      (net.worlds 0).behaviour.discoveredNodes =
        [((samplePeerId, sampleAddr), 300000000000)] ∧
      ∀ i, (net.tasks i).calls = sampleCalls i ∧
        (net.tasks i).state.toSettings = (sampleStart.tasks i).state.toSettings := by
  have hrun : (Machine.run (Net.step Hickory.plain sampleLibp2p sampleLan) sampleStart
      sampleActs).map (fun net => decide ((net.worlds 0).behaviour.discoveredNodes =
          [((samplePeerId, sampleAddr), 300000000000)] ∧
        ∀ i, (net.tasks i).calls = sampleCalls i ∧
          (net.tasks i).state.toSettings = (sampleStart.tasks i).state.toSettings)) =
      some true := by
    decide +kernel
  obtain ⟨net, hnet, hresult⟩ := Option.map_eq_some_iff.mp hrun
  exact ⟨net, hnet, of_decide_eq_true hresult⟩

theorem regular_sample {net : Net 2 2} (h : ∀ i, (net.tasks i).calls = sampleCalls i) :
    net.Regular sampleLibp2p sampleLan := by
  have hname : IsPeerName (List.replicate 32 97) :=
    ⟨by decide, fun b hb => by rw [List.eq_of_mem_replicate hb]; decide⟩
  intro i outcome around hread
  rw [h i] at hread
  have haround : around = sampleAround [] ∧ i = 0 ∨
      around = sampleAround [sampleAddr] ∧ i = 1 := by
    match i with
    | 0 => simp_all [sampleCalls]
    | 1 => simp_all [sampleCalls]
  rcases haround with ⟨rfl, rfl⟩ | ⟨rfl, rfl⟩
  · exact ⟨hname, nofun, nofun⟩
  · refine ⟨hname, ?_, ?_⟩
    · intro addr haddr
      rw [List.mem_singleton.mp haddr]
      decide
    · intro addr haddr
      rw [List.mem_singleton.mp haddr]
      decide

theorem discoveries_learnt_sample :
    ∃ net, (net.worlds 0).behaviour.discoveredNodes =
        [((samplePeerId, sampleAddr), 300000000000)] ∧
      (∀ pair t, (pair, t) ∈ (net.worlds 0).behaviour.discoveredNodes → ∃ i j addr data now,
          Learnt Hickory.plain sampleLibp2p sampleLan net 0 (pair.1, pair.2, t) i j addr data
            now) ∧
        ∀ event ∈ (net.worlds 0).events, ∀ pair ∈ event.pairs, ∃ t i j addr data now,
          Learnt Hickory.plain sampleLibp2p sampleLan net 0 (pair.1, pair.2, t) i j addr data
            now := by
  obtain ⟨net, hrun, htable, hcalls⟩ := run_sample
  exact ⟨net, htable, discoveries_learnt Hickory.plain_sequential validName_sample
    printsNames_sample started_sample hrun (regular_sample fun i => (hcalls i).1) 0⟩

end P2pa.Mdns.Network
