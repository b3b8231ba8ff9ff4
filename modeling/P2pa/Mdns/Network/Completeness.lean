import P2pa.Mdns.Iface.Size
import P2pa.Mdns.Network.Soundness

/-!
# What a node that hears an answer learns

The packets of an answer can be read in any order, more than once, and with any others in
between: an interface that has read them all has found every address they announce.
-/

namespace P2pa.Mdns.Network

open Utils Wire Iface

section Found

variable {H : Hickory} {lib : Libp2p} {n m : Nat} {lan : Lan n m} {net : Net n m}

theorem Recorded.found (hnet : Recorded H lib lan net) {i : Fin n} {call : Call}
    (hcall : call ∈ (net.tasks i).calls) {tuple : Discovered}
    (htuple : tuple ∈ call.extracted H lib (net.tasks i).state.toSettings) :
    tuple ∈ (net.tasks i).state.discovered ∨ Received net (lan.owner i) tuple := by
  obtain ⟨s, hdiscovered, -, haccounted⟩ := hnet.balanced i
  have hfound := haccounted.discovered
  rw [hdiscovered] at hfound
  rw [haccounted.settings] at htuple
  have hmem : tuple ∈ (net.tasks i).calls.flatMap (Call.extracted H lib s.toSettings) :=
    List.mem_flatMap.mpr ⟨call, hcall, htuple⟩
  rw [← hfound.of_empty] at hmem
  rcases List.mem_append.mp hmem with haccepted | hbuffered
  · exact .inr ((hnet.received _ tuple).mpr ⟨i, rfl, haccepted⟩)
  · exact .inl hbuffered

theorem told_address (hH : H.Sequential) (hvalid : ∀ v, ValidName (lan.host v).name)
    (hprints : ∀ v, H.PrintsNames (lan.host v).name) (hnet : Recorded H lib lan net)
    (hregular : net.Regular lib lan) {i j : Fin n}
    (hservice : (lan.host (lan.owner j)).name = (lan.host (lan.owner i)).name)
    {outcome : ReadOutcome} {around : Surroundings} {query : MdnsQuery}
    (hanswer : Call.read outcome around ∈ (net.tasks j).calls)
    (hquery : (Call.read outcome around).packet H lib (net.tasks j).state.toSettings =
      some (.query query))
    {addr : Multiaddr} (haddr : addr ∈ announced lib (lan.host (lan.owner j)).peerId
      around.listenAddresses) :
    ∃ data ∈ (Call.read outcome around).enqueued H lib (net.tasks j).state.toSettings,
      received data = data → ∃ peer ∈ told H lib (net.tasks i).state.toSettings data
          (lan.source j),
        peer.peerId = (lan.host (lan.owner j)).peerId ∧
          peer.ttl = durationToSecs (lan.host (lan.owner j)).config.ttl ∧ addr ∈ peer.addrs := by
  have hi := hnet.configured i
  have hj := hnet.configured j
  have haround := hregular j outcome around hanswer
  obtain ⟨service, peer, hspells, hbuilt⟩ :=
    built_answer hj.config (hvalid _) hquery haround.peerName
  rw [hj.localPeerId, hj.ttl] at hbuilt
  unfold Call.enqueued
  rw [hbuilt, Option.getD_some]
  rw [← flatMap_group (announced lib (lan.host (lan.owner j)).peerId
    around.listenAddresses)] at haddr
  obtain ⟨k, hk, hgroup⟩ := List.mem_flatMap.mp haddr
  refine ⟨_, List.mem_map_of_mem hk, fun hwhole => ?_⟩
  have hmem : ∀ a ∈ group (announced lib (lan.host (lan.owner j)).peerId
      around.listenAddresses) k, Announced lib (lan.host (lan.owner j)).peerId a ∧
        a ∈ around.listenAddresses := by
    intro a ha
    obtain ⟨htake, hann⟩ := List.mem_filter.mp (mem_of_mem_group ha)
    exact ⟨hann, List.mem_of_mem_take htake⟩
  rw [(told_group _ hH hi.config hspells ((hprints _).service _ hspells) query.queryId _ _
      (length_group_le _ k) (fun a ha => (hmem a ha).1)
      (fun a ha => haround.noSpace a (hmem a ha).2)
      fun a ha => haround.parse a (hmem a ha).2).2 hservice hwhole]
  unfold peersOf
  rw [if_neg (List.ne_nil_of_mem hgroup)]
  exact ⟨_, List.mem_singleton_self _, rfl, rfl, hgroup⟩

/-- An interface that has read every packet of an answer, none of them longer than its
buffer, has found every address the answer announces, for as long as the ttl says; what it
has found it still holds, or the channel of its node does, or the node has been told. -/
theorem answers_found (hH : H.Sequential) (hvalid : ∀ v, ValidName (lan.host v).name)
    (hprints : ∀ v, H.PrintsNames (lan.host v).name)
    {start : Net n m} (hstarted : Started lan start) {acts : List (Act n m)}
    (hrun : Machine.run (Net.step H lib lan) start acts = some net)
    (hregular : net.Regular lib lan) {i j : Fin n}
    (hservice : (lan.host (lan.owner j)).name = (lan.host (lan.owner i)).name)
    (hother : (lan.host (lan.owner j)).peerId ≠ (lan.host (lan.owner i)).peerId)
    {outcome : ReadOutcome} {around : Surroundings} {query : MdnsQuery}
    (hanswer : Call.read outcome around ∈ (net.tasks j).calls)
    (hquery : (Call.read outcome around).packet H lib (net.tasks j).state.toSettings =
      some (.query query))
    (hfits : ∀ data ∈ (Call.read outcome around).enqueued H lib
      (net.tasks j).state.toSettings, data.length ≤ recvBufferSize)
    (hheard : ∀ data ∈ (Call.read outcome around).enqueued H lib
      (net.tasks j).state.toSettings, ∃ around',
        Call.read (.datagram data (lan.source j)) around' ∈ (net.tasks i).calls)
    {addr newAddr : Multiaddr}
    (haddr : addr ∈ announced lib (lan.host (lan.owner j)).peerId around.listenAddresses)
    (htranslated : lib.addressTranslation addr (observedFrom (lan.source j)) =
      some newAddr) :
    ∃ data around', Call.read (.datagram data (lan.source j)) around' ∈ (net.tasks i).calls ∧
      let tuple : Discovered := ((lan.host (lan.owner j)).peerId, newAddr, around'.now +
        min (((lan.host (lan.owner j)).config.ttl.nanos + 999999999) / 1000000000)
          (2 ^ 32 - 1) * 1000000000)
      tuple ∈ (net.tasks i).state.discovered ∨ tuple ∈ net.inboxes (lan.owner i) ∨
        Change.discovered ∈ changes ((lan.host (lan.owner j)).peerId, newAddr)
          (net.worlds (lan.owner i)).events := by
  have hnet := recorded_of_run hstarted hrun
  obtain ⟨data, hdata, htold⟩ :=
    told_address hH hvalid hprints hnet hregular (i := i) hservice hanswer hquery haddr
  obtain ⟨around', hread⟩ := hheard data hdata
  obtain ⟨peer, hpeer, hid, httl, haddrs⟩ :=
    htold ((received_eq_self_iff data).mpr (hfits data hdata))
  refine ⟨data, around', hread, ?_⟩
  have hextracted : ((lan.host (lan.owner j)).peerId, newAddr, around'.now +
      (durationToSecs (lan.host (lan.owner j)).config.ttl).toNat * 1000000000) ∈
        (Call.read (.datagram data (lan.source j)) around').extracted H lib
          (net.tasks i).state.toSettings := by
    rw [extracted_eq, mem_extractDiscovered_iff, (hnet.configured i).localPeerId]
    refine ⟨peer, hpeer, by rwa [hid], addr, haddrs, newAddr, htranslated, ?_⟩
    rw [hid, httl]
  rw [toNat_durationToSecs] at hextracted
  rcases hnet.found hread hextracted with hbuffered | hinbox | ⟨round, hround, hreceived⟩
  · exact .inl hbuffered
  · exact .inr (.inl hinbox)
  · refine .inr (.inr (hnet.notified _ _ ⟨round, hround, ?_⟩))
    exact List.ne_nil_of_mem (mem_offers_keyed.mpr hreceived)

end Found

theorem answers_found_sample :
    ∃ net : Net 2 2,
      Machine.run (Net.step Hickory.plain sampleLibp2p sampleLan) sampleStart sampleActs =
        some net ∧
      ∃ data around',
        Call.read (.datagram data (sampleLan.source 1)) around' ∈ (net.tasks 0).calls ∧
        let tuple : Discovered := (samplePeerId, sampleAddr, around'.now +
          min ((otherHost.config.ttl.nanos + 999999999) / 1000000000) (2 ^ 32 - 1) * 1000000000)
        tuple ∈ (net.tasks 0).state.discovered ∨ tuple ∈ net.inboxes 0 ∨
          Change.discovered ∈ changes (samplePeerId, sampleAddr) (net.worlds 0).events := by
  obtain ⟨net, hrun, -, hcalls⟩ := run_sample
  obtain ⟨hfirst, -⟩ := hcalls 0
  obtain ⟨hsecond, hsettings⟩ := hcalls 1
  have hanswer : Call.read (.datagram sampleQuery (sampleLan.source 0))
      (sampleAround [sampleAddr]) ∈ (net.tasks 1).calls := by
    rw [hsecond]
    exact List.mem_cons_self
  have hquery : (Call.read (.datagram sampleQuery (sampleLan.source 0))
      (sampleAround [sampleAddr])).packet Hickory.plain sampleLibp2p
        (net.tasks 1).state.toSettings = some (.query ⟨sampleLan.source 0, 7⟩) := by
    rw [hsettings]
    decide +kernel
  have henqueued : (Call.read (.datagram sampleQuery (sampleLan.source 0))
      (sampleAround [sampleAddr])).enqueued Hickory.plain sampleLibp2p
        (net.tasks 1).state.toSettings = [sampleAnswer] := by
    rw [hsettings]
    decide +kernel
  have haddr : sampleAddr ∈ announced sampleLibp2p (sampleLan.host (sampleLan.owner 1)).peerId
      (sampleAround [sampleAddr]).listenAddresses := by
    decide
  refine ⟨net, hrun, answers_found (i := 0) (j := 1) Hickory.plain_sequential validName_sample
    printsNames_sample started_sample hrun (regular_sample fun i => (hcalls i).1) rfl (by decide)
    hanswer hquery ?_ ?_ haddr rfl⟩
  · rw [henqueued]
    decide +kernel
  · rw [henqueued]
    intro data hdata
    rw [List.mem_singleton.mp hdata, hfirst]
    exact ⟨sampleAround [], by simp [sampleCalls]⟩

end P2pa.Mdns.Network
