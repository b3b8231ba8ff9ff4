import Mathlib.Algebra.BigOperators.Fin
import Mathlib.Algebra.Order.BigOperators.Group.List
import P2pa.Mdns.Iface.Overheard
import P2pa.Mdns.Network.Soundness

/-!
# How much the nodes can send

A query is answered by every interface that reads it, an answer by none.  So the packets
sent are bounded by the ticks of the timers and the copies the network makes: a packet pays
for itself and, if it is a query, for the answers to its copies.
-/

namespace P2pa.Mdns.Network

open Utils Wire Iface

/-! ## The packets of an answer -/

/-- An answer is about at most 65535 addresses, 29 in a packet. -/
def maxAnswer : Nat := 2260

theorem packetCount_announced_le (lib : Libp2p) (peerId : PeerId)
    (addresses : List Multiaddr) : packetCount (announced lib peerId addresses) ≤ maxAnswer := by
  have hmax : maxRecordsPerPacket = 29 := by decide
  have hlength : (announced lib peerId addresses).length ≤ 65535 :=
    (List.length_filter_le _ _).trans (List.length_take_le _ _)
  unfold packetCount maxAnswer
  rw [hmax]
  omega

section Weights

variable (H : Hickory)

/-- Whoever reads the datagram sees questions. -/
def asks (data : Bytes) : Bool :=
  match H.fromVec (received data) with
  | some message => message.queries ≠ []
  | none => false

/-- What a copy of a packet can make its reader send. -/
def copyWeight (data : Bytes) : Nat := if asks H data then maxAnswer else 0

/-- The packet itself, and what its copies can make the others send. -/
def packetWeight (n : Nat) (data : Bytes) : Nat := 1 + n * copyWeight H data

def weights (n : Nat) (packets : List Bytes) : Nat := (packets.map (packetWeight H n)).sum

def copyWeights (datagrams : List Datagram) : Nat :=
  (datagrams.map fun datagram => copyWeight H datagram.data).sum

def isTick : Call → Bool
  | .tick _ => true
  | _ => false

variable {H} {n : Nat}

theorem packetWeight_le (data : Bytes) : packetWeight H n data ≤ 1 + n * maxAnswer := by
  unfold packetWeight copyWeight
  split
  · exact Nat.le_refl _
  · exact Nat.add_le_add_left (Nat.mul_le_mul_left n (Nat.zero_le _)) 1

theorem packetWeight_of_not_asks {data : Bytes} (h : asks H data = false) :
    packetWeight H n data = 1 := by
  simp [packetWeight, copyWeight, h]

theorem weights_append (packets packets' : List Bytes) :
    weights H n (packets ++ packets') = weights H n packets + weights H n packets' := by
  simp [weights]

theorem weights_eq (packets : List Bytes) :
    weights H n packets = packets.length + n * (packets.map (copyWeight H)).sum := by
  induction packets with
  | nil => rfl
  | cons packet packets ih =>
      unfold weights at ih ⊢
      rw [List.map_cons, List.sum_cons, List.map_cons, List.sum_cons, List.length_cons, ih,
        packetWeight, Nat.mul_add]
      omega

theorem weights_le {packets : List Bytes} {w : Nat}
    (h : ∀ data ∈ packets, packetWeight H n data ≤ w) :
    weights H n packets ≤ packets.length * w := by
  have hle := List.sum_le_card_nsmul (packets.map (packetWeight H n)) w (by
    intro weight hweight
    obtain ⟨data, hdata, rfl⟩ := List.mem_map.mp hweight
    exact h data hdata)
  rwa [List.length_map, smul_eq_mul] at hle

/-! ## What a packet makes its reader send -/

/-- A message without questions, cut or not, asks for nothing. -/
theorem not_asks_of_decodes (hH : H.Sequential) {data : Bytes}
    (h : ∀ m, H.fromVec data = some m → m.queries = []) : asks H data = false := by
  unfold asks
  cases hcut : H.fromVec (received data) with
  | none => rfl
  | some m =>
      have hwhole := hH.fromVec_append _ (data.drop recvBufferSize) m hcut
      unfold received at hwhole
      rw [List.take_append_drop] at hwhole
      simp [h m hwhole]

theorem not_asks_groupMessage (hH : H.Sequential) (lib : Libp2p) (id : UInt16)
    (peerId : PeerId) (ttl : UInt32) (service peer : Dns.Name) {group : List Multiaddr}
    (hlen : group.length ≤ maxRecordsPerPacket)
    (hann : ∀ addr ∈ group, Announced lib peerId addr) :
    asks H (groupMessage lib id peerId ttl service peer group).encode = false := by
  apply not_asks_of_decodes hH
  intro m hdecode
  by_cases h : ∀ addr ∈ group, Readable (txtToSend lib peerId addr)
  · have hmessage := fromVec_groupMessage lib id peerId ttl service peer hH.toLawful hlen hann h
    rw [hdecode] at hmessage
    cases hmessage
    rfl
  · obtain ⟨addr, h⟩ := not_forall.mp h
    obtain ⟨ha, hunreadable⟩ := Classical.not_imp.mp h
    rw [hH.refuses _ (unreadable_groupMessage lib id peerId ttl service peer hlen hann ha
      hunreadable)] at hdecode
    cases hdecode

theorem not_asks_discoveryMessage (hH : H.Sequential) (id : UInt16) (ttl : UInt32)
    (service metaQuery : Dns.Name) :
    asks H (discoveryMessage id ttl service metaQuery).encode = false := by
  apply not_asks_of_decodes hH
  intro m hdecode
  rw [hH.fromVec_encode _ (wellFormed_discovery id ttl service metaQuery)
    (isMdns_discovery id ttl service metaQuery)] at hdecode
  cases hdecode
  rfl

variable {lib : Libp2p} {settings : Settings} {config : ServiceConfig} {name : String}

theorem asks_of_packet {data : Bytes} {src : SocketAddr} {around : Surroundings}
    {packet : MdnsPacket}
    (h : (Call.read (.datagram data src) around).packet H lib settings = some packet)
    (hpacket : ∀ response, packet ≠ .response response) : asks H data = true := by
  have hparse : settings.parse H lib data src = .ok (some packet) := by
    unfold Call.packet at h
    dsimp only at h
    cases heq : settings.parse H lib data src with
    | error e =>
        rw [heq] at h
        cases h
    | ok packet' =>
        rw [heq] at h
        exact congrArg Except.ok h
  unfold asks
  unfold Settings.parse MdnsPacket.newFromBytes at hparse
  split at hparse
  · cases hparse
  · rename_i m hm
    rw [hm]
    split at hparse
    · cases hparse
      exact absurd rfl (hpacket _)
    · rename_i hqueries
      simpa using hqueries

def callWeight (H : Hickory) (n : Nat) (call : Call) : Nat :=
  (if isTick call then 1 + n * maxAnswer else 0) +
    ((delivered call).elim 0 fun datagram => copyWeight H datagram.data)

/-- The packets built for a packet that has been read are answers. -/
theorem weights_enqueued_read_le (hH : H.Sequential)
    (hconfig : settings.config = config.withServiceName name) (hvalid : ValidName name)
    {data : Bytes} {src : SocketAddr} {around : Surroundings}
    (hname : IsPeerName around.peerName) :
    weights H n ((Call.read (.datagram data src) around).enqueued H lib settings) ≤
      copyWeight H data := by
  have hkind := fun packet (hpacket : packet ∈ (Call.read (.datagram data src)
      around).enqueued H lib settings) =>
    packet_of_enqueued hconfig hvalid (fun _ around' heq => by cases heq; exact hname) hpacket
  have hone : ∀ packet ∈ (Call.read (.datagram data src) around).enqueued H lib settings,
      packetWeight H n packet ≤ 1 := by
    intro packet hpacket
    cases hkind packet hpacket with
    | query id service hcall _ => cases hcall
    | answer query outcome around' service peer k _ _ _ _ =>
        have hasks := not_asks_groupMessage hH lib query.queryId settings.localPeerId
          (durationToSecs settings.ttl) service peer
          (length_group_le (announced lib settings.localPeerId around'.listenAddresses) k)
          fun addr ha => (List.mem_filter.mp (mem_of_mem_group ha)).2
        exact (packetWeight_of_not_asks hasks).le
    | discovery discovery service metaQuery _ _ =>
        exact (packetWeight_of_not_asks (not_asks_discoveryMessage hH _ _ _ _)).le
  have hle := weights_le hone
  rw [Nat.mul_one] at hle
  unfold copyWeight
  cases hpacket : (Call.read (.datagram data src) around).packet H lib settings with
  | none =>
      unfold Call.enqueued
      rw [built_read, hpacket]
      exact Nat.zero_le _
  | some packet =>
      cases packet with
      | query query =>
          obtain ⟨service, peer, -, hbuilt⟩ := built_answer hconfig hvalid hpacket hname
          unfold Call.enqueued at hle ⊢
          rw [hbuilt, Option.getD_some, List.length_map, List.length_range] at hle
          rw [if_pos (asks_of_packet hpacket nofun), hbuilt, Option.getD_some]
          exact hle.trans (packetCount_announced_le lib _ _)
      | response response =>
          unfold Call.enqueued
          rw [built_read, hpacket]
          exact Nat.zero_le _
      | serviceDiscovery discovery =>
          rw [if_pos (asks_of_packet hpacket nofun)]
          refine hle.trans ?_
          unfold Call.enqueued
          rw [built_read, hpacket]
          dsimp only
          cases buildServiceDiscoveryResponse discovery.queryId settings.ttl
              settings.config.serviceName settings.config.metaQueryService with
          | none => exact Nat.zero_le _
          | some packet => exact (by decide : 1 ≤ maxAnswer)

theorem weights_enqueued_le (hH : H.Sequential)
    (hconfig : settings.config = config.withServiceName name) (hvalid : ValidName name)
    {call : Call}
    (hname : ∀ outcome around, call = .read outcome around → IsPeerName around.peerName) :
    weights H n (call.enqueued H lib settings) ≤ callWeight H n call := by
  match call with
  | .tick id =>
      change weights H n (((buildQuery id settings.config.serviceName).map fun packet =>
        [packet]).getD []) ≤ 1 + n * maxAnswer + 0
      cases buildQuery id settings.config.serviceName with
      | none => exact Nat.zero_le _
      | some packet => exact packetWeight_le packet
  | .write packet dst outcome => exact Nat.zero_le _
  | .send tuple outcome => exact Nat.zero_le _
  | .read (.datagram data src) around =>
      refine (weights_enqueued_read_le hH hconfig hvalid (hname _ around rfl)).trans ?_
      exact Nat.le_add_left _ _
  | .read .wouldBlock around => exact Nat.zero_le _
  | .read .error around => exact Nat.zero_le _
  | .read .pending around => exact Nat.zero_le _

/-! ## One round -/

theorem weights_flatMap_le {calls : List Call}
    (h : ∀ call ∈ calls, weights H n (call.enqueued H lib settings) ≤ callWeight H n call) :
    weights H n (calls.flatMap (Call.enqueued H lib settings)) ≤
      (calls.map (callWeight H n)).sum := by
  induction calls with
  | nil => exact Nat.le_refl _
  | cons call calls ih =>
      have hcall := h call List.mem_cons_self
      have hcalls := ih fun call' hcall' => h call' (List.mem_cons_of_mem _ hcall')
      rw [List.flatMap_cons, weights_append, List.map_cons, List.sum_cons]
      omega

theorem sum_callWeight (calls : List Call) :
    (calls.map (callWeight H n)).sum = calls.countP isTick * (1 + n * maxAnswer) +
      copyWeights H (calls.filterMap delivered) := by
  induction calls with
  | nil => simp [copyWeights]
  | cons call calls ih =>
      rw [List.map_cons, List.sum_cons, ih, List.countP_cons, Nat.add_mul]
      unfold callWeight copyWeights
      cases hdelivered : delivered call with
      | none =>
          rw [List.filterMap_cons_none hdelivered]
          split
          · simp
            omega
          · simp
      | some datagram =>
          rw [List.filterMap_cons_some hdelivered, List.map_cons, List.sum_cons]
          split
          · simp
            omega
          · simp
            omega

theorem weights_sent_le (calls : List Call) :
    weights H n (calls.filterMap sent) ≤ weights H n (calls.filterMap Call.completed) := by
  induction calls with
  | nil => exact Nat.le_refl _
  | cons call calls ih =>
      cases hsent : sent call with
      | none =>
          rw [List.filterMap_cons_none hsent]
          cases hcompleted : call.completed with
          | none => rwa [List.filterMap_cons_none hcompleted]
          | some packet =>
              rw [List.filterMap_cons_some hcompleted]
              unfold weights at ih ⊢
              rw [List.map_cons, List.sum_cons]
              omega
      | some packet =>
          have hcompleted : call.completed = some packet := by
            unfold sent at hsent
            split at hsent
            · exact hsent
            · cases hsent
          rw [List.filterMap_cons_some hsent, List.filterMap_cons_some hcompleted]
          unfold weights at ih ⊢
          rw [List.map_cons, List.sum_cons, List.map_cons, List.sum_cons]
          omega

/-- What a task has sent and holds is paid for by what it held, its ticks and what it has
read. -/
theorem weights_le_of_accounted (hH : H.Sequential) {s t : InterfaceState} {calls : List Call}
    (haccounted : Accounted H lib s calls t)
    (hconfig : s.config = config.withServiceName name) (hvalid : ValidName name)
    (hnames : ∀ outcome around, Call.read outcome around ∈ calls →
      IsPeerName around.peerName) :
    weights H n t.sendBuffer + weights H n (calls.filterMap sent) ≤
      weights H n s.sendBuffer + calls.countP isTick * (1 + n * maxAnswer) +
        copyWeights H (calls.filterMap delivered) := by
  have hbuffer := congrArg (weights H n) haccounted.sendBuffer
  have hsent := weights_sent_le (H := H) (n := n) calls
  have henqueued : weights H n (calls.flatMap (Call.enqueued H lib s.toSettings)) ≤
      (calls.map (callWeight H n)).sum :=
    weights_flatMap_le fun call hcall => weights_enqueued_le hH hconfig hvalid
      fun outcome around heq => hnames outcome around (heq ▸ hcall)
  rw [weights_append, weights_append] at hbuffer
  rw [sum_callWeight] at henqueued
  omega

end Weights

/-! ## The network -/

section Total

variable (H : Hickory) {n m : Nat}

def Net.sentCount (net : Net n m) : Nat :=
  ∑ i, ((net.tasks i).calls.filterMap sent).length

def Net.ticks (net : Net n m) : Nat := ∑ i, (net.tasks i).calls.countP isTick

def isDuplicate : Act n m → Bool
  | .duplicate _ => true
  | _ => false

/-- What is in the send buffers and in flight, at its worth. -/
def Net.owed (net : Net n m) : Nat :=
  ∑ i, weights H n (net.tasks i).state.sendBuffer +
    (net.inFlight.map fun copy => copyWeight H copy.2.data).sum

theorem sum_update (f : Task → Nat) (tasks : Fin n → Task) (i : Fin n) (task : Task) :
    (∑ j, f (Function.update tasks i task j)) + f (tasks i) = (∑ j, f (tasks j)) + f task := by
  have hrest : ∑ j ∈ Finset.univ.erase i, f (Function.update tasks i task j) =
      ∑ j ∈ Finset.univ.erase i, f (tasks j) := by
    apply Finset.sum_congr rfl
    intro j hj
    rw [Function.update_of_ne (Finset.ne_of_mem_erase hj)]
  rw [← Finset.add_sum_erase _ _ (Finset.mem_univ i),
    ← Finset.add_sum_erase _ (fun j => f (tasks j)) (Finset.mem_univ i), hrest,
    Function.update_self]
  omega

theorem sum_broadcast (packets : List Bytes) (src : SocketAddr) :
    ((broadcast packets src : Multiset (Fin n × Datagram)).map fun copy =>
      copyWeight H copy.2.data).sum = n * (packets.map (copyWeight H)).sum := by
  unfold broadcast
  rw [Multiset.map_coe, Multiset.sum_coe]
  induction packets with
  | nil => rfl
  | cons packet packets ih =>
      rw [List.flatMap_cons, List.map_append, List.sum_append, ih, List.map_cons,
        List.sum_cons, Nat.mul_add, List.map_map]
      simp [Function.comp_def]

theorem sum_taken (i : Fin n) (calls : List Call) :
    ((taken i calls).map fun copy => copyWeight H copy.2.data).sum =
      copyWeights H (calls.filterMap delivered) := by
  unfold taken copyWeights
  rw [Multiset.map_coe, Multiset.sum_coe, List.map_map]
  rfl

variable {H} {lib : Libp2p} {lan : Lan n m} {net net' : Net n m}

def Net.Named (net : Net n m) : Prop :=
  ∀ i outcome around, Call.read outcome around ∈ (net.tasks i).calls →
    IsPeerName around.peerName

theorem owed_rounded (hH : H.Sequential) (hvalid : ∀ v, ValidName (lan.host v).name)
    (hnet : Recorded H lib lan net) {i : Fin n} {r : Iface.Round} {o : Outcome}
    (h : Rounded H lib lan net i r o net') (hnamed : net'.Named) :
    net'.owed H + net'.sentCount + net.ticks * (1 + n * maxAnswer) ≤
      net.owed H + net.sentCount + net'.ticks * (1 + n * maxAnswer) := by
  have hround := weights_le_of_accounted (n := n) hH h.accounted (hnet.configured i).config
    (hvalid _) fun outcome around hread => hnamed i outcome around (by
      rw [h.calls i, if_pos rfl]
      exact List.mem_append_right _ hread)
  have hbuffers : (∑ j, weights H n (net'.tasks j).state.sendBuffer) +
      weights H n (net.tasks i).state.sendBuffer =
        (∑ j, weights H n (net.tasks j).state.sendBuffer) + weights H n o.state.sendBuffer := by
    rw [h.tasks]
    exact sum_update (fun task => weights H n task.state.sendBuffer) net.tasks i _
  have hsent : (∑ j, ((net'.tasks j).calls.filterMap sent).length) =
      (∑ j, ((net.tasks j).calls.filterMap sent).length) +
        (o.calls.filterMap sent).length := by
    have hupdate := sum_update (fun task => (task.calls.filterMap sent).length) net.tasks i
      { state := o.state, calls := (net.tasks i).calls ++ o.calls }
    rw [← h.tasks, List.filterMap_append, List.length_append] at hupdate
    omega
  have hticks : (∑ j, (net'.tasks j).calls.countP isTick) =
      (∑ j, (net.tasks j).calls.countP isTick) + o.calls.countP isTick := by
    have hupdate := sum_update (fun task => task.calls.countP isTick) net.tasks i
      { state := o.state, calls := (net.tasks i).calls ++ o.calls }
    rw [← h.tasks, List.countP_append] at hupdate
    omega
  have hflight : ((net.inFlight - taken i o.calls).map fun copy =>
      copyWeight H copy.2.data).sum + copyWeights H (o.calls.filterMap delivered) =
        (net.inFlight.map fun copy => copyWeight H copy.2.data).sum := by
    rw [← sum_taken H i, ← Multiset.sum_add, ← Multiset.map_add, tsub_add_cancel_of_le h.taken]
  have hcopies := sum_broadcast H (n := n) (o.calls.filterMap sent) (lan.source i)
  have hweights := weights_eq (H := H) (n := n) (o.calls.filterMap sent)
  unfold Net.owed Net.sentCount Net.ticks
  rw [h.inFlight, Multiset.map_add, Multiset.sum_add]
  rw [hticks, hsent, hcopies, Nat.add_mul]
  omega

theorem calls_prefix_of_step {a : Act n m} (h : net.step H lib lan a = some net') (j : Fin n) :
    (net.tasks j).calls <+: (net'.tasks j).calls := by
  cases a with
  | round i r =>
      obtain ⟨o, hrounded⟩ := rounded h
      exact hrounded.calls_prefix j
  | lose copy =>
      obtain ⟨-, hlost⟩ := Option.ite_none_right_eq_some.mp h
      cases hlost
      exact List.prefix_refl _
  | duplicate copy =>
      obtain ⟨-, hdoubled⟩ := Option.ite_none_right_eq_some.mp h
      cases hdoubled
      exact List.prefix_refl _
  | poll v ifEvents now =>
      unfold Net.step at h
      obtain ⟨world, -, hpolled⟩ := Option.map_eq_some_iff.mp h
      rw [← hpolled]

theorem calls_prefix_of_run {acts : List (Act n m)}
    (h : Machine.run (Net.step H lib lan) net acts = some net') (j : Fin n) :
    (net.tasks j).calls <+: (net'.tasks j).calls := by
  induction acts generalizing net with
  | nil =>
      cases h
      exact List.prefix_refl _
  | cons a acts ih =>
      obtain ⟨mid, hmid, hrest⟩ := Option.bind_eq_some_iff.mp h
      exact (calls_prefix_of_step hmid j).trans (ih hrest)

theorem owed_step (hH : H.Sequential) (hvalid : ∀ v, ValidName (lan.host v).name)
    (hnet : Recorded H lib lan net) {a : Act n m} (h : net.step H lib lan a = some net')
    (hnamed : net'.Named) :
    net'.owed H + net'.sentCount + net.ticks * (1 + n * maxAnswer) ≤
      net.owed H + net.sentCount + net'.ticks * (1 + n * maxAnswer) +
        if isDuplicate a then maxAnswer else 0 := by
  cases a with
  | round i r =>
      obtain ⟨o, hrounded⟩ := rounded h
      exact owed_rounded hH hvalid hnet hrounded hnamed
  | lose copy =>
      obtain ⟨hcopy, hlost⟩ := Option.ite_none_right_eq_some.mp h
      cases hlost
      have hflight := congrArg (fun copies => (copies.map fun copy =>
        copyWeight H copy.2.data).sum) (Multiset.cons_erase hcopy)
      rw [Multiset.map_cons, Multiset.sum_cons] at hflight
      unfold Net.owed Net.sentCount Net.ticks
      dsimp only
      omega
  | duplicate copy =>
      obtain ⟨-, hdoubled⟩ := Option.ite_none_right_eq_some.mp h
      cases hdoubled
      have hle : copyWeight H copy.2.data ≤ maxAnswer := by
        unfold copyWeight
        split <;> omega
      unfold Net.owed Net.sentCount Net.ticks
      dsimp only
      rw [Multiset.map_cons, Multiset.sum_cons, if_pos (by rfl)]
      omega
  | poll v ifEvents now =>
      unfold Net.step at h
      obtain ⟨world, -, hpolled⟩ := Option.map_eq_some_iff.mp h
      rw [← hpolled]
      exact Nat.le_refl _

theorem owed_run (hH : H.Sequential) (hvalid : ∀ v, ValidName (lan.host v).name)
    (hnet : Recorded H lib lan net) {acts : List (Act n m)}
    (h : Machine.run (Net.step H lib lan) net acts = some net') (hnamed : net'.Named) :
    net'.owed H + net'.sentCount + net.ticks * (1 + n * maxAnswer) ≤
      net.owed H + net.sentCount + net'.ticks * (1 + n * maxAnswer) +
        acts.countP isDuplicate * maxAnswer := by
  induction acts generalizing net with
  | nil =>
      cases h
      simp
  | cons a acts ih =>
      obtain ⟨mid, hmid, hrest⟩ := Option.bind_eq_some_iff.mp h
      have hnamed' : mid.Named := fun i outcome around hread =>
        hnamed i outcome around ((calls_prefix_of_run hrest i).subset hread)
      have hstep := owed_step hH hvalid hnet hmid hnamed'
      have hrun := ih (recorded_step hnet hmid) hrest
      have hcopies : (if isDuplicate a then 1 else 0) * maxAnswer =
          if isDuplicate a then maxAnswer else 0 := by
        split
        · rw [Nat.one_mul]
        · rw [Nat.zero_mul]
      rw [List.countP_cons, Nat.add_mul, hcopies]
      omega

/-- The packets that a network sends, in any run from its start, are bounded by the ticks of
its timers and the copies made of its datagrams: without a tick and without a copy it falls
silent. -/
theorem sent_bounded (hH : H.Sequential) (hvalid : ∀ v, ValidName (lan.host v).name)
    {start : Net n m} (hstarted : Started lan start) {acts : List (Act n m)}
    (hrun : Machine.run (Net.step H lib lan) start acts = some net) (hnamed : net.Named) :
    net.sentCount ≤ net.ticks * (1 + n * 2260) + acts.countP isDuplicate * 2260 := by
  have hbound := owed_run hH hvalid (recorded_started hstarted) hrun hnamed
  have hsent : start.sentCount = 0 := by
    unfold Net.sentCount
    simp [hstarted.calls]
  have howed : start.owed H = 0 := by
    unfold Net.owed
    rw [hstarted.inFlight, Multiset.map_zero, Multiset.sum_zero, Nat.add_zero]
    apply Finset.sum_eq_zero
    intro i _
    obtain ⟨addr, jitter, now, hnew⟩ := hstarted.state i
    rw [(new_spec hnew).2.2]
    rfl
  rw [hsent, howed] at hbound
  have hmax : maxAnswer = 2260 := rfl
  rw [hmax] at hbound
  omega

theorem sent_bounded_sample :
    ∃ net : Net 2 2,
      Machine.run (Net.step Hickory.plain sampleLibp2p sampleLan) sampleStart sampleActs =
        some net ∧
      net.sentCount ≤ net.ticks * (1 + 2 * 2260) + sampleActs.countP isDuplicate * 2260 := by
  obtain ⟨net, hrun, -, hcalls⟩ := run_sample
  have hregular := regular_sample fun i => (hcalls i).1
  exact ⟨net, hrun, sent_bounded Hickory.plain_sequential validName_sample started_sample hrun
    fun i outcome around hread => (hregular i outcome around hread).peerName⟩

end Total

end P2pa.Mdns.Network
