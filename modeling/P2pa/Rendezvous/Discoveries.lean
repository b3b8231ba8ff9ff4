import P2pa.Rendezvous.Poll

/-!
# Discovery and the race with the connection

Runs of the rendezvous behaviour.  A discover request is made when a connection is
established, for what is in the discovery set at that moment; neither `discover` nor
`poll` looks at the connections that are there already.
-/

namespace P2pa.Rendezvous

open Utils

variable {P : Type}

def Asked (b : Behaviour) (peerId : PeerId) (ns : Namespace) : Prop :=
  ∃ r ∈ requests b, r.node = peerId ∧ r.ns = some ns

/-- Every peer a connection was dialled to has been asked for what is to be discovered at
its address. -/
def AllAsked (b : Behaviour) : Prop :=
  ∀ peerId point ns, (peerId, point) ∈ b.connectedRdvzs → (point, ns) ∈ b.discovery →
    Asked b peerId ns

def AskedOncePolled (w : Wrapper P) : Prop :=
  ∀ ticks (yields : List (ToSwarm ClientEvent P)) polled,
    poll w.behaviour ticks yields = some polled → AllAsked polled.state

/-- A namespace is to be discovered only where every peer connected at the address has
been asked for it before. -/
def AskedBefore (lib : Libp2p) (w : Wrapper P) : Input P → Prop
  | .discover point ns =>
      ∀ value, lib.namespaceNew ns = some value →
        ∀ peerId, (peerId, point) ∈ w.behaviour.connectedRdvzs →
          Asked w.behaviour peerId value
  | _ => True

def discoverThenConnect (lib : Libp2p) (b : Behaviour) (point : Multiaddr) (ns : String)
    (peerId : PeerId) : Behaviour :=
  onSwarmEvent (settle b (discover lib b point ns))
    (.connectionEstablished peerId (.dialer point))

def connectThenDiscover (lib : Libp2p) (b : Behaviour) (point : Multiaddr) (ns : String)
    (peerId : PeerId) : Behaviour :=
  let b := onSwarmEvent b (.connectionEstablished peerId (.dialer point))
  settle b (discover lib b point ns)

def OrderIrrelevant (lib : Libp2p) (b : Behaviour) (point : Multiaddr) (ns : String)
    (peerId : PeerId) : Prop :=
  ∀ r, r ∈ requests (discoverThenConnect lib b point ns peerId) ↔
    r ∈ requests (connectThenDiscover lib b point ns peerId)

/-- The command adds nothing: the pair is in the set, or the request has been made. -/
def AddsNothing (lib : Libp2p) (b : Behaviour) (point : Multiaddr) (ns : String)
    (peerId : PeerId) : Prop :=
  ∀ value, lib.namespaceNew ns = some value →
    (point, value) ∈ b.discovery ∨
      ({ node := peerId, ns := some value, cookie := b.cookie } : Request) ∈ requests b

/-! ## What a step does to the requests -/

def askPart (b : Behaviour) :
    List Request × List (Multiaddr × Namespace) × List (PeerId × Multiaddr) :=
  (requests b, b.discovery, b.connectedRdvzs)

theorem allAsked_of_askPart {b b' : Behaviour} (hpart : askPart b' = askPart b) :
    AllAsked b' ↔ AllAsked b := by
  have hrequests : requests b' = requests b := congrArg Prod.fst hpart
  have hdiscovery : b'.discovery = b.discovery := congrArg (·.2.1) hpart
  have hconnected : b'.connectedRdvzs = b.connectedRdvzs := congrArg (·.2.2) hpart
  unfold AllAsked Asked
  rw [hrequests, hdiscovery, hconnected]

theorem tick_askPart {b b' : Behaviour} {now : Instant} (h : tick b now = some b') :
    askPart b' = askPart b := by
  have hrequests : requests b' = requests b := congrArg Prod.fst (tick_cookiePart h)
  unfold tick at h
  obtain ⟨timeout, -, rfl⟩ := Option.map_eq_some_iff.mp h
  exact congrArg (·, _) hrequests

theorem handleEvent_askPart (b : Behaviour) (event : ClientEvent) :
    askPart (handleEvent b event) = askPart b := by
  cases event <;> rfl

theorem emit_askPart (b : Behaviour) : askPart (emit b).1 = askPart b := by
  unfold emit
  split <;> rfl

theorem poll_askPart {b : Behaviour} {ticks : List Instant}
    {yields : List (ToSwarm ClientEvent P)} {polled : Polled Behaviour ClientEvent Event P}
    (h : poll b ticks yields = some polled) : askPart polled.state = askPart b := by
  obtain ⟨b₁, hticks, hpoll⟩ := Option.map_eq_some_iff.mp h
  have hloop := keeps_forward askPart handleEvent_askPart emit_askPart hpoll
  exact hloop.trans (pollTimer_keeps askPart tick_askPart hticks)

/-- To be asked once polled is to be asked now: a poll changes none of it. -/
theorem askedOncePolled_iff (w : Wrapper P) : AskedOncePolled w ↔ AllAsked w.behaviour := by
  constructor
  · intro h
    have hpoll : poll w.behaviour [] ([] : List (ToSwarm ClientEvent P)) = some _ := rfl
    exact (allAsked_of_askPart (poll_askPart hpoll)).mp (h [] [] _ hpoll)
  · intro h ticks yields polled hpoll
    exact (allAsked_of_askPart (poll_askPart hpoll)).mpr h

theorem register_askPart (lib : Libp2p) (b : Behaviour) (node : Multiaddr) (ns : String) :
    askPart (settle b (register lib b node ns)) = askPart b := by
  unfold register
  split <;> rfl

theorem unregister_askPart (lib : Libp2p) (b : Behaviour) (ns : String) :
    askPart (settle b (unregister lib b ns)) = askPart b := by
  have hrequests : requests (settle b (unregister lib b ns)) = requests b :=
    congrArg Prod.fst (unregister_cookiePart lib b ns)
  unfold askPart
  rw [hrequests]
  unfold unregister
  split <;> rfl

theorem onSwarmEvent_askPart (b : Behaviour) {event : FromSwarm}
    (h : ∀ peerId address, event ≠ .connectionEstablished peerId (.dialer address)) :
    askPart (onSwarmEvent b event) = askPart b := by
  have hrequests : requests (onSwarmEvent b event) = requests b :=
    congrArg Prod.fst (onSwarmEvent_cookiePart b h)
  unfold askPart
  rw [hrequests]
  unfold onSwarmEvent
  dsimp only
  split
  · exact absurd rfl (h _ _)
  · rfl
  · rfl

theorem discover_of_valid {lib : Libp2p} {ns : String} {value : Namespace}
    (hns : lib.namespaceNew ns = some value) (b : Behaviour) (point : Multiaddr) :
    settle b (discover lib b point ns) =
      { b with discovery := b.discovery.insert (point, value) } := by
  unfold discover
  rw [hns]
  rfl

theorem discover_of_invalid {lib : Libp2p} {ns : String} (hns : lib.namespaceNew ns = none)
    (b : Behaviour) (point : Multiaddr) : settle b (discover lib b point ns) = b := by
  unfold discover
  rw [hns]
  rfl

theorem mem_requests_connected_iff (b : Behaviour) (peerId : PeerId) (point : Multiaddr)
    (r : Request) :
    r ∈ requests (onSwarmEvent b (.connectionEstablished peerId (.dialer point))) ↔
      r ∈ requests b ∨ ∃ ns, (point, ns) ∈ b.discovery ∧
        r = { node := peerId, ns := some ns, cookie := b.cookie } := by
  rw [connected_requests, List.mem_append, List.mem_map]
  apply or_congr_right
  constructor
  · rintro ⟨⟨address, ns⟩, hmem, rfl⟩
    obtain ⟨hstored, haddress⟩ := List.mem_filter.mp hmem
    rw [decide_eq_true_eq] at haddress
    rw [haddress]
    exact ⟨ns, hstored, rfl⟩
  · rintro ⟨ns, hmem, rfl⟩
    exact ⟨(point, ns), List.mem_filter.mpr ⟨hmem, decide_eq_true rfl⟩, rfl⟩

theorem allAsked_connected {b : Behaviour} (h : AllAsked b) (peerId : PeerId)
    (point : Multiaddr) :
    AllAsked (onSwarmEvent b (.connectionEstablished peerId (.dialer point))) := by
  intro peerId' point' ns hconnected hdiscovery
  change (peerId', point') ∈ b.connectedRdvzs ++ [(peerId, point)] at hconnected
  change (point', ns) ∈ b.discovery at hdiscovery
  rw [List.mem_append, List.mem_singleton] at hconnected
  rcases hconnected with hold | hnew
  · obtain ⟨r, hr, hnode⟩ := h peerId' point' ns hold hdiscovery
    exact ⟨r, (mem_requests_connected_iff b peerId point r).mpr (.inl hr), hnode⟩
  · cases hnew
    exact ⟨_, (mem_requests_connected_iff b peerId point _).mpr (.inr ⟨ns, hdiscovery, rfl⟩),
      rfl, rfl⟩

/-- From a state in which all is asked, all is asked after a `discover` exactly when it
was asked before. -/
theorem allAsked_discover_iff {lib : Libp2p} {ns : String} {value : Namespace}
    (hns : lib.namespaceNew ns = some value) {b : Behaviour} (h : AllAsked b)
    (point : Multiaddr) :
    AllAsked (settle b (discover lib b point ns)) ↔
      ∀ peerId, (peerId, point) ∈ b.connectedRdvzs → Asked b peerId value := by
  rw [discover_of_valid hns]
  constructor
  · intro hall peerId hconnected
    exact hall peerId point value hconnected List.mem_insert_self
  · intro hasked peerId point' ns' hconnected hdiscovery
    change (point', ns') ∈ b.discovery.insert (point, value) at hdiscovery
    rw [List.mem_insert_iff] at hdiscovery
    rcases hdiscovery with hnew | hold
    · cases hnew
      exact hasked peerId hconnected
    · exact h peerId point' ns' hconnected hold

theorem allAsked_step_iff {lib : Libp2p} {w w' : Wrapper P} {input : Input P}
    (h : AllAsked w.behaviour) (hstep : w.step lib input = some w') :
    AllAsked w'.behaviour ↔ AskedBefore lib w input := by
  cases input with
  | register node ns =>
      cases hstep
      exact iff_of_true ((allAsked_of_askPart (register_askPart _ _ _ _)).mpr h) trivial
  | unregister ns =>
      cases hstep
      exact iff_of_true ((allAsked_of_askPart (unregister_askPart _ _ _)).mpr h) trivial
  | discover point ns =>
      cases hstep
      cases hns : lib.namespaceNew ns with
      | none =>
          dsimp only
          rw [discover_of_invalid hns]
          refine iff_of_true h fun value hvalue => ?_
          rw [hns] at hvalue
          cases hvalue
      | some value =>
          dsimp only [AskedBefore]
          rw [allAsked_discover_iff hns h, hns]
          constructor
          · rintro hasked value' ⟨⟩
            exact hasked
          · exact fun hasked => hasked value rfl
  | swarm event =>
      cases hstep
      by_cases hdialed : ∃ peerId address,
          event = .connectionEstablished peerId (.dialer address)
      · obtain ⟨peerId, address, rfl⟩ := hdialed
        exact iff_of_true (allAsked_connected h peerId address) trivial
      · have hother : ∀ peerId address,
            event ≠ .connectionEstablished peerId (.dialer address) :=
          fun peerId address heq => hdialed ⟨peerId, address, heq⟩
        exact iff_of_true ((allAsked_of_askPart (onSwarmEvent_askPart _ hother)).mpr h) trivial
  | poll ticks yields =>
      obtain ⟨polled, hpoll, rfl⟩ := Option.map_eq_some_iff.mp hstep
      exact iff_of_true ((allAsked_of_askPart (poll_askPart hpoll)).mpr h) trivial

/-! ## The two orders -/

theorem orderIrrelevant_iff (lib : Libp2p) (b : Behaviour) (point : Multiaddr) (ns : String)
    (peerId : PeerId) :
    OrderIrrelevant lib b point ns peerId ↔ AddsNothing lib b point ns peerId := by
  unfold OrderIrrelevant AddsNothing discoverThenConnect connectThenDiscover
  cases hns : lib.namespaceNew ns with
  | none =>
      rw [discover_of_invalid hns]
      dsimp only
      rw [discover_of_invalid hns]
      exact iff_of_true (fun r => Iff.rfl) (fun value hvalue => by cases hvalue)
  | some value =>
      rw [discover_of_valid hns]
      dsimp only
      rw [discover_of_valid hns]
      have hlater : ∀ b' : Behaviour, ∀ d, requests { b' with discovery := d } = requests b' :=
        fun b' d => rfl
      rw [hlater]
      simp only [mem_requests_connected_iff, hlater]
      constructor
      · rintro hsame value' ⟨⟩
        have hfirst := (hsame { node := peerId, ns := some value, cookie := b.cookie }).mp
          (.inr ⟨value, List.mem_insert_self, rfl⟩)
        rcases hfirst with hmade | ⟨ns', hstored, heq⟩
        · exact .inr hmade
        · cases heq
          exact .inl hstored
      · intro hadds r
        apply or_congr_right'
        intro hnew
        constructor
        · rintro ⟨ns', hmem, rfl⟩
          rw [List.mem_insert_iff] at hmem
          rcases hmem with hpair | hmem
          · cases hpair
            rcases hadds value rfl with hstored | hmade
            · exact ⟨value, hstored, rfl⟩
            · exact absurd hmade hnew
          · exact ⟨ns', hmem, rfl⟩
        · rintro ⟨ns', hmem, rfl⟩
          exact ⟨ns', List.mem_insert_of_mem hmem, rfl⟩

/-! ## Runs -/

/-- Along a run all is asked once polled, exactly when no namespace is to be discovered at
an address with a connection to a peer not yet asked for it; and in any state the order of
a command and its connection makes no difference exactly when the command adds nothing. -/
theorem discovery_race_iff (lib : Libp2p) (currentId : PeerId) (ttl : Option UInt64)
    (timeout : Mdns.Timer) (inputs : List (Input P)) :
    (Machine.Along (Wrapper.step lib) (fun _ _ w' => AskedOncePolled w')
        (.start currentId ttl timeout) inputs ↔
      Machine.Along (Wrapper.step lib) (fun w input _ => AskedBefore lib w input)
        (.start currentId ttl timeout) inputs) ∧
    ∀ b point ns peerId,
      OrderIrrelevant lib b point ns peerId ↔ AddsNothing lib b point ns peerId := by
  refine ⟨?_, orderIrrelevant_iff lib⟩
  apply Machine.along_iff_of_invariant fun w => AllAsked w.behaviour
  · intro w input w' h hstep hok
    have hasked := (allAsked_step_iff h hstep).mpr hok
    exact ⟨hasked, (askedOncePolled_iff w').mpr hasked⟩
  · intro w input w' h hstep hq
    exact (allAsked_step_iff h hstep).mp ((askedOncePolled_iff w').mp hq)
  · intro peerId point ns hconnected
    exact absurd hconnected List.not_mem_nil

/-- The connection comes first: nothing is ever asked for the namespace. -/
theorem discovery_race_fails :
    ¬ ((∀ lib currentId ttl timeout (inputs : List (Input Unit)),
        Machine.Along (Wrapper.step lib) (fun _ _ w' => AskedOncePolled w')
          (.start currentId ttl timeout) inputs) ∨
      ∀ lib currentId ttl timeout point ns peerId,
        OrderIrrelevant lib (empty currentId ttl timeout) point ns peerId) := by
  let point := sampleAddr.push (.p2p samplePeerId)
  rintro (h | h)
  · have hrun := h sampleLibp2p samplePeerId none (.at 0)
      [.swarm (.connectionEstablished samplePeerId (.dialer point)), .discover point "a"]
    obtain ⟨-, hrun⟩ := hrun _ rfl
    obtain ⟨hasked, -⟩ := hrun _ rfl
    obtain ⟨r, hr, -⟩ := (askedOncePolled_iff _).mp hasked samplePeerId point ⟨"a"⟩
      (List.mem_singleton.mpr rfl) (List.mem_singleton.mpr rfl)
    exact absurd hr List.not_mem_nil
  · have hsame := h sampleLibp2p samplePeerId none (.at 0) point "a" samplePeerId
    have hmade := (hsame ⟨samplePeerId, some ⟨"a"⟩, none⟩).mp (List.mem_singleton.mpr rfl)
    exact absurd hmade List.not_mem_nil

end P2pa.Rendezvous
