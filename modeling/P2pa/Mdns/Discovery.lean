import P2pa.Mdns.Behaviour
import P2pa.Support.Machine

/-!
# The discovery table and its events

Runs of polls, with the events emitted so far and what each poll received and
queued.  A poll changes a pair's lease as the table of leases says, and queues for
the pair a change exactly when it enters or leaves the table; this is one statement
about one poll (`poll_pair`), from which the properties of runs follow.
-/

namespace P2pa.Mdns

open Utils Iface

inductive Change
  | discovered
  | expired
deriving DecidableEq, Repr

def Event.change : Event → Change
  | .discovered _ => .discovered
  | .expired _ => .expired

def Event.pairs : Event → List Pair
  | .discovered pairs => pairs
  | .expired pairs => pairs

def changes (pair : Pair) (events : List Event) : List Change :=
  events.flatMap fun event => (event.pairs.filter (· = pair)).map fun _ => event.change

structure Round where
  received : List (PeerId × Multiaddr × Instant)
  queued : List Event
deriving DecidableEq, Repr

structure World where
  behaviour : Behaviour
  emitted : List Event
  rounds : List Round

structure Poll where
  ifEvents : List IfEvent
  received : List (PeerId × Multiaddr × Instant)
  now : Instant

def World.events (w : World) : List Event := w.emitted ++ w.behaviour.eventQueue

def initial (config : Config) (localPeerId : PeerId) : World where
  behaviour := empty config localPeerId
  emitted := []
  rounds := []

def step (w : World) (a : Poll) : Option World :=
  let (behaviour, event) := poll w.behaviour a.ifEvents a.received a.now
  let emitted := w.emitted ++ event.toList
  let queued := (emitted ++ behaviour.eventQueue).drop w.events.length
  some { behaviour, emitted, rounds := w.rounds ++ [{ received := a.received, queued }] }

/-- The expirations received for the pair since the round that last queued its
discovery, that round included. -/
def expirationsSince (pair : Pair) (rounds : List Round) : List Instant :=
  rounds.foldl
    (fun sofar round =>
      (if Change.discovered ∈ changes pair round.queued then [] else sofar) ++
        Leases.offers (round.received.map keyed) pair)
    []

/-! ## One poll -/

/-- The table after the receiving loop of a poll. -/
def granted (b : Behaviour) (a : Poll) : Leases.Table Pair Instant :=
  Leases.grantAll b.discoveredNodes (a.received.map keyed)

def eventOf (event : List Pair → Event) (pairs : List Pair) : List Event :=
  if pairs ≠ [] then [event pairs] else []

def newEvents (b : Behaviour) (a : Poll) : List Event :=
  eventOf .discovered (Leases.fresh b.discoveredNodes (a.received.map keyed)) ++
    eventOf .expired (Leases.expired (granted b a) a.now)

theorem pushEvent_eq (b : Behaviour) (event : List Pair → Event) (pairs : List Pair) :
    pushEvent b event pairs = { b with eventQueue := b.eventQueue ++ eventOf event pairs } := by
  unfold pushEvent eventOf
  by_cases h : pairs ≠ []
  · rw [if_pos h, if_pos h]
  · rw [if_neg h, if_neg h, List.append_nil]

theorem handleIfEvent_frame (b : Behaviour) (e : IfEvent) :
    (handleIfEvent b e).discoveredNodes = b.discoveredNodes ∧
      (handleIfEvent b e).eventQueue = b.eventQueue := by
  unfold handleIfEvent
  split
  · split
    · exact ⟨rfl, rfl⟩
    · split
      · exact ⟨rfl, rfl⟩
      · split
        · exact ⟨rfl, rfl⟩
        · split <;> exact ⟨rfl, rfl⟩
  · exact ⟨rfl, rfl⟩
  · exact ⟨rfl, rfl⟩

theorem foldl_handleIfEvent_frame (b : Behaviour) (events : List IfEvent) :
    (events.foldl handleIfEvent b).discoveredNodes = b.discoveredNodes ∧
      (events.foldl handleIfEvent b).eventQueue = b.eventQueue := by
  induction events generalizing b with
  | nil => exact ⟨rfl, rfl⟩
  | cons e events ih =>
      rw [List.foldl_cons, (ih _).1, (ih _).2]
      exact handleIfEvent_frame b e

theorem rearm_frame (b : Behaviour) (closest : Option Instant) :
    (rearm b closest).discoveredNodes = b.discoveredNodes ∧
      (rearm b closest).eventQueue = b.eventQueue := by
  cases closest <;> exact ⟨rfl, rfl⟩

theorem emit_frame (b : Behaviour) :
    (emit b).1.discoveredNodes = b.discoveredNodes ∧
      (emit b).2.toList ++ (emit b).1.eventQueue = b.eventQueue := by
  unfold emit
  cases h : b.eventQueue with
  | nil => exact ⟨rfl, h⟩
  | cons event rest => exact ⟨rfl, rfl⟩

/-- What a poll leaves in the table, and in the queue together with what it emits. -/
theorem poll_spec (b : Behaviour) (a : Poll) :
    (poll b a.ifEvents a.received a.now).1.discoveredNodes =
        Leases.retain (granted b a) a.now ∧
      (poll b a.ifEvents a.received a.now).2.toList ++
          (poll b a.ifEvents a.received a.now).1.eventQueue = b.eventQueue ++ newEvents b a := by
  obtain ⟨hnodes, hqueue⟩ := foldl_handleIfEvent_frame b a.ifEvents
  unfold poll newEvents granted
  dsimp only
  rw [(emit_frame _).1, (emit_frame _).2, (rearm_frame _ _).1, (rearm_frame _ _).2]
  simp only [receive_eq, pushEvent_eq, (sweep_eq _ _).1, (sweep_eq _ _).2, hnodes, hqueue,
    List.nil_append, List.append_assoc, and_self]

theorem step_spec {w w' : World} {a : Poll} (hstep : step w a = some w') :
    w'.behaviour.discoveredNodes = Leases.retain (granted w.behaviour a) a.now ∧
      w'.events = w.events ++ newEvents w.behaviour a ∧
      w'.rounds = w.rounds ++
        [{ received := a.received, queued := newEvents w.behaviour a }] := by
  obtain ⟨hnodes, hqueue⟩ := poll_spec w.behaviour a
  simp only [step, Option.some.injEq] at hstep
  subst hstep
  have hevents : w.emitted ++ (poll w.behaviour a.ifEvents a.received a.now).2.toList ++
      (poll w.behaviour a.ifEvents a.received a.now).1.eventQueue =
      w.events ++ newEvents w.behaviour a := by
    rw [List.append_assoc, hqueue, ← List.append_assoc]
    rfl
  refine ⟨hnodes, hevents, ?_⟩
  rw [hevents, List.drop_left]

/-! ## One poll, seen from one pair -/

def leaseAfter (b : Behaviour) (a : Poll) (pair : Pair) : Option Instant :=
  (Leases.offers (a.received.map keyed) pair).foldl
    (fun held t => some (Leases.prolong held t)) (Leases.find b.discoveredNodes pair)

theorem filter_eq_of_nodup {pairs : List Pair} (h : pairs.Nodup) (pair : Pair) :
    pairs.filter (· = pair) = if pair ∈ pairs then [pair] else [] := by
  induction pairs with
  | nil => rfl
  | cons p pairs ih =>
      rw [List.nodup_cons] at h
      by_cases hp : p = pair
      · subst hp
        rw [List.filter_cons_of_pos (by simp), ih h.2, if_neg h.1, if_pos (by simp)]
      · rw [List.filter_cons_of_neg (by simpa using hp), ih h.2]
        simp [Ne.symm hp]

theorem changes_append (pair : Pair) (xs ys : List Event) :
    changes pair (xs ++ ys) = changes pair xs ++ changes pair ys := List.flatMap_append

theorem changes_eventOf (event : List Pair → Event) (change : Change)
    (hpairs : ∀ pairs, (event pairs).pairs = pairs)
    (hchange : ∀ pairs, (event pairs).change = change) {pairs : List Pair}
    (h : pairs.Nodup) (pair : Pair) :
    changes pair (eventOf event pairs) = if pair ∈ pairs then [change] else [] := by
  unfold eventOf
  by_cases hne : pairs ≠ []
  · rw [if_pos hne, changes, List.flatMap_singleton, hpairs, hchange, filter_eq_of_nodup h]
    by_cases hpair : pair ∈ pairs
    · rw [if_pos hpair, if_pos hpair, List.map_singleton]
    · rw [if_neg hpair, if_neg hpair, List.map_nil]
  · rw [if_neg hne, not_not.mp hne]
    rfl

/-- A poll tells of a pair's discovery when the pair is absent and offered, and of its
expiry when the lease it then has runs out. -/
theorem poll_pair {b : Behaviour} (hnodup : (Leases.keys b.discoveredNodes).Nodup)
    (a : Poll) (pair : Pair) :
    changes pair (newEvents b a) =
        (if pair ∉ Leases.keys b.discoveredNodes ∧
            Leases.offers (a.received.map keyed) pair ≠ [] then [.discovered] else []) ++
          (if ∃ t, leaseAfter b a pair = some t ∧ t ≤ a.now then [.expired] else []) ∧
      ∀ t, Leases.find (Leases.retain (granted b a) a.now) pair = some t ↔
        leaseAfter b a pair = some t ∧ a.now < t := by
  have hgranted : (Leases.keys (granted b a)).Nodup := Leases.nodup_grantAll hnodup _
  have hfind : Leases.find (granted b a) pair = leaseAfter b a pair :=
    Leases.find_grantAll _ _ _
  have hexpired : (Leases.expired (granted b a) a.now).Nodup :=
    Leases.nodup_filter hgranted _
  constructor
  · unfold newEvents
    rw [changes_append,
      changes_eventOf .discovered .discovered (fun _ => rfl) (fun _ => rfl)
        (Leases.nodup_fresh _ _),
      changes_eventOf .expired .expired (fun _ => rfl) (fun _ => rfl) hexpired]
    simp only [Leases.mem_fresh_iff, Leases.mem_expired_iff hgranted, hfind]
  · intro t
    rw [Leases.find_retain_iff hgranted, hfind]

/-! ## The invariant -/

/-- Discoveries and expiries take turns, a discovery first. -/
def Alternates (cs : List Change) : Prop :=
  cs.IsChain (· ≠ ·) ∧ cs.head? ≠ some .expired

theorem Alternates.snoc {cs : List Change} (h : Alternates cs) {c : Change}
    (hlast : cs.getLast? ≠ some c) (hfirst : cs = [] → c = .discovered) :
    Alternates (cs ++ [c]) := by
  constructor
  · rw [List.isChain_append]
    refine ⟨h.1, List.isChain_singleton c, ?_⟩
    intro x hx y hy hxy
    rw [List.head?_cons, Option.mem_def, Option.some.injEq] at hy
    apply hlast
    rw [hy, ← hxy]
    exact hx
  · cases cs with
    | nil =>
        rw [hfirst rfl]
        simp
    | cons c' cs => exact h.2

theorem Alternates.discover {cs : List Change} (h : Alternates cs)
    (hlast : cs.getLast? ≠ some .discovered) : Alternates (cs ++ [.discovered]) :=
  h.snoc hlast fun _ => rfl

theorem Alternates.expire {cs : List Change} (h : Alternates cs)
    (hlast : cs.getLast? = some .discovered) : Alternates (cs ++ [.expired]) := by
  apply h.snoc
  · rw [hlast]
    decide
  · intro hnil
    rw [hnil] at hlast
    cases hlast

/-- The table and the events of a state agree, and the stored expirations are the
latest ones received. -/
structure Agree (w : World) : Prop where
  nodup : (Leases.keys w.behaviour.discoveredNodes).Nodup
  alternates : ∀ pair, Alternates (changes pair w.events)
  present : ∀ pair, pair ∈ Leases.keys w.behaviour.discoveredNodes ↔
    (changes pair w.events).getLast? = some .discovered
  stored : ∀ pair t, Leases.find w.behaviour.discoveredNodes pair = some t →
    IsGreatest {e | e ∈ expirationsSince pair w.rounds} t
  /-- What never was offered is in neither. -/
  sourced : ∀ pair, (∀ round ∈ w.rounds,
    Leases.offers (round.received.map keyed) pair = []) → changes pair w.events = []

theorem agree_initial (config : Config) (localPeerId : PeerId) :
    Agree (initial config localPeerId) where
  nodup := List.nodup_nil
  alternates _ := ⟨List.IsChain.nil, nofun⟩
  present _ := ⟨nofun, nofun⟩
  stored := nofun
  sourced _ _ := rfl

theorem expirationsSince_snoc (pair : Pair) (rounds : List Round) (round : Round) :
    expirationsSince pair (rounds ++ [round]) =
      (if Change.discovered ∈ changes pair round.queued then []
        else expirationsSince pair rounds) ++
          Leases.offers (round.received.map keyed) pair := by
  unfold expirationsSince
  rw [List.foldl_append, List.foldl_cons, List.foldl_nil]

theorem leaseAfter_eq_none_iff (b : Behaviour) (a : Poll) (pair : Pair) :
    leaseAfter b a pair = none ↔ pair ∉ Leases.keys b.discoveredNodes ∧
      Leases.offers (a.received.map keyed) pair = [] := by
  unfold leaseAfter
  rw [Leases.foldl_prolong_eq_none, Leases.find_eq_none_iff]

theorem agree_pair {b : Behaviour} (hnodup : (Leases.keys b.discoveredNodes).Nodup)
    (a : Poll) (pair : Pair) {cs : List Change} (halt : Alternates cs)
    (hpresent : pair ∈ Leases.keys b.discoveredNodes ↔ cs.getLast? = some .discovered) :
    Alternates (cs ++ changes pair (newEvents b a)) ∧
      (pair ∈ Leases.keys (Leases.retain (granted b a) a.now) ↔
        (cs ++ changes pair (newEvents b a)).getLast? = some .discovered) := by
  obtain ⟨hchanges, hfind⟩ := poll_pair hnodup a pair
  have hnone := leaseAfter_eq_none_iff b a pair
  have hkept : pair ∈ Leases.keys (Leases.retain (granted b a) a.now) ↔
      ∃ t, leaseAfter b a pair = some t ∧ a.now < t := by
    rw [Leases.mem_keys_iff]
    exact exists_congr hfind
  rw [hkept, hchanges, ← List.append_assoc]
  -- the history once the receiving loop is done
  generalize hcs : cs ++ (if pair ∉ Leases.keys b.discoveredNodes ∧
    Leases.offers (a.received.map keyed) pair ≠ [] then [Change.discovered] else []) = cs'
  have hreceived : Alternates cs' ∧
      (leaseAfter b a pair ≠ none ↔ cs'.getLast? = some .discovered) := by
    subst hcs
    by_cases hfresh : pair ∉ Leases.keys b.discoveredNodes ∧
        Leases.offers (a.received.map keyed) pair ≠ []
    · rw [if_pos hfresh]
      refine ⟨halt.discover fun hlast => hfresh.1 (hpresent.mpr hlast), ?_⟩
      rw [List.getLast?_concat]
      exact iff_of_true (fun heq => hfresh.2 (hnone.mp heq).2) rfl
    · rw [if_neg hfresh, List.append_nil]
      refine ⟨halt, ?_⟩
      rw [← hpresent, Ne, hnone]
      tauto
  by_cases hexpired : ∃ t, leaseAfter b a pair = some t ∧ t ≤ a.now
  · obtain ⟨t, hlease, hle⟩ := hexpired
    have hlast : cs'.getLast? = some .discovered := hreceived.2.mp (by rw [hlease]; simp)
    rw [if_pos ⟨t, hlease, hle⟩]
    refine ⟨hreceived.1.expire hlast, iff_of_false ?_ ?_⟩
    · rintro ⟨u, hu, hlt⟩
      rw [hlease, Option.some.injEq] at hu
      rw [← hu] at hlt
      exact absurd hlt (not_lt.mpr hle)
    · rw [List.getLast?_concat]
      decide
  · rw [if_neg hexpired, List.append_nil]
    refine ⟨hreceived.1, ?_⟩
    rw [← hreceived.2, Option.ne_none_iff_exists']
    constructor
    · rintro ⟨t, hlease, -⟩
      exact ⟨t, hlease⟩
    · rintro ⟨t, hlease⟩
      refine ⟨t, hlease, ?_⟩
      by_contra hnot
      exact hexpired ⟨t, hlease, not_lt.mp hnot⟩

theorem agree_step {w w' : World} {a : Poll} (h : Agree w) (hstep : step w a = some w') :
    Agree w' := by
  obtain ⟨hnodes, hevents, hrounds⟩ := step_spec hstep
  have hgranted : (Leases.keys (granted w.behaviour a)).Nodup :=
    Leases.nodup_grantAll h.nodup _
  have hpair := fun pair => agree_pair h.nodup a pair (h.alternates pair) (h.present pair)
  refine ⟨?_, fun pair => ?_, fun pair => ?_, fun pair t ht => ?_, fun pair hoffers => ?_⟩
  · rw [hnodes]
    exact Leases.nodup_filter hgranted _
  · rw [hevents, changes_append]
    exact (hpair pair).1
  · rw [hnodes, hevents, changes_append]
    exact (hpair pair).2
  · obtain ⟨hchanges, hfind⟩ := poll_pair h.nodup a pair
    rw [hnodes, hfind] at ht
    have hnone := leaseAfter_eq_none_iff w.behaviour a pair
    rw [hrounds, expirationsSince_snoc]
    by_cases hheld : pair ∈ Leases.keys w.behaviour.discoveredNodes
    · have hdisc : Change.discovered ∉ changes pair (newEvents w.behaviour a) := by
        rw [hchanges, if_neg (fun hfresh => hfresh.1 hheld), List.nil_append]
        split <;> simp
      rw [if_neg hdisc]
      exact Leases.isGreatest_foldl_prolong (h.stored pair)
        (fun hfalse => absurd hheld (Leases.find_eq_none_iff.mp hfalse)) ht.1
    · have hoffers : Leases.offers (a.received.map keyed) pair ≠ [] := by
        intro hnil
        rw [hnone.mpr ⟨hheld, hnil⟩] at ht
        cases ht.1
      have hdisc : Change.discovered ∈ changes pair (newEvents w.behaviour a) := by
        rw [hchanges, if_pos ⟨hheld, hoffers⟩]
        simp
      rw [if_pos hdisc]
      have hfindNone := Leases.find_eq_none_iff.mpr hheld
      exact Leases.isGreatest_foldl_prolong
        (fun u hu => by rw [hfindNone] at hu; cases hu) (fun _ => rfl) ht.1
  · rw [hrounds, List.forall_mem_append] at hoffers
    have hpast : changes pair w.events = [] := h.sourced pair hoffers.1
    have hnow : Leases.offers (a.received.map keyed) pair = [] :=
      hoffers.2 _ (List.mem_singleton_self _)
    have habsent : pair ∉ Leases.keys w.behaviour.discoveredNodes := by
      rw [h.present pair, hpast]
      nofun
    have hlease := (leaseAfter_eq_none_iff w.behaviour a pair).mpr ⟨habsent, hnow⟩
    rw [hevents, changes_append, hpast, (poll_pair h.nodup a pair).1, hlease, hnow]
    simp

/-! ## Runs -/

/-- The tuple comes from a response of another peer. -/
def Extracted (lib : Libp2p) (localPeerId : PeerId)
    (tuple : PeerId × Multiaddr × Instant) : Prop :=
  ∃ (response : MdnsResponse) (now : Instant),
    tuple ∈ response.extractDiscovered lib now localPeerId

structure TableAgrees (lib : Libp2p) (localPeerId : PeerId) (now : Instant) (w : World) :
    Prop where
  nodup : (Leases.keys w.behaviour.discoveredNodes).Nodup
  alternates : ∀ pair, Alternates (changes pair w.events)
  present : ∀ pair, pair ∈ Leases.keys w.behaviour.discoveredNodes ↔
    (changes pair w.events).getLast? = some .discovered
  stored : ∀ pair t, (pair, t) ∈ w.behaviour.discoveredNodes →
    IsGreatest {e | e ∈ expirationsSince pair w.rounds} t
  unexpired : ∀ node ∈ w.behaviour.discoveredNodes, ¬ node.2 ≤ now
  pending : ∀ peer, (handlePendingOutboundConnection w.behaviour (some peer)).Nodup ∧
    ∀ addr, addr ∈ handlePendingOutboundConnection w.behaviour (some peer) ↔
      (peer, addr) ∈ Leases.keys w.behaviour.discoveredNodes
  notLocal : (∀ round ∈ w.rounds, ∀ tuple ∈ round.received, Extracted lib localPeerId tuple) →
    (∀ pair ∈ Leases.keys w.behaviour.discoveredNodes, pair.1 ≠ localPeerId) ∧
      ∀ event ∈ w.events, ∀ pair ∈ event.pairs, pair.1 ≠ localPeerId

theorem Extracted.ne_local {lib : Libp2p} {localPeerId : PeerId}
    {tuple : PeerId × Multiaddr × Instant} (h : Extracted lib localPeerId tuple) :
    tuple.1 ≠ localPeerId := by
  obtain ⟨response, now, hmem⟩ := h
  simp only [MdnsResponse.extractDiscovered, List.mem_flatMap, List.mem_filter,
    List.mem_filterMap, Option.map_eq_some_iff, decide_eq_true_eq] at hmem
  obtain ⟨peer, ⟨-, hne⟩, address, -, addr, -, rfl⟩ := hmem
  exact hne

theorem nodup_pending {nodes : Leases.Table Pair Instant} (h : (Leases.keys nodes).Nodup)
    (peer : PeerId) :
    ((nodes.filter fun node => node.1.1 = peer).map fun node => node.1.2).Nodup := by
  have hkeys := Leases.nodup_filter h fun node => decide (node.1.1 = peer)
  unfold Leases.keys at hkeys
  rw [List.nodup_map_iff_inj_on (List.Nodup.of_map _ hkeys)]
  intro x hx y hy hxy
  have hpeer : x.1.1 = y.1.1 := by
    have hxp := (List.mem_filter.mp hx).2
    have hyp := (List.mem_filter.mp hy).2
    rw [decide_eq_true_eq] at hxp hyp
    rw [hxp, hyp]
  exact List.inj_on_of_nodup_map hkeys hx hy (Prod.ext hpeer hxy)

theorem mem_changes {pair : Pair} {event : Event} {events : List Event}
    (hevent : event ∈ events) (hpair : pair ∈ event.pairs) :
    event.change ∈ changes pair events := by
  rw [changes, List.mem_flatMap]
  refine ⟨event, hevent, List.mem_map.mpr ⟨pair, ?_, rfl⟩⟩
  rw [List.mem_filter]
  exact ⟨hpair, decide_eq_true rfl⟩

theorem Agree.notLocal {w : World} (h : Agree w) {lib : Libp2p} {localPeerId : PeerId}
    (hextracted : ∀ round ∈ w.rounds, ∀ tuple ∈ round.received,
      Extracted lib localPeerId tuple) :
    (∀ pair ∈ Leases.keys w.behaviour.discoveredNodes, pair.1 ≠ localPeerId) ∧
      ∀ event ∈ w.events, ∀ pair ∈ event.pairs, pair.1 ≠ localPeerId := by
  have hsilent : ∀ pair : Pair, pair.1 = localPeerId → changes pair w.events = [] := by
    intro pair hlocal
    apply h.sourced pair
    intro round hround
    unfold Leases.offers
    rw [List.map_eq_nil_iff, List.filter_eq_nil_iff]
    intro entry hentry hkey
    obtain ⟨tuple, htuple, rfl⟩ := List.mem_map.mp hentry
    rw [decide_eq_true_eq] at hkey
    apply (hextracted round hround tuple htuple).ne_local
    rw [← hlocal, ← hkey]
    rfl
  constructor
  · intro pair hpair hlocal
    have hlast := (h.present pair).mp hpair
    rw [hsilent pair hlocal] at hlast
    cases hlast
  · intro event hevent pair hpair hlocal
    have hmem := mem_changes hevent hpair
    rw [hsilent pair hlocal] at hmem
    cases hmem

theorem Agree.tableAgrees {w : World} (h : Agree w) (lib : Libp2p) (localPeerId : PeerId)
    {now : Instant} (hnow : ∀ node ∈ w.behaviour.discoveredNodes, now < node.2) :
    TableAgrees lib localPeerId now w where
  nodup := h.nodup
  alternates := h.alternates
  present := h.present
  stored pair t hmem := h.stored pair t ((Leases.find_eq_some_iff h.nodup).mpr hmem)
  unexpired node hnode := not_le.mpr (hnow node hnode)
  pending peer := by
    refine ⟨nodup_pending h.nodup peer, fun addr => ?_⟩
    simp only [handlePendingOutboundConnection, Leases.keys, List.mem_map, List.mem_filter,
      decide_eq_true_eq, Prod.ext_iff, and_assoc]
  notLocal := h.notLocal

/-! ## What the events and the table rest on -/

theorem mem_expirationsSince {pair : Pair} {rounds : List Round} {t : Instant}
    (h : t ∈ expirationsSince pair rounds) :
    ∃ round ∈ rounds, t ∈ Leases.offers (round.received.map keyed) pair := by
  induction rounds using List.reverseRecOn with
  | nil => cases h
  | append_singleton rounds round ih =>
      rw [expirationsSince_snoc] at h
      rcases List.mem_append.mp h with hin | hin
      · split at hin
        · cases hin
        · obtain ⟨round', hround', hoffer⟩ := ih hin
          exact ⟨round', List.mem_append_left _ hround', hoffer⟩
      · exact ⟨round, by simp, hin⟩

theorem mem_offers_keyed {pair : Pair} {received : List (PeerId × Multiaddr × Instant)}
    {t : Instant} :
    t ∈ Leases.offers (received.map keyed) pair ↔ (pair.1, pair.2, t) ∈ received := by
  unfold Leases.offers
  simp only [List.mem_map, List.mem_filter, decide_eq_true_eq]
  constructor
  · rintro ⟨entry, ⟨⟨tuple, htuple, rfl⟩, rfl⟩, rfl⟩
    exact htuple
  · intro h
    exact ⟨_, ⟨⟨_, h, rfl⟩, rfl⟩, rfl⟩

/-- A pair is in the table, or in an event, only if a poll has received it. -/
theorem received_of_event {world : World} (hagree : Agree world) {event : Event}
    (hevent : event ∈ world.events) {pair : Pair} (hpair : pair ∈ event.pairs) :
    ∃ t, ∃ round ∈ world.rounds, (pair.1, pair.2, t) ∈ round.received := by
  by_contra hnone
  have hsilent : changes pair world.events = [] := by
    apply hagree.sourced
    intro round hround
    apply List.eq_nil_iff_forall_not_mem.mpr
    intro t ht
    exact hnone ⟨t, round, hround, mem_offers_keyed.mp ht⟩
  have hchange := mem_changes hevent hpair
  rw [hsilent] at hchange
  cases hchange

theorem received_of_entry {world : World} (hagree : Agree world) {pair : Pair} {t : Instant}
    (hentry : (pair, t) ∈ world.behaviour.discoveredNodes) :
    ∃ round ∈ world.rounds, (pair.1, pair.2, t) ∈ round.received := by
  have hstored := hagree.stored pair t ((Leases.find_eq_some_iff hagree.nodup).mpr hentry)
  obtain ⟨round, hround, hoffer⟩ := mem_expirationsSince hstored.1
  exact ⟨round, hround, mem_offers_keyed.mp hoffer⟩

/-- Over a run of polls the discovery table and the events agree, and after each poll
the table holds what has not expired, each pair until the latest instant received. -/
theorem discovery_agrees (lib : Libp2p) (config : Config) (localPeerId : PeerId)
    (polls : List Poll) :
    Machine.Along step (fun _ a w' => TableAgrees lib localPeerId a.now w')
      (initial config localPeerId) polls := by
  apply Machine.along_of_step Agree _ polls (agree_initial config localPeerId)
  intro w a w' h hstep
  have hagree := agree_step h hstep
  refine ⟨hagree, hagree.tableAgrees lib localPeerId ?_⟩
  intro node hnode
  rw [(step_spec hstep).1] at hnode
  simpa using (List.mem_filter.mp hnode).2

end P2pa.Mdns
