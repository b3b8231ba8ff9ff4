import P2pa.Rendezvous.Cookies

/-!
# What becomes of a registration

Runs of the rendezvous behaviour with the registrations that are in force and the
namespaces that are unregistered.  Register requests come from three places, which all
read the one stored set; `unregister` tells the server and leaves the set as it is.
-/

namespace P2pa.Rendezvous

open Utils

/-- A run with what the calls of the node amount to. -/
structure Registrar where
  world : World
  /-- Registered and not unregistered since. -/
  active : List (Multiaddr × Namespace)
  /-- Unregistered and not registered since. -/
  gone : List Namespace
deriving Repr

namespace Registrar

def start (currentId : PeerId) (ttl : Option UInt64) (timeout : Mdns.Timer) : Registrar where
  world := initial currentId ttl timeout
  active := []
  gone := []

/-- A call that returns `Ok` takes effect. -/
def activeAfter (lib : Libp2p) (r : Registrar) : Act → List (Multiaddr × Namespace)
  | .register node ns =>
      (lib.namespaceNew ns).elim r.active fun ns => r.active.insert (node, ns)
  | .unregister ns =>
      (lib.namespaceNew ns).elim r.active fun ns => r.active.filter fun reg => reg.2 ≠ ns
  | _ => r.active

def goneAfter (lib : Libp2p) (r : Registrar) : Act → List Namespace
  | .register _ ns =>
      (lib.namespaceNew ns).elim r.gone fun ns => r.gone.filter fun ns' => ns' ≠ ns
  | .unregister ns => (lib.namespaceNew ns).elim r.gone fun ns => r.gone.insert ns
  | _ => r.gone

def step (lib : Libp2p) (r : Registrar) (a : Act) : Option Registrar :=
  (Rendezvous.step lib r.world a).map fun world =>
    { world, active := r.activeAfter lib a, gone := r.goneAfter lib a }

end Registrar

def newCalls (b b' : Behaviour) : List RdvzCall := b'.rdvz.drop b.rdvz.length

/-- A timer tick, a new listener or a connection dialled at its address calls for a
registration, with this peer. -/
def CallsFor (registrations : List (Multiaddr × Namespace)) :
    Act → Namespace → PeerId → Prop
  | .tick _, ns, node =>
      ∃ point, (point, ns) ∈ registrations ∧ point.pop.1 = some (.p2p node)
  | .swarm .newListener, ns, node =>
      ∃ point, (point, ns) ∈ registrations ∧ point.pop.1 = some (.p2p node)
  | .swarm (.connectionEstablished peerId (.dialer address)), ns, node =>
      (address, ns) ∈ registrations ∧ node = peerId
  | _, _, _ => False

/-- No register request for a namespace that is unregistered. -/
def Sticks (r : Registrar) (_ : Act) (r' : Registrar) : Prop :=
  ∀ ns node ttl, RdvzCall.register ns node ttl ∈
    newCalls r.world.behaviour r'.world.behaviour → ns ∉ r.gone

/-- The registrations in force are refreshed. -/
def Refreshes (r : Registrar) (a : Act) (r' : Registrar) : Prop :=
  ∀ ns node, CallsFor r.active a ns node →
    RdvzCall.register ns node r.world.behaviour.ttl ∈
      newCalls r.world.behaviour r'.world.behaviour

/-! ## What has been called before -/

section History

variable (lib : Libp2p) (point : Multiaddr) (ns : Namespace)

def Registers : Act → Prop
  | .register node text => node = point ∧ lib.namespaceNew text = some ns
  | _ => False

def Unregisters : Act → Prop
  | .unregister text => lib.namespaceNew text = some ns
  | _ => False

/-- Unregistered, and at no point registered since. -/
def Unregistered (acts : List Act) : Prop :=
  ∃ before a after, acts = before ++ a :: after ∧ Unregisters lib ns a ∧
    ∀ b ∈ after, ∀ point, ¬ Registers lib point ns b

/-- A timer tick or a new listener, which concern every point whose address names it, or a
connection dialled at the point. -/
def Concerns : Act → Prop
  | .tick _ | .swarm .newListener => ∃ node, point.pop.1 = some (.p2p node)
  | .swarm (.connectionEstablished _ (.dialer address)) => address = point
  | _ => False

/-- The event concerns no point that was registered at under a namespace that is
unregistered by now. -/
def LeftAlone (before : List Act) (a : Act) : Prop :=
  ∀ point ns, (∃ b ∈ before, Registers lib point ns b) → Concerns point a →
    ¬ Unregistered lib ns before

end History

/-! ## The register requests of a step -/

structure Issues (b : Behaviour) (a : Act) (b' : Behaviour) : Prop where
  appends : ∃ calls, b'.rdvz = b.rdvz ++ calls ∧
    ∀ ns node ttl, RdvzCall.register ns node ttl ∈ calls ↔
      CallsFor b.registrations a ns node ∧ ttl = b.ttl

theorem Issues.mem_newCalls {b b' : Behaviour} {a : Act} (h : Issues b a b')
    (ns : Namespace) (node : PeerId) (ttl : Option UInt64) :
    RdvzCall.register ns node ttl ∈ newCalls b b' ↔
      CallsFor b.registrations a ns node ∧ ttl = b.ttl := by
  obtain ⟨calls, hcalls, hiff⟩ := h.appends
  unfold newCalls
  rw [hcalls, List.drop_left]
  exact hiff ns node ttl

/-- A step without a call of the client. -/
theorem issues_of_rdvz_eq {b b' : Behaviour} {a : Act} (h : b'.rdvz = b.rdvz)
    (hnone : ∀ ns node, ¬ CallsFor b.registrations a ns node) : Issues b a b' := by
  refine ⟨⟨[], ?_, ?_⟩⟩
  · rw [h, List.append_nil]
  · intro ns node ttl
    exact iff_of_false List.not_mem_nil fun hcalls => hnone ns node hcalls.1

theorem issues_of_passedOn {b b' : Behaviour} {event : FromSwarm}
    (h : b'.rdvz = b.rdvz ++ [.onSwarmEvent event])
    (hnone : ∀ ns node, ¬ CallsFor b.registrations (.swarm event) ns node) :
    Issues b (.swarm event) b' := by
  refine ⟨⟨_, h, ?_⟩⟩
  intro ns node ttl
  refine iff_of_false ?_ fun hcalls => hnone ns node hcalls.1
  intro hmem
  cases List.mem_singleton.mp hmem

def refreshCalls (b : Behaviour) : List RdvzCall :=
  b.registrations.filterMap fun (rdvzAddr, ns) =>
    match rdvzAddr.pop.1 with
    | some (.p2p peer) => some (RdvzCall.register ns peer b.ttl)
    | _ => none

theorem registerAll_rdvz (b : Behaviour) : (registerAll b).rdvz = b.rdvz ++ refreshCalls b :=
  rfl

theorem mem_refreshCalls_iff (b : Behaviour) (ns : Namespace) (node : PeerId)
    (ttl : Option UInt64) :
    RdvzCall.register ns node ttl ∈ refreshCalls b ↔
      (∃ point, (point, ns) ∈ b.registrations ∧ point.pop.1 = some (.p2p node)) ∧
        ttl = b.ttl := by
  unfold refreshCalls
  rw [List.mem_filterMap]
  constructor
  · rintro ⟨⟨point, ns'⟩, hmem, hcall⟩
    dsimp only at hcall
    split at hcall
    · next peer hpoint =>
        cases hcall
        exact ⟨⟨point, hmem, hpoint⟩, rfl⟩
    · cases hcall
  · rintro ⟨⟨point, hmem, hpoint⟩, rfl⟩
    refine ⟨(point, ns), hmem, ?_⟩
    dsimp only
    rw [hpoint]

def dialedCalls (b : Behaviour) (peerId : PeerId) (address : Multiaddr) : List RdvzCall :=
  ((b.registrations.filter fun r => address = r.1).map fun r =>
      RdvzCall.register r.2 peerId b.ttl) ++
    (b.discovery.filter fun d => address = d.1).map fun d =>
      RdvzCall.discover (some d.2) b.cookie none peerId

theorem mem_dialedCalls_iff (b : Behaviour) (peerId : PeerId) (address : Multiaddr)
    (ns : Namespace) (node : PeerId) (ttl : Option UInt64) :
    RdvzCall.register ns node ttl ∈ dialedCalls b peerId address ↔
      ((address, ns) ∈ b.registrations ∧ node = peerId) ∧ ttl = b.ttl := by
  unfold dialedCalls
  rw [List.mem_append, List.mem_map, List.mem_map]
  constructor
  · rintro (⟨⟨point, ns'⟩, hmem, hcall⟩ | ⟨d, -, hcall⟩)
    · obtain ⟨hstored, haddress⟩ := List.mem_filter.mp hmem
      rw [decide_eq_true_eq] at haddress
      cases hcall
      rw [haddress]
      exact ⟨⟨hstored, rfl⟩, rfl⟩
    · cases hcall
  · rintro ⟨⟨hmem, rfl⟩, rfl⟩
    exact .inl ⟨(address, ns), List.mem_filter.mpr ⟨hmem, decide_eq_true rfl⟩, rfl⟩

theorem issues_unregister (lib : Libp2p) (b : Behaviour) (ns : String) :
    Issues b (.unregister ns) (settle b (unregister lib b ns)) := by
  unfold unregister
  split
  · refine ⟨⟨_, rfl, ?_⟩⟩
    intro ns' node ttl
    refine iff_of_false ?_ fun h => h.1
    rw [List.mem_filterMap]
    rintro ⟨⟨point, ns''⟩, -, hcall⟩
    dsimp only at hcall
    split at hcall
    · split at hcall
      · cases hcall
      · cases hcall
    · cases hcall
  · exact issues_of_rdvz_eq rfl fun _ _ h => h

theorem issues_swarm (b : Behaviour) (event : FromSwarm) :
    Issues b (.swarm event) (onSwarmEvent b event) := by
  unfold onSwarmEvent
  cases event with
  | connectionEstablished peerId endpoint =>
      cases endpoint with
      | dialer address =>
          refine ⟨⟨dialedCalls b peerId address ++
            [.onSwarmEvent (.connectionEstablished peerId (.dialer address))], ?_, ?_⟩⟩
          · change b.rdvz ++ _ ++ _ ++ _ = b.rdvz ++ (_ ++ _ ++ _)
            rw [List.append_assoc, List.append_assoc, List.append_assoc]
          · intro ns node ttl
            rw [List.mem_append, List.mem_singleton, or_iff_left (by simp)]
            exact mem_dialedCalls_iff b peerId address ns node ttl
      | listener localAddr sendBackAddr => exact issues_of_passedOn rfl fun _ _ h => h
  | newListener =>
      refine ⟨⟨refreshCalls b ++ [.onSwarmEvent .newListener], ?_, ?_⟩⟩
      · exact List.append_assoc _ _ _
      · intro ns node ttl
        rw [List.mem_append, List.mem_singleton, or_iff_left (by simp)]
        exact mem_refreshCalls_iff b ns node ttl
  | other => exact issues_of_passedOn rfl fun _ _ h => h

theorem issues_tick {b b' : Behaviour} {now : Instant} (h : tick b now = some b') :
    Issues b (.tick now) b' := by
  unfold tick at h
  obtain ⟨timeout, -, rfl⟩ := Option.map_eq_some_iff.mp h
  exact ⟨⟨refreshCalls b, registerAll_rdvz b, mem_refreshCalls_iff b⟩⟩

theorem issues_step {lib : Libp2p} {w w' : World} {a : Act} (hstep : step lib w a = some w') :
    Issues w.behaviour a w'.behaviour := by
  cases a with
  | register node ns =>
      cases hstep
      apply issues_of_rdvz_eq
      · unfold register
        split <;> rfl
      · exact fun _ _ h => h
  | unregister ns =>
      cases hstep
      exact issues_unregister lib w.behaviour ns
  | discover node ns =>
      cases hstep
      apply issues_of_rdvz_eq
      · unfold discover
        split <;> rfl
      · exact fun _ _ h => h
  | swarm event =>
      cases hstep
      exact issues_swarm w.behaviour event
  | answer answer registrations =>
      simp only [step, Option.ite_none_right_eq_some, Option.some.injEq] at hstep
      obtain ⟨-, rfl⟩ := hstep
      exact issues_of_rdvz_eq rfl fun _ _ h => h
  | clientEvent ns =>
      cases hstep
      cases ns <;> exact issues_of_rdvz_eq rfl fun _ _ h => h
  | tick now =>
      simp only [step, Option.ite_none_right_eq_some, Option.map_eq_some_iff] at hstep
      obtain ⟨-, b, hb, rfl⟩ := hstep
      exact issues_tick hb
  | emit =>
      cases hstep
      apply issues_of_rdvz_eq
      · change (emit w.behaviour).1.rdvz = w.behaviour.rdvz
        unfold emit
        split <;> rfl
      · exact fun _ _ h => h

/-! ## The stored set -/

theorem CallsFor.mono {regs regs' : List (Multiaddr × Namespace)}
    (hsub : ∀ reg ∈ regs, reg ∈ regs') {a : Act} {ns : Namespace} {node : PeerId}
    (h : CallsFor regs a ns node) : CallsFor regs' a ns node := by
  cases a with
  | tick now =>
      obtain ⟨point, hmem, hpoint⟩ := h
      exact ⟨point, hsub _ hmem, hpoint⟩
  | swarm event =>
      cases event with
      | connectionEstablished peerId endpoint =>
          cases endpoint with
          | dialer address => exact ⟨hsub _ h.1, h.2⟩
          | listener localAddr sendBackAddr => exact h
      | newListener =>
          obtain ⟨point, hmem, hpoint⟩ := h
          exact ⟨point, hsub _ hmem, hpoint⟩
      | other => exact h
  | _ => exact h

theorem registrations_register {lib : Libp2p} {b : Behaviour} {node : Multiaddr}
    {ns : String} {value : Namespace} (hns : lib.namespaceNew ns = some value) :
    (settle b (register lib b node ns)).registrations =
      b.registrations.insert (node, value) := by
  unfold register
  rw [hns]
  rfl

/-- Pairs are added by `register`, and nothing is ever removed. -/
theorem mem_registrations_step {lib : Libp2p} {w w' : World} {a : Act}
    (hstep : step lib w a = some w') (point : Multiaddr) (ns : Namespace) :
    (point, ns) ∈ w'.behaviour.registrations ↔
      (point, ns) ∈ w.behaviour.registrations ∨ Registers lib point ns a := by
  have hsame : w'.behaviour.registrations = w.behaviour.registrations →
      ¬ Registers lib point ns a → ((point, ns) ∈ w'.behaviour.registrations ↔
        (point, ns) ∈ w.behaviour.registrations ∨ Registers lib point ns a) := by
    intro heq hnot
    rw [heq, or_iff_left hnot]
  cases a with
  | register node text =>
      cases hstep
      cases hns : lib.namespaceNew text with
      | none =>
          have hfail : register lib w.behaviour node text = .error .namespaceTooLong := by
            unfold register
            rw [hns]
          refine hsame ?_ ?_
          · rw [hfail]
            rfl
          · rintro ⟨-, hvalue⟩
            rw [hns] at hvalue
            cases hvalue
      | some value =>
          dsimp only
          rw [registrations_register hns, List.mem_insert_iff, Registers, hns, or_comm,
            Prod.mk.injEq, Option.some.injEq]
          exact or_congr_right (and_congr eq_comm eq_comm)
  | unregister text =>
      cases hstep
      refine hsame ?_ id
      unfold unregister
      split <;> rfl
  | discover node text =>
      cases hstep
      refine hsame ?_ id
      unfold discover
      split <;> rfl
  | swarm event =>
      cases hstep
      refine hsame ?_ id
      unfold onSwarmEvent
      dsimp only
      split <;> rfl
  | answer answer registrations =>
      simp only [step, Option.ite_none_right_eq_some, Option.some.injEq] at hstep
      obtain ⟨-, rfl⟩ := hstep
      exact hsame rfl id
  | clientEvent ns =>
      cases hstep
      cases ns <;> exact hsame rfl id
  | tick now =>
      simp only [step, Option.ite_none_right_eq_some, Option.map_eq_some_iff] at hstep
      obtain ⟨-, b, hb, rfl⟩ := hstep
      unfold tick at hb
      obtain ⟨timeout, -, rfl⟩ := Option.map_eq_some_iff.mp hb
      exact hsame rfl id
  | emit =>
      cases hstep
      refine hsame ?_ id
      unfold emit
      split <;> rfl

def Stored (r : Registrar) : Prop :=
  ∀ reg ∈ r.active, reg ∈ r.world.behaviour.registrations

theorem stored_step {lib : Libp2p} {r r' : Registrar} {a : Act} (h : Stored r)
    (hstep : r.step lib a = some r') : Stored r' := by
  obtain ⟨w, hw, rfl⟩ := Option.map_eq_some_iff.mp hstep
  have hkept : ∀ reg ∈ r.active, reg ∈ w.behaviour.registrations :=
    fun reg hreg => (mem_registrations_step hw reg.1 reg.2).mpr (.inl (h reg hreg))
  intro reg hreg
  cases a with
  | register node ns =>
      cases hns : lib.namespaceNew ns with
      | none =>
          simp only [Registrar.activeAfter, hns, Option.elim] at hreg
          exact hkept reg hreg
      | some value =>
          simp only [Registrar.activeAfter, hns, Option.elim, List.mem_insert_iff] at hreg
          rcases hreg with rfl | hreg
          · exact (mem_registrations_step hw node value).mpr (.inr ⟨rfl, hns⟩)
          · exact hkept reg hreg
  | unregister ns =>
      cases hns : lib.namespaceNew ns with
      | none =>
          simp only [Registrar.activeAfter, hns, Option.elim] at hreg
          exact hkept reg hreg
      | some value =>
          simp only [Registrar.activeAfter, hns, Option.elim] at hreg
          exact hkept reg (List.mem_filter.mp hreg).1
  | _ => exact hkept reg hreg

/-! ## The history -/

theorem unregistered_snoc {lib : Libp2p} {ns : Namespace} (acts : List Act) (a : Act) :
    Unregistered lib ns (acts ++ [a]) ↔ Unregisters lib ns a ∨
      Unregistered lib ns acts ∧ ∀ point, ¬ Registers lib point ns a := by
  constructor
  · rintro ⟨before, b, after, heq, hunregisters, hsince⟩
    rcases List.eq_nil_or_concat after with rfl | ⟨after, last, rfl⟩
    · obtain ⟨-, hlast⟩ := List.append_inj' heq rfl
      cases hlast
      exact .inl hunregisters
    · rw [List.concat_eq_append, ← List.cons_append, ← List.append_assoc] at heq
      obtain ⟨hacts, hlast⟩ := List.append_inj' heq rfl
      cases hlast
      rw [List.concat_eq_append] at hsince
      refine .inr ⟨⟨before, b, after, hacts, hunregisters, ?_⟩, ?_⟩
      · exact fun c hc => hsince c (List.mem_append_left _ hc)
      · exact hsince a (List.mem_append_right _ (List.mem_singleton_self a))
  · rintro (hunregisters | ⟨⟨before, b, after, rfl, hunregisters, hsince⟩, hnot⟩)
    · exact ⟨acts, a, [], rfl, hunregisters, nofun⟩
    · refine ⟨before, b, after ++ [a], by simp, hunregisters, fun c hc => ?_⟩
      rcases List.mem_append.mp hc with hin | hlast
      · exact hsince c hin
      · rw [List.mem_singleton.mp hlast]
        exact hnot

/-- What a run notes is what the acts so far say. -/
structure Noted (lib : Libp2p) (acts : List Act) (r : Registrar) : Prop where
  stored : Stored r
  registered : ∀ point ns, (point, ns) ∈ r.world.behaviour.registrations ↔
    ∃ a ∈ acts, Registers lib point ns a
  gone : ∀ ns, ns ∈ r.gone ↔ Unregistered lib ns acts

theorem noted_start (lib : Libp2p) (currentId : PeerId) (ttl : Option UInt64)
    (timeout : Mdns.Timer) : Noted lib [] (.start currentId ttl timeout) where
  stored := nofun
  registered _ _ := iff_of_false List.not_mem_nil nofun
  gone _ := iff_of_false List.not_mem_nil fun ⟨before, a, after, heq, _⟩ =>
    absurd heq.symm (List.append_ne_nil_of_right_ne_nil before (List.cons_ne_nil a after))

theorem mem_goneAfter (lib : Libp2p) (r : Registrar) (a : Act) (ns : Namespace) :
    ns ∈ r.goneAfter lib a ↔ Unregisters lib ns a ∨
      ns ∈ r.gone ∧ ∀ point, ¬ Registers lib point ns a := by
  cases a with
  | register node text =>
      cases hns : lib.namespaceNew text with
      | none => simp [Registrar.goneAfter, Registers, Unregisters, hns]
      | some value =>
          simp only [Registrar.goneAfter, Registers, Unregisters, hns, Option.elim_some,
            List.mem_filter, decide_eq_true_eq, Option.some.injEq, false_or, not_and]
          exact and_congr_right fun _ =>
            ⟨fun hne _ _ heq => hne heq.symm, fun h heq => h node rfl heq.symm⟩
  | unregister text =>
      cases hns : lib.namespaceNew text with
      | none => simp [Registrar.goneAfter, Registers, Unregisters, hns]
      | some value => simp [Registrar.goneAfter, Registers, Unregisters, hns, eq_comm]
  | _ => simp [Registrar.goneAfter, Registers, Unregisters]

theorem noted_step {lib : Libp2p} {acts : List Act} {r r' : Registrar} {a : Act}
    (h : Noted lib acts r) (hstep : r.step lib a = some r') : Noted lib (acts ++ [a]) r' where
  stored := stored_step h.stored hstep
  registered point ns := by
    obtain ⟨w, hw, rfl⟩ := Option.map_eq_some_iff.mp hstep
    dsimp only
    rw [mem_registrations_step hw, h.registered]
    simp only [List.mem_append, List.mem_singleton, or_and_right, exists_or, exists_eq_left]
  gone ns := by
    obtain ⟨w, hw, rfl⟩ := Option.map_eq_some_iff.mp hstep
    dsimp only
    rw [mem_goneAfter, h.gone, unregistered_snoc]

theorem exists_callsFor_iff (registrations : List (Multiaddr × Namespace)) (a : Act)
    (ns : Namespace) : (∃ node, CallsFor registrations a ns node) ↔
      ∃ point, (point, ns) ∈ registrations ∧ Concerns point a := by
  cases a with
  | tick now =>
      simp only [CallsFor, Concerns, ← exists_and_left]
      exact exists_comm
  | swarm event =>
      cases event with
      | connectionEstablished peerId endpoint =>
          cases endpoint with
          | dialer address => simp [CallsFor, Concerns]
          | listener localAddr sendBackAddr => simp [CallsFor, Concerns]
      | newListener =>
          simp only [CallsFor, Concerns, ← exists_and_left]
          exact exists_comm
      | other => simp [CallsFor, Concerns]
  | _ => simp [CallsFor, Concerns]

/-- What is in force is refreshed anyway, so that all is up to what is unregistered. -/
theorem sticks_refreshes_iff {lib : Libp2p} {acts : List Act} {r r' : Registrar} {a : Act}
    (h : Noted lib acts r) (hstep : r.step lib a = some r') :
    Sticks r a r' ∧ Refreshes r a r' ↔ LeftAlone lib acts a := by
  have hissues : Issues r.world.behaviour a r'.world.behaviour := by
    obtain ⟨w, hw, rfl⟩ := Option.map_eq_some_iff.mp hstep
    exact issues_step hw
  have hrefreshes : Refreshes r a r' := fun ns node hcalls =>
    (hissues.mem_newCalls ns node _).mpr ⟨hcalls.mono h.stored, rfl⟩
  rw [and_iff_left hrefreshes]
  constructor
  · intro hsticks point ns hregistered hconcerns hunregistered
    obtain ⟨node, hcalls⟩ := (exists_callsFor_iff r.world.behaviour.registrations a ns).mpr
      ⟨point, (h.registered point ns).mpr hregistered, hconcerns⟩
    exact hsticks ns node _ ((hissues.mem_newCalls ns node _).mpr ⟨hcalls, rfl⟩)
      ((h.gone ns).mpr hunregistered)
  · intro hleft ns node ttl hmem hgone
    obtain ⟨point, hin, hconcerns⟩ := (exists_callsFor_iff _ a ns).mp
      ⟨node, ((hissues.mem_newCalls ns node ttl).mp hmem).1⟩
    exact hleft point ns ((h.registered point ns).mp hin) hconcerns ((h.gone ns).mp hgone)

/-! ## Runs -/

/-- Along a run no request is made for an unregistered namespace, and what is in force is
refreshed, exactly when no tick, new listener or connection dialled at a point comes while the
point is one that was registered at under a namespace unregistered since. -/
theorem unregister_sticks_iff {lib : Libp2p} {currentId : PeerId} {ttl : Option UInt64}
    {timeout : Mdns.Timer} {acts : List Act} {r : Registrar}
    (hrun : Machine.run (Registrar.step lib) (.start currentId ttl timeout) acts = some r) :
    Machine.Along (Registrar.step lib) (fun r a r' => Sticks r a r' ∧ Refreshes r a r')
        (.start currentId ttl timeout) acts ↔
      ∀ before a after, acts = before ++ a :: after → LeftAlone lib before a := by
  apply Machine.along_iff_splits (Noted lib) _ _ (noted_start lib currentId ttl timeout) hrun
  · exact fun _ _ _ _ h hstep => noted_step h hstep
  · exact fun _ _ _ _ h hstep => sticks_refreshes_iff h hstep

def unregisterActs : List Act :=
  [.register (sampleAddr.push (.p2p samplePeerId)) "a", .unregister "a", .swarm .newListener]

theorem unregister_sticks_iff_sample :
    ∃ r, Machine.run (Registrar.step sampleLibp2p) (.start samplePeerId none (.at 0))
        unregisterActs = some r ∧
      (Machine.Along (Registrar.step sampleLibp2p)
          (fun r a r' => Sticks r a r' ∧ Refreshes r a r') (.start samplePeerId none (.at 0))
          unregisterActs ↔
        ∀ before a after, unregisterActs = before ++ a :: after →
          LeftAlone sampleLibp2p before a) :=
  ⟨_, rfl, unregister_sticks_iff (show Machine.run (Registrar.step sampleLibp2p)
    (.start samplePeerId none (.at 0)) unregisterActs = some _ from rfl)⟩

/-- The next listener registers the namespace again. -/
theorem unregister_sticks_fails :
    ¬ ∀ lib currentId ttl timeout acts,
      Machine.Along (Registrar.step lib) (fun r a r' => Sticks r a r' ∧ Refreshes r a r')
        (.start currentId ttl timeout) acts := by
  intro h
  have hrun := h sampleLibp2p samplePeerId none (.at 0) unregisterActs
  obtain ⟨-, hrun⟩ := hrun _ rfl
  obtain ⟨-, hrun⟩ := hrun _ rfl
  obtain ⟨⟨hsticks, -⟩, -⟩ := hrun _ rfl
  have hbad := hsticks ⟨"a"⟩ samplePeerId none (by decide)
  revert hbad
  decide

end P2pa.Rendezvous
