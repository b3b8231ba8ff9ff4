import P2pa.Rendezvous.Behaviour
import P2pa.Support.Machine

/-!
# Where the cookies of discover requests come from

Runs of the rendezvous behaviour with the answers its discover requests have got.
An answer answers a request that is in flight, and a cookie is bound to the server
and the namespace it was handed out for.  The behaviour keeps one cookie, the one of
the latest answer, and every request carries it.
-/

namespace P2pa.Rendezvous

open Utils

structure Answer where
  node : PeerId
  ns : Namespace
  cookie : Cookie
deriving DecidableEq, Repr

structure World where
  behaviour : Behaviour
  /-- The answers received, the latest one last. -/
  answers : List Answer
deriving Repr

inductive Act
  | register (rdvzNode : Multiaddr) (ns : String)
  | unregister (ns : String)
  | discover (rdvzNode : Multiaddr) (ns : String)
  | swarm (event : FromSwarm)
  | answer (answer : Answer) (registrations : List Registration)
  | clientEvent (ns : Option Namespace)
  | tick (now : Instant)
  | emit

structure Request where
  node : PeerId
  ns : Option Namespace
  cookie : Option Cookie
deriving DecidableEq, Repr

def requestOf : RdvzCall → Option Request
  | .discover ns cookie _ node => some { node, ns, cookie }
  | _ => none

def requests (b : Behaviour) : List Request := b.rdvz.filterMap requestOf

/-- The server and the namespace were asked more often than they have answered. -/
def World.InFlight (w : World) (node : PeerId) (ns : Namespace) : Prop :=
  (w.answers.filter fun a => a.node = node ∧ a.ns = ns).length <
    ((requests w.behaviour).filter fun r => r.node = node ∧ r.ns = some ns).length

/-- No other server or namespace has handed out this cookie. -/
def World.Bound (w : World) (answer : Answer) : Prop :=
  ∀ a ∈ w.answers, a.cookie = answer.cookie → a = answer

instance (w : World) (node : PeerId) (ns : Namespace) : Decidable (w.InFlight node ns) :=
  inferInstanceAs (Decidable (_ < _))

instance (w : World) (answer : Answer) : Decidable (w.Bound answer) :=
  inferInstanceAs (Decidable (∀ a ∈ _, _))

def initial (currentId : PeerId) (ttl : Option UInt64) (timeout : Mdns.Timer) : World where
  behaviour := empty currentId ttl timeout
  answers := []

/-- A call that fails leaves the behaviour as it is. -/
def settle (b : Behaviour) : Except Error Behaviour → Behaviour
  | .ok b' => b'
  | .error _ => b

theorem settle_eq (b : Behaviour) (result : Except Error Behaviour) :
    settle b result = result.toOption.getD b := by
  cases result <;> rfl

def step (lib : Libp2p) (w : World) : Act → Option World
  | .register node ns =>
      some { w with behaviour := settle w.behaviour (register lib w.behaviour node ns) }
  | .unregister ns =>
      some { w with behaviour := settle w.behaviour (unregister lib w.behaviour ns) }
  | .discover node ns =>
      some { w with behaviour := settle w.behaviour (discover lib w.behaviour node ns) }
  | .swarm event => some { w with behaviour := onSwarmEvent w.behaviour event }
  | .answer answer registrations =>
      if w.InFlight answer.node answer.ns ∧ w.Bound answer then
        some {
          behaviour :=
            handleEvent w.behaviour (.discovered answer.node registrations answer.cookie)
          answers := w.answers ++ [answer] }
      else none
  | .clientEvent ns =>
      some { w with
        behaviour := handleEvent w.behaviour (ns.elim .other ClientEvent.registered) }
  | .tick now =>
      if w.behaviour.timeout.start ≤ now then
        (tick w.behaviour now).map fun behaviour => { w with behaviour }
      else none
  | .emit => some { w with behaviour := (emit w.behaviour).1 }

/-- Every discover request carries no cookie or one its server returned for its
namespace. -/
def CookiesMatch (w : World) : Prop :=
  ∀ r ∈ requests w.behaviour, ∀ cookie, r.cookie = some cookie →
    ∃ a ∈ w.answers, a.node = r.node ∧ some a.ns = r.ns ∧ a.cookie = cookie

/-- When a connection dialled at the address of a discovery is established, the latest
answer, if there is one, was the peer's, for the namespace to discover. -/
def CookieStep (w : World) : Act → Prop
  | .swarm (.connectionEstablished peerId (.dialer address)) =>
      ∀ ns, (address, ns) ∈ w.behaviour.discovery →
        ∀ a ∈ w.answers.getLast?, a.node = peerId ∧ a.ns = ns
  | _ => True

/-! ## What each function does to the requests and the cookie -/

def cookiePart (b : Behaviour) : List Request × Option Cookie := (requests b, b.cookie)

theorem requests_append (b : Behaviour) (calls : List RdvzCall) :
    requests { b with rdvz := b.rdvz ++ calls } = requests b ++ calls.filterMap requestOf := by
  unfold requests
  rw [List.filterMap_append]

theorem filterMap_requestOf_eq_nil {calls : List RdvzCall}
    (h : ∀ call ∈ calls, requestOf call = none) : calls.filterMap requestOf = [] := by
  rw [List.filterMap_eq_nil_iff]
  exact h

theorem register_cookiePart (lib : Libp2p) (b : Behaviour) (node : Multiaddr) (ns : String) :
    cookiePart (settle b (register lib b node ns)) = cookiePart b := by
  unfold register
  split <;> rfl

theorem discover_cookiePart (lib : Libp2p) (b : Behaviour) (node : Multiaddr) (ns : String) :
    cookiePart (settle b (discover lib b node ns)) = cookiePart b := by
  unfold discover
  split <;> rfl

theorem unregister_cookiePart (lib : Libp2p) (b : Behaviour) (ns : String) :
    cookiePart (settle b (unregister lib b ns)) = cookiePart b := by
  unfold unregister
  split
  · dsimp only [settle, cookiePart]
    rw [requests_append, filterMap_requestOf_eq_nil, List.append_nil]
    intro call hcall
    obtain ⟨⟨point, ns'⟩, -, hcall⟩ := List.mem_filterMap.mp hcall
    dsimp only at hcall
    split at hcall
    · split at hcall
      · cases hcall
        rfl
      · cases hcall
    · cases hcall
  · rfl

theorem registerAll_cookiePart (b : Behaviour) :
    cookiePart (registerAll b) = cookiePart b := by
  unfold registerAll
  dsimp only [cookiePart]
  rw [requests_append, filterMap_requestOf_eq_nil, List.append_nil]
  intro call hcall
  obtain ⟨⟨point, ns⟩, -, hcall⟩ := List.mem_filterMap.mp hcall
  dsimp only at hcall
  split at hcall
  · cases hcall
    rfl
  · cases hcall

theorem tick_cookiePart {b b' : Behaviour} {now : Instant} (h : tick b now = some b') :
    cookiePart b' = cookiePart b := by
  unfold tick at h
  obtain ⟨timeout, -, rfl⟩ := Option.map_eq_some_iff.mp h
  exact registerAll_cookiePart b

theorem emit_cookiePart (b : Behaviour) : cookiePart (emit b).1 = cookiePart b := by
  unfold emit
  split <;> rfl

/-- The requests of a new connection: one for each namespace to discover at its address,
with the cookie kept. -/
theorem connected_requests (b : Behaviour) (peerId : PeerId) (address : Multiaddr) :
    requests (onSwarmEvent b (.connectionEstablished peerId (.dialer address))) =
      requests b ++ (b.discovery.filter fun d => address = d.1).map fun d =>
        { node := peerId, ns := some d.2, cookie := b.cookie } := by
  have hregisters : ((b.registrations.filter fun r => address = r.1).map fun r =>
      RdvzCall.register r.2 peerId b.ttl).filterMap requestOf = [] := by
    apply filterMap_requestOf_eq_nil
    intro call hcall
    obtain ⟨r, -, rfl⟩ := List.mem_map.mp hcall
    rfl
  have hdiscovers : ((b.discovery.filter fun d => address = d.1).map fun d =>
      RdvzCall.discover (some d.2) b.cookie none peerId).filterMap requestOf =
      (b.discovery.filter fun d => address = d.1).map fun d =>
        { node := peerId, ns := some d.2, cookie := b.cookie } := by
    rw [List.filterMap_map, ← List.filterMap_eq_map]
    rfl
  unfold onSwarmEvent connected requests
  dsimp only
  rw [List.filterMap_append, List.filterMap_append, List.filterMap_append, hregisters,
    hdiscovers, List.append_nil]
  exact List.append_nil _

theorem onSwarmEvent_cookiePart (b : Behaviour) {event : FromSwarm}
    (h : ∀ peerId address, event ≠ .connectionEstablished peerId (.dialer address)) :
    cookiePart (onSwarmEvent b event) = cookiePart b := by
  unfold onSwarmEvent
  dsimp only [cookiePart]
  rw [requests_append]
  cases event with
  | connectionEstablished peerId endpoint =>
      cases endpoint with
      | dialer address => exact absurd rfl (h peerId address)
      | listener localAddr sendBackAddr => exact congrArg (·, _) (List.append_nil _)
  | newListener =>
      have hall := registerAll_cookiePart b
      simp only [cookiePart, Prod.mk.injEq] at hall
      exact Prod.ext ((List.append_nil _).trans hall.1) hall.2
  | other => exact congrArg (·, _) (List.append_nil _)

/-! ## Steps -/

theorem step_cases {lib : Libp2p} {w w' : World} {a : Act} (hstep : step lib w a = some w') :
    (∃ peerId address, a = .swarm (.connectionEstablished peerId (.dialer address)) ∧
      requests w'.behaviour = requests w.behaviour ++
        ((w.behaviour.discovery.filter fun d => address = d.1).map fun d =>
          { node := peerId, ns := some d.2, cookie := w.behaviour.cookie }) ∧
      w'.behaviour.cookie = w.behaviour.cookie ∧ w'.answers = w.answers) ∨
    (∃ answer, CookieStep w a ∧ w.Bound answer ∧
      requests w'.behaviour = requests w.behaviour ∧
      w'.behaviour.cookie = some answer.cookie ∧ w'.answers = w.answers ++ [answer]) ∨
    (CookieStep w a ∧ cookiePart w'.behaviour = cookiePart w.behaviour ∧
      w'.answers = w.answers) := by
  cases a with
  | register node ns =>
      cases hstep
      exact .inr (.inr ⟨trivial, register_cookiePart _ _ _ _, rfl⟩)
  | unregister ns =>
      cases hstep
      exact .inr (.inr ⟨trivial, unregister_cookiePart _ _ _, rfl⟩)
  | discover node ns =>
      cases hstep
      exact .inr (.inr ⟨trivial, discover_cookiePart _ _ _ _, rfl⟩)
  | swarm event =>
      cases hstep
      by_cases hdialed : ∃ peerId address,
          event = .connectionEstablished peerId (.dialer address)
      · obtain ⟨peerId, address, rfl⟩ := hdialed
        exact .inl ⟨peerId, address, rfl, connected_requests _ _ _, rfl, rfl⟩
      · have hother : ∀ peerId address,
            event ≠ .connectionEstablished peerId (.dialer address) :=
          fun peerId address heq => hdialed ⟨peerId, address, heq⟩
        refine .inr (.inr ⟨?_, onSwarmEvent_cookiePart _ hother, rfl⟩)
        unfold CookieStep
        split
        · next heq =>
            cases heq
            exact absurd rfl (hother _ _)
        · trivial
  | answer answer registrations =>
      simp only [step, Option.ite_none_right_eq_some, Option.some.injEq] at hstep
      obtain ⟨⟨-, hbound⟩, rfl⟩ := hstep
      exact .inr (.inl ⟨answer, trivial, hbound, rfl, rfl, rfl⟩)
  | clientEvent ns =>
      cases hstep
      cases ns <;> exact .inr (.inr ⟨trivial, rfl, rfl⟩)
  | tick now =>
      simp only [step, Option.ite_none_right_eq_some, Option.map_eq_some_iff] at hstep
      obtain ⟨-, b, hb, rfl⟩ := hstep
      exact .inr (.inr ⟨trivial, tick_cookiePart hb, rfl⟩)
  | emit =>
      cases hstep
      exact .inr (.inr ⟨trivial, emit_cookiePart _, rfl⟩)

/-- The cookie kept is the one of the latest answer, and a cookie tells its answer. -/
structure CookieInv (w : World) : Prop where
  cookie : w.behaviour.cookie = w.answers.getLast?.map Answer.cookie
  bound : ∀ a ∈ w.answers, ∀ a' ∈ w.answers, a.cookie = a'.cookie → a = a'

theorem cookieInv_initial (currentId : PeerId) (ttl : Option UInt64) (timeout : Mdns.Timer) :
    CookieInv (initial currentId ttl timeout) := ⟨rfl, nofun⟩

theorem cookieInv_step {lib : Libp2p} {w w' : World} {a : Act} (h : CookieInv w)
    (hstep : step lib w a = some w') : CookieInv w' := by
  rcases step_cases hstep with ⟨_, _, _, _, hcookie, hanswers⟩ |
    ⟨answer, -, hbound, -, hcookie, hanswers⟩ | ⟨-, hpart, hanswers⟩
  · constructor
    · rw [hcookie, hanswers]
      exact h.cookie
    · rw [hanswers]
      exact h.bound
  · constructor
    · rw [hcookie, hanswers, List.getLast?_concat]
      rfl
    · intro x hx y hy hxy
      rw [hanswers, List.mem_append, List.mem_singleton] at hx hy
      rcases hx with hx | rfl
      · rcases hy with hy | rfl
        · exact h.bound x hx y hy hxy
        · exact hbound x hx hxy
      · rcases hy with hy | rfl
        · exact (hbound y hy hxy.symm).symm
        · rfl
  · have hcookie : w'.behaviour.cookie = w.behaviour.cookie := congrArg Prod.snd hpart
    constructor
    · rw [hcookie, hanswers]
      exact h.cookie
    · rw [hanswers]
      exact h.bound

/-- From a state where the cookies match, they match after a step exactly when the step
meets the condition. -/
theorem cookiesMatch_step_iff {lib : Libp2p} {w w' : World} {a : Act} (h : CookieInv w)
    (hmatch : CookiesMatch w) (hstep : step lib w a = some w') :
    CookiesMatch w' ↔ CookieStep w a := by
  rcases step_cases hstep with ⟨peerId, address, rfl, hrequests, -, hanswers⟩ |
    ⟨answer, hok, -, hrequests, -, hanswers⟩ | ⟨hok, hpart, hanswers⟩
  · constructor
    · intro hmatch' ns hns a ha
      have hcookie : w.behaviour.cookie = some a.cookie := by
        rw [h.cookie, Option.mem_def.mp ha]
        rfl
      have hmem : (⟨peerId, some ns, w.behaviour.cookie⟩ : Request) ∈
          requests w'.behaviour := by
        rw [hrequests, List.mem_append, List.mem_map]
        refine .inr ⟨(address, ns), ?_, rfl⟩
        rw [List.mem_filter]
        exact ⟨hns, decide_eq_true rfl⟩
      obtain ⟨a', ha', hnode, hns', hcookie'⟩ := hmatch' _ hmem a.cookie hcookie
      rw [hanswers] at ha'
      have heq : a = a' := h.bound a (List.mem_of_getLast? ha) a' ha' hcookie'.symm
      rw [heq]
      exact ⟨hnode, Option.some.inj hns'⟩
    · intro hok r hr cookie hcookie
      rw [hrequests, List.mem_append, List.mem_map] at hr
      rw [hanswers]
      rcases hr with hr | ⟨d, hd, rfl⟩
      · exact hmatch r hr cookie hcookie
      · obtain ⟨hd, haddr⟩ := List.mem_filter.mp hd
        rw [decide_eq_true_eq] at haddr
        have hlast : w.answers.getLast?.map Answer.cookie = some cookie := by
          rw [← h.cookie]
          exact hcookie
        obtain ⟨a, ha, rfl⟩ := Option.map_eq_some_iff.mp hlast
        have hd' : (address, d.2) ∈ w.behaviour.discovery := by
          rw [haddr]
          exact hd
        obtain ⟨hnode, hns⟩ := hok d.2 hd' a ha
        exact ⟨a, List.mem_of_getLast? ha, hnode, congrArg some hns, rfl⟩
  · refine iff_of_true ?_ hok
    intro r hr cookie hcookie
    rw [hrequests] at hr
    obtain ⟨a, ha, hrest⟩ := hmatch r hr cookie hcookie
    rw [hanswers]
    exact ⟨a, List.mem_append_left _ ha, hrest⟩
  · refine iff_of_true ?_ hok
    have hrequests : requests w'.behaviour = requests w.behaviour := congrArg Prod.fst hpart
    unfold CookiesMatch
    rw [hrequests, hanswers]
    exact hmatch

/-! ## Runs -/

/-- Along a run every discover request carries no cookie or one its server returned for
its namespace, exactly when every step meets the condition. -/
theorem cookies_match_iff (lib : Libp2p) (currentId : PeerId) (ttl : Option UInt64)
    (timeout : Mdns.Timer) (acts : List Act) :
    Machine.Along (step lib) (fun _ _ w' => CookiesMatch w')
        (initial currentId ttl timeout) acts ↔
      Machine.Along (step lib) (fun w a _ => CookieStep w a)
        (initial currentId ttl timeout) acts := by
  apply Machine.along_iff_of_invariant fun w => CookieInv w ∧ CookiesMatch w
  · intro w a w' h hstep hok
    have hmatch := (cookiesMatch_step_iff h.1 h.2 hstep).mpr hok
    exact ⟨⟨cookieInv_step h.1 hstep, hmatch⟩, hmatch⟩
  · intro w a w' h hstep hmatch
    exact (cookiesMatch_step_iff h.1 h.2 hstep).mp hmatch
  · exact ⟨cookieInv_initial currentId ttl timeout, nofun⟩

/-- Two namespaces are discovered at one rendezvous point.  After the answer for the
first, a new connection asks for the second with the cookie of the first. -/
theorem cookies_match_fails :
    ¬ ∀ lib currentId ttl timeout acts,
      Machine.Along (step lib) (fun _ _ w' => CookiesMatch w')
        (initial currentId ttl timeout) acts := by
  intro h
  let point := sampleAddr.push (.p2p samplePeerId)
  let connection := FromSwarm.connectionEstablished samplePeerId (.dialer point)
  let answer : Answer := ⟨samplePeerId, ⟨"a"⟩, ⟨1, some ⟨"a"⟩⟩⟩
  have hrun := h sampleLibp2p samplePeerId none (.at 0)
    [.discover point "a", .discover point "b", .swarm connection, .answer answer [],
      .swarm connection]
  obtain ⟨-, hrun⟩ := hrun _ rfl
  obtain ⟨-, hrun⟩ := hrun _ rfl
  obtain ⟨-, hrun⟩ := hrun _ rfl
  obtain ⟨-, hrun⟩ := hrun _ rfl
  obtain ⟨hmatch, -⟩ := hrun _ rfl
  have hbad := hmatch ⟨samplePeerId, some ⟨"b"⟩, some answer.cookie⟩ (by decide)
    answer.cookie rfl
  revert hbad
  decide

end P2pa.Rendezvous
