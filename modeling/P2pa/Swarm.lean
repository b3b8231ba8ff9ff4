import P2pa.Libp2p
import P2pa.Utils.Backoff

/-!
# What a behaviour asks of the swarm

`ToSwarm` of libp2p-swarm and the loop with which a wrapper passes on what the wrapped
behaviour yields.  The ledger of a run has what was yielded and what was returned; it
balances when the wrapper neither loses nor repeats an action, and turns the wrapped
events into its own in order.
-/

namespace P2pa

/-- `ToSwarm`.  The data of an action that a wrapper only passes on are of type `P`. -/
inductive ToSwarm (E P : Type)
  | generateEvent (event : E)
  | dial (opts : P)
  | listenOn (opts : P)
  | removeListener (id : P)
  | notifyHandler (peerId : PeerId) (handler event : P)
  | newExternalAddrCandidate (addr : Multiaddr)
  | externalAddrConfirmed (addr : Multiaddr)
  | externalAddrExpired (addr : Multiaddr)
  | closeConnection (peerId : PeerId) (connection : P)
deriving DecidableEq, Repr

namespace ToSwarm

variable {E P : Type}

def event : ToSwarm E P → Option E
  | generateEvent event => some event
  | _ => none

def action : ToSwarm E P → Option (ToSwarm Empty P)
  | generateEvent _ => none
  | dial opts => some (dial opts)
  | listenOn opts => some (listenOn opts)
  | removeListener id => some (removeListener id)
  | notifyHandler peerId handler event => some (notifyHandler peerId handler event)
  | newExternalAddrCandidate addr => some (newExternalAddrCandidate addr)
  | externalAddrConfirmed addr => some (externalAddrConfirmed addr)
  | externalAddrExpired addr => some (externalAddrExpired addr)
  | closeConnection peerId connection => some (closeConnection peerId connection)

end ToSwarm

/-- The outcome of a `poll`: the state after it, what it returned (`none` is
`Poll::Pending`), and what of the wrapped behaviour it has not asked for. -/
structure Polled (S I E P : Type) where
  state : S
  returned : Option (ToSwarm E P)
  rest : List (ToSwarm I P)

section Forward

variable {S I E P : Type}

/-- The loop over what the wrapped behaviour yields until it is pending: an event is
handled, any other action is returned at once. -/
def forward (handle : S → I → S) : S → List (ToSwarm I P) → Polled S I E P
  | s, [] => ⟨s, none, []⟩
  | s, .generateEvent event :: rest => forward handle (handle s event) rest
  | s, .dial opts :: rest => ⟨s, some (.dial opts), rest⟩
  | s, .notifyHandler peerId handler event :: rest =>
      ⟨s, some (.notifyHandler peerId handler event), rest⟩
  | s, .closeConnection peerId connection :: rest =>
      ⟨s, some (.closeConnection peerId connection), rest⟩
  | s, .listenOn opts :: rest => ⟨s, some (.listenOn opts), rest⟩
  | s, .removeListener id :: rest => ⟨s, some (.removeListener id), rest⟩
  | s, .newExternalAddrCandidate c :: rest => ⟨s, some (.newExternalAddrCandidate c), rest⟩
  | s, .externalAddrConfirmed c :: rest => ⟨s, some (.externalAddrConfirmed c), rest⟩
  | s, .externalAddrExpired c :: rest => ⟨s, some (.externalAddrExpired c), rest⟩

/-- After the loop, when it has returned nothing: the first event of the queue. -/
def Polled.orEmit (emit : S → S × Option E) (polled : Polled S I E P) : Polled S I E P :=
  match polled.returned with
  | some _ => polled
  | none =>
      { polled with
        state := (emit polled.state).1
        returned := (emit polled.state).2.map .generateEvent }

/-- What the loop takes, it handles in order, up to an action that it returns. -/
theorem forward_spec {handle : S → I → S} {s : S} {yields : List (ToSwarm I P)}
    {polled : Polled S I E P} (h : forward handle s yields = polled) :
    ∃ taken, yields = taken ++ polled.rest ∧
      polled.state = (taken.filterMap ToSwarm.event).foldl handle s ∧
      polled.returned.toList.filterMap ToSwarm.action = taken.filterMap ToSwarm.action ∧
      polled.returned.toList.filterMap ToSwarm.event = [] := by
  induction yields generalizing s with
  | nil =>
      subst h
      exact ⟨[], rfl, rfl, rfl, rfl⟩
  | cons action rest ih =>
      cases action with
      | generateEvent event =>
          obtain ⟨taken, hrest, hstate, hactions, hevents⟩ := ih h
          refine ⟨.generateEvent event :: taken, ?_, hstate, hactions, hevents⟩
          rw [hrest, List.cons_append]
      | _ =>
          subst h
          exact ⟨[_], rfl, rfl, rfl, rfl⟩

end Forward

/-! ## The ledger of a run -/

structure Ledger (I E P : Type) where
  yielded : List (ToSwarm I P)
  returned : List (ToSwarm E P)

namespace Ledger

variable {I E P S : Type}

def empty : Ledger I E P := ⟨[], []⟩

def record (l : Ledger I E P) (yields : List (ToSwarm I P)) (polled : Polled S I E P) :
    Ledger I E P where
  yielded := l.yielded ++ yields.take (yields.length - polled.rest.length)
  returned := l.returned ++ polled.returned.toList

/-- The actions returned are those yielded, in order, and the events returned with those
in the queue are the images of those yielded, in order. -/
structure Balanced (l : Ledger I E P) (image : I → List E) (queue : List E) : Prop where
  actions : l.returned.filterMap ToSwarm.action = l.yielded.filterMap ToSwarm.action
  events : l.returned.filterMap ToSwarm.event ++ queue =
    (l.yielded.filterMap ToSwarm.event).flatMap image

/-- What one `poll` does to the queue of events, when it takes `taken` of what is
yielded. -/
structure Passes (image : I → List E) (queue queue' : List E)
    (taken : List (ToSwarm I P)) (returned : Option (ToSwarm E P)) : Prop where
  actions : returned.toList.filterMap ToSwarm.action = taken.filterMap ToSwarm.action
  events : returned.toList.filterMap ToSwarm.event ++ queue' =
    queue ++ (taken.filterMap ToSwarm.event).flatMap image

theorem balanced_empty (image : I → List E) :
    (empty : Ledger I E P).Balanced image [] := ⟨rfl, rfl⟩

theorem Balanced.record {l : Ledger I E P} {image : I → List E} {queue queue' : List E}
    (h : l.Balanced image queue) {taken yields : List (ToSwarm I P)}
    {polled : Polled S I E P} (hyields : yields = taken ++ polled.rest)
    (hpasses : Passes image queue queue' taken polled.returned) :
    (l.record yields polled).Balanced image queue' := by
  have htaken : yields.take (yields.length - polled.rest.length) = taken := by
    rw [hyields, List.length_append, Nat.add_sub_cancel, List.take_left]
  constructor
  · unfold Ledger.record
    rw [htaken, List.filterMap_append, List.filterMap_append, h.actions, hpasses.actions]
  · unfold Ledger.record
    rw [htaken, List.filterMap_append, List.filterMap_append, List.flatMap_append,
      List.append_assoc, hpasses.events, ← List.append_assoc, h.events]

end Ledger

section Wrapper

variable {S I E P : Type} {handle : S → I → S} {emit : S → S × Option E} {queue : S → List E}
  {image : I → List E} (Keeps : S → Prop)

omit Keeps in
/-- What handling an event and taking one from the queue leave alone, the loop leaves
alone. -/
theorem keeps_forward {α : Type} (part : S → α) (hhandle : ∀ s i, part (handle s i) = part s)
    (hemit : ∀ s, part (emit s).1 = part s) {s : S} {yields : List (ToSwarm I P)}
    {polled : Polled S I E P} (h : (forward handle s yields).orEmit emit = polled) :
    part polled.state = part s := by
  obtain ⟨taken, -, hstate, -, -⟩ :=
    forward_spec (rfl : forward handle s yields = (forward handle s yields : Polled S I E P))
  have hfold : ∀ (events : List I) (s : S), part (events.foldl handle s) = part s := by
    intro events
    induction events with
    | nil => exact fun s => rfl
    | cons event events ih => exact fun s => (ih (handle s event)).trans (hhandle s event)
  have hpart := hfold (taken.filterMap ToSwarm.event) s
  rw [← hstate] at hpart
  unfold Polled.orEmit at h
  split at h
  · subst h
    exact hpart
  · subst h
    exact (hemit _).trans hpart

theorem foldl_handle (hkeeps : ∀ s i, Keeps s → Keeps (handle s i))
    (himage : ∀ s i, Keeps s → queue (handle s i) = queue s ++ image i) {s : S}
    (hs : Keeps s) (events : List I) :
    Keeps (events.foldl handle s) ∧
      queue (events.foldl handle s) = queue s ++ events.flatMap image := by
  induction events generalizing s with
  | nil => exact ⟨hs, (List.append_nil _).symm⟩
  | cons event events ih =>
      obtain ⟨hkeep, hqueue⟩ := ih (hkeeps s event hs)
      refine ⟨hkeep, ?_⟩
      rw [List.foldl_cons, hqueue, himage s event hs, List.flatMap_cons, List.append_assoc]

/-- A wrapper that handles events into its queue, and returns the first of the queue when
the wrapped behaviour is pending, passes on what it takes. -/
theorem passes_forward (hkeeps : ∀ s i, Keeps s → Keeps (handle s i))
    (himage : ∀ s i, Keeps s → queue (handle s i) = queue s ++ image i)
    (hemitKeeps : ∀ s, Keeps s → Keeps (emit s).1)
    (hemit : ∀ s, (emit s).2.toList ++ queue (emit s).1 = queue s)
    {s : S} (hs : Keeps s) {yields : List (ToSwarm I P)} {polled : Polled S I E P}
    (h : (forward handle s yields).orEmit emit = polled) :
    Keeps polled.state ∧ ∃ taken, yields = taken ++ polled.rest ∧
      Ledger.Passes image (queue s) (queue polled.state) taken polled.returned := by
  obtain ⟨taken, hrest, hstate, hactions, hevents⟩ :=
    forward_spec (rfl : forward handle s yields = (forward handle s yields : Polled S I E P))
  obtain ⟨hkeep, hqueue⟩ :=
    foldl_handle Keeps hkeeps himage hs (taken.filterMap ToSwarm.event)
  rw [← hstate] at hkeep hqueue
  unfold Polled.orEmit at h
  split at h
  · next hreturned =>
      subst h
      refine ⟨hkeep, taken, hrest, hactions, ?_⟩
      rw [hevents, List.nil_append, hqueue]
  · next hreturned =>
      subst h
      refine ⟨hemitKeeps _ hkeep, taken, hrest, ?_, ?_⟩
      · rw [← hactions, hreturned]
        cases (emit (forward handle s yields : Polled S I E P).state).2 <;> rfl
      · have hemitted := hemit (forward handle s yields : Polled S I E P).state
        rw [← hqueue, ← hemitted]
        cases (emit (forward handle s yields : Polled S I E P).state).2 <;> rfl

end Wrapper

end P2pa
