import P2pa.Node.EventLoop

/-!
# Shutting a node down

`execute` and `shutdown` of `node.rs`, beside the event loop.  `execute` has been
called once: its task polls the event channel and then the kill signal.  The two polls
of one `select` are separate steps, since the other tasks go on between them.
-/

namespace P2pa.Node.Shutdown

inductive Execute
  | spawned
  | pollEvent
  | pollKill
  | parked
  | calling (event : Event)
  | ended
deriving DecidableEq

structure System where
  loop : World
  execute : Execute
  /-- How many events of the channel the task of `execute` has received. -/
  received : Nat
  /-- `kill_resp` is still in its mutex. -/
  killResp : Bool
  /-- `kill_req` is still in its mutex. -/
  killReq : Bool
  killSignal : Bool
  isKilled : Bool
  /-- The calls of `shutdown` between their two statements. -/
  signalling : Nat
  /-- Whether a call of `shutdown` has returned. -/
  returned : Bool

def initial (inner : NodeInner) : System where
  loop := Node.initial inner
  execute := .spawned
  received := 0
  killResp := true
  killReq := true
  killSignal := false
  isKilled := false
  signalling := 0
  returned := false

inductive Act
  | loop (a : Node.Act)
  | shutdown
  | kill
  | start
  | pollEvent
  | pollKill
  | wake
  | callback (ok : Bool)

def System.isDown (s : System) : Bool := s.isKilled

/-- The event channel is closed and empty: the loop, which owns the sender, is gone,
and all that it sent has been received. -/
def System.drained (s : System) : Bool :=
  s.loop.mode.isStopped && decide (s.loop.toClient.length ≤ s.received)

def System.pending (s : System) : Option Event := s.loop.toClient[s.received]?

/-- What wakes the task of `execute` once both polls were pending. -/
def System.ready (s : System) : Bool :=
  s.pending.isSome || s.loop.mode.isStopped || s.killSignal

def step (lib : Libp2p) (s : System) : Act → Option System
  | .loop .dropNode =>
      -- the client and the task of `execute` own the `Node`
      none
  | .loop a => (Node.step lib s.loop a).map fun loop => { s with loop }
  | .shutdown =>
      -- without a receiver the command is not sent, and `shutdown` returns the error
      if s.loop.mode.isStopped then some { s with returned := true }
      else some { s with loop := s.loop.send .shutdown, signalling := s.signalling + 1 }
  | .kill =>
      if s.signalling = 0 then none
      else
        some { s with
          signalling := s.signalling - 1
          killReq := false
          killSignal := s.killSignal || s.killReq
          returned := true }
  | .start =>
      match s.execute with
      | .spawned =>
          some { s with
            killResp := false
            execute := if s.killResp then .pollEvent else .ended }
      | _ => none
  | .pollEvent =>
      match s.execute with
      | .pollEvent =>
          match s.pending with
          | some event =>
              some { s with received := s.received + 1, execute := .calling event }
          | none =>
              some { s with execute := if s.loop.mode.isStopped then .ended else .pollKill }
      | _ => none
  | .pollKill =>
      match s.execute with
      | .pollKill =>
          if s.killSignal then some { s with isKilled := true, execute := .ended }
          else some { s with execute := .parked }
      | _ => none
  | .wake =>
      match s.execute with
      | .parked => if s.ready then some { s with execute := .pollEvent } else none
      | _ => none
  | .callback ok =>
      match s.execute with
      | .calling _ => some { s with execute := if ok then .pollEvent else .ended }
      | _ => none

/-- The steps of the event loop and of the task of `execute`.  An event of the swarm
comes from outside, and so do the calls of the client. -/
def Act.ofTask : Act → Bool
  | .loop (.command _) | .loop .recvError | .loop .timeout => true
  | .start | .pollEvent | .pollKill | .wake | .callback _ => true
  | _ => false

/-- Neither task can take another step. -/
def Quiescent (lib : Libp2p) (s : System) : Prop :=
  ∀ a, a.ofTask = true → step lib s a = none

/-- The condition on a step: the task of `execute` does not poll the event channel
after the last event of a loop that is gone, and no callback fails. -/
def ObservedStep (s : System) : Act → Prop
  | .pollEvent => s.drained = false
  | .callback ok => ok = true
  | _ => True

/-! ## What a step does to the task of `execute` -/

/-- A call of `shutdown` that has returned has sent the kill signal, or has found the
loop gone; the task of `execute` does not end by finding no `kill_resp`, and sets the
flag only at its end. -/
structure ShutdownInv (s : System) : Prop where
  taken : s.killReq = false → s.killSignal = true
  returned : s.returned = true → s.killSignal = true ∨ s.loop.mode.isStopped = true
  spawned : s.execute = .spawned → s.killResp = true
  running : s.execute ≠ .ended → s.isKilled = false

theorem shutdownInv_initial (inner : NodeInner) : ShutdownInv (initial inner) where
  taken := nofun
  returned := nofun
  spawned _ := rfl
  running _ := rfl

/-- A loop that has stopped stays so. -/
theorem loop_isStopped {lib : Libp2p} {w w' : World} {a : Node.Act}
    (hstep : Node.step lib w a = some w') (hw : w.mode.isStopped = true) :
    w'.mode.isStopped = true := by
  cases step_transition hstep with
  | send cmd halive =>
      rw [World.send, if_pos hw]
      exact hw
  | dropNode halive => exact hw
  | command o cmd rest hmode hcommands =>
      rw [hmode] at hw
      cases hw
  | recvError hmode => exact hw
  | receive o event hmode =>
      rw [hmode] at hw
      cases hw
  | shake o event hs hmode =>
      rw [hmode] at hw
      cases hw
  | timeout hs hmode =>
      rw [hmode] at hw
      cases hw

inductive Transition (lib : Libp2p) (s : System) : Act → System → Prop
  | loop (a : Node.Act) (loop : World) (hloop : Node.step lib s.loop a = some loop) :
      Transition lib s (.loop a) { s with loop }
  | refused (hstopped : s.loop.mode.isStopped = true) :
      Transition lib s .shutdown { s with returned := true }
  | shutdown (hrunning : s.loop.mode.isStopped = false) :
      Transition lib s .shutdown
        { s with loop := s.loop.send .shutdown, signalling := s.signalling + 1 }
  | kill :
      Transition lib s .kill { s with
        signalling := s.signalling - 1
        killReq := false
        killSignal := s.killSignal || s.killReq
        returned := true }
  | start (hexecute : s.execute = .spawned) :
      Transition lib s .start { s with
        killResp := false
        execute := if s.killResp then .pollEvent else .ended }
  | received (event : Event) (hexecute : s.execute = .pollEvent)
      (hpending : s.pending = some event) :
      Transition lib s .pollEvent
        { s with received := s.received + 1, execute := .calling event }
  | notReceived (hexecute : s.execute = .pollEvent) (hpending : s.pending = none) :
      Transition lib s .pollEvent
        { s with execute := if s.loop.mode.isStopped then .ended else .pollKill }
  | killed (hexecute : s.execute = .pollKill) (hsignal : s.killSignal = true) :
      Transition lib s .pollKill { s with isKilled := true, execute := .ended }
  | park (hexecute : s.execute = .pollKill) :
      Transition lib s .pollKill { s with execute := .parked }
  | wake (hexecute : s.execute = .parked) :
      Transition lib s .wake { s with execute := .pollEvent }
  | callback (ok : Bool) (event : Event) (hexecute : s.execute = .calling event) :
      Transition lib s (.callback ok) { s with execute := if ok then .pollEvent else .ended }

section Step

variable {lib : Libp2p} {s t : System} {a : Act}

theorem system_transition (h : step lib s a = some t) : Transition lib s a t := by
  cases a with
  | loop a =>
      have hmap : ∃ loop, Node.step lib s.loop a = some loop ∧ { s with loop } = t := by
        cases a with
        | dropNode => cases h
        | _ => exact Option.map_eq_some_iff.mp h
      obtain ⟨loop, hloop, ht⟩ := hmap
      rw [← ht]
      exact .loop a loop hloop
  | shutdown =>
      simp only [step] at h
      split at h
      · rename_i hstopped
        cases h
        exact .refused hstopped
      · rename_i hrunning
        cases h
        exact .shutdown (Bool.eq_false_of_not_eq_true hrunning)
  | kill =>
      simp only [step, Option.ite_none_left_eq_some, Option.some.injEq] at h
      rw [← h.2]
      exact .kill
  | start =>
      simp only [step] at h
      split at h
      · rename_i hexecute
        cases h
        exact .start hexecute
      · cases h
  | pollEvent =>
      simp only [step] at h
      split at h
      · rename_i hexecute
        split at h
        · rename_i event hpending
          cases h
          exact .received event hexecute hpending
        · rename_i hpending
          cases h
          exact .notReceived hexecute hpending
      · cases h
  | pollKill =>
      simp only [step] at h
      split at h
      · rename_i hexecute
        split at h
        · rename_i hsignal
          cases h
          exact .killed hexecute hsignal
        · cases h
          exact .park hexecute
      · cases h
  | wake =>
      simp only [step] at h
      split at h
      · rename_i hexecute
        simp only [Option.ite_none_right_eq_some, Option.some.injEq] at h
        rw [← h.2]
        exact .wake hexecute
      · cases h
  | callback ok =>
      simp only [step] at h
      split at h
      · rename_i event hexecute
        cases h
        exact .callback ok event hexecute
      · cases h

theorem drained_iff (s : System) :
    s.drained = true ↔ s.loop.mode.isStopped = true ∧ s.pending = none := by
  rw [System.drained, System.pending, Bool.and_eq_true, decide_eq_true_iff,
    List.getElem?_eq_none_iff]

theorem shutdownInv_step (h : ShutdownInv s) (hstep : step lib s a = some t) :
    ShutdownInv t := by
  -- only a task that has not ended polls, wakes up or is called back
  have hkilled : ∀ {e}, s.execute = e → e ≠ .ended → s.isKilled = false := by
    rintro e rfl hrunning
    exact h.running hrunning
  cases system_transition hstep with
  | loop a loop hloop =>
      refine ⟨h.taken, fun hreturned => ?_, h.spawned, h.running⟩
      rcases h.returned hreturned with hsignal | hstopped
      · exact .inl hsignal
      · exact .inr (loop_isStopped hloop hstopped)
  | refused hstopped => exact ⟨h.taken, fun _ => .inr hstopped, h.spawned, h.running⟩
  | shutdown hrunning =>
      refine ⟨h.taken, fun hreturned => ?_, h.spawned, h.running⟩
      rcases h.returned hreturned with hsignal | hstopped
      · exact .inl hsignal
      · rw [hrunning] at hstopped
        cases hstopped
  | kill =>
      have hsignal : (s.killSignal || s.killReq) = true := by
        cases hreq : s.killReq with
        | true => simp
        | false => simp [h.taken hreq]
      exact ⟨fun _ => hsignal, fun _ => .inl hsignal, h.spawned, h.running⟩
  | start hexecute =>
      rw [h.spawned hexecute, if_pos rfl]
      exact ⟨h.taken, h.returned, nofun, fun _ => hkilled hexecute nofun⟩
  | received event hexecute hpending =>
      exact ⟨h.taken, h.returned, nofun, fun _ => hkilled hexecute nofun⟩
  | notReceived hexecute hpending =>
      refine ⟨h.taken, h.returned, ?_, fun _ => hkilled hexecute nofun⟩
      cases s.loop.mode.isStopped <;> nofun
  | killed hexecute hsignal =>
      exact ⟨h.taken, h.returned, nofun, fun hrunning => absurd rfl hrunning⟩
  | park hexecute => exact ⟨h.taken, h.returned, nofun, fun _ => hkilled hexecute nofun⟩
  | wake hexecute => exact ⟨h.taken, h.returned, nofun, fun _ => hkilled hexecute nofun⟩
  | callback ok event hexecute =>
      refine ⟨h.taken, h.returned, ?_, fun _ => hkilled hexecute nofun⟩
      cases ok <;> nofun

/-! ## How the task of `execute` ends -/

theorem ended_step (hstep : step lib s a = some t) (hended : s.execute = .ended) :
    t.execute = .ended ∧ (t.isKilled = true ↔ s.isKilled = true) ∧ ObservedStep s a := by
  have habsurd : ∀ {e}, s.execute = e → e ≠ .ended → False := by
    rintro e rfl hrunning
    exact hrunning hended
  cases system_transition hstep with
  | loop a loop hloop => exact ⟨hended, Iff.rfl, trivial⟩
  | refused hstopped => exact ⟨hended, Iff.rfl, trivial⟩
  | shutdown hrunning => exact ⟨hended, Iff.rfl, trivial⟩
  | kill => exact ⟨hended, Iff.rfl, trivial⟩
  | start hexecute => exact (habsurd hexecute nofun).elim
  | received event hexecute hpending => exact (habsurd hexecute nofun).elim
  | notReceived hexecute hpending => exact (habsurd hexecute nofun).elim
  | killed hexecute hsignal => exact (habsurd hexecute nofun).elim
  | park hexecute => exact (habsurd hexecute nofun).elim
  | wake hexecute => exact (habsurd hexecute nofun).elim
  | callback ok event hexecute => exact (habsurd hexecute nofun).elim

/-- A step of a task that has not ended meets the condition exactly when it does not
end the task without setting the flag. -/
theorem running_step (h : ShutdownInv s) (hstep : step lib s a = some t)
    (hrunning : s.execute ≠ .ended) :
    ObservedStep s a ↔ (t.execute = .ended → t.isKilled = true) := by
  have hkilled : s.isKilled = false := h.running hrunning
  cases system_transition hstep with
  | loop a loop hloop => exact iff_of_true trivial fun hended => absurd hended hrunning
  | refused hstopped => exact iff_of_true trivial fun hended => absurd hended hrunning
  | shutdown _ => exact iff_of_true trivial fun hended => absurd hended hrunning
  | kill => exact iff_of_true trivial fun hended => absurd hended hrunning
  | start hexecute =>
      rw [h.spawned hexecute, if_pos rfl]
      exact iff_of_true trivial nofun
  | received event hexecute hpending =>
      refine iff_of_true ?_ nofun
      change s.drained = false
      rw [Bool.eq_false_iff, Ne, drained_iff, hpending]
      rintro ⟨-, hnone⟩
      cases hnone
  | notReceived hexecute hpending =>
      -- the closed channel, if the loop is gone
      change s.drained = false ↔ _
      rw [Bool.eq_false_iff, Ne, drained_iff]
      cases hstopped : s.loop.mode.isStopped with
      | true => simp [hpending, hkilled]
      | false => simp
  | killed hexecute hsignal => exact iff_of_true trivial fun _ => rfl
  | park hexecute => exact iff_of_true trivial nofun
  | wake hexecute => exact iff_of_true trivial nofun
  | callback ok event hexecute =>
      change ok = true ↔ _
      cases ok with
      | true => simp
      | false => simp [hkilled]

/-- Once a call of `shutdown` has returned, the task of `execute` is only at rest at
its end. -/
theorem ended_of_quiescent (h : ShutdownInv s) (hreturned : s.returned = true)
    (hquiet : Quiescent lib s) : s.execute = .ended := by
  have hready : s.ready = true := by
    rw [System.ready]
    rcases h.returned hreturned with hsignal | hstopped
    · rw [hsignal, Bool.or_true]
    · rw [hstopped, Bool.or_true, Bool.true_or]
  cases hexecute : s.execute with
  | ended => rfl
  | spawned =>
      have hstart := hquiet .start rfl
      simp [step, hexecute] at hstart
  | pollEvent =>
      have hpoll := hquiet .pollEvent rfl
      simp only [step, hexecute] at hpoll
      split at hpoll <;> cases hpoll
  | pollKill =>
      have hpoll := hquiet .pollKill rfl
      simp only [step, hexecute] at hpoll
      split at hpoll <;> cases hpoll
  | parked =>
      have hwake := hquiet .wake rfl
      simp [step, hexecute, hready] at hwake
  | calling event =>
      have hcallback := hquiet (.callback true) rfl
      simp [step, hexecute] at hcallback

theorem quiescent_of_ended (hexecute : s.execute = .ended) {result : Except Error Unit}
    (hmode : s.loop.mode = .stopped result) : Quiescent lib s := by
  intro a ha
  cases a with
  | loop a => cases a <;> simp_all [step, Node.step, Act.ofTask]
  | shutdown => cases ha
  | kill => cases ha
  | _ => simp [step, hexecute]

end Step

/-- Once `shutdown` has returned and neither task can go on, the node is down exactly
when no step of the run was one of the two that end the task of `execute` unseen. -/
theorem shutdown_observable_iff (lib : Libp2p) (inner : NodeInner) (acts : List Act)
    (s : System) (hrun : Machine.run (step lib) (initial inner) acts = some s)
    (hreturned : s.returned = true) (hquiet : Quiescent lib s) :
    s.isDown = true ↔
      Machine.Along (step lib) (fun s a _ => ObservedStep s a) (initial inner) acts := by
  have hinit : ShutdownInv (initial inner) := shutdownInv_initial inner
  have hinv : ShutdownInv s :=
    Machine.run_invariant ShutdownInv (fun _ _ _ h hstep => shutdownInv_step h hstep) hinit hrun
  have hended : s.execute = .ended := ended_of_quiescent hinv hreturned hquiet
  apply Machine.good_iff_along ShutdownInv (fun s => s.execute = .ended)
    (fun s => s.isKilled = true)
  · exact fun _ _ _ h hstep => shutdownInv_step h hstep
  · exact fun _ _ _ _ hstep hended => ended_step hstep hended
  · exact fun _ _ _ h hstep hrunning => running_step h hstep hrunning
  · exact hinit
  · exact nofun
  · exact hrun
  · exact hended

theorem shutdown_observable_sample :
    ∃ s, Machine.run (step sampleLibp2p) (initial sampleInner)
        [.start, .pollEvent, .shutdown, .kill, .pollKill, .loop (.command sampleOracle)] =
          some s ∧
      (s.isDown = true ↔
        Machine.Along (step sampleLibp2p) (fun s a _ => ObservedStep s a) (initial sampleInner)
          [.start, .pollEvent, .shutdown, .kill, .pollKill,
            .loop (.command sampleOracle)]) := by
  refine ⟨_, rfl, ?_⟩
  apply shutdown_observable_iff _ _ _ _ rfl rfl
  exact quiescent_of_ended rfl rfl

/-- The loop handles the `Shutdown` before the task of `execute` polls again: the task
finds the event channel closed, and never looks at the kill signal. -/
theorem shutdown_observable_fails :
    ¬ ∀ lib inner acts s, Machine.run (step lib) (initial inner) acts = some s →
      s.returned = true → Quiescent lib s → s.isDown = true := by
  intro h
  have hdown := h sampleLibp2p sampleInner
    [.start, .shutdown, .kill, .loop (.command sampleOracle), .pollEvent] _ rfl rfl
    (quiescent_of_ended rfl rfl)
  cases hdown

end P2pa.Node.Shutdown
