import P2pa.Node.EventLoop

/-!
# What ends the event loop

A command or an event whose handling fails ends the task with the error, and with it
the node.  `CommandOk` and `EventOk` say which inputs do not fail, from the texts of
the command, the behaviours that are enabled and the answers to the dials.
-/

namespace P2pa.Node

/-! ## Which commands and events are handled without an error -/

/-- What must hold of a command for `handleCommand` not to fail. -/
def CommandOk (lib : Libp2p) (o : Oracle) (n : NodeInner) : Command → Prop
  | .dial addr =>
      ∃ a, lib.multiaddrFromStr addr = some a ∧ o.dial n.swarm.dialed a = true
  | .addKnownPeer peer address | .addBootNode peer address =>
      n.swarm.dht.isSome → (lib.peerIdFromStr peer).isSome ∧
        (lib.multiaddrFromStr address).isSome
  | .listenViaRelay address => (lib.multiaddrFromStr address).isSome
  | .register point ns | .discover point ns =>
      n.swarm.rdvz.isSome → (lib.multiaddrFromStr point).isSome ∧ (lib.namespaceNew ns).isSome
  | .unregister ns => n.swarm.rdvz.isSome → (lib.namespaceNew ns).isSome
  | _ => True

/-- Each discovered peer is dialled successfully, after the dials of those before it. -/
def DialsAccepted (lib : Libp2p) (o : Oracle) (dialed : List Multiaddr)
    (found : List (PeerId × Multiaddr)) : Prop :=
  ∀ before peer after, found = before ++ peer :: after →
    o.dial (dialed ++ before.map (addressWithP2p lib)) (addressWithP2p lib peer) = true

/-- What must hold of an event for the main loop not to end, while there is a client. -/
def EventOk (lib : Libp2p) (o : Oracle) (n : NodeInner) : SwarmEvent → Prop
  | .behaviour (.rdvz (.discovered found)) => DialsAccepted lib o n.swarm.dialed found
  | _ => True

def Outcome.Fails (outcome : Outcome) : Prop := ∃ e, outcome = .failed e

section IfEnabled

variable {B : Type} {n : NodeInner} {b : Option B} {f : B → Except Error B}
  {store : B → NodeInner} {result : NodeInner × Outcome}

theorem IfEnabled.fails_iff (h : IfEnabled n b f store result) :
    result.2.Fails ↔ ∃ x, b = some x ∧ ∃ e, f x = .error e := by
  unfold Outcome.Fails
  cases h with
  | disabled hb => simp [hb]
  | handled before after hb hf => simp [hb, hf]
  | failed before e hb hf => simp [hb, hf]

theorem IfEnabled.ne_shutdown (h : IfEnabled n b f store result) :
    result.2 ≠ .done true := by
  cases h <;> simp

end IfEnabled

theorem withDht_fails_iff (n : NodeInner) (f : Dht.Behaviour → Except Error Dht.Behaviour) :
    (withDht n f).2.Fails ↔ ∃ dht, n.swarm.dht = some dht ∧ ∃ e, f dht = .error e :=
  (withDht_ifEnabled n f).fails_iff

theorem withRdvz_fails_iff (n : NodeInner)
    (f : Rendezvous.Behaviour → Except Error Rendezvous.Behaviour) :
    (withRdvz n f).2.Fails ↔ ∃ rdvz, n.swarm.rdvz = some rdvz ∧ ∃ e, f rdvz = .error e :=
  (withRdvz_ifEnabled n f).fails_iff

theorem parsePeer_parseAddr_error_iff {α : Type} (lib : Libp2p) (peer address : String)
    (f : PeerId → Multiaddr → α) :
    (∃ e, (do
      let peer ← parsePeer lib peer
      let address ← parseAddr lib address
      .ok (f peer address) : Except Error α) = .error e) ↔
      ¬ ((lib.peerIdFromStr peer).isSome ∧ (lib.multiaddrFromStr address).isSome) := by
  unfold parsePeer parseAddr
  cases lib.peerIdFromStr peer with
  | none => simp [bind, Except.bind]
  | some p => cases lib.multiaddrFromStr address <;> simp [bind, Except.bind]

theorem parseAddr_namespace_error_iff (lib : Libp2p) (point ns : String)
    (f : Multiaddr → Except Error Rendezvous.Behaviour)
    (hf : ∀ a, (∃ e, f a = .error e) ↔ (lib.namespaceNew ns).isSome = false) :
    (∃ e, (do
      let point ← parseAddr lib point
      f point) = .error e) ↔
      ¬ ((lib.multiaddrFromStr point).isSome ∧ (lib.namespaceNew ns).isSome) := by
  unfold parseAddr
  cases lib.multiaddrFromStr point with
  | none => simp [bind, Except.bind]
  | some a => simpa [bind, Except.bind] using hf a

theorem register_error_iff (lib : Libp2p) (b : Rendezvous.Behaviour) (point : Multiaddr)
    (ns : String) : (∃ e, Rendezvous.register lib b point ns = .error e) ↔
      (lib.namespaceNew ns).isSome = false := by
  unfold Rendezvous.register
  cases lib.namespaceNew ns <;> simp

theorem unregister_error_iff (lib : Libp2p) (b : Rendezvous.Behaviour) (ns : String) :
    (∃ e, Rendezvous.unregister lib b ns = .error e) ↔
      (lib.namespaceNew ns).isSome = false := by
  unfold Rendezvous.unregister
  cases lib.namespaceNew ns <;> simp

theorem discover_error_iff (lib : Libp2p) (b : Rendezvous.Behaviour) (point : Multiaddr)
    (ns : String) : (∃ e, Rendezvous.discover lib b point ns = .error e) ↔
      (lib.namespaceNew ns).isSome = false := by
  unfold Rendezvous.discover
  cases lib.namespaceNew ns <;> simp

theorem dial_outcome (lib : Libp2p) (o : Oracle) (n : NodeInner) (addr : String) :
    (handleCommand lib o n (.dial addr)).2 =
      match lib.multiaddrFromStr addr with
      | none => .failed .multiaddr
      | some a => if o.dial n.swarm.dialed a then .done false else .failed .dial := by
  simp only [handleCommand, parseAddr, NodeInner.dial]
  cases lib.multiaddrFromStr addr <;> rfl

theorem listenViaRelay_outcome (lib : Libp2p) (o : Oracle) (n : NodeInner)
    (address : String) :
    (handleCommand lib o n (.listenViaRelay address)).2 =
      match lib.multiaddrFromStr address with
      | none => .failed .multiaddr
      | some a => if o.dial n.swarm.dialed a then .relaying a else .done false := by
  simp only [handleCommand, parseAddr, NodeInner.dial]
  cases lib.multiaddrFromStr address <;> rfl

theorem handleCommand_fails_iff (lib : Libp2p) (o : Oracle) (n : NodeInner) (cmd : Command) :
    (handleCommand lib o n cmd).2.Fails ↔ ¬ CommandOk lib o n cmd := by
  cases cmd with
  | dial addr =>
      rw [dial_outcome, CommandOk, Outcome.Fails]
      cases lib.multiaddrFromStr addr with
      | none => simp
      | some a => cases hdial : o.dial n.swarm.dialed a <;> simp [hdial]
  | addKnownPeer peer address =>
      simp only [handleCommand, withDht_fails_iff, parsePeer_parseAddr_error_iff, CommandOk]
      cases n.swarm.dht <;> simp
  | addBootNode peer address =>
      simp only [handleCommand, withDht_fails_iff, parsePeer_parseAddr_error_iff, CommandOk]
      cases n.swarm.dht <;> simp
  | listenViaRelay address =>
      rw [listenViaRelay_outcome, CommandOk, Outcome.Fails]
      cases lib.multiaddrFromStr address with
      | none => simp
      | some a => cases hdial : o.dial n.swarm.dialed a <;> simp [hdial]
  | register point ns =>
      simp only [handleCommand, withRdvz_fails_iff, CommandOk,
        parseAddr_namespace_error_iff lib point ns _ fun a => register_error_iff lib _ a ns]
      cases n.swarm.rdvz <;> simp
  | unregister ns =>
      simp only [handleCommand, withRdvz_fails_iff, unregister_error_iff, CommandOk]
      cases n.swarm.rdvz <;> simp
  | discover point ns =>
      simp only [handleCommand, withRdvz_fails_iff, CommandOk,
        parseAddr_namespace_error_iff lib point ns _ fun a => discover_error_iff lib _ a ns]
      cases n.swarm.rdvz <;> simp
  | beginBootstrap => simp [handleCommand, withDht_fails_iff, CommandOk]
  | putRecord key value => simp [handleCommand, withDht_fails_iff, CommandOk]
  | getRecord key retry => simp [handleCommand, withDht_fails_iff, CommandOk]
  | _ => simp [handleCommand, CommandOk, Outcome.Fails]

theorem withDht_ne_shutdown (n : NodeInner)
    (f : Dht.Behaviour → Except Error Dht.Behaviour) : (withDht n f).2 ≠ .done true :=
  (withDht_ifEnabled n f).ne_shutdown

theorem withRdvz_ne_shutdown (n : NodeInner)
    (f : Rendezvous.Behaviour → Except Error Rendezvous.Behaviour) :
    (withRdvz n f).2 ≠ .done true :=
  (withRdvz_ifEnabled n f).ne_shutdown

theorem handleCommand_shutdown_iff (lib : Libp2p) (o : Oracle) (n : NodeInner)
    (cmd : Command) : (handleCommand lib o n cmd).2 = .done true ↔ cmd = .shutdown := by
  cases cmd with
  | dial addr =>
      rw [dial_outcome]
      cases lib.multiaddrFromStr addr with
      | none => simp
      | some a => cases hdial : o.dial n.swarm.dialed a <;> simp [hdial]
  | listenViaRelay address =>
      rw [listenViaRelay_outcome]
      cases lib.multiaddrFromStr address with
      | none => simp
      | some a => cases hdial : o.dial n.swarm.dialed a <;> simp [hdial]
  | _ => simp [handleCommand, withDht_ne_shutdown, withRdvz_ne_shutdown]

theorem dialsAccepted_cons (lib : Libp2p) (o : Oracle) (dialed : List Multiaddr)
    (peer : PeerId × Multiaddr) (rest : List (PeerId × Multiaddr)) :
    DialsAccepted lib o dialed (peer :: rest) ↔
      o.dial dialed (addressWithP2p lib peer) = true ∧
        DialsAccepted lib o (dialed ++ [addressWithP2p lib peer]) rest := by
  constructor
  · intro h
    refine ⟨by simpa using h [] peer rest rfl, ?_⟩
    intro before p after heq
    have := h (peer :: before) p after (by rw [heq]; rfl)
    simpa using this
  · rintro ⟨hfirst, hrest⟩ before p after heq
    cases before with
    | nil =>
        cases heq
        simpa using hfirst
    | cons q before =>
        cases heq
        simpa using hrest before p after rfl

theorem dialDiscovered_ok_iff (lib : Libp2p) (o : Oracle) (n : NodeInner)
    (found : List (PeerId × Multiaddr)) :
    (dialDiscovered lib o n found).2 = .ok () ↔ DialsAccepted lib o n.swarm.dialed found := by
  induction found generalizing n with
  | nil => simp [dialDiscovered, DialsAccepted]
  | cons peer rest ih =>
      rw [dialsAccepted_cons, dialDiscovered]
      cases hdial : o.dial n.swarm.dialed (addressWithP2p lib peer) with
      | false => simp [NodeInner.dial, hdial]
      | true =>
          simp only [NodeInner.dial, hdial, if_true, true_and]
          exact ih _

theorem handleSwarmEvent_ok_iff (lib : Libp2p) (o : Oracle) (n : NodeInner)
    (event : SwarmEvent) :
    (handleSwarmEvent lib o true n event).2.2 = .ok () ↔ EventOk lib o n event := by
  cases event with
  | behaviour event =>
      unfold handleSwarmEvent handleEvent EventOk
      cases event with
      | mdns event => cases event <;> simp
      | rdvz event =>
          cases event with
          | discovered found => exact dialDiscovered_ok_iff lib o n found
          | _ => simp
      | _ => simp
  | connectionEstablished endpoint => cases endpoint <;> simp [handleSwarmEvent, EventOk]
  | _ => simp [handleSwarmEvent, EventOk]

/-! ## Only a shutdown ends the task -/

/-- The task has not ended before the first `Shutdown`, has handled the commands in
the order in which they were sent, and can still handle the next one. -/
structure Survives (lib : Libp2p) (w : World) : Prop where
  stopped : w.mode.isStopped = true →
    ∃ before, w.handled = before ++ [.shutdown] ∧ .shutdown ∉ before
  running : w.mode.isStopped = false → .shutdown ∉ w.handled
  inOrder : w.sent = w.handled ++ w.commands
  goesOn : w.mode.isStopped = false → ∀ cmd rest, w.commands = cmd :: rest → ∀ o,
    ∃ acts w', (∀ a ∈ acts, a = .timeout ∨ a = .command o) ∧
      Machine.run (step lib) w acts = some w' ∧ w'.handled = w.handled ++ [cmd]

/-- The condition on a step: the command or the event is handled without an error. -/
def SurvivesStep (lib : Libp2p) (w : World) : Act → Prop
  | .command o => ∀ cmd rest, w.commands = cmd :: rest → CommandOk lib o w.inner cmd
  | .event o event => w.mode = .selecting → EventOk lib o w.inner event
  | _ => True

theorem Outcome.isStopped_iff (outcome : Outcome) :
    outcome.mode.isStopped = true ↔ outcome.Fails ∨ outcome = .done true := by
  unfold Outcome.Fails
  cases outcome with
  | done shutdownRequired => cases shutdownRequired <;> simp [Outcome.mode, Mode.isStopped]
  | failed e => simp [Outcome.mode, Mode.isStopped]
  | relaying address => simp [Outcome.mode, Mode.isStopped]

theorem modeAfterEvent_isStopped_iff (result : Except Error Unit) :
    (modeAfterEvent result).isStopped = true ↔ result ≠ .ok () := by
  cases result <;> simp [modeAfterEvent, Mode.isStopped]

/-- A command that waits is handled next, if need be after the handshake's timeout. -/
theorem next_command_handled {lib : Libp2p} {w : World} (o : Oracle)
    (hmode : w.mode.isStopped = false) {cmd : Command} {rest : List Command}
    (hcommands : w.commands = cmd :: rest) :
    ∃ acts w', (∀ a ∈ acts, a = .timeout ∨ a = .command o) ∧
      Machine.run (step lib) w acts = some w' ∧ w'.handled = w.handled ++ [cmd] := by
  cases hw : w.mode with
  | selecting =>
      refine ⟨[.command o], w.handle lib o cmd rest, by simp, ?_, rfl⟩
      simp [step, hw, hcommands]
  | relaying hs =>
      let idle : World :=
        { w with inner := relayTimedOut w.inner hs.address, mode := .selecting }
      refine ⟨[.timeout, .command o], idle.handle lib o cmd rest, by simp, ?_, rfl⟩
      simp [step, hw, hcommands, idle]
  | stopped result =>
      rw [hw] at hmode
      cases hmode

section Step

variable {lib : Libp2p} {o : Oracle} {w w' : World}

theorem survives_initial (lib : Libp2p) (inner : NodeInner) : Survives lib (initial inner) where
  stopped := nofun
  running _ := by simp [initial]
  inOrder := rfl
  goesOn _ _ _ hcommands _ := by cases hcommands

theorem Survives.of_frame (h : Survives lib w) (hw : w.mode.isStopped = false)
    (hmode : w'.mode.isStopped = false) (hhandled : w'.handled = w.handled)
    (horder : w'.sent = w'.handled ++ w'.commands) : Survives lib w' where
  stopped hstopped := by
    rw [hmode] at hstopped
    cases hstopped
  running _ := by
    rw [hhandled]
    exact h.running hw
  inOrder := horder
  goesOn hrun _ _ hcommands o := next_command_handled o hrun hcommands

/-- A command that fails ends the task, and a task that has ended with a command
other than `Shutdown` has not survived. -/
theorem survives_handle_iff {cmd : Command} {rest : List Command} (h : Survives lib w)
    (hmode : w.mode = .selecting) (hcommands : w.commands = cmd :: rest) :
    Survives lib (w.handle lib o cmd rest) ↔ CommandOk lib o w.inner cmd := by
  have hrunning : .shutdown ∉ w.handled := h.running (by rw [hmode]; rfl)
  have hstops := Outcome.isStopped_iff (handleCommand lib o w.inner cmd).2
  rw [handleCommand_fails_iff, handleCommand_shutdown_iff] at hstops
  constructor
  · intro h'
    by_contra hfails
    obtain ⟨before, hhandled, -⟩ := h'.stopped (hstops.mpr (.inl hfails))
    have hcmd : cmd = .shutdown := by
      have := congrArg List.getLast? hhandled
      simpa using this
    rw [hcmd] at hfails
    exact hfails trivial
  · intro hok
    refine ⟨fun hstopped => ?_, fun hrun => ?_, ?_, fun hrun _ _ => ?_⟩
    · have hcmd : cmd = .shutdown := by
        rcases hstops.mp hstopped with hfails | hcmd
        · exact absurd hok hfails
        · exact hcmd
      exact ⟨w.handled, by rw [handle_handled, hcmd], hrunning⟩
    · have hcmd : cmd ≠ .shutdown := by
        intro hcmd
        rw [handle_mode, hstops.mpr (.inr hcmd)] at hrun
        cases hrun
      rw [handle_handled, List.mem_append, List.mem_singleton]
      rintro (hmem | hmem)
      · exact hrunning hmem
      · exact hcmd hmem.symm
    · calc
        w.sent = w.handled ++ w.commands := h.inOrder
        _ = w.handled ++ cmd :: rest := by rw [hcommands]
        _ = (w.handled ++ [cmd]) ++ rest := by simp
    · intro hcommands' o'
      exact next_command_handled o' hrun hcommands'

theorem survives_receive_iff {event : SwarmEvent} (h : Survives lib w)
    (halive : w.nodeAlive = true) (hmode : w.mode = .selecting) :
    Survives lib (w.receive lib o event) ↔ EventOk lib o w.inner event := by
  have hw : w.mode.isStopped = false := by rw [hmode]; rfl
  have hok := handleSwarmEvent_ok_iff lib o w.inner event
  have hstops := modeAfterEvent_isStopped_iff (handleSwarmEvent lib o true w.inner event).2.2
  rw [Ne, hok] at hstops
  constructor
  · intro h'
    by_contra hfails
    have hstopped : (w.receive lib o event).mode.isStopped = true := by
      rw [receive_mode, halive]
      exact hstops.mpr hfails
    obtain ⟨before, hhandled, -⟩ := h'.stopped hstopped
    rw [receive_handled] at hhandled
    apply h.running hw
    rw [hhandled]
    simp
  · intro hevent
    apply h.of_frame hw
    · rw [receive_mode, halive, Bool.eq_false_iff, Ne, hstops]
      exact fun hfails => hfails hevent
    · rfl
    · exact h.inOrder

theorem survives_step_iff {a : Act} (h : Survives lib w) (halive : w.nodeAlive = true)
    (hstep : step lib w a = some w') : Survives lib w' ↔ SurvivesStep lib w a := by
  cases step_transition hstep with
  | send cmd _ =>
      refine iff_of_true ?_ trivial
      unfold World.send
      split
      · exact h
      · rename_i hw
        rw [Bool.not_eq_true] at hw
        refine h.of_frame hw ?_ ?_ ?_
        · exact hw
        · rfl
        · calc
            w.sent ++ [cmd] = (w.handled ++ w.commands) ++ [cmd] := by rw [h.inOrder]
            _ = w.handled ++ (w.commands ++ [cmd]) := List.append_assoc ..
  | dropNode _ =>
      refine iff_of_true ⟨h.stopped, h.running, h.inOrder, ?_⟩ trivial
      intro hrun cmd rest hcommands o
      exact next_command_handled o hrun hcommands
  | command o cmd rest hmode hcommands =>
      rw [survives_handle_iff h hmode hcommands]
      constructor
      · intro hok cmd' rest' hcommands'
        rw [hcommands] at hcommands'
        cases hcommands'
        exact hok
      · intro hok
        exact hok cmd rest hcommands
  | recvError hmode => exact iff_of_true h trivial
  | receive o event hmode =>
      rw [survives_receive_iff h halive hmode]
      exact ⟨fun hok _ => hok, fun hok => hok hmode⟩
  | shake o event hs hmode =>
      have hw : w.mode.isStopped = false := by rw [hmode]; rfl
      obtain ⟨inner, mode, hmode', heq⟩ := shake_frame o w hs event
      rw [heq]
      refine iff_of_true (h.of_frame hw hmode' rfl h.inOrder) ?_
      intro hselecting
      rw [hmode] at hselecting
      cases hselecting
  | timeout hs hmode =>
      have hw : w.mode.isStopped = false := by rw [hmode]; rfl
      exact iff_of_true (h.of_frame hw rfl rfl h.inOrder) trivial

theorem step_nodeAlive {a : Act} (hstep : step lib w a = some w') (ha : a ≠ .dropNode) :
    w'.nodeAlive = w.nodeAlive := by
  cases step_transition hstep with
  | send cmd _ =>
      unfold World.send
      split <;> rfl
  | dropNode _ => exact absurd rfl ha
  | shake o event hs hmode =>
      obtain ⟨inner, mode, -, heq⟩ := shake_frame o w hs event
      rw [heq]
  | _ => rfl

end Step

/-- While there is a `Node`, the task survives a run exactly when no step of the run
handles a command or an event that fails. -/
theorem event_loop_survives_iff (lib : Libp2p) (inner : NodeInner) (acts : List Act) :
    Machine.Along (step lib) (fun _ _ w' => w'.nodeAlive = true → Survives lib w')
        (initial inner) acts ↔
      Machine.Along (step lib) (fun w a _ => w.nodeAlive = true → SurvivesStep lib w a)
        (initial inner) acts := by
  apply Machine.along_iff_of_invariant fun w => w.nodeAlive = true → Survives lib w
  · intro w a w' hw hstep hok
    have hw' : w'.nodeAlive = true → Survives lib w' := by
      intro halive'
      have ha : a ≠ .dropNode := by
        rintro rfl
        cases step_transition hstep
        cases halive'
      have halive : w.nodeAlive = true := by
        rw [← step_nodeAlive hstep ha]
        exact halive'
      exact (survives_step_iff (hw halive) halive hstep).mpr (hok halive)
    exact ⟨hw', hw'⟩
  · intro w a w' hw hstep hw' halive
    by_cases ha : a = .dropNode
    · rw [ha]
      trivial
    · have halive' : w'.nodeAlive = true := by
        rw [step_nodeAlive hstep ha]
        exact halive
      exact (survives_step_iff (hw halive) halive hstep).mp (hw' halive')
  · intro _
    exact survives_initial lib inner

/-- A text that is no address, given to `dial`, ends the task. -/
theorem event_loop_survives_fails :
    ¬ ∀ lib inner acts,
      Machine.Along (step lib) (fun _ _ w' => w'.nodeAlive = true → Survives lib w')
        (initial inner) acts := by
  intro h
  have hrun := h sampleLibp2p sampleInner
    [.send (.dial "localhost:5000"), .command sampleOracle]
  obtain ⟨-, hrun⟩ := hrun _ rfl
  obtain ⟨hlast, -⟩ := hrun _ rfl
  obtain ⟨before, hhandled, -⟩ := (hlast rfl).stopped rfl
  have hdial := congrArg List.getLast? hhandled
  rw [List.getLast?_append] at hdial
  cases hdial

end P2pa.Node
