import P2pa.Node.Inner
import P2pa.Support.Machine

/-!
# The event loop of a node

The task that `spawn_listeners` of `node.rs` starts, with its channels to and from
the client.  `select!` takes either branch when both are ready, so a run is any
sequence of the actions below.  The lists `sent`, `handled` and `yielded` record what
has happened; no step looks at them.
-/

namespace P2pa.Node

/-- Where the task is: at `select!`, in the handshake with a relay, or at its end. -/
inductive Mode
  | selecting
  | relaying (handshake : Handshake)
  | stopped (result : Except Error Unit)

structure World where
  inner : NodeInner
  mode : Mode
  /-- The command channel; what is left in it at the end of the task is dropped. -/
  commands : List Command
  /-- What has been sent on the event channel. -/
  toClient : List Event
  /-- Whether there still is a `Node`, which owns the client's ends of the channels. -/
  nodeAlive : Bool
  sent : List Command
  handled : List Command
  yielded : List SwarmEvent

def initial (inner : NodeInner) : World where
  inner
  mode := .selecting
  commands := []
  toClient := []
  nodeAlive := true
  sent := []
  handled := []
  yielded := []

inductive Act
  | send (cmd : Command)
  | dropNode
  | command (o : Oracle)
  | recvError
  | event (o : Oracle) (event : SwarmEvent)
  | timeout

def Mode.isStopped : Mode → Bool
  | .stopped _ => true
  | _ => false

/-- `command_chan.send`; it fails once the task, and with it the receiver, is gone. -/
def World.send (w : World) (cmd : Command) : World :=
  if w.mode.isStopped then w
  else { w with commands := w.commands ++ [cmd], sent := w.sent ++ [cmd] }

def Outcome.mode : Outcome → Mode
  | .done false => .selecting
  | .done true => .stopped (.ok ())
  | .failed e => .stopped (.error e)
  | .relaying address =>
      .relaying { address, learnedObservedAddr := false, toldRelayObservedAddr := false }

def World.handle (lib : Libp2p) (o : Oracle) (w : World) (cmd : Command)
    (rest : List Command) : World :=
  let (inner, outcome) := handleCommand lib o w.inner cmd
  { w with inner, mode := outcome.mode, commands := rest, handled := w.handled ++ [cmd] }

def modeAfterEvent : Except Error Unit → Mode
  | .ok () => .selecting
  | .error e => .stopped (.error e)

def World.receive (lib : Libp2p) (o : Oracle) (w : World) (event : SwarmEvent) : World :=
  let (inner, events, result) := handleSwarmEvent lib o w.nodeAlive w.inner event
  { w with
    inner
    mode := modeAfterEvent result
    toClient := w.toClient ++ events
    yielded := w.yielded ++ [event] }

/-- One iteration of the handshake loop, and what follows the last one. -/
def World.shake (o : Oracle) (w : World) (h : Handshake) (event : SwarmEvent) : World :=
  let (inner, h) := handshakeEvent w.inner h event
  let w := { w with inner, mode := .relaying h, yielded := w.yielded ++ [event] }
  if h.learnedObservedAddr && h.toldRelayObservedAddr then
    { w with inner := listenViaRelay o w.inner h.address, mode := .selecting }
  else w

def step (lib : Libp2p) (w : World) : Act → Option World
  | .send cmd => if w.nodeAlive then some (w.send cmd) else none
  | .dropNode => if w.nodeAlive then some { w with nodeAlive := false } else none
  | .command o =>
      match w.mode, w.commands with
      | .selecting, cmd :: rest => some (w.handle lib o cmd rest)
      | _, _ => none
  | .recvError =>
      -- every sender is gone: the loop polls the closed channel again
      match w.mode, w.commands with
      | .selecting, [] => if w.nodeAlive then none else some w
      | _, _ => none
  | .event o event =>
      match w.mode with
      | .selecting => some (w.receive lib o event)
      | .relaying h => some (w.shake o h event)
      | .stopped _ => none
  | .timeout =>
      match w.mode with
      | .relaying h =>
          some { w with inner := relayTimedOut w.inner h.address, mode := .selecting }
      | _ => none

/-! ## What a step can do -/

inductive Transition (lib : Libp2p) (w : World) : Act → World → Prop
  | send (cmd : Command) (halive : w.nodeAlive = true) :
      Transition lib w (.send cmd) (w.send cmd)
  | dropNode (halive : w.nodeAlive = true) :
      Transition lib w .dropNode { w with nodeAlive := false }
  | command (o : Oracle) (cmd : Command) (rest : List Command) (hmode : w.mode = .selecting)
      (hcommands : w.commands = cmd :: rest) :
      Transition lib w (.command o) (w.handle lib o cmd rest)
  | recvError (hmode : w.mode = .selecting) : Transition lib w .recvError w
  | receive (o : Oracle) (event : SwarmEvent) (hmode : w.mode = .selecting) :
      Transition lib w (.event o event) (w.receive lib o event)
  | shake (o : Oracle) (event : SwarmEvent) (hs : Handshake) (hmode : w.mode = .relaying hs) :
      Transition lib w (.event o event) (w.shake o hs event)
  | timeout (hs : Handshake) (hmode : w.mode = .relaying hs) :
      Transition lib w .timeout
        { w with inner := relayTimedOut w.inner hs.address, mode := .selecting }

theorem step_transition {lib : Libp2p} {w w' : World} {a : Act}
    (h : step lib w a = some w') : Transition lib w a w' := by
  cases a with
  | send cmd =>
      simp only [step, Option.ite_none_right_eq_some, Option.some.injEq] at h
      rw [← h.2]
      exact .send cmd h.1
  | dropNode =>
      simp only [step, Option.ite_none_right_eq_some, Option.some.injEq] at h
      rw [← h.2]
      exact .dropNode h.1
  | command o =>
      simp only [step] at h
      split at h
      · rename_i cmd rest hmode hcommands
        cases h
        exact .command o cmd rest hmode hcommands
      · cases h
  | recvError =>
      simp only [step] at h
      split at h
      · rename_i hmode hcommands
        simp only [Option.ite_none_left_eq_some, Option.some.injEq] at h
        rw [← h.2]
        exact .recvError hmode
      · cases h
  | event o event =>
      simp only [step] at h
      split at h
      · rename_i hmode
        cases h
        exact .receive o event hmode
      · rename_i hs hmode
        cases h
        exact .shake o event hs hmode
      · cases h
  | timeout =>
      simp only [step] at h
      split at h
      · rename_i hs hmode
        cases h
        exact .timeout hs hmode
      · cases h

section Fields

variable (lib : Libp2p) (o : Oracle) (w : World)

@[simp] theorem handle_handled (cmd : Command) (rest : List Command) :
    (w.handle lib o cmd rest).handled = w.handled ++ [cmd] := rfl

@[simp] theorem handle_mode (cmd : Command) (rest : List Command) :
    (w.handle lib o cmd rest).mode = (handleCommand lib o w.inner cmd).2.mode := rfl

@[simp] theorem receive_handled (event : SwarmEvent) :
    (w.receive lib o event).handled = w.handled := rfl

@[simp] theorem receive_mode (event : SwarmEvent) :
    (w.receive lib o event).mode =
      modeAfterEvent (handleSwarmEvent lib o w.nodeAlive w.inner event).2.2 := rfl

@[simp] theorem handshakeEvent_address (n : NodeInner) (hs : Handshake)
    (event : SwarmEvent) : (handshakeEvent n hs event).2.address = hs.address := by
  unfold handshakeEvent
  split <;> rfl

/-- The handshake touches nothing but the swarm and its own variables. -/
theorem shake_frame (hs : Handshake) (event : SwarmEvent) :
    ∃ inner mode, mode.isStopped = false ∧
      w.shake o hs event =
        { w with inner, mode, yielded := w.yielded ++ [event] } := by
  unfold World.shake
  dsimp only
  split
  · exact ⟨_, .selecting, rfl, rfl⟩
  · exact ⟨_, .relaying _, rfl, rfl⟩

end Fields

end P2pa.Node
