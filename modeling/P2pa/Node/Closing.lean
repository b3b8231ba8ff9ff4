import P2pa.Node.Survival
import P2pa.Support.Execution

/-!
# A node whose clients are gone

`recv` on the channel of commands fails at once when every sender is gone and the channel
is empty.  The loop drops the error and receives again, so it goes on until the handling of
an event fails.
-/

namespace P2pa.Node

/-- Every sender is gone, and the commands sent before have been handled. -/
structure Closed (w : World) : Prop where
  dropped : w.nodeAlive = false
  empty : w.commands = []
  handled : ∀ hs, w.mode ≠ .relaying hs

/-- The actions that are an iteration of the main loop. -/
def Act.isTurn : Act → Bool
  | .command _ => true
  | .recvError => true
  | .event _ _ => true
  | _ => false

/-- The event ends the loop, when there is no client: its handling fails, or there is a
message in it, which cannot be sent to the client. -/
def Ends (lib : Libp2p) (w : World) : Act → Prop
  | .event _ (.behaviour (.gossip _)) => True
  | .event o event => ¬ EventOk lib o w.inner event
  | _ => False

section Step

variable {lib : Libp2p} {w w' : World} {a : Act}

/-- Without a client the handling of a message fails, and that of any other event does
what it does with one. -/
theorem handleSwarmEvent_alone_iff (lib : Libp2p) (o : Oracle) (w : World)
    (event : SwarmEvent) :
    (handleSwarmEvent lib o false w.inner event).2.2 ≠ .ok () ↔
      Ends lib w (.event o event) := by
  have hclient := handleSwarmEvent_ok_iff lib o w.inner event
  cases event with
  | behaviour event =>
      cases event with
      | gossip event => exact iff_of_true nofun trivial
      | mdns event => cases event <;> exact not_congr hclient
      | rdvz event => cases event <;> exact not_congr hclient
      | _ => exact not_congr hclient
  | connectionEstablished endpoint => cases endpoint <;> exact not_congr hclient
  | _ => exact not_congr hclient

theorem closed_step (hw : Closed w) (hstep : step lib w a = some w') :
    Closed w' ∧ w.mode = .selecting ∧ a.isTurn = true ∧
      (w'.mode.isStopped = true ↔ Ends lib w a) := by
  cases step_transition hstep with
  | send cmd halive =>
      rw [hw.dropped] at halive
      cases halive
  | dropNode halive =>
      rw [hw.dropped] at halive
      cases halive
  | command o cmd rest hmode hcommands =>
      rw [hw.empty] at hcommands
      cases hcommands
  | recvError hmode =>
      refine ⟨hw, hmode, rfl, ?_⟩
      rw [hmode]
      exact iff_of_false nofun id
  | receive o event hmode =>
      refine ⟨⟨hw.dropped, hw.empty, fun hs => ?_⟩, hmode, rfl, ?_⟩
      · rw [receive_mode]
        cases (handleSwarmEvent lib o w.nodeAlive w.inner event).2.2 <;> exact nofun
      · rw [receive_mode, modeAfterEvent_isStopped_iff, hw.dropped,
          handleSwarmEvent_alone_iff]
  | shake o event hs hmode => exact absurd hmode (hw.handled hs)
  | timeout hs hmode => exact absurd hmode (hw.handled hs)

/-- The closed channel can be received from as long as the loop runs. -/
theorem closed_disabled_iff (hw : Closed w) :
    (∀ a, step lib w a = none) ↔ w.mode.isStopped = true := by
  cases hmode : w.mode with
  | selecting =>
      refine iff_of_false (fun hnone => ?_) nofun
      have hrecv := hnone .recvError
      simp [step, hmode, hw.empty, hw.dropped] at hrecv
  | relaying hs => exact absurd hmode (hw.handled hs)
  | stopped result =>
      refine iff_of_true (fun a => ?_) rfl
      cases a <;> simp [step, hmode, hw.dropped]

end Step

section Run

variable {lib : Libp2p} {inner : NodeInner}

def iterations (e : Machine.Execution (step lib) (initial inner)) (n : Nat) : Set Nat :=
  {i | n ≤ i ∧ (e.state i).mode = .selecting ∧ (e.act i).isTurn = true ∧
    step lib (e.state i) (e.act i) = some (e.state (i + 1))}

variable {e : Machine.Execution (step lib) (initial inner)} {n : Nat}

theorem closed_from (h : Closed (e.state n)) {i : Nat} (hi : n ≤ i) : Closed (e.state i) :=
  e.invariant Closed (fun _ _ hclosed hstep => (closed_step hclosed hstep).1) h hi

/-- Once the channel is closed, every step is an iteration of the loop. -/
theorem iterations_eq_steps (h : Closed (e.state n)) : iterations e n = e.steps n := by
  ext i
  constructor
  · rintro ⟨hi, -, -, hstep⟩
    exact ⟨hi, hstep⟩
  · rintro ⟨hi, hstep⟩
    obtain ⟨-, hmode, hturn, -⟩ := closed_step (closed_from h hi) hstep
    exact ⟨hi, hmode, hturn, hstep⟩

theorem finite_iterations_iff (h : Closed (e.state n)) :
    (iterations e n).Finite ↔ ∃ i, n ≤ i ∧ (e.state i).mode.isStopped = true := by
  rw [iterations_eq_steps h, Machine.Execution.finite_steps_iff]
  apply exists_congr
  intro i
  exact and_congr_right fun hi => closed_disabled_iff (closed_from h hi)

end Run

/-- Once every sender is gone and every command handled, the loop has finitely many
iterations left exactly when it has ended by then, or later an event ends it. -/
theorem closed_loop_ends_iff {lib : Libp2p} {inner : NodeInner}
    (e : Machine.Execution (step lib) (initial inner)) (n : Nat) (h : Closed (e.state n)) :
    (iterations e n).Finite ↔ (e.state n).mode.isStopped = true ∨
      ∃ i, n ≤ i ∧ Ends lib (e.state i) (e.act i) := by
  rw [finite_iterations_iff h]
  constructor
  · rintro ⟨i, hi, hstopped⟩
    by_contra hgoes
    rw [not_or] at hgoes
    have hruns : (e.state i).mode.isStopped ≠ true := by
      refine e.invariant (fun w => w.mode.isStopped ≠ true) (fun j hj _ hstep => ?_)
        hgoes.1 hi
      rw [Ne, (closed_step (closed_from h hj) hstep).2.2.2]
      exact fun hends => hgoes.2 ⟨j, hj, hends⟩
    exact hruns hstopped
  · rintro (hstopped | ⟨i, hi, hends⟩)
    · exact ⟨n, le_refl n, hstopped⟩
    · have hclosed := closed_from h hi
      rcases e.next i with hstep | ⟨hnone, -⟩
      · exact ⟨i + 1, Nat.le_succ_of_le hi, (closed_step hclosed hstep).2.2.2.mpr hends⟩
      · exact ⟨i, hi, (closed_disabled_iff hclosed).mp hnone⟩

/-! ## A node that is dropped, in a swarm where nothing happens -/

def dropped : World := { initial sampleInner with nodeAlive := false }

def spinning : Machine.Execution (step sampleLibp2p) (initial sampleInner) where
  state
    | 0 => initial sampleInner
    | _ + 1 => dropped
  act
    | 0 => .dropNode
    | _ + 1 => .recvError
  start := rfl
  next i := .inl (by cases i <;> rfl)

theorem closed_dropped : Closed dropped := ⟨rfl, rfl, nofun⟩

theorem closed_loop_ends_iff_spinning :
    (iterations spinning 1).Finite ↔ (spinning.state 1).mode.isStopped = true ∨
      ∃ i, 1 ≤ i ∧ Ends sampleLibp2p (spinning.state i) (spinning.act i) :=
  closed_loop_ends_iff spinning 1 closed_dropped

/-- The loop receives the error of the closed channel for ever. -/
theorem closed_loop_ends_fails :
    ¬ ∀ lib inner (e : Machine.Execution (step lib) (initial inner)) (n : Nat),
      Closed (e.state n) → (iterations e n).Finite := by
  intro h
  have hfinite := h sampleLibp2p sampleInner spinning 1 closed_dropped
  obtain ⟨i, hi, hstopped⟩ := (finite_iterations_iff closed_dropped).mp hfinite
  cases i with
  | zero => exact absurd hi (Nat.not_succ_le_zero 0)
  | succ i => cases hstopped

end P2pa.Node
