import P2pa.Dht.Run

/-!
# The bootstrap flag, its state and kad's queries

Two questions about every run: whether puts are only held back while a bootstrap
can release them (`puts_releasable_iff`), and whether at most one bootstrap query
runs at a time (`single_bootstrap_iff`).  Each is answered by the exact condition on
the steps of the run.
-/

namespace P2pa.Dht

open P2pa.Utils

/-! ## What a step does to the bootstrap -/

structure View where
  beginBootstrap : Bool
  state : State
  running : List QueryId
deriving DecidableEq

def World.view (w : World) : View where
  beginBootstrap := w.behaviour.beginBootstrap
  state := w.behaviour.bootstrap.state
  running := w.runningBootstraps

def View.start (v : View) : BootstrapAnswer → View
  | .ok id => { v with state := .started, running := id :: v.running }
  | .error _ => v

def View.result (v : View) (id : QueryId) : Except BootstrapError Nat → Bool → View
  | .ok 0, true => { beginBootstrap := false, state := .finished, running := v.running.erase id }
  | .ok (_ + 1), true => { v with running := v.running.erase id }
  | .ok _, false => v
  | .error _, true => { v with state := .notStarted, running := v.running.erase id }
  | .error _, false => { v with state := .notStarted }

inductive ViewStep (w : World) : Act → View → Prop
  | request : ViewStep w .beginBootstrap { w.view with beginBootstrap := true }
  | start (now : Instant) (answer : BootstrapAnswer)
      (hstarts : startsBootstrap w.behaviour now = true) :
      ViewStep w (.pollBootstrap now answer) (w.view.start answer)
  | result (now : Instant) (retryId id : QueryId) (result : Except BootstrapError Nat)
      (last : Bool) (hrunning : id ∈ w.runningBootstraps) :
      ViewStep w (.kadEvent now retryId (.outboundQueryProgressed id (.bootstrap result) last))
        (w.view.result id result last)

theorem handleEvent_bootstrapPart (b : Behaviour) (now : Instant) (retryId : QueryId)
    {event : KadEvent}
    (h : ∀ id result last, event ≠ .outboundQueryProgressed id (.bootstrap result) last) :
    bootstrapPart (handleEvent b now retryId event) = bootstrapPart b := by
  unfold handleEvent
  split
  · exact handlePutQuery_bootstrapPart _ _ _ _
  · exact handleClosestPeers_bootstrapPart _ _ _
  · exact handleGetQuery_bootstrapPart _ _ _ _ _
  · exact absurd rfl (h _ _ _)
  · exact absurd rfl (h _ _ _)
  · rfl

theorem observe_runningBootstraps (w : World) {event : KadEvent}
    (h : ∀ id result last, event ≠ .outboundQueryProgressed id (.bootstrap result) last) :
    (w.observe event).runningBootstraps = w.runningBootstraps := by
  unfold World.observe
  split
  · rename_i id result
    cases hlookup : w.runningPuts.lookup id with
    | none => simp [World.endPut, hlookup]
    | some record => cases result <;> simp [World.endPut, hlookup]
  · exact absurd rfl (h _ _ _)
  · rfl

theorem view_of_bootstrapPart {w w' : World}
    (hpart : bootstrapPart w'.behaviour = bootstrapPart w.behaviour)
    (hrunning : w'.runningBootstraps = w.runningBootstraps) : w'.view = w.view := by
  simp only [bootstrapPart, Prod.mk.injEq] at hpart
  simp only [World.view, hpart, hrunning]

theorem view_bootstrapResult (w : World) (now : Instant) (retryId id : QueryId)
    (result : Except BootstrapError Nat) (last : Bool) :
    World.view { w.observe (.outboundQueryProgressed id (.bootstrap result) last) with
        behaviour := handleEvent w.behaviour now retryId
          (.outboundQueryProgressed id (.bootstrap result) last)
        issued := w.issue (.ok retryId) } = w.view.result id result last := by
  cases result with
  | ok numRemaining =>
      cases last with
      | true =>
          cases numRemaining <;>
            simp [World.view, View.result, World.observe, handleEvent, handleBootstrapOk]
      | false =>
          cases numRemaining <;> simp [World.view, View.result, World.observe, handleEvent]
  | error e =>
      have hpart := handleBootstrapErr_bootstrapPart w.behaviour now e
      simp only [bootstrapPart, Prod.mk.injEq] at hpart
      cases last <;>
        simp [World.view, View.result, World.observe, handleEvent, hpart]

/-- Every step either leaves the view alone or is one of the three that change it. -/
theorem step_view {w w' : World} {a : Act} (hstep : step w a = some w') :
    w'.view = w.view ∨ ViewStep w a w'.view := by
  cases a with
  | beginBootstrap =>
      cases hstep
      exact .inr .request
  | addAddress peer address =>
      cases hstep
      exact .inl rfl
  | addBootnodes peer address =>
      cases hstep
      exact .inl (view_of_bootstrapPart (addBootnodes_bootstrapPart _ _ _) rfl)
  | putRecord now answer key value =>
      simp only [step, Option.ite_none_right_eq_some, Option.some.injEq] at hstep
      obtain ⟨-, rfl⟩ := hstep
      exact .inl (view_of_bootstrapPart (putRecord_bootstrapPart _ _ _ _) rfl)
  | getRecord queryId key retryCount =>
      simp only [step, Option.ite_none_right_eq_some, Option.some.injEq] at hstep
      obtain ⟨-, rfl⟩ := hstep
      exact .inl (view_of_bootstrapPart (getRecord_bootstrapPart _ _ _ _ _) rfl)
  | pollBootstrap now answer =>
      simp only [step, Option.ite_none_right_eq_some, Option.some.injEq] at hstep
      obtain ⟨-, rfl⟩ := hstep
      by_cases hstarts : startsBootstrap w.behaviour now = true
      · right
        convert ViewStep.start now answer hstarts
        cases answer <;>
          simp [World.view, View.start, pollBootstrap, hstarts, readdBootnodes]
      · left
        cases answer <;> simp [World.view, pollBootstrap, hstarts]
  | drainGet now queryId =>
      simp only [step, Option.ite_none_right_eq_some, Option.map_eq_some_iff] at hstep
      obtain ⟨-, b, hb, rfl⟩ := hstep
      exact .inl (view_of_bootstrapPart (drainGet_frame hb).1 rfl)
  | drainPut now answer =>
      simp only [step, Option.ite_none_right_eq_some, Option.map_eq_some_iff] at hstep
      obtain ⟨-, b, hb, rfl⟩ := hstep
      exact .inl (view_of_bootstrapPart (drainPut_bootstrapPart hb) rfl)
  | kadEvent now retryId event =>
      simp only [step, Option.ite_none_right_eq_some, Option.some.injEq,
        Bool.and_eq_true] at hstep
      obtain ⟨⟨-, hreports⟩, rfl⟩ := hstep
      by_cases hboot : ∃ id result last,
          event = .outboundQueryProgressed id (.bootstrap result) last
      · obtain ⟨id, result, last, rfl⟩ := hboot
        have hrunning : id ∈ w.runningBootstraps := by
          simpa [World.Reports] using hreports
        right
        convert ViewStep.result now retryId id result last hrunning
        exact view_bootstrapResult w now retryId id result last
      · push Not at hboot
        exact .inl (view_of_bootstrapPart (handleEvent_bootstrapPart _ _ _ hboot)
          (observe_runningBootstraps w hboot))

/-! ## Puts are only held back while a bootstrap can release them -/

/-- While the request flag is set, and `putRecord` therefore only queues, a
bootstrap query is in progress or `poll` starts one once the back-off has expired. -/
def Releasable (w : World) : Prop :=
  w.behaviour.beginBootstrap = true →
    (w.behaviour.bootstrap.state = .started ∧ w.runningBootstraps ≠ []) ∨
      (w.behaviour.bootstrap.state = .notStarted ∧
        ∀ now, w.behaviour.bootstrap.backoff.isExpired now = true →
          startsBootstrap w.behaviour now = true)

/-- The condition on a step: no new bootstrap is requested after the first has
finished, and kad does not end its only bootstrap query with a success that leaves
nodes to ping. -/
def ReleasableStep (w : World) : Act → Prop
  | .beginBootstrap => w.behaviour.bootstrap.state ≠ .finished
  | .kadEvent _ _ (.outboundQueryProgressed id (.bootstrap (.ok numRemaining)) true) =>
      numRemaining = 0 ∨ w.runningBootstraps.erase id ≠ [] ∨
        w.behaviour.bootstrap.state ≠ .started
  | _ => True

/-- The invariant, on the view: the flag is set while a bootstrap is started, and a
set flag can be released. -/
structure ReleaseInv (v : View) : Prop where
  requested : v.state = .started → v.beginBootstrap = true
  started : v.state = .started → v.running ≠ []
  unfinished : v.beginBootstrap = true → v.state ≠ .finished

theorem startsBootstrap_view {w : World} {now : Instant}
    (h : startsBootstrap w.behaviour now = true) :
    w.view.state = .notStarted ∧ w.view.beginBootstrap = true := by
  simp only [startsBootstrap, Bool.and_eq_true, beq_iff_eq] at h
  exact ⟨h.1.1, h.2⟩

theorem releasable_iff (w : World) :
    Releasable w ↔ (w.view.beginBootstrap = true → w.view.state = .started →
      w.view.running ≠ []) ∧ (w.view.beginBootstrap = true → w.view.state ≠ .finished) := by
  unfold Releasable World.view startsBootstrap
  cases w.behaviour.bootstrap.state <;> cases w.behaviour.beginBootstrap <;> simp

theorem ReleaseInv.releasable {w : World} (h : ReleaseInv w.view) : Releasable w :=
  (releasable_iff w).mpr ⟨fun _ => h.started, h.unfinished⟩

theorem releaseInv_initial (replicationFactor : Nat) :
    ReleaseInv (initial replicationFactor).view where
  requested := by simp [World.view, initial, new]
  started := by simp [World.view, initial, new]
  unfinished := by simp [World.view, initial, new]

/-- A result that meets the condition keeps the invariant. -/
theorem ReleaseInv.result {v : View} (h : ReleaseInv v) (id : QueryId)
    (result : Except BootstrapError Nat) (last : Bool)
    (hok : ∀ n, result = .ok n → last = true →
      n = 0 ∨ v.running.erase id ≠ [] ∨ v.state ≠ .started) :
    ReleaseInv (v.result id result last) := by
  cases result with
  | error e => cases last <;> exact ⟨nofun, nofun, fun _ => nofun⟩
  | ok numRemaining =>
      cases last with
      | false => cases numRemaining <;> exact h
      | true =>
          cases numRemaining with
          | zero => exact ⟨nofun, nofun, nofun⟩
          | succ n =>
              refine ⟨h.requested, fun hstarted => ?_, h.unfinished⟩
              rcases hok (n + 1) rfl rfl with hzero | hrest | hstate
              · cases hzero
              · exact hrest
              · exact absurd hstarted hstate

theorem releaseInv_step {w w' : World} {a : Act} (h : ReleaseInv w.view)
    (hstep : step w a = some w') (hok : ReleasableStep w a) : ReleaseInv w'.view := by
  rcases step_view hstep with hsame | hview
  · rwa [hsame]
  · generalize w'.view = v at hview
    cases hview with
    | request => exact ⟨fun _ => rfl, h.started, fun _ => hok⟩
    | start now answer hstarts =>
        obtain ⟨hstate, hbegin⟩ := startsBootstrap_view hstarts
        cases answer with
        | ok id => exact ⟨fun _ => hbegin, fun _ => List.cons_ne_nil _ _, fun _ => nofun⟩
        | error e => exact h
    | result now retryId id result last hrunning =>
        refine h.result id result last fun n hn hlast => ?_
        subst hn hlast
        exact hok

/-- A step that does not meet the condition leaves a state whose puts nothing can
release. -/
theorem releasableStep_of_releasable {w w' : World} {a : Act} (h : ReleaseInv w.view)
    (hstep : step w a = some w') (hrel : Releasable w') : ReleasableStep w a := by
  obtain ⟨hstarted, hunfinished⟩ := (releasable_iff w').mp hrel
  unfold ReleasableStep
  split
  · cases hstep
    exact hunfinished rfl
  · rename_i now retryId id numRemaining
    simp only [step, Option.ite_none_right_eq_some, Option.some.injEq] at hstep
    obtain ⟨-, rfl⟩ := hstep
    rw [view_bootstrapResult] at hstarted
    cases numRemaining with
    | zero => exact .inl rfl
    | succ n =>
        by_cases hstate : w.view.state = .started
        · exact .inr (.inl (hstarted (h.requested hstate) hstate))
        · exact .inr (.inr hstate)
  · trivial

/-- Along a run puts are only held back while a bootstrap can release them exactly
when every step of the run meets the condition. -/
theorem puts_releasable_iff (replicationFactor : Nat) (acts : List Act) :
    Machine.Along step (fun _ _ w' => Releasable w') (initial replicationFactor) acts ↔
      Machine.Along step (fun w a _ => ReleasableStep w a) (initial replicationFactor)
        acts := by
  refine Machine.along_iff_of_invariant (fun w => ReleaseInv w.view)
    (fun w a w' h hstep hok => ?_) (fun w a w' h hstep hrel => ?_)
    (releaseInv_initial replicationFactor)
  · have hinv := releaseInv_step h hstep hok
    exact ⟨hinv, hinv.releasable⟩
  · exact releasableStep_of_releasable h hstep hrel

/-- A second `begin_bootstrap`, made after the first bootstrap has finished, holds
the puts back for good. -/
theorem puts_releasable_fails :
    ¬ ∀ replicationFactor acts,
      Machine.Along step (fun _ _ w' => Releasable w') (initial replicationFactor) acts := by
  intro h
  have hrun := h 1 [.beginBootstrap, .pollBootstrap 0 (.ok 0),
    .kadEvent 1 1 (.outboundQueryProgressed 0 (.bootstrap (.ok 0)) true), .beginBootstrap]
  obtain ⟨-, hrun⟩ := hrun _ rfl
  obtain ⟨-, hrun⟩ := hrun _ rfl
  obtain ⟨-, hrun⟩ := hrun _ rfl
  obtain ⟨hlast, -⟩ := hrun _ rfl
  rcases hlast rfl with ⟨hstate, -⟩ | ⟨hstate, -⟩
  · cases hstate
  · cases hstate

/-! ## At most one bootstrap query at a time -/

/-- `poll` only starts a bootstrap query when none is in progress; after the step the
state is `Started` exactly while one is, and there is at most one. -/
def SingleBootstrap (w : World) (a : Act) (w' : World) : Prop :=
  (∀ now answer, a = .pollBootstrap now answer →
      startsBootstrap w.behaviour now = true → w.runningBootstraps = []) ∧
    (w'.behaviour.bootstrap.state = .started ↔ w'.runningBootstraps ≠ []) ∧
    w'.runningBootstraps.length ≤ 1

def SingleStep : Act → Prop
  | .kadEvent _ _ (.outboundQueryProgressed _ (.bootstrap (.error _)) last) => last = true
  | .kadEvent _ _ (.outboundQueryProgressed _ (.bootstrap (.ok numRemaining)) true) =>
      numRemaining = 0
  | _ => True

structure SingleInv (v : View) : Prop where
  started : v.state = .started ↔ v.running ≠ []
  length_le : v.running.length ≤ 1

theorem singleInv_initial (replicationFactor : Nat) :
    SingleInv (initial replicationFactor).view where
  started := by simp [World.view, initial, new]
  length_le := by simp [World.view, initial]

theorem SingleInv.running_eq {v : View} (h : SingleInv v) {id : QueryId}
    (hid : id ∈ v.running) : v.running = [id] := by
  obtain ⟨x, hx⟩ : ∃ x, v.running = [x] :=
    List.length_eq_one_iff.mp (le_antisymm h.length_le (List.length_pos_of_mem hid))
  rw [hx, List.mem_singleton] at hid
  rw [hx, hid]

/-- From the invariant, a result of a running query keeps it exactly when the result
meets the condition. -/
theorem singleInv_result_iff {v : View} (h : SingleInv v) {id : QueryId}
    (hid : id ∈ v.running) (result : Except BootstrapError Nat) (last : Bool)
    (now : Instant) (retryId : QueryId) :
    SingleInv (v.result id result last) ↔
      SingleStep
        (.kadEvent now retryId (.outboundQueryProgressed id (.bootstrap result) last)) := by
  have hrunning := h.running_eq hid
  have hstate : v.state = .started := h.started.mpr (List.ne_nil_of_mem hid)
  cases result with
  | error e =>
      cases last with
      | true =>
          refine iff_of_true ⟨?_, ?_⟩ rfl
          · simp [View.result, hrunning]
          · simp [View.result, hrunning]
      | false =>
          refine iff_of_false (fun hinv => ?_) nofun
          have := hinv.started
          simp [View.result, hrunning] at this
  | ok numRemaining =>
      cases last with
      | false => cases numRemaining <;> exact iff_of_true h trivial
      | true =>
          cases numRemaining with
          | zero =>
              refine iff_of_true ⟨?_, ?_⟩ rfl
              · simp [View.result, hrunning]
              · simp [View.result, hrunning]
          | succ n =>
              refine iff_of_false (fun hinv => ?_) nofun
              have := hinv.started
              simp [View.result, hrunning, hstate] at this

theorem singleInv_start {w : World} (h : SingleInv w.view) {now : Instant}
    (hstarts : startsBootstrap w.behaviour now = true) : w.runningBootstraps = [] := by
  obtain ⟨hstate, -⟩ := startsBootstrap_view hstarts
  by_contra hne
  have := h.started.mpr hne
  rw [hstate] at this
  cases this

theorem singleInv_step {w w' : World} {a : Act} (h : SingleInv w.view)
    (hstep : step w a = some w') : SingleInv w'.view ↔ SingleStep a := by
  by_cases hboot : ∃ now retryId id result last,
      a = .kadEvent now retryId (.outboundQueryProgressed id (.bootstrap result) last)
  · obtain ⟨now, retryId, id, result, last, rfl⟩ := hboot
    simp only [step, Option.ite_none_right_eq_some, Option.some.injEq,
      Bool.and_eq_true, World.Reports, decide_eq_true_eq] at hstep
    obtain ⟨⟨-, hid⟩, rfl⟩ := hstep
    rw [view_bootstrapResult]
    exact singleInv_result_iff h hid result last now retryId
  · push Not at hboot
    have hok : SingleStep a := by
      unfold SingleStep
      split
      · exact absurd rfl (hboot _ _ _ _ _)
      · exact absurd rfl (hboot _ _ _ _ _)
      · trivial
    refine iff_of_true ?_ hok
    rcases step_view hstep with hsame | hview
    · rwa [hsame]
    · generalize w'.view = v at hview
      cases hview with
      | request => exact ⟨h.started, h.length_le⟩
      | start now answer hstarts =>
          have hnone : w.view.running = [] := singleInv_start h hstarts
          cases answer with
          | ok id => exact ⟨by simp [View.start], by simp [View.start, hnone]⟩
          | error e => exact h
      | result now retryId id result last hid => exact absurd rfl (hboot _ _ _ _ _)

/-- Along a run at most one bootstrap query is in progress at a time, and the state
is `Started` exactly while one is, exactly when every step meets the condition. -/
theorem single_bootstrap_iff (replicationFactor : Nat) (acts : List Act) :
    Machine.Along step SingleBootstrap (initial replicationFactor) acts ↔
      Machine.Along step (fun _ a _ => SingleStep a) (initial replicationFactor) acts := by
  refine Machine.along_iff_of_invariant (fun w => SingleInv w.view)
    (fun w a w' h hstep hok => ?_) (fun w a w' h hstep hsingle => ?_)
    (singleInv_initial replicationFactor)
  · have hinv := (singleInv_step h hstep).mpr hok
    refine ⟨hinv, ?_, hinv.started, hinv.length_le⟩
    rintro now answer rfl hstarts
    exact singleInv_start h hstarts
  · exact (singleInv_step h hstep).mp ⟨hsingle.2.1, hsingle.2.2⟩

/-- A lookup of the bootstrap query times out while others remain: `poll` starts a
second query beside the first. -/
theorem single_bootstrap_fails :
    ¬ ∀ replicationFactor acts,
      Machine.Along step SingleBootstrap (initial replicationFactor) acts := by
  intro h
  have hrun := h 1 [.beginBootstrap, .pollBootstrap 0 (.ok 0),
    .kadEvent 1 1 (.outboundQueryProgressed 0 (.bootstrap (.error ⟨some 1⟩)) false),
    .pollBootstrap 2000000000 (.ok 2)]
  obtain ⟨-, hrun⟩ := hrun _ rfl
  obtain ⟨-, hrun⟩ := hrun _ rfl
  obtain ⟨-, hrun⟩ := hrun _ rfl
  obtain ⟨⟨hnone, -, -⟩, -⟩ := hrun _ rfl
  have hstarts := hnone 2000000000 (.ok 2) rfl rfl
  cases hstarts

end P2pa.Dht
