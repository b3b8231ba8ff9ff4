import P2pa.Mdns.Discovery

/-!
# The timer of the discovery table

After a poll the timer is set to the instant at which the first entry of the table expires.
Polls that receive nothing change nothing before that instant, and at it something expires.
-/

namespace P2pa.Mdns

open Utils

/-- The polls to come that receive nothing, before the timer fires. -/
def Idle (b : Behaviour) (a : Poll) : Prop :=
  a.received = [] ∧ ∀ timer, b.closestExpiration = some timer → a.now < timer.start

structure Armed (now : Instant) (w : World) : Prop where
  timer : w.behaviour.discoveredNodes ≠ [] → ∃ t,
    w.behaviour.closestExpiration = some (Timer.at t) ∧ now < t ∧
      IsLeast {e | ∃ pair, (pair, e) ∈ w.behaviour.discoveredNodes} t
  rests : ∀ {idle w'}, (∀ a ∈ idle, Idle w.behaviour a) → Machine.run step w idle = some w' →
    w'.behaviour.discoveredNodes = w.behaviour.discoveredNodes ∧ w'.events = w.events
  fires : ∀ {timer a w'}, w.behaviour.discoveredNodes ≠ [] →
    w.behaviour.closestExpiration = some timer → timer.start ≤ a.now → a.received = [] →
      step w a = some w' → ∃ pairs, pairs ≠ [] ∧ w'.events = w.events ++ [.expired pairs] ∧
        ∀ pair, pair ∈ pairs ↔ ∃ e ≤ a.now, (pair, e) ∈ w.behaviour.discoveredNodes

/-! ## The sweep -/

theorem foldl_closest (now : Instant) (nodes : Leases.Table Pair Instant) (s : Sweep) :
    (nodes.foldl (Sweep.node now) s).closestExpiration =
      match s.closestExpiration, Leases.earliest (Leases.retain nodes now) with
      | some closest, some t => some (min closest t)
      | some closest, none => some closest
      | none, earliest => earliest := by
  induction nodes generalizing s with
  | nil =>
      cases h : s.closestExpiration with
      | none => exact h
      | some closest => exact h
  | cons node nodes ih =>
      rw [List.foldl_cons, ih]
      unfold Sweep.node Leases.retain
      by_cases h : node.2 ≤ now
      · rw [if_pos h, List.filter_cons_of_neg (by simpa using h)]
      · rw [if_neg h, List.filter_cons_of_pos (by simpa using h)]
        generalize nodes.filter (fun e => decide (now < e.2)) = kept
        have hcons : Leases.earliest (node :: kept) =
            some ((Leases.earliest kept).elim node.2 (min node.2)) := rfl
        rw [hcons]
        cases hs : s.closestExpiration with
        | none => cases Leases.earliest kept <;> simp
        | some closest => cases Leases.earliest kept <;> simp [min_assoc]

theorem sweep_closest (now : Instant) (nodes : Leases.Table Pair Instant) :
    (sweep now nodes).closestExpiration = Leases.earliest (Leases.retain nodes now) :=
  foldl_closest now nodes _

theorem handleIfEvent_closest (b : Behaviour) (e : IfEvent) :
    (handleIfEvent b e).closestExpiration = b.closestExpiration := by
  unfold handleIfEvent
  split
  · split
    · rfl
    · split
      · rfl
      · split
        · rfl
        · split <;> rfl
  · rfl
  · rfl

theorem foldl_handleIfEvent_closest (b : Behaviour) (events : List IfEvent) :
    (events.foldl handleIfEvent b).closestExpiration = b.closestExpiration := by
  induction events generalizing b with
  | nil => rfl
  | cons e events ih => rw [List.foldl_cons, ih, handleIfEvent_closest]

theorem emit_closest (b : Behaviour) :
    (emit b).1.closestExpiration = b.closestExpiration := by
  unfold emit
  split <;> rfl

theorem poll_closest (b : Behaviour) (a : Poll) :
    (poll b a.ifEvents a.received a.now).1.closestExpiration =
      match Leases.earliest (Leases.retain (granted b a) a.now) with
      | some t => some (Timer.at t)
      | none => b.closestExpiration := by
  obtain ⟨hnodes, -⟩ := foldl_handleIfEvent_frame b a.ifEvents
  unfold poll granted
  dsimp only
  rw [emit_closest]
  simp only [receive_eq, pushEvent_eq, sweep_closest, hnodes]
  cases Leases.earliest (Leases.retain (Leases.grantAll b.discoveredNodes
    (a.received.map keyed)) a.now) with
  | none => exact foldl_handleIfEvent_closest b a.ifEvents
  | some t => rfl

/-! ## Idle polls -/

section Step

variable {w w' : World} {a : Poll}

theorem step_closest (hstep : step w a = some w') :
    w'.behaviour.closestExpiration =
      match Leases.earliest w'.behaviour.discoveredNodes with
      | some t => some (Timer.at t)
      | none => w.behaviour.closestExpiration := by
  obtain ⟨hnodes, -⟩ := step_spec hstep
  have hclosest := poll_closest w.behaviour a
  simp only [step, Option.some.injEq] at hstep
  subst hstep
  rw [hnodes]
  exact hclosest

def Timed (b : Behaviour) : Prop :=
  b.discoveredNodes ≠ [] → ∃ t, b.closestExpiration = some (Timer.at t) ∧
    IsLeast {e | ∃ pair, (pair, e) ∈ b.discoveredNodes} t

theorem timed_step (hstep : step w a = some w') : Timed w'.behaviour := by
  intro hne
  have hclosest := step_closest hstep
  cases ht : Leases.earliest w'.behaviour.discoveredNodes with
  | none => exact absurd (Leases.earliest_eq_none_iff.mp ht) hne
  | some t =>
      rw [ht] at hclosest
      exact ⟨t, hclosest, Leases.isLeast_earliest ht⟩

/-- What a poll that receives nothing tells of. -/
theorem step_silent (hreceived : a.received = []) (hstep : step w a = some w') :
    w'.behaviour.discoveredNodes = Leases.retain w.behaviour.discoveredNodes a.now ∧
      w'.events = w.events ++
        eventOf .expired (Leases.expired w.behaviour.discoveredNodes a.now) := by
  obtain ⟨hnodes, hevents, -⟩ := step_spec hstep
  have hgranted : granted w.behaviour a = w.behaviour.discoveredNodes := by
    unfold granted
    rw [hreceived]
    rfl
  unfold newEvents at hevents
  rw [hgranted, hreceived] at hevents
  rw [hgranted] at hnodes
  exact ⟨hnodes, hevents⟩

theorem not_expired (htimed : Timed w.behaviour) (hidle : Idle w.behaviour a) :
    ∀ node ∈ w.behaviour.discoveredNodes, a.now < node.2 := by
  intro node hnode
  obtain ⟨t, hclosest, -, hle⟩ := htimed (List.ne_nil_of_mem hnode)
  have hnow : a.now < t := hidle.2 _ hclosest
  exact lt_of_lt_of_le hnow (hle ⟨node.1, hnode⟩)

theorem idle_step (htimed : Timed w.behaviour) (hidle : Idle w.behaviour a)
    (hstep : step w a = some w') :
    w'.behaviour.discoveredNodes = w.behaviour.discoveredNodes ∧
      w'.behaviour.closestExpiration = w.behaviour.closestExpiration ∧ w'.events = w.events := by
  have hleft := not_expired htimed hidle
  obtain ⟨hnodes, hevents⟩ := step_silent hidle.1 hstep
  rw [Leases.retain_of_lt hleft] at hnodes
  rw [Leases.expired_eq_nil_iff.mpr hleft] at hevents
  refine ⟨hnodes, ?_, hevents.trans (List.append_nil _)⟩
  have hclosest := step_closest hstep
  rw [hnodes] at hclosest
  cases ht : Leases.earliest w.behaviour.discoveredNodes with
  | none =>
      rw [ht] at hclosest
      exact hclosest
  | some t =>
      rw [ht] at hclosest
      have hne : w.behaviour.discoveredNodes ≠ [] := by
        intro hnil
        rw [Leases.earliest_eq_none_iff.mpr hnil] at ht
        cases ht
      obtain ⟨u, hu, hleast⟩ := htimed hne
      rw [hclosest, hu, (Leases.isLeast_earliest ht).unique hleast]

end Step

theorem idle_run {w w' : World} {idle : List Poll} (htimed : Timed w.behaviour)
    (hidle : ∀ a ∈ idle, Idle w.behaviour a) (hrun : Machine.run step w idle = some w') :
    w'.behaviour.discoveredNodes = w.behaviour.discoveredNodes ∧ w'.events = w.events := by
  induction idle generalizing w with
  | nil =>
      cases hrun
      exact ⟨rfl, rfl⟩
  | cons a idle ih =>
      obtain ⟨u, hstep, hrest⟩ := Option.bind_eq_some_iff.mp hrun
      obtain ⟨hnodes, hclosest, hevents⟩ :=
        idle_step htimed (hidle a List.mem_cons_self) hstep
      have hidle' : ∀ a ∈ idle, Idle u.behaviour a := by
        intro a ha
        have h := hidle a (List.mem_cons_of_mem _ ha)
        unfold Idle at h
        rw [← hclosest] at h
        exact h
      rw [← hnodes, ← hevents]
      exact ih (timed_step hstep) hidle' hrest

theorem due_step {w w' : World} {timer : Timer} {a : Poll}
    (hnodup : (Leases.keys w.behaviour.discoveredNodes).Nodup) (htimed : Timed w.behaviour)
    (hne : w.behaviour.discoveredNodes ≠ []) (htimer : w.behaviour.closestExpiration = some timer)
    (hdue : timer.start ≤ a.now) (hreceived : a.received = []) (hstep : step w a = some w') :
    ∃ pairs, pairs ≠ [] ∧ w'.events = w.events ++ [.expired pairs] ∧
      ∀ pair, pair ∈ pairs ↔ ∃ e ≤ a.now, (pair, e) ∈ w.behaviour.discoveredNodes := by
  obtain ⟨t, hclosest, ⟨pair, hpair⟩, -⟩ := htimed hne
  cases htimer.symm.trans hclosest
  have hexpired : Leases.expired w.behaviour.discoveredNodes a.now ≠ [] := fun hnil =>
    absurd hdue (not_le.mpr (Leases.expired_eq_nil_iff.mp hnil _ hpair))
  refine ⟨_, hexpired, ?_, fun pair => ?_⟩
  · rw [(step_silent hreceived hstep).2]
    unfold eventOf
    rw [if_pos hexpired]
  · rw [Leases.mem_expired_iff hnodup]
    simp only [Leases.find_eq_some_iff hnodup, and_comm]

/-- After each poll of a run the timer waits for the first expiration in the table.  Until it
fires, polls that receive nothing leave the table as it is and tell of nothing; once it fires,
what has expired is told of, and that is something. -/
theorem timer_exact (config : Config) (localPeerId : PeerId) (polls : List Poll) :
    Machine.Along step (fun _ a w' => Armed a.now w') (initial config localPeerId) polls := by
  apply Machine.along_of_step Agree _ polls (agree_initial config localPeerId)
  intro w a w' h hstep
  have hagree := agree_step h hstep
  have htimed := timed_step hstep
  refine ⟨hagree, ?_, idle_run htimed, due_step hagree.nodup htimed⟩
  intro hne
  obtain ⟨t, hclosest, hleast⟩ := htimed hne
  refine ⟨t, hclosest, ?_, hleast⟩
  obtain ⟨pair, hpair⟩ := hleast.1
  rw [(step_spec hstep).1] at hpair
  simpa using (List.mem_filter.mp hpair).2

end P2pa.Mdns
