import P2pa.Dht.Run

/-!
# The queue-draining loops of `poll`

`poll` takes requests from the front of the queued gets and then of the queued
puts until the queue is empty, while the body of either loop may push a request
back.  `drain` runs the two loops with fuel.  They end exactly when nothing is
pushed back (`drain_ends_iff`), and then each queued request has been taken once
(`drains_once_iff`).
-/

namespace P2pa.Dht

open P2pa.Utils

inductive Request
  | get (query : KadGetQuery)
  | put (query : KadPutQuery)

structure Answer where
  putRecord : PutAnswer
  getRecord : QueryId

def queued (b : Behaviour) : List Request :=
  b.queuedGetRecordQueries.map .get ++ b.queuedPutRecordQueries.map .put

/-- One iteration and the request it takes, `none` once both loops have ended.
The second loop never queues a get, so it starts where the first one ends. -/
def drainStep (b : Behaviour) (now : Instant) (answer : Answer) :
    Option (Request × Behaviour) :=
  match b.queuedGetRecordQueries, b.queuedPutRecordQueries with
  | req :: _, _ => (drainGet b now answer.getRecord).map fun b => (.get req, b)
  | [], req :: _ => (drainPut b now answer.putRecord).map fun b => (.put req, b)
  | [], [] => none

/-- The loops from iteration `i` on, with the requests they take.  `answers` is
kad's answer in each iteration; `none` means that the fuel ran out first. -/
def drain (now : Instant) (answers : Nat → Answer) :
    Nat → Nat → Behaviour → Option (List Request × Behaviour)
  | 0, _, b => if (queued b).isEmpty then some ([], b) else none
  | fuel + 1, i, b =>
      match drainStep b now (answers i) with
      | none => some ([], b)
      | some (req, b) =>
          (drain now answers fuel (i + 1) b).map fun r => (req :: r.1, r.2)

/-- The loops end after as many iterations as there were queued requests, having
taken each of them once and in order. -/
def DrainsOnce (b : Behaviour) (now : Instant) (answers : Nat → Answer) : Prop :=
  ∃ b', drain now answers (queued b).length 0 b = some (queued b, b')

/-- No iteration from the `i`-th on pushes a request back. -/
structure DrainReady (b : Behaviour) (now : Instant) (answers : Nat → Answer)
    (i : Nat) : Prop where
  gets : ∀ q ∈ b.queuedGetRecordQueries, q.backoff.isExpired now = true
  puts : ∀ q ∈ b.queuedPutRecordQueries, q.backoff.isExpired now = true
  released : b.queuedPutRecordQueries ≠ [] → b.beginBootstrap = false
  stored : ∀ j < b.queuedPutRecordQueries.length,
    (answers (i + b.queuedGetRecordQueries.length + j)).putRecord.isOk = true

/-! ## One iteration -/

theorem drainStep_get {b : Behaviour} {q : KadGetQuery} {rest : List KadGetQuery}
    (hq : b.queuedGetRecordQueries = q :: rest) (now : Instant) (answer : Answer) :
    ∃ b', drainStep b now answer = some (.get q, b') ∧
      b'.queuedPutRecordQueries = b.queuedPutRecordQueries ∧
      b'.beginBootstrap = b.beginBootstrap ∧
      b'.queuedGetRecordQueries =
        if q.backoff.isExpired now then rest else rest ++ [q] := by
  by_cases hexp : q.backoff.isExpired now = true
  · let b₁ := { b with queuedGetRecordQueries := rest }
    refine ⟨getRecord b₁ answer.getRecord q.key q.backoff q.retryCount, ?_, ?_, ?_, ?_⟩
    · simp [drainStep, drainGet, hq, hexp, b₁]
    · exact congrArg Prod.snd (getRecord_putPart b₁ _ _ _ _)
    · exact congrArg Prod.fst (getRecord_bootstrapPart b₁ _ _ _ _)
    · simp [hexp, b₁]
  · refine ⟨{ b with queuedGetRecordQueries := rest ++ [q] }, ?_, rfl, rfl, ?_⟩
    · simp [drainStep, drainGet, hq, hexp]
    · simp [hexp]

theorem drainStep_put {b : Behaviour} {q : KadPutQuery} {rest : List KadPutQuery}
    (hget : b.queuedGetRecordQueries = [])
    (hput : b.queuedPutRecordQueries = q :: rest) (now : Instant) (answer : Answer) :
    ∃ b', drainStep b now answer = some (.put q, b') ∧
      b'.queuedGetRecordQueries = [] ∧ b'.beginBootstrap = b.beginBootstrap ∧
      ((q.backoff.isExpired now = true ∧ b.beginBootstrap = false ∧
          answer.putRecord.isOk = true ∧ b'.queuedPutRecordQueries = rest) ∨
        ((q.backoff.isExpired now = false ∨ b.beginBootstrap = true ∨
            answer.putRecord.isOk = false) ∧
          ∃ q', b'.queuedPutRecordQueries = rest ++ [q'] ∧
            (q'.backoff.isExpired now = false ∨ b.beginBootstrap = true))) := by
  cases hexp : q.backoff.isExpired now with
  | false =>
      refine ⟨{ b with queuedPutRecordQueries := rest ++ [q] }, ?_, hget, rfl,
        .inr ⟨.inl rfl, q, rfl, .inl hexp⟩⟩
      simp [drainStep, drainPut, hget, hput, hexp]
  | true =>
      let b₁ := { b with queuedPutRecordQueries := rest }
      refine ⟨putRecord b₁ now answer.putRecord q, ?_, ?_, ?_, ?_⟩
      · simp [drainStep, drainPut, hget, hput, hexp, b₁]
      · exact (congrArg Prod.snd (putRecord_getPart b₁ _ _ _)).trans hget
      · exact congrArg Prod.fst (putRecord_bootstrapPart b₁ _ _ _)
      · cases hbegin : b.beginBootstrap with
        | true =>
            exact .inr ⟨.inr (.inl rfl), q, by simp [putRecord, hbegin, b₁], .inr rfl⟩
        | false =>
            cases hans : answer.putRecord with
            | ok id => exact .inl ⟨rfl, rfl, rfl, by simp [putRecord, hbegin, b₁]⟩
            | error e =>
                refine .inr ⟨.inr (.inr rfl),
                  { q with backoff := q.backoff.startNext now false },
                  by simp [putRecord, hbegin, b₁], .inl ?_⟩
                simp

/-! ## Readiness from one iteration to the next -/

theorem drainReady_of_empty {b : Behaviour} (hb : queued b = []) (now : Instant)
    (answers : Nat → Answer) (i : Nat) : DrainReady b now answers i := by
  rw [queued, List.append_eq_nil_iff, List.map_eq_nil_iff, List.map_eq_nil_iff] at hb
  refine ⟨?_, ?_, ?_, ?_⟩ <;> simp [hb.1, hb.2]

theorem drainReady_get_iff {b b' : Behaviour} {q : KadGetQuery}
    {rest : List KadGetQuery} {now : Instant} (hget : b.queuedGetRecordQueries = q :: rest)
    (hput' : b'.queuedPutRecordQueries = b.queuedPutRecordQueries)
    (hbegin' : b'.beginBootstrap = b.beginBootstrap)
    (hget' : b'.queuedGetRecordQueries =
      if q.backoff.isExpired now then rest else rest ++ [q])
    (answers : Nat → Answer) (i : Nat) :
    DrainReady b now answers i ↔
      q.backoff.isExpired now = true ∧ DrainReady b' now answers (i + 1) := by
  have hindex : ∀ j, i + (rest.length + 1) + j = i + 1 + rest.length + j := by omega
  constructor
  · intro h
    have hexp : q.backoff.isExpired now = true := h.gets q (by simp [hget])
    rw [if_pos hexp] at hget'
    refine ⟨hexp, fun p hp => h.gets p ?_, fun p hp => h.puts p (hput' ▸ hp), ?_, ?_⟩
    · rw [hget, List.mem_cons]
      exact .inr (hget' ▸ hp)
    · intro hne
      rw [hbegin']
      exact h.released (hput' ▸ hne)
    · intro j hj
      have := h.stored j (hput' ▸ hj)
      rwa [hget, List.length_cons, hindex, ← hget'] at this
  · rintro ⟨hexp, h⟩
    rw [if_pos hexp] at hget'
    refine ⟨?_, fun p hp => h.puts p (hput' ▸ hp), ?_, ?_⟩
    · intro p hp
      rw [hget, List.mem_cons] at hp
      rcases hp with rfl | hp
      · exact hexp
      · exact h.gets p (hget' ▸ hp)
    · intro hne
      rw [← hbegin']
      exact h.released (hput' ▸ hne)
    · intro j hj
      have := h.stored j (hput' ▸ hj)
      rwa [hget', ← hindex, ← List.length_cons, ← hget] at this

theorem drainReady_put_iff {b b' : Behaviour} {q : KadPutQuery}
    {rest : List KadPutQuery} {now : Instant} {answers : Nat → Answer} {i : Nat}
    (hget : b.queuedGetRecordQueries = [])
    (hput : b.queuedPutRecordQueries = q :: rest)
    (hget' : b'.queuedGetRecordQueries = [])
    (hbegin' : b'.beginBootstrap = b.beginBootstrap)
    (hput' : b'.queuedPutRecordQueries = rest)
    (hexp : q.backoff.isExpired now = true) (hbegin : b.beginBootstrap = false)
    (hok : (answers i).putRecord.isOk = true) :
    DrainReady b now answers i ↔ DrainReady b' now answers (i + 1) := by
  constructor
  · intro h
    refine ⟨by simp [hget'], fun p hp => h.puts p ?_, fun _ => by rw [hbegin', hbegin],
      fun j hj => ?_⟩
    · rw [hput, List.mem_cons]
      exact .inr (hput' ▸ hp)
    · have := h.stored (j + 1) (by rw [hput'] at hj; simp [hput]; omega)
      rw [hget, List.length_nil, Nat.add_zero] at this
      rw [hget', List.length_nil, Nat.add_zero]
      rwa [show i + 1 + j = i + (j + 1) by omega]
  · intro h
    refine ⟨by simp [hget], ?_, fun _ => hbegin, ?_⟩
    · intro p hp
      rw [hput, List.mem_cons] at hp
      rcases hp with rfl | hp
      · exact hexp
      · exact h.puts p (hput' ▸ hp)
    · intro j hj
      rw [hget, List.length_nil, Nat.add_zero]
      cases j with
      | zero => exact hok
      | succ j =>
          have := h.stored j (by rw [hput, List.length_cons] at hj; rw [hput']; omega)
          rw [hget', List.length_nil, Nat.add_zero] at this
          rwa [show i + (j + 1) = i + 1 + j by omega]

/-- Either both loops have ended, or an iteration takes the next request; it
leaves the loops as ready as they were, and takes the request away if they are. -/
theorem drainStep_cases (b : Behaviour) (now : Instant) (answers : Nat → Answer)
    (i : Nat) :
    (drainStep b now (answers i) = none ∧ queued b = []) ∨
      ∃ req b', drainStep b now (answers i) = some (req, b') ∧
        (DrainReady b now answers i ↔ DrainReady b' now answers (i + 1)) ∧
        (DrainReady b now answers i → queued b = req :: queued b') := by
  cases hget : b.queuedGetRecordQueries with
  | cons q rest =>
      obtain ⟨b', hstep, hput', hbegin', hget'⟩ := drainStep_get hget now (answers i)
      refine .inr ⟨.get q, b', hstep, ?_, fun h => ?_⟩
      · rw [drainReady_get_iff hget hput' hbegin' hget']
        refine ⟨fun h => h.2, fun h => ⟨?_, h⟩⟩
        by_contra hne
        rw [if_neg hne] at hget'
        exact hne (h.gets q (by simp [hget']))
      · rw [if_pos (h.gets q (by simp [hget]))] at hget'
        simp [queued, hget, hget', hput']
  | nil =>
      cases hput : b.queuedPutRecordQueries with
      | nil => exact .inl ⟨by simp [drainStep, hget, hput], by simp [queued, hget, hput]⟩
      | cons q rest =>
          obtain ⟨b', hstep, hget', hbegin', hbody⟩ :=
            drainStep_put hget hput now (answers i)
          refine .inr ⟨.put q, b', hstep, ?_⟩
          rcases hbody with ⟨hexp, hbegin, hok, hput'⟩ | ⟨hnot, q', hput', hstuck⟩
          · rw [drainReady_put_iff hget hput hget' hbegin' hput' hexp hbegin hok]
            exact ⟨Iff.rfl, fun _ => by simp [queued, hget, hget', hput, hput']⟩
          · -- what is pushed back makes the loops unready, before and after
            have hunready : ¬ DrainReady b now answers i := by
              intro h
              have hok := h.stored 0 (by simp [hput])
              rw [hget, List.length_nil, Nat.add_zero] at hok
              simp [h.puts q (by simp [hput]), h.released (by simp [hput]), hok] at hnot
            have hunready' : ¬ DrainReady b' now answers (i + 1) := by
              intro h
              have hbegin := h.released (by simp [hput'])
              rw [hbegin'] at hbegin
              simp [h.puts q' (by simp [hput']), hbegin] at hstuck
            exact ⟨iff_of_false hunready hunready', fun h => absurd h hunready⟩

/-! ## The loops -/

/-- If the loops end at all, nothing was ever pushed back. -/
theorem ready_of_drain {now : Instant} {answers : Nat → Answer} {fuel i : Nat}
    {b : Behaviour} {r : List Request × Behaviour}
    (h : drain now answers fuel i b = some r) : DrainReady b now answers i := by
  induction fuel generalizing i b r with
  | zero =>
      have hempty : (queued b).isEmpty = true := by
        by_contra hne
        simp [drain, hne] at h
      exact drainReady_of_empty (List.isEmpty_iff.mp hempty) now answers i
  | succ fuel ih =>
      rcases drainStep_cases b now answers i with ⟨-, hempty⟩ | ⟨req, b', hstep, hiff, -⟩
      · exact drainReady_of_empty hempty now answers i
      · simp only [drain, hstep, Option.map_eq_some_iff] at h
        obtain ⟨r', hr', -⟩ := h
        exact hiff.mpr (ih hr')

theorem drain_of_ready {now : Instant} {answers : Nat → Answer} {i : Nat}
    {b : Behaviour} (h : DrainReady b now answers i) :
    ∃ b', drain now answers (queued b).length i b = some (queued b, b') := by
  generalize hn : (queued b).length = n
  induction n generalizing i b with
  | zero =>
      have hempty : queued b = [] := List.eq_nil_of_length_eq_zero hn
      exact ⟨b, by simp [drain, hempty]⟩
  | succ n ih =>
      rcases drainStep_cases b now answers i with
        ⟨-, hempty⟩ | ⟨req, b', hstep, hiff, hqueued⟩
      · simp [hempty] at hn
      · rw [hqueued h, List.length_cons, Nat.add_right_cancel_iff] at hn
        obtain ⟨b'', hb''⟩ := ih (hiff.mp h) hn
        exact ⟨b'', by simp [drain, hstep, hb'', hqueued h]⟩

/-- The loops end exactly when nothing is pushed back. -/
theorem drain_ends_iff (b : Behaviour) (now : Instant) (answers : Nat → Answer) :
    (∃ fuel r, drain now answers fuel 0 b = some r) ↔ DrainReady b now answers 0 := by
  constructor
  · rintro ⟨fuel, r, h⟩
    exact ready_of_drain h
  · intro h
    obtain ⟨b', hb'⟩ := drain_of_ready h
    exact ⟨_, _, hb'⟩

/-- Each request queued when the loops begin is taken at most once exactly when the
back-off of every queued request has expired, no bootstrap holds the puts back and
kad's store accepts each of them. -/
theorem drains_once_iff (b : Behaviour) (now : Instant) (answers : Nat → Answer) :
    DrainsOnce b now answers ↔ DrainReady b now answers 0 := by
  constructor
  · rintro ⟨b', h⟩
    exact (drain_ends_iff b now answers).mp ⟨_, _, h⟩
  · exact drain_of_ready

/-- A put made after `begin_bootstrap` is queued with a back-off that was never
started; from then on the loops of `poll` never end. -/
theorem drains_once_fails :
    ∃ w, Machine.Reachable step (initial 1) w ∧
      ∀ now answers, ¬ DrainsOnce w.behaviour now answers ∧
        ∀ fuel, drain now answers fuel 0 w.behaviour = none := by
  let held : KadPutQuery := { backoff := .default, key := [1], value := [2] }
  let b : Behaviour :=
    { new 1 with beginBootstrap := true, queuedPutRecordQueries := [held] }
  have hunready : ∀ now answers, ¬ DrainReady b now answers 0 := by
    intro now answers h
    have := h.released (by simp [b])
    simp [b] at this
  refine ⟨{ initial 1 with behaviour := b, submitted := {([1], [2])} },
    ⟨[.beginBootstrap, .putRecord 0 (.error ()) [1] [2]], rfl⟩, fun now answers => ⟨?_, ?_⟩⟩
  · rintro ⟨b', h⟩
    exact hunready now answers (ready_of_drain h)
  · intro fuel
    cases h : drain now answers fuel 0 b with
    | none => rfl
    | some r =>
        exact absurd ((drain_ends_iff b now answers).mp ⟨fuel, r, h⟩) (hunready now answers)

end P2pa.Dht
