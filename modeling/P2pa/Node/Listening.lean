import P2pa.Node.Announce

/-!
# When a node has started to listen

The loop of `start_listen` takes events of the swarm until its timer fires.  `select!`
creates the timer, so each event is waited for with a new one.  Time passes only while the
loop waits; of an event and a timer that are ready at the same instant either is taken.
-/

namespace P2pa.Node

open Utils

/-- An event of the swarm, and when it can be taken first. -/
structure Arrival where
  instant : Instant
  event : SwarmEvent

def listenTimeout : Duration := .fromSecs 1

/-- How the loop is left: the node, and the instant at which the timer fired. -/
structure Listened where
  inner : NodeInner
  instant : Instant

section Loop

-- which of the two is taken where an event and the timer are ready together
variable (arrivals : Nat → Arrival) (timerFirst : Nat → Bool)

/-- The loop, entered at the instant `now` with the `k`-th event as the next one.  `none`
is a loop that has not been left after the iterations it is given. -/
def listenLoop : Nat → Nat → Instant → NodeInner → Option Listened
  | 0, _, _, _ => none
  | fuel + 1, k, now, n =>
      let deadline := now + listenTimeout.nanos
      let ready := max now (arrivals k).instant
      if ready < deadline ∨ ready = deadline ∧ timerFirst k = false then
        listenLoop fuel (k + 1) ready (listenEvent n (arrivals k).event)
      else some { inner := n, instant := deadline }

def startListenAt (o : Oracle) (fuel : Nat) (start : Instant) (n : NodeInner) :
    Option (Except Error Listened) :=
  let n := n.listenOn listenAddr
  if o.listenOn listenAddr then
    (listenLoop arrivals timerFirst fuel 0 start n).map .ok
  else some (.error .listen)

/-! ## The instants of the loop -/

/-- When the loop has taken the first `k` events. -/
def takenAt (start : Instant) : Nat → Instant
  | 0 => start
  | k + 1 => max (takenAt start k) (arrivals k).instant

/-- The timer fires before the `k`-th event is taken. -/
def Quiet (start : Instant) (k : Nat) : Prop :=
  takenAt arrivals start k + listenTimeout.nanos < takenAt arrivals start (k + 1) ∨
    takenAt arrivals start (k + 1) = takenAt arrivals start k + listenTimeout.nanos ∧
      timerFirst k = true

/-- The node after `j` events, the `k`-th one first. -/
def afterEvents (k j : Nat) (n : NodeInner) : NodeInner :=
  ((List.range' k j).map fun i => (arrivals i).event).foldl listenEvent n

variable {arrivals timerFirst}

theorem takenAt_mono (start : Instant) : Monotone (takenAt arrivals start) :=
  monotone_nat_of_le_succ fun _ => le_max_left _ _

theorem not_quiet_iff {start : Instant} {k : Nat} :
    ¬ Quiet arrivals timerFirst start k ↔
      takenAt arrivals start (k + 1) < takenAt arrivals start k + listenTimeout.nanos ∨
        takenAt arrivals start (k + 1) = takenAt arrivals start k + listenTimeout.nanos ∧
          timerFirst k = false := by
  unfold Quiet
  rcases lt_trichotomy (takenAt arrivals start (k + 1))
    (takenAt arrivals start k + listenTimeout.nanos) with hlt | heq | hgt
  · simp [hlt, hlt.ne, hlt.le]
  · simp [heq]
  · simp [hgt, hgt.ne', hgt.le]

section Iteration

variable {start : Instant} {k : Nat}

theorem listenLoop_of_quiet (h : Quiet arrivals timerFirst start k) (fuel : Nat)
    (n : NodeInner) :
    listenLoop arrivals timerFirst (fuel + 1) k (takenAt arrivals start k) n =
      some { inner := n, instant := takenAt arrivals start k + listenTimeout.nanos } :=
  if_neg fun htaken => not_quiet_iff.mpr htaken h

theorem listenLoop_of_not_quiet (h : ¬ Quiet arrivals timerFirst start k) (fuel : Nat)
    (n : NodeInner) :
    listenLoop arrivals timerFirst (fuel + 1) k (takenAt arrivals start k) n =
      listenLoop arrivals timerFirst fuel (k + 1) (takenAt arrivals start (k + 1))
        (listenEvent n (arrivals k).event) :=
  if_pos (not_quiet_iff.mp h)

end Iteration

/-- The loop is left at the first quiet second, after the events before it. -/
theorem listenLoop_eq_some_iff {start : Instant} {fuel k : Nat} {n : NodeInner}
    {listened : Listened} :
    listenLoop arrivals timerFirst fuel k (takenAt arrivals start k) n = some listened ↔
      ∃ j < fuel, (∀ i < j, ¬ Quiet arrivals timerFirst start (k + i)) ∧
        Quiet arrivals timerFirst start (k + j) ∧
        listened =
          { inner := afterEvents arrivals k j n
            instant := takenAt arrivals start (k + j) + listenTimeout.nanos } := by
  induction fuel generalizing k n with
  | zero =>
      constructor
      · exact nofun
      · rintro ⟨j, hj, -⟩
        exact absurd hj (Nat.not_lt_zero j)
  | succ fuel ih =>
      by_cases hquiet : Quiet arrivals timerFirst start k
      · rw [listenLoop_of_quiet hquiet, Option.some.injEq, eq_comm]
        constructor
        · intro heq
          exact ⟨0, Nat.succ_pos fuel, nofun, hquiet, heq⟩
        · rintro ⟨j, -, hbefore, -, heq⟩
          cases j with
          | zero => exact heq
          | succ j => exact absurd hquiet (hbefore 0 (Nat.succ_pos j))
      · rw [listenLoop_of_not_quiet hquiet, ih]
        constructor
        · rintro ⟨j, hj, hbefore, hat, heq⟩
          refine ⟨j + 1, Nat.succ_lt_succ hj, fun i hi => ?_, ?_, ?_⟩
          · cases i with
            | zero => exact hquiet
            | succ i =>
                have := hbefore i (Nat.lt_of_succ_lt_succ hi)
                rwa [Nat.add_right_comm] at this
          · rwa [Nat.add_right_comm] at hat
          · rw [Nat.add_right_comm] at heq
            exact heq
        · rintro ⟨j, hj, hbefore, hat, heq⟩
          cases j with
          | zero => exact absurd hat hquiet
          | succ j =>
              refine ⟨j, Nat.lt_of_succ_lt_succ hj, fun i hi => ?_, ?_, ?_⟩
              · have := hbefore (i + 1) (Nat.succ_lt_succ hi)
                rwa [Nat.add_right_comm]
              · rwa [Nat.add_right_comm]
              · rw [Nat.add_right_comm]
                exact heq

/-! ## Returning -/

variable (arrivals timerFirst) (o : Oracle) (start : Instant) (n : NodeInner)

def Returns : Prop :=
  ∃ fuel result, startListenAt arrivals timerFirst o fuel start n = some result

def ReturnsInTime : Prop :=
  ∃ fuel result, startListenAt arrivals timerFirst o fuel start n = some result ∧
    ∀ listened, result = .ok listened → listened.instant = start + listenTimeout.nanos

variable {arrivals timerFirst o start n}

theorem startListenAt_refused (h : o.listenOn listenAddr = false) (fuel : Nat) :
    startListenAt arrivals timerFirst o fuel start n = some (.error .listen) := by
  simp [startListenAt, h]

theorem startListenAt_accepted (h : o.listenOn listenAddr = true) {fuel : Nat}
    {result : Except Error Listened} :
    startListenAt arrivals timerFirst o fuel start n = some result ↔
      ∃ j < fuel, (∀ i < j, ¬ Quiet arrivals timerFirst start i) ∧
        Quiet arrivals timerFirst start j ∧
        result = .ok
          { inner := afterEvents arrivals 0 j (n.listenOn listenAddr)
            instant := takenAt arrivals start j + listenTimeout.nanos } := by
  have hloop : ∀ listened,
      listenLoop arrivals timerFirst fuel 0 start (n.listenOn listenAddr) = some listened ↔
        _ := fun _ => listenLoop_eq_some_iff (k := 0)
  rw [startListenAt, if_pos h, Option.map_eq_some_iff]
  simp only [hloop, Nat.zero_add]
  constructor
  · rintro ⟨listened, ⟨j, hj, hbefore, hat, rfl⟩, rfl⟩
    exact ⟨j, hj, hbefore, hat, rfl⟩
  · rintro ⟨j, hj, hbefore, hat, rfl⟩
    exact ⟨_, ⟨j, hj, hbefore, hat, rfl⟩, rfl⟩

/-- A second without an event, and so a first one. -/
theorem exists_first_quiet (h : ∃ k, Quiet arrivals timerFirst start k) :
    ∃ j, (∀ i < j, ¬ Quiet arrivals timerFirst start i) ∧
      Quiet arrivals timerFirst start j ∧
        ∀ k, Quiet arrivals timerFirst start k → j ≤ k := by
  classical
  exact ⟨Nat.find h, fun i hi => Nat.find_min h hi, Nat.find_spec h, fun k hk =>
    Nat.find_min' h hk⟩

theorem returns_iff :
    Returns arrivals timerFirst o start n ↔
      o.listenOn listenAddr = false ∨ ∃ k, Quiet arrivals timerFirst start k := by
  cases hlisten : o.listenOn listenAddr with
  | false =>
      exact iff_of_true ⟨0, .error .listen, startListenAt_refused hlisten 0⟩ (.inl rfl)
  | true =>
      constructor
      · rintro ⟨fuel, result, h⟩
        obtain ⟨j, -, -, hat, -⟩ := (startListenAt_accepted hlisten).mp h
        exact .inr ⟨j, hat⟩
      · rintro (hrefused | hquiet)
        · cases hrefused
        · obtain ⟨j, hbefore, hat, -⟩ := exists_first_quiet hquiet
          exact ⟨j + 1, _, (startListenAt_accepted hlisten).mpr
            ⟨j, Nat.lt_succ_self j, hbefore, hat, rfl⟩⟩

theorem returnsInTime_iff :
    ReturnsInTime arrivals timerFirst o start n ↔ o.listenOn listenAddr = false ∨
      ∃ k, takenAt arrivals start k = start ∧ Quiet arrivals timerFirst start k := by
  cases hlisten : o.listenOn listenAddr with
  | false =>
      refine iff_of_true ⟨0, .error .listen, startListenAt_refused hlisten 0, ?_⟩ (.inl rfl)
      rintro listened ⟨⟩
  | true =>
      constructor
      · rintro ⟨fuel, result, h, htime⟩
        obtain ⟨j, -, -, hat, heq⟩ := (startListenAt_accepted hlisten).mp h
        have hleft := htime _ heq
        exact .inr ⟨j, Nat.add_right_cancel hleft, hat⟩
      · rintro (hrefused | ⟨k, hstart, hquiet⟩)
        · cases hrefused
        · obtain ⟨j, hbefore, hat, hfirst⟩ := exists_first_quiet ⟨k, hquiet⟩
          have hj : takenAt arrivals start j = start := by
            apply le_antisymm
            · exact (takenAt_mono start (hfirst k hquiet)).trans_eq hstart
            · exact takenAt_mono start (Nat.zero_le j)
          refine ⟨j + 1, _, (startListenAt_accepted hlisten).mpr
            ⟨j, Nat.lt_succ_self j, hbefore, hat, rfl⟩, ?_⟩
          rintro listened ⟨⟩
          exact congrArg (· + listenTimeout.nanos) hj

end Loop

/-- The node gets to its main loop exactly when the swarm does not listen at all or a
second passes without an event, and within a second of the start exactly when that second
is the one from the start on. -/
theorem start_listen_returns_iff (arrivals : Nat → Arrival) (timerFirst : Nat → Bool)
    (o : Oracle) (start : Instant) (n : NodeInner) :
    (Returns arrivals timerFirst o start n ↔
        o.listenOn listenAddr = false ∨ ∃ k, Quiet arrivals timerFirst start k) ∧
      (ReturnsInTime arrivals timerFirst o start n ↔
        o.listenOn listenAddr = false ∨
          ∃ k, takenAt arrivals start k = start ∧ Quiet arrivals timerFirst start k) :=
  ⟨returns_iff, returnsInTime_iff⟩

def everyHalfSecond (k : Nat) : Arrival where
  instant := (k + 1) * 500000000
  event := .other

theorem takenAt_everyHalfSecond (k : Nat) :
    takenAt everyHalfSecond 0 k = k * 500000000 := by
  induction k with
  | zero => rfl
  | succ k ih =>
      rw [takenAt, ih, everyHalfSecond]
      exact max_eq_right (Nat.mul_le_mul_right _ (Nat.le_succ k))

theorem start_listen_returns_fails :
    ¬ ∀ arrivals timerFirst o start n, Returns arrivals timerFirst o start n := by
  intro h
  have hreturns := h everyHalfSecond (fun _ => true) sampleOracle 0 sampleInner
  rcases returns_iff.mp hreturns with hrefused | ⟨k, hquiet⟩
  · cases hrefused
  · have htimeout : listenTimeout.nanos = 1000000000 := by decide
    unfold Quiet at hquiet
    rw [takenAt_everyHalfSecond, takenAt_everyHalfSecond, htimeout] at hquiet
    have hlate : k * 500000000 + 1000000000 ≤ (k + 1) * 500000000 := by
      rcases hquiet with hlt | ⟨heq, -⟩
      · exact le_of_lt hlt
      · exact ge_of_eq heq
    omega

end P2pa.Node
