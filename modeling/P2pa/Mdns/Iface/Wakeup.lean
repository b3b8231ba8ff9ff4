import P2pa.Mdns.Iface.Buffers

/-!
# When an interface task is woken again

A task that goes to sleep is woken for the next datagram only if the receive socket
was asked for one and had none.  A datagram that is not for the service, or a failed
read, puts the task to sleep all the same, with datagrams that may be waiting.
-/

namespace P2pa.Mdns.Iface

open Utils Wire

def Call.readOutcome : Call → Option ReadOutcome
  | read outcome _ => some outcome
  | _ => none

def reads (calls : List Call) : List ReadOutcome := calls.filterMap Call.readOutcome

/-- The last answer of the receive socket was that it has no datagram. -/
def WakeupRegistered (calls : List Call) : Prop :=
  (reads calls).getLast? = some .pending ∨ (reads calls).getLast? = some .wouldBlock

section Wakeup

variable (H : Hickory) (lib : Libp2p)

/-- The datagram parses, and concerns the service. -/
def Understood (settings : Settings) : ReadOutcome → Prop
  | .datagram data src => ∃ packet, settings.parse H lib data src = .ok (some packet)
  | _ => False

/-- The socket hands out a datagram of the service or has none. -/
def Expected (settings : Settings) (outcome : ReadOutcome) : Prop :=
  Understood H lib settings outcome ∨ outcome = .pending ∨ outcome = .wouldBlock

/-- A stage that does not read and does not put the task to sleep. -/
structure Silent (stage : Stage) : Prop where
  noRead : reads stage.calls = []
  exit : stage.exit ≠ some .pending

theorem silent_tick {s : InterfaceState} {r : Round} {stage : Stage}
    (h : s.tick r = some stage) : Silent stage := by
  cases ticked h with
  | idle _ => exact ⟨rfl, by simp⟩
  | fired _ _ _ _ _ _ _ _ _ => exact ⟨rfl, by simp⟩

theorem silent_write (s : InterfaceState) (r : Round) : Silent (s.write r) := by
  unfold InterfaceState.write
  split
  · exact ⟨rfl, by simp⟩
  · dsimp only
    split <;> exact ⟨rfl, by simp⟩

theorem silent_send (s : InterfaceState) (r : Round) : Silent (s.send r) := by
  unfold InterfaceState.send
  split
  · split
    · exact ⟨rfl, by simp⟩
    · dsimp only
      split <;> exact ⟨rfl, by simp⟩
  · exact ⟨rfl, by simp⟩

theorem reads_append (a b : List Call) : reads (a ++ b) = reads a ++ reads b :=
  List.filterMap_append

/-- What a part of the loop may have done with the receive socket: a round that goes on
has read nothing or a packet, and one that goes to sleep has read something else. -/
def Watched (settings : Settings) (r : Round) (o : Outcome) : Prop :=
  match o.status with
  | .running => reads o.calls = [] ∨
      reads o.calls = [r.read] ∧ Understood H lib settings r.read
  | .pending => reads o.calls = [r.read] ∧ ¬ Understood H lib settings r.read
  | .ready => reads o.calls = []

theorem Silent.andThen {stage : Stage} (hstage : Silent stage) {settings : Settings}
    {r : Round} {next : InterfaceState → Option Outcome} {o : Outcome}
    (hnext : stage.exit = none → ∀ p, next stage.state = some p →
      Watched H lib settings r p)
    (h : stage.andThen next = some o) : Watched H lib settings r o := by
  unfold Stage.andThen at h
  cases hexit : stage.exit with
  | some status =>
      rw [hexit] at h
      cases h
      cases status with
      | running => exact .inl hstage.noRead
      | pending => exact absurd hexit hstage.exit
      | ready => exact hstage.noRead
  | none =>
      rw [hexit] at h
      obtain ⟨p, hp, rfl⟩ := Option.map_eq_some_iff.mp h
      have hreads : reads (p.after stage.calls).calls = reads p.calls := by
        change reads (stage.calls ++ p.calls) = _
        rw [reads_append, hstage.noRead, List.nil_append]
      have hwatched := hnext hexit p hp
      unfold Watched at hwatched ⊢
      rw [hreads]
      exact hwatched

theorem watched_read {s : InterfaceState} {r : Round} {o : Outcome}
    (h : s.read H lib r = some o) : Watched H lib s.toSettings r o := by
  have hasleep : ¬ Understood H lib s.toSettings r.read →
      o = { state := s, calls := [.read r.read r.around], status := .pending } →
      Watched H lib s.toSettings r o := by
    intro hnot ho
    rw [ho]
    exact ⟨rfl, hnot⟩
  unfold InterfaceState.read at h
  dsimp only at h
  cases hread : r.read with
  | datagram data src =>
      rw [hread] at h hasleep
      dsimp only at h
      cases hparse : s.parse H lib data src with
      | error e =>
          rw [hparse] at h
          refine hasleep ?_ (Option.some.inj h).symm
          rintro ⟨packet, hpacket⟩
          rw [hparse] at hpacket
          cases hpacket
      | ok packet =>
          rw [hparse] at h
          cases packet with
          | none =>
              refine hasleep ?_ (Option.some.inj h).symm
              rintro ⟨packet, hpacket⟩
              rw [hparse] at hpacket
              cases hpacket
          | some packet =>
              obtain ⟨handled, -, rfl⟩ := Option.map_eq_some_iff.mp h
              right
              rw [hread]
              exact ⟨rfl, packet, hparse⟩
  | wouldBlock =>
      rw [hread] at h hasleep
      exact hasleep id (Option.some.inj h).symm
  | error =>
      rw [hread] at h hasleep
      exact hasleep id (Option.some.inj h).symm
  | pending =>
      rw [hread] at h hasleep
      exact hasleep id (Option.some.inj h).symm

theorem watched_iterate {s : InterfaceState} {r : Round} {o : Outcome}
    (h : s.iterate H lib r = some o) : Watched H lib s.toSettings r o := by
  obtain ⟨ticked, hticked, h⟩ := Option.bind_eq_some_iff.mp h
  have htick : Accounted H lib s ticked.calls ticked.state := accounted_tick hticked
  refine (silent_tick hticked).andThen H lib (fun _ o ho => ?_) h
  have hwrite : Accounted H lib ticked.state (ticked.state.write r).calls
      (ticked.state.write r).state := accounted_write ticked.state r
  refine (silent_write ticked.state r).andThen H lib (fun _ o ho => ?_) ho
  refine (silent_send _ r).andThen H lib (fun hexit o ho => ?_) ho
  have hsend : Accounted H lib (ticked.state.write r).state
      ((ticked.state.write r).state.send r).calls
      ((ticked.state.write r).state.send r).state :=
    accounted_send _ r (by rw [hexit]; simp)
  have hread := watched_read H lib ho
  rw [hsend.settings, hwrite.settings, htick.settings] at hread
  exact hread

theorem Watched.understood {settings : Settings} {r : Round} {o : Outcome}
    (h : Watched H lib settings r o) (ho : o.status = .running) :
    ∀ read ∈ reads o.calls, Understood H lib settings read := by
  intro read hread
  unfold Watched at h
  rw [ho] at h
  rcases h with hnone | ⟨hone, hunderstood⟩
  · rw [hnone] at hread
    exact absurd hread List.not_mem_nil
  · rw [hone, List.mem_singleton] at hread
    rw [hread]
    exact hunderstood

/-- A call that has not gone to sleep has read packets only; one that has, something
else last. -/
theorem poll_reads {rounds : List Round} {s : InterfaceState} {o : Outcome}
    (h : s.poll H lib rounds = some o) :
    (o.status = .running → ∀ read ∈ reads o.calls, Understood H lib s.toSettings read) ∧
      (o.status = .pending → ∃ packets last, reads o.calls = packets ++ [last] ∧
        (∀ read ∈ packets, Understood H lib s.toSettings read) ∧
        ¬ Understood H lib s.toSettings last) := by
  induction rounds generalizing s o with
  | nil =>
      cases h
      exact ⟨by simp [reads], by simp⟩
  | cons r rounds ih =>
      obtain ⟨first, hfirst, h⟩ := Option.bind_eq_some_iff.mp h
      have hwatched := watched_iterate H lib hfirst
      cases hstatus : first.status with
      | running =>
          rw [hstatus] at h
          obtain ⟨p, hp, rfl⟩ := Option.map_eq_some_iff.mp h
          have hsettings : first.state.toSettings = s.toSettings :=
            ((kept_accounted H lib).iterate hfirst (by rw [hstatus]; decide)).settings
          have hhead := hwatched.understood H lib hstatus
          have hreads : reads (p.after first.calls).calls =
              reads first.calls ++ reads p.calls := reads_append _ _
          obtain ⟨hrunning, hpending⟩ := ih hp
          rw [hsettings] at hrunning hpending
          refine ⟨fun hp => ?_, fun hp => ?_⟩
          · intro read hread
            rw [hreads] at hread
            rcases List.mem_append.mp hread with hin | hin
            · exact hhead read hin
            · exact hrunning hp read hin
          · obtain ⟨packets, last, heq, hpackets, hlast⟩ := hpending hp
            refine ⟨reads first.calls ++ packets, last, ?_, ?_, hlast⟩
            · rw [hreads, heq, List.append_assoc]
            · intro read hread
              rcases List.mem_append.mp hread with hin | hin
              · exact hhead read hin
              · exact hpackets read hin
      | pending =>
          unfold Watched at hwatched
          rw [hstatus] at h hwatched
          cases h
          refine ⟨by simp [hstatus], fun _ => ⟨[], r.read, hwatched.1, by simp, hwatched.2⟩⟩
      | ready =>
          rw [hstatus] at h
          cases h
          exact ⟨by simp [hstatus], by simp [hstatus]⟩

/-- A call of `poll` that goes to sleep is woken for the next datagram exactly when
every datagram it was handed is one the service understands and no read has failed. -/
theorem wakeup_iff {rounds : List Round} {s : InterfaceState} {o : Outcome}
    (h : s.poll H lib rounds = some o) (hpending : o.status = .pending) :
    WakeupRegistered o.calls ↔ ∀ read ∈ reads o.calls, Expected H lib s.toSettings read := by
  obtain ⟨packets, last, hreads, hpackets, hlast⟩ := (poll_reads H lib h).2 hpending
  have hgetLast : (reads o.calls).getLast? = some last := by
    rw [hreads, List.getLast?_append_of_ne_nil _ (by simp)]
    rfl
  unfold WakeupRegistered
  rw [hgetLast, hreads]
  constructor
  · intro hregistered read hread
    rcases List.mem_append.mp hread with hin | hin
    · exact .inl (hpackets read hin)
    · rw [List.mem_singleton.mp hin]
      rcases hregistered with hpend | hblock
      · exact .inr (.inl (Option.some.inj hpend))
      · exact .inr (.inr (Option.some.inj hblock))
  · intro hexpected
    rcases hexpected last (by simp) with hunderstood | hpend | hblock
    · exact absurd hunderstood hlast
    · exact .inl (congrArg some hpend)
    · exact .inr (congrArg some hblock)

end Wakeup

theorem wakeup_iff_quiet :
    ∃ s o, InterfaceState.new sampleIp sampleConfig samplePeerId 0 0 = some s ∧
      s.poll Hickory.plain sampleLibp2p [Round.quiet] = some o ∧ o.status = .pending ∧
      (WakeupRegistered o.calls ↔
        ∀ read ∈ reads o.calls, Expected Hickory.plain sampleLibp2p s.toSettings read) := by
  have hcall : (((InterfaceState.new sampleIp sampleConfig samplePeerId 0 0).bind fun s =>
      s.poll Hickory.plain sampleLibp2p [Round.quiet]).map Outcome.status) =
        some .pending := by
    decide
  obtain ⟨o, ho, hpending⟩ := Option.map_eq_some_iff.mp hcall
  obtain ⟨s, hnew, hpoll⟩ := Option.bind_eq_some_iff.mp ho
  exact ⟨s, o, hnew, hpoll, hpending,
    wakeup_iff Hickory.plain sampleLibp2p hpoll hpending⟩

/-- A datagram of one byte, which is no DNS message, puts the task to sleep, and nothing
wakes it for the next datagram. -/
theorem malformed_datagram_sleeps :
    ∃ s o, InterfaceState.new sampleIp sampleConfig samplePeerId 0 0 = some s ∧
      s.poll Hickory.plain sampleLibp2p
        [{ Round.quiet with read := .datagram [0] ⟨.v4 0x01020304, 5353⟩ }] = some o ∧
      o.status = .pending ∧ ¬ WakeupRegistered o.calls := by
  have hcall : (((InterfaceState.new sampleIp sampleConfig samplePeerId 0 0).bind fun s =>
      s.poll Hickory.plain sampleLibp2p
        [{ Round.quiet with read := .datagram [0] ⟨.v4 0x01020304, 5353⟩ }]).map fun o =>
          (o.status, (reads o.calls).getLast?)) =
        some (.pending, some (.datagram [0] ⟨.v4 0x01020304, 5353⟩)) := by
    decide
  obtain ⟨o, ho, hanswers⟩ := Option.map_eq_some_iff.mp hcall
  obtain ⟨s, hnew, hpoll⟩ := Option.bind_eq_some_iff.mp ho
  obtain ⟨hpending, hlast⟩ := Prod.mk.inj hanswers
  refine ⟨s, o, hnew, hpoll, hpending, ?_⟩
  unfold WakeupRegistered
  rw [hlast]
  simp

end P2pa.Mdns.Iface
