import P2pa.Mdns.Behaviour
import P2pa.Support.Machine

/-!
# Interface tasks and the networks of the host

Runs of what the interface watcher reports, with the networks that are up.  A task is for
an address, a report is about a network, and several networks can share an address.
-/

namespace P2pa.Mdns

open Utils Iface

structure Watched where
  behaviour : Behaviour
  up : Finset IpNet

def Watched.initial (config : Config) (localPeerId : PeerId) : Watched where
  behaviour := empty config localPeerId
  up := ∅

/-- A network comes up once before it goes down, and the tasks are always created. -/
def Watched.step (w : Watched) : IfEvent → Option Watched
  | .up inet created =>
      if inet ∉ w.up ∧ created = true then
        some {
          behaviour := handleIfEvent w.behaviour (.up inet created)
          up := insert inet w.up }
      else none
  | .down inet =>
      if inet ∈ w.up then
        some {
          behaviour := handleIfEvent w.behaviour (.down inet)
          up := w.up.erase inet }
      else none
  | .error => some { w with behaviour := handleIfEvent w.behaviour .error }

/-- The address is no loopback address and is of the configured family. -/
def Served (config : Config) (addr : IpAddr) : Prop :=
  addr.isLoopback = false ∧ addr.isIpv4 = !config.ipv6

instance (config : Config) (addr : IpAddr) : Decidable (Served config addr) :=
  inferInstanceAs (Decidable (_ ∧ _))

/-- An address has a task exactly when it is served and a network with it is up. -/
def Follows (w : Watched) : Prop :=
  ∀ addr, addr ∈ w.behaviour.ifTasks ↔
    Served w.behaviour.config addr ∧ ∃ inet ∈ w.up, inet.addr = addr

/-- A network whose address is served goes down as the last one with its address. -/
def LastDown (w : Watched) : IfEvent → Prop
  | .down inet => Served w.behaviour.config inet.addr →
      ∀ other ∈ w.up, other.addr = inet.addr → other = inet
  | _ => True

/-! ## One report -/

section Report

variable (b : Behaviour) (inet : IpNet)

theorem handleIfEvent_config (event : IfEvent) :
    (handleIfEvent b event).config = b.config := by
  cases event with
  | up inet created =>
      unfold handleIfEvent
      dsimp only
      repeat' split
      all_goals rfl
  | _ => rfl

theorem handleIfEvent_up :
    handleIfEvent b (.up inet true) =
      if Served b.config inet.addr ∧ inet.addr ∉ b.ifTasks then
        { b with ifTasks := b.ifTasks.insert inet.addr () }
      else b := by
  by_cases hserved : Served b.config inet.addr
  · have hfamily : (inet.addr.isIpv4 && b.config.ipv6 ||
        !inet.addr.isIpv4 && !b.config.ipv6) = false := by
      rw [hserved.2]
      cases b.config.ipv6 <;> rfl
    by_cases hmem : inet.addr ∈ b.ifTasks
    · rw [if_neg fun h => h.2 hmem]
      simp [handleIfEvent, hserved.1, hfamily, hmem]
    · rw [if_pos ⟨hserved, hmem⟩]
      simp [handleIfEvent, hserved.1, hfamily, hmem]
  · rw [if_neg fun h => hserved h.1]
    cases hloop : inet.addr.isLoopback with
    | true => simp [handleIfEvent, hloop]
    | false =>
        have hfamily : (inet.addr.isIpv4 && b.config.ipv6 ||
            !inet.addr.isIpv4 && !b.config.ipv6) = true := by
          have hother : inet.addr.isIpv4 ≠ !b.config.ipv6 := fun h => hserved ⟨hloop, h⟩
          revert hother
          cases inet.addr.isIpv4 <;> cases b.config.ipv6 <;> decide
        simp [handleIfEvent, hloop, hfamily]

theorem mem_ifTasks_up_iff (addr : IpAddr) :
    addr ∈ (handleIfEvent b (.up inet true)).ifTasks ↔
      addr ∈ b.ifTasks ∨ (addr = inet.addr ∧ Served b.config inet.addr) := by
  rw [handleIfEvent_up]
  by_cases hserved : Served b.config inet.addr
  · by_cases hmem : inet.addr ∈ b.ifTasks
    · rw [if_neg fun h => h.2 hmem, and_iff_left hserved]
      refine ⟨.inl, ?_⟩
      rintro (h | rfl)
      · exact h
      · exact hmem
    · rw [if_pos ⟨hserved, hmem⟩, and_iff_left hserved]
      exact (AList.mem_insert _).trans or_comm
  · rw [if_neg fun h => hserved h.1]
    simp [hserved]

theorem mem_ifTasks_down_iff (addr : IpAddr) :
    addr ∈ (handleIfEvent b (.down inet)).ifTasks ↔
      addr ≠ inet.addr ∧ addr ∈ b.ifTasks :=
  AList.mem_erase

end Report

/-! ## Runs -/

theorem follows_up {w : Watched} (hw : Follows w) (inet : IpNet) :
    Follows
      { behaviour := handleIfEvent w.behaviour (.up inet true), up := insert inet w.up } := by
  intro addr
  dsimp only
  rw [mem_ifTasks_up_iff, handleIfEvent_config, hw addr]
  constructor
  · rintro (⟨hserved, other, hup, haddr⟩ | ⟨rfl, hserved⟩)
    · exact ⟨hserved, other, Finset.mem_insert_of_mem hup, haddr⟩
    · exact ⟨hserved, inet, Finset.mem_insert_self _ _, rfl⟩
  · rintro ⟨hserved, other, hup, haddr⟩
    rcases Finset.mem_insert.mp hup with rfl | hbefore
    · exact .inr ⟨haddr.symm, by rwa [haddr]⟩
    · exact .inl ⟨hserved, other, hbefore, haddr⟩

/-- The tasks still follow the networks exactly when no other network keeps the address
up. -/
theorem follows_down_iff {w : Watched} (hw : Follows w) (inet : IpNet) :
    Follows { behaviour := handleIfEvent w.behaviour (.down inet), up := w.up.erase inet } ↔
      LastDown w (.down inet) := by
  constructor
  · intro h hserved other hup haddr
    by_contra hne
    have htask := (h inet.addr).mpr
      ⟨hserved, other, Finset.mem_erase.mpr ⟨hne, hup⟩, haddr⟩
    exact ((mem_ifTasks_down_iff _ _ _).mp htask).1 rfl
  · intro hlast addr
    dsimp only
    rw [mem_ifTasks_down_iff, handleIfEvent_config, hw addr]
    constructor
    · rintro ⟨hne, hserved, other, hup, haddr⟩
      refine ⟨hserved, other, Finset.mem_erase.mpr ⟨?_, hup⟩, haddr⟩
      rintro rfl
      exact hne haddr.symm
    · rintro ⟨hserved, other, hup, rfl⟩
      obtain ⟨hother, hup⟩ := Finset.mem_erase.mp hup
      refine ⟨fun haddr => hother ?_, hserved, other, hup, rfl⟩
      exact hlast (haddr ▸ hserved) other hup haddr

theorem follows_step_iff {w w' : Watched} {event : IfEvent} (hw : Follows w)
    (hstep : w.step event = some w') : Follows w' ↔ LastDown w event := by
  cases event with
  | up inet created =>
      simp only [Watched.step, Option.ite_none_right_eq_some, Option.some.injEq] at hstep
      obtain ⟨⟨-, rfl⟩, rfl⟩ := hstep
      exact iff_of_true (follows_up hw inet) trivial
  | down inet =>
      simp only [Watched.step, Option.ite_none_right_eq_some, Option.some.injEq] at hstep
      obtain ⟨-, rfl⟩ := hstep
      exact follows_down_iff hw inet
  | error =>
      cases hstep
      exact iff_of_true hw trivial

/-- Along a run the tasks follow the networks exactly when no network goes down while
another one with its address, which is served, is up. -/
theorem tasks_follow_networks_iff (config : Config) (localPeerId : PeerId)
    (events : List IfEvent) :
    Machine.Along Watched.step (fun _ _ w' => Follows w') (.initial config localPeerId)
        events ↔
      Machine.Along Watched.step (fun w event _ => LastDown w event)
        (.initial config localPeerId) events := by
  apply Machine.along_iff_of_invariant Follows
  · intro w event w' hw hstep hok
    have hw' := (follows_step_iff hw hstep).mpr hok
    exact ⟨hw', hw'⟩
  · intro w event w' hw hstep hw'
    exact (follows_step_iff hw hstep).mp hw'
  · intro addr
    refine iff_of_false List.not_mem_nil ?_
    rintro ⟨-, inet, hup, -⟩
    exact absurd hup (Finset.notMem_empty inet)

/-- `10.0.0.1/8` and `10.0.0.1/24` come up, and one of them goes down. -/
theorem tasks_follow_networks_fails :
    ¬ ∀ config localPeerId events,
      Machine.Along Watched.step (fun _ _ w' => Follows w') (.initial config localPeerId)
        events := by
  intro h
  let config : Config :=
    { ttl := .fromSecs 300, queryInterval := .fromSecs 3, probeInterval := .fromSecs 2,
      ipv6 := false }
  let wide : IpNet := { addr := .v4 0x0a000001, prefixLen := 8 }
  let narrow : IpNet := { addr := .v4 0x0a000001, prefixLen := 24 }
  have hrun := h config samplePeerId [.up wide true, .up narrow true, .down wide]
  obtain ⟨-, hrun⟩ := hrun _ rfl
  obtain ⟨-, hrun⟩ := hrun _ rfl
  obtain ⟨hlast, -⟩ := hrun _ rfl
  have htask := (hlast (.v4 0x0a000001)).mpr ⟨⟨rfl, rfl⟩, narrow, by decide, rfl⟩
  exact ((mem_ifTasks_down_iff _ _ _).mp htask).1 rfl

end P2pa.Mdns
