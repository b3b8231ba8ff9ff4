import P2pa.Support.Machine
import P2pa.Support.Removal

/-!
# Subscribers to a changing value

`SubscribableMutex` of `utils.rs`.  A subscriber is the sending end of its channel, and
which of the sends of a call fail is an argument of the call.  `none` is the panic of a
removal out of range.
-/

namespace P2pa.Utils

open Removal

structure SubscribableMutex (σ T : Type) where
  subscribers : List σ
  mutex : T

/-- The variables of the first loop of `notify_change_subscribers`, with what has been
notified so far. -/
structure Notified (σ : Type) where
  sent : List σ
  idxToRemove : List Nat

namespace SubscribableMutex

variable {σ T : Type}

def new (t : T) : SubscribableMutex σ T where
  subscribers := []
  mutex := t

/-- `isErr` is the answer of the send to the subscriber at an index. -/
def notify (isErr : Nat → Bool) (n : Notified σ) (entry : σ × Nat) : Notified σ where
  sent := n.sent ++ [entry.1]
  idxToRemove := if isErr entry.2 then n.idxToRemove ++ [entry.2] else n.idxToRemove

def notifyChangeSubscribers (m : SubscribableMutex σ T) (isErr : Nat → Bool) :
    Option (SubscribableMutex σ T × List σ) :=
  let notified := m.subscribers.zipIdx.foldl (notify isErr) { sent := [], idxToRemove := [] }
  (removeAll m.subscribers notified.idxToRemove.reverse).map fun subscribers =>
    ({ m with subscribers }, notified.sent)

def modify (m : SubscribableMutex σ T) (cb : T → T) (isErr : Nat → Bool) :
    Option (SubscribableMutex σ T × List σ) :=
  notifyChangeSubscribers { m with mutex := cb m.mutex } isErr

/-! ## One notification -/

theorem foldl_notify (isErr : Nat → Bool) (entries : List (σ × Nat)) (n : Notified σ) :
    entries.foldl (notify isErr) n =
      { sent := n.sent ++ entries.map Prod.fst
        idxToRemove :=
          n.idxToRemove ++ (entries.filter fun e => isErr e.2).map Prod.snd } := by
  induction entries generalizing n with
  | nil => simp
  | cons entry entries ih =>
      rw [List.foldl_cons, ih]
      cases h : isErr entry.2 <;> simp [notify, h]

theorem notifyChangeSubscribers_eq (m : SubscribableMutex σ T) (isErr : Nat → Bool) :
    m.notifyChangeSubscribers isErr =
      some ({ m with subscribers := others isErr m.subscribers }, m.subscribers) := by
  have hremove := removeAll_indices isErr m.subscribers
  unfold notifyChangeSubscribers
  rw [foldl_notify]
  dsimp only
  rw [List.nil_append, List.nil_append, List.zipIdx_map_fst]
  change (removeAll m.subscribers (indices isErr m.subscribers).reverse).map _ = _
  rw [hremove]
  rfl

theorem modify_eq (m : SubscribableMutex σ T) (cb : T → T) (isErr : Nat → Bool) :
    m.modify cb isErr = some
      ({ subscribers := others isErr m.subscribers, mutex := cb m.mutex }, m.subscribers) :=
  notifyChangeSubscribers_eq _ isErr

/-! ## Any number of changes -/

structure Change (T : Type) where
  cb : T → T
  isErr : Nat → Bool

structure Notifier (σ T : Type) where
  mutex : SubscribableMutex σ T
  log : List (List σ)

def start (m : SubscribableMutex σ T) : Notifier σ T where
  mutex := m
  log := []

def step (n : Notifier σ T) (change : Change T) : Option (Notifier σ T) :=
  (n.mutex.modify change.cb change.isErr).map fun (mutex, sent) =>
    { mutex, log := n.log ++ [sent] }

def Listens (x : σ) (n : Notifier σ T) (change : Change T) : Prop :=
  ∀ i : Nat, n.mutex.subscribers[i]? = some x → change.isErr i = false

theorem step_eq (n : Notifier σ T) (change : Change T) :
    step n change = some
      { mutex := ⟨others change.isErr n.mutex.subscribers, change.cb n.mutex.mutex⟩
        log := n.log ++ [n.mutex.subscribers] } := by
  rw [step, modify_eq]
  rfl

theorem run_isSome (n : Notifier σ T) (changes : List (Change T)) :
    ∃ n', Machine.run step n changes = some n' := by
  induction changes generalizing n with
  | nil => exact ⟨n, rfl⟩
  | cons change changes ih =>
      rw [Machine.run_cons, step_eq, Option.bind_some]
      exact ih _

section Counts

variable [DecidableEq σ]

/-- While no send to it fails, a subscriber is in the list as often as at the start, and
each call notifies it once for each time. -/
theorem run_counts {n n' : Notifier σ T} {x : σ} {changes : List (Change T)}
    (hlistens : Machine.Along step (fun n change _ => Listens x n change) n changes)
    (hrun : Machine.run step n changes = some n') :
    n'.log.map (List.count x) = n.log.map (List.count x) ++
      List.replicate changes.length (n.mutex.subscribers.count x) := by
  induction changes generalizing n with
  | nil =>
      cases hrun
      simp
  | cons change changes ih =>
      obtain ⟨hnow, hrest⟩ := hlistens _ (step_eq n change)
      rw [Machine.run_cons, step_eq, Option.bind_some] at hrun
      have hlog := ih hrest hrun
      dsimp only at hlog
      rw [count_others hnow] at hlog
      rw [hlog, List.map_append, List.append_assoc, List.length_cons,
        List.replicate_succ]
      rfl

/-- A notification goes to every subscriber once and drops those whose send fails, and
nothing else; over any calls of `modify` a subscriber whose sends do not fail gets, for
each time it is in the list, one notification for each call. -/
theorem prunes_dead_subscribers (m : SubscribableMutex σ T) :
    (∀ isErr, m.notifyChangeSubscribers isErr =
      some ({ m with subscribers := others isErr m.subscribers }, m.subscribers)) ∧
      ∀ changes, ∃ n, Machine.run step (start m) changes = some n ∧
        ∀ x, Machine.Along step (fun n change _ => Listens x n change) (start m) changes →
          n.log.map (List.count x) =
            List.replicate changes.length (m.subscribers.count x) := by
  refine ⟨notifyChangeSubscribers_eq m, fun changes => ?_⟩
  obtain ⟨n, hrun⟩ := run_isSome (start m) changes
  exact ⟨n, hrun, fun x hlistens => run_counts hlistens hrun⟩

end Counts

end SubscribableMutex

end P2pa.Utils
