import P2pa.Gossip.Behaviour
import P2pa.Support.Machine

/-!
# The subscription set against gossipsub's own

Runs of `subscribe` and `unsubscribe` with the answers of gossipsub.  An answer that
is an error leaves gossipsub as it is, while the behaviour goes on as if the call had
been done.
-/

namespace P2pa.Gossip

structure Subscriber where
  behaviour : Behaviour
  subscribed : List String
deriving Repr

/-- A call of the node with gossipsub's answer; `true` is `Ok`. -/
inductive SubscriptionAct
  | subscribe (topic : String) (answer : Bool)
  | unsubscribe (topic : String) (answer : Bool)
deriving DecidableEq, Repr

/-- What a call that is answered with `Ok` does to gossipsub's subscriptions. -/
def serve (subscribed : List String) : GossipCall → List String
  | .subscribe topic => subscribed.insert topic
  | .unsubscribe topic => subscribed.filter fun t => t ≠ topic
  | _ => subscribed

namespace SubscriptionAct

def apply (b : Behaviour) : SubscriptionAct → Behaviour
  | subscribe topic _ => Gossip.subscribe b topic
  | unsubscribe topic _ => Gossip.unsubscribe b topic

def answer : SubscriptionAct → Bool
  | subscribe _ answer => answer
  | unsubscribe _ answer => answer

end SubscriptionAct

def Subscriber.next (w : Subscriber) (a : SubscriptionAct) : Subscriber :=
  let behaviour := a.apply w.behaviour
  let calls := behaviour.gossip.drop w.behaviour.gossip.length
  { behaviour
    subscribed := if a.answer then calls.foldl serve w.subscribed else w.subscribed }

def Subscriber.step (w : Subscriber) (a : SubscriptionAct) : Option Subscriber :=
  some (w.next a)

def Subscriber.start (localPeerId : PeerId) (enableRepublish : Bool) : Subscriber where
  behaviour := new localPeerId enableRepublish
  subscribed := []

def Subscriber.Mirrors (w : Subscriber) : Prop :=
  ∀ topic, topic ∈ w.behaviour.subscriptions ↔ topic ∈ w.subscribed

/-- Whatever has failed before, the next accepted call takes effect. -/
def Subscriber.Repeatable (w : Subscriber) : Prop :=
  ∀ topic, topic ∈ (w.next (.subscribe topic true)).subscribed ∧
    topic ∉ (w.next (.unsubscribe topic true)).subscribed

/-- Gossipsub accepts the call, or the behaviour does not make it. -/
def Served (w : Subscriber) : SubscriptionAct → Prop
  | .subscribe topic answer => answer = true ∨ topic ∈ w.behaviour.subscriptions
  | .unsubscribe topic answer => answer = true ∨ topic ∉ w.behaviour.subscriptions

/-! ## One call -/

section Calls

variable {w : Subscriber} {topic : String}

theorem next_subscribe_of_mem (answer : Bool) (h : topic ∈ w.behaviour.subscriptions) :
    w.next (.subscribe topic answer) = w := by
  unfold Subscriber.next
  simp [SubscriptionAct.apply, subscribe, h]

theorem next_subscribe (answer : Bool) (h : topic ∉ w.behaviour.subscriptions) :
    (w.next (.subscribe topic answer)).behaviour.subscriptions =
        w.behaviour.subscriptions ++ [topic] ∧
      (w.next (.subscribe topic answer)).subscribed =
        if answer then w.subscribed.insert topic else w.subscribed := by
  unfold Subscriber.next
  simp [SubscriptionAct.apply, SubscriptionAct.answer, subscribe, serve, h]

theorem next_unsubscribe_of_notMem (answer : Bool)
    (h : topic ∉ w.behaviour.subscriptions) :
    w.next (.unsubscribe topic answer) = w := by
  unfold Subscriber.next
  simp [SubscriptionAct.apply, unsubscribe, h]

theorem next_unsubscribe (answer : Bool) (h : topic ∈ w.behaviour.subscriptions) :
    (w.next (.unsubscribe topic answer)).behaviour.subscriptions =
        w.behaviour.subscriptions.erase topic ∧
      (w.next (.unsubscribe topic answer)).subscribed =
        if answer then w.subscribed.filter fun t => t ≠ topic else w.subscribed := by
  unfold Subscriber.next
  simp [SubscriptionAct.apply, SubscriptionAct.answer, unsubscribe, serve, h]

end Calls

theorem repeatable_of_mirrors {w : Subscriber} (h : w.Mirrors) : w.Repeatable := by
  intro topic
  by_cases hmem : topic ∈ w.behaviour.subscriptions
  · constructor
    · rw [next_subscribe_of_mem _ hmem]
      exact (h topic).mp hmem
    · rw [(next_unsubscribe _ hmem).2, if_pos rfl, List.mem_filter]
      simp
  · constructor
    · rw [(next_subscribe _ hmem).2, if_pos rfl]
      exact List.mem_insert_self
    · rw [next_unsubscribe_of_notMem _ hmem]
      exact fun hsub => hmem ((h topic).mpr hsub)

/-! ## Steps -/

/-- The set has no topic twice, so that removing a topic once removes it. -/
structure SubscriptionInv (w : Subscriber) : Prop where
  nodup : w.behaviour.subscriptions.Nodup
  mirrors : w.Mirrors

theorem subscriptionInv_start (localPeerId : PeerId) (enableRepublish : Bool) :
    SubscriptionInv (.start localPeerId enableRepublish) :=
  ⟨List.nodup_nil, fun _ => Iff.rfl⟩

theorem subscriptionInv_subscribe {w : Subscriber} {topic : String} {answer : Bool}
    (h : SubscriptionInv w) (hserved : Served w (.subscribe topic answer)) :
    SubscriptionInv (w.next (.subscribe topic answer)) := by
  by_cases hmem : topic ∈ w.behaviour.subscriptions
  · rw [next_subscribe_of_mem _ hmem]
    exact h
  · have hanswer : answer = true := hserved.resolve_right hmem
    obtain ⟨hsubscriptions, hsubscribed⟩ := next_subscribe answer hmem
    rw [if_pos hanswer] at hsubscribed
    constructor
    · rw [hsubscriptions, List.nodup_append]
      refine ⟨h.nodup, List.nodup_singleton topic, ?_⟩
      intro t ht u hu htu
      rw [htu, List.mem_singleton.mp hu] at ht
      exact hmem ht
    · intro t
      have hmirror := h.mirrors t
      rw [hsubscriptions, hsubscribed, List.mem_append, List.mem_singleton,
        List.mem_insert_iff, hmirror]
      exact or_comm

theorem subscriptionInv_unsubscribe {w : Subscriber} {topic : String} {answer : Bool}
    (h : SubscriptionInv w) (hserved : Served w (.unsubscribe topic answer)) :
    SubscriptionInv (w.next (.unsubscribe topic answer)) := by
  by_cases hmem : topic ∈ w.behaviour.subscriptions
  · have hanswer : answer = true := hserved.resolve_right (not_not.mpr hmem)
    obtain ⟨hsubscriptions, hsubscribed⟩ := next_unsubscribe answer hmem
    rw [if_pos hanswer] at hsubscribed
    constructor
    · rw [hsubscriptions]
      exact h.nodup.erase topic
    · intro t
      have hmirror := h.mirrors t
      rw [hsubscriptions, hsubscribed, h.nodup.mem_erase_iff, List.mem_filter, hmirror,
        decide_eq_true_eq]
      exact and_comm
  · rw [next_unsubscribe_of_notMem _ hmem]
    exact h

/-- A call that gossipsub refuses puts the two sides out of step at its topic. -/
theorem served_of_mirrors {w : Subscriber} {a : SubscriptionAct} (h : SubscriptionInv w)
    (hnext : (w.next a).Mirrors) : Served w a := by
  cases a with
  | subscribe topic answer =>
      by_cases hmem : topic ∈ w.behaviour.subscriptions
      · exact .inr hmem
      · left
        by_contra hanswer
        obtain ⟨hsubscriptions, hsubscribed⟩ := next_subscribe answer hmem
        have htopic := hnext topic
        rw [if_neg hanswer] at hsubscribed
        rw [hsubscriptions, hsubscribed, ← h.mirrors topic] at htopic
        exact hmem (htopic.mp (List.mem_append_right _ (List.mem_singleton.mpr rfl)))
  | unsubscribe topic answer =>
      by_cases hmem : topic ∈ w.behaviour.subscriptions
      · left
        by_contra hanswer
        obtain ⟨hsubscriptions, hsubscribed⟩ := next_unsubscribe answer hmem
        have htopic := hnext topic
        rw [if_neg hanswer] at hsubscribed
        rw [hsubscriptions, hsubscribed, ← h.mirrors topic] at htopic
        exact (h.nodup.mem_erase_iff.mp (htopic.mpr hmem)).1 rfl
      · exact .inr hmem

/-! ## Runs -/

/-- Along a run the set mirrors gossipsub's subscriptions, and a failed call can be
repeated, exactly when gossipsub accepts every call it gets. -/
theorem subscriptions_mirror_iff (localPeerId : PeerId) (enableRepublish : Bool)
    (acts : List SubscriptionAct) :
    Machine.Along Subscriber.step (fun _ _ w' => w'.Mirrors ∧ w'.Repeatable)
        (.start localPeerId enableRepublish) acts ↔
      Machine.Along Subscriber.step (fun w a _ => Served w a)
        (.start localPeerId enableRepublish) acts := by
  apply Machine.along_iff_of_invariant SubscriptionInv
  · intro w a w' h hstep hserved
    cases hstep
    have hinv : SubscriptionInv (w.next a) := by
      cases a with
      | subscribe topic answer => exact subscriptionInv_subscribe h hserved
      | unsubscribe topic answer => exact subscriptionInv_unsubscribe h hserved
    exact ⟨hinv, hinv.mirrors, repeatable_of_mirrors hinv.mirrors⟩
  · intro w a w' h hstep hq
    cases hstep
    exact served_of_mirrors h hq.1
  · exact subscriptionInv_start localPeerId enableRepublish

/-- Gossipsub refuses a subscription: the set has the topic, gossipsub does not, and the
next call does not reach it. -/
theorem subscriptions_mirror_fails :
    ¬ ∀ localPeerId enableRepublish acts,
      Machine.Along Subscriber.step (fun _ _ w' => w'.Mirrors ∧ w'.Repeatable)
        (.start localPeerId enableRepublish) acts := by
  intro h
  have hrun := h samplePeerId true [.subscribe "a" false]
  obtain ⟨⟨hmirrors, -⟩, -⟩ := hrun _ rfl
  have htopic := (hmirrors "a").mp (by decide)
  revert htopic
  decide

end P2pa.Gossip
