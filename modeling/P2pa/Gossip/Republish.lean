import P2pa.Gossip.Behaviour
import P2pa.Support.Machine

/-!
# Republishing

Runs of `publish` and `drain_publish` with the answers of gossipsub.  A drain offers
the messages in progress from the front, drops those gossipsub takes, and stops at the
first one it does not take, which goes to the back.  What is submitted is accepted or
still in progress, and a drain gets at least one message further.
-/

namespace P2pa.Gossip

open Utils Wire

abbrev Message := String × Bytes

inductive RepublishAct
  | publish (topic : String) (contents : Bytes) (answers : Stream' Bool)
  | drainPublish (answers : Stream' Bool)

namespace RepublishAct

def apply (b : Behaviour) : RepublishAct → Behaviour
  | publish topic contents answers => Gossip.publish b answers.head topic contents
  | drainPublish answers => (Gossip.drainPublish b answers).1

def answers : RepublishAct → Stream' Bool
  | publish _ _ answers => answers
  | drainPublish answers => answers

def submits : RepublishAct → List Message
  | publish topic contents _ => [(topic, contents)]
  | drainPublish _ => []

def isDrain : RepublishAct → Bool
  | publish _ _ _ => false
  | drainPublish _ => true

end RepublishAct

def messageOf : GossipCall → Option Message
  | .publish topic contents => some (topic, contents)
  | _ => none

def offers (b : Behaviour) (a : RepublishAct) : List Message :=
  ((a.apply b).gossip.drop b.gossip.length).filterMap messageOf

/-- Those of the messages offered whose answer is `Ok`. -/
def taken : List Message → Stream' Bool → List Message
  | [], _ => []
  | message :: rest, answers =>
      if answers.head then message :: taken rest answers.tail
      else taken rest answers.tail

structure Republisher where
  behaviour : Behaviour
  submitted : List Message
  accepted : List Message
deriving Repr

namespace Republisher

def start (localPeerId : PeerId) : Republisher where
  behaviour := new localPeerId true
  submitted := []
  accepted := []

def step (w : Republisher) (a : RepublishAct) : Option Republisher :=
  some {
    behaviour := a.apply w.behaviour
    submitted := w.submitted ++ a.submits
    accepted := w.accepted ++ taken (offers w.behaviour a) a.answers }

/-- Every message submitted is accepted or in progress, as often as it was submitted. -/
def Conserved (w : Republisher) : Prop :=
  (w.submitted : Multiset Message) = w.accepted + w.behaviour.inProgressMessages

def AtMostOnce (w : Republisher) : Prop :=
  (w.accepted : Multiset Message) ≤ w.submitted

end Republisher

def drainOffers : Behaviour → List RepublishAct → List Message
  | _, [] => []
  | b, a :: as =>
      (if a.isDrain then offers b a else []) ++ drainOffers (a.apply b) as

/-! ## One drain -/

def publishCall (message : Message) : GossipCall := .publish message.1 message.2

theorem filterMap_messageOf (messages : List Message) :
    (messages.map publishCall).filterMap messageOf = messages := by
  rw [List.filterMap_map]
  exact List.filterMap_some

/-- All messages are taken, or a first one is not and goes to the back. -/
theorem drainMessages_cases (queue : List Message) (answers : Stream' Bool) (b : Behaviour)
    (hqueue : b.inProgressMessages = queue) :
    ((∀ i < queue.length, answers.get i = true) ∧
      drainMessages queue answers b =
        ({ b with
            inProgressMessages := []
            gossip := b.gossip ++ queue.map publishCall }, true)) ∨
    ∃ sent message rest, queue = sent ++ message :: rest ∧
      (∀ i < sent.length, answers.get i = true) ∧ answers.get sent.length = false ∧
      drainMessages queue answers b =
        ({ b with
            inProgressMessages := rest ++ [message]
            gossip := b.gossip ++ (sent ++ [message]).map publishCall }, false) := by
  induction queue generalizing answers b with
  | nil =>
      left
      refine ⟨fun i hi => absurd hi (Nat.not_lt_zero i), ?_⟩
      rw [drainMessages, List.map_nil, List.append_nil, ← hqueue]
  | cons message rest ih =>
      unfold drainMessages
      dsimp only
      by_cases hhead : answers.head = true
      · rw [if_pos hhead]
        have hshift : ∀ n, (∀ i < n, answers.tail.get i = true) →
            ∀ i < n + 1, answers.get i = true := by
          intro n hall i hi
          cases i with
          | zero => exact hhead
          | succ i => exact hall i (by omega)
        rcases ih answers.tail { b with
            inProgressMessages := rest
            gossip := b.gossip ++ [.publish message.1 message.2] } rfl with
          ⟨hall, heq⟩ | ⟨sent, message', rest', hrest, hall, hlast, heq⟩
        · left
          refine ⟨hshift rest.length hall, ?_⟩
          rw [heq, List.append_assoc]
          rfl
        · right
          refine ⟨message :: sent, message', rest', ?_, hshift sent.length hall, hlast, ?_⟩
          · rw [hrest]
            rfl
          · rw [heq, List.append_assoc]
            rfl
      · right
        rw [if_neg hhead]
        refine ⟨[], message, rest, rfl, ?_, Bool.eq_false_iff.mpr hhead, rfl⟩
        exact fun i hi => absurd hi (Nat.not_lt_zero i)

theorem taken_eq_self {messages : List Message} {answers : Stream' Bool}
    (h : ∀ i < messages.length, answers.get i = true) : taken messages answers = messages := by
  induction messages generalizing answers with
  | nil => rfl
  | cons message rest ih =>
      have hhead : answers.head = true := h 0 (Nat.zero_lt_succ _)
      have htail : taken rest answers.tail = rest := by
        apply ih
        intro i hi
        exact h (i + 1) (Nat.succ_lt_succ hi)
      rw [taken, if_pos hhead, htail]

theorem taken_concat_of_refused {sent : List Message} {message : Message}
    {answers : Stream' Bool} (h : ∀ i < sent.length, answers.get i = true)
    (hlast : answers.get sent.length = false) : taken (sent ++ [message]) answers = sent := by
  induction sent generalizing answers with
  | nil =>
      have hhead : ¬ answers.head = true := Bool.eq_false_iff.mp hlast
      rw [List.nil_append, taken, if_neg hhead, taken]
  | cons first rest ih =>
      have hhead : answers.head = true := h 0 (Nat.zero_lt_succ _)
      have htail : taken (rest ++ [message]) answers.tail = rest := by
        apply ih
        · intro i hi
          exact h (i + 1) (Nat.succ_lt_succ hi)
        · exact hlast
      rw [List.cons_append, taken, if_pos hhead, htail]

theorem drainPublish_cases (b : Behaviour) (answers : Stream' Bool) :
    (offers b (.drainPublish answers) = b.inProgressMessages ∧
      taken (offers b (.drainPublish answers)) answers = b.inProgressMessages ∧
      (drainPublish b answers).1.inProgressMessages = []) ∨
    ∃ sent message rest, b.inProgressMessages = sent ++ message :: rest ∧
      offers b (.drainPublish answers) = sent ++ [message] ∧
      taken (offers b (.drainPublish answers)) answers = sent ∧
      (drainPublish b answers).1.inProgressMessages = rest ++ [message] := by
  unfold offers
  dsimp only [RepublishAct.apply]
  unfold drainPublish
  rcases drainMessages_cases b.inProgressMessages answers b rfl with
    ⟨hall, heq⟩ | ⟨sent, message, rest, hqueue, hall, hlast, heq⟩
  · left
    rw [heq]
    dsimp only
    rw [List.drop_left, filterMap_messageOf]
    exact ⟨rfl, taken_eq_self hall, rfl⟩
  · right
    rw [heq]
    dsimp only
    rw [List.drop_left, filterMap_messageOf]
    exact ⟨sent, message, rest, hqueue, rfl, taken_concat_of_refused hall hlast, rfl⟩

theorem publish_offers (b : Behaviour) (topic : String) (contents : Bytes)
    (answers : Stream' Bool) :
    offers b (.publish topic contents answers) = [(topic, contents)] := by
  unfold offers
  dsimp only [RepublishAct.apply, publish]
  split
  · rw [List.drop_left]
    rfl
  · rw [List.drop_left]
    rfl

theorem publish_inProgressMessages (b : Behaviour) (answer : Bool) (topic : String)
    (contents : Bytes) :
    (publish b answer topic contents).inProgressMessages =
      b.inProgressMessages ++
        if !answer && b.enableRepublish then [(topic, contents)] else [] := by
  unfold publish
  dsimp only
  by_cases hkeep : (!answer && b.enableRepublish) = true
  · rw [if_pos hkeep, if_pos hkeep]
  · rw [if_neg hkeep, if_neg hkeep, List.append_nil]

/-! ## Conservation -/

theorem enableRepublish_apply (b : Behaviour) (a : RepublishAct) :
    (a.apply b).enableRepublish = b.enableRepublish := by
  cases a with
  | publish topic contents answers =>
      dsimp only [RepublishAct.apply, publish]
      split <;> rfl
  | drainPublish answers =>
      dsimp only [RepublishAct.apply, drainPublish]
      rcases drainMessages_cases b.inProgressMessages answers b rfl with
        ⟨-, heq⟩ | ⟨sent, message, rest, -, -, -, heq⟩
      · rw [heq]
      · rw [heq]

theorem apply_balance {b : Behaviour} (henable : b.enableRepublish = true)
    (a : RepublishAct) :
    (a.submits : Multiset Message) + b.inProgressMessages =
      taken (offers b a) a.answers + (a.apply b).inProgressMessages := by
  cases a with
  | publish topic contents answers =>
      dsimp only [RepublishAct.submits, RepublishAct.answers, RepublishAct.apply]
      rw [publish_offers, publish_inProgressMessages, henable, Bool.and_true, taken, taken]
      cases answers.head with
      | true =>
          change _ = (([(topic, contents)] : List Message) : Multiset Message) +
            ((b.inProgressMessages ++ [] : List Message) : Multiset Message)
          rw [List.append_nil]
      | false =>
          change _ = ((([] : List Message)) : Multiset Message) +
            ((b.inProgressMessages ++ [(topic, contents)] : List Message) : Multiset Message)
          rw [Multiset.coe_nil, zero_add, ← Multiset.coe_add, add_comm]
  | drainPublish answers =>
      dsimp only [RepublishAct.submits, RepublishAct.answers, RepublishAct.apply]
      rw [Multiset.coe_nil, zero_add]
      rcases drainPublish_cases b answers with
        ⟨-, htaken, hqueue⟩ | ⟨sent, message, rest, hsplit, -, htaken, hqueue⟩
      · rw [htaken, hqueue, Multiset.coe_nil, add_zero]
      · rw [htaken, hqueue, hsplit, ← List.singleton_append, ← Multiset.coe_add,
          ← Multiset.coe_add, ← Multiset.coe_add, add_comm (([message] : List Message) :
            Multiset Message)]

namespace Republisher

structure Inv (w : Republisher) : Prop where
  enabled : w.behaviour.enableRepublish = true
  conserved : w.Conserved

theorem inv_start (localPeerId : PeerId) : (start localPeerId).Inv := ⟨rfl, rfl⟩

theorem inv_step {w w' : Republisher} {a : RepublishAct} (h : w.Inv)
    (hstep : w.step a = some w') : w'.Inv := by
  cases hstep
  constructor
  · exact (enableRepublish_apply w.behaviour a).trans h.enabled
  · have hbalance := apply_balance h.enabled a
    have hconserved := h.conserved
    unfold Conserved at hconserved ⊢
    dsimp only
    calc ((w.submitted ++ a.submits : List Message) : Multiset Message)
        = w.submitted + a.submits := (Multiset.coe_add _ _).symm
      _ = w.accepted + w.behaviour.inProgressMessages + a.submits := by rw [hconserved]
      _ = w.accepted + (a.submits + w.behaviour.inProgressMessages) := by
            rw [add_assoc, add_comm (w.behaviour.inProgressMessages : Multiset Message)]
      _ = w.accepted + (taken (offers w.behaviour a) a.answers +
            (a.apply w.behaviour).inProgressMessages) := by rw [hbalance]
      _ = (w.accepted ++ taken (offers w.behaviour a) a.answers : List Message) +
            (a.apply w.behaviour).inProgressMessages := by
            rw [← add_assoc, Multiset.coe_add]

theorem atMostOnce_of_conserved {w : Republisher} (h : w.Conserved) : w.AtMostOnce := by
  unfold Conserved at h
  unfold AtMostOnce
  rw [h]
  exact Multiset.le_add_right _ _

end Republisher

/-! ## Progress -/

/-- A list of messages at the front is offered by as many drains as it has messages:
each drain offers one of them or more, and what comes later goes behind them. -/
theorem prefix_drainOffers (acts : List RepublishAct) {b : Behaviour}
    {front later : List Message} (hqueue : b.inProgressMessages = front ++ later)
    (hdrains : front.length ≤ acts.countP RepublishAct.isDrain) :
    front <+: drainOffers b acts := by
  induction acts generalizing b front later with
  | nil =>
      have hempty : front = [] := List.eq_nil_of_length_eq_zero (Nat.le_zero.mp hdrains)
      rw [hempty]
      exact List.nil_prefix
  | cons a as ih =>
      cases a with
      | publish topic contents answers =>
          have hqueue' := publish_inProgressMessages b answers.head topic contents
          rw [hqueue, List.append_assoc] at hqueue'
          exact ih hqueue' hdrains
      | drainPublish answers =>
          have hcount : front.length ≤ as.countP RepublishAct.isDrain + 1 := by
            rw [List.countP_cons_of_pos rfl] at hdrains
            exact hdrains
          change front <+: offers b (.drainPublish answers) ++ drainOffers _ as
          rcases drainPublish_cases b answers with
            ⟨hoffers, -, -⟩ | ⟨sent, message, rest, hsplit, hoffers, -, hqueue'⟩
          · rw [hoffers, hqueue, List.append_assoc]
            exact List.prefix_append _ _
          · rw [hoffers]
            have hsplit' : b.inProgressMessages = sent ++ [message] ++ rest := by
              rw [hsplit, List.append_assoc]
              rfl
            have hsent : sent ++ [message] <+: b.inProgressMessages := by
              rw [hsplit']
              exact List.prefix_append _ _
            have hfront : front <+: b.inProgressMessages := by
              rw [hqueue]
              exact List.prefix_append _ _
            by_cases hlen : front.length ≤ (sent ++ [message]).length
            · have hshort : front <+: sent ++ [message] :=
                List.prefix_of_prefix_length_le hfront hsent hlen
              exact hshort.trans (List.prefix_append _ _)
            · have hlong : sent ++ [message] <+: front :=
                List.prefix_of_prefix_length_le hsent hfront (by omega)
              obtain ⟨front', rfl⟩ := hlong
              -- what is left of the front is the front of what is left
              have hrest : rest = front' ++ later := by
                rw [hsplit', List.append_assoc (sent ++ [message]),
                  List.append_cancel_left_eq] at hqueue
                exact hqueue
              rw [List.prefix_append_right_inj]
              rw [hrest, List.append_assoc] at hqueue'
              apply ih hqueue'
              rw [List.length_append, List.length_append, List.length_singleton] at hcount
              omega

/-! ## Runs -/

/-- Along a run every message submitted is accepted once or still in progress; and what
is in progress in any state has been offered, front first, after as many more drains. -/
theorem republish_loses_nothing (localPeerId : PeerId) (acts : List RepublishAct) :
    Machine.Along Republisher.step (fun _ _ w' => w'.Conserved ∧ w'.AtMostOnce)
        (.start localPeerId) acts ∧
      ∀ (b : Behaviour) (acts : List RepublishAct),
        b.inProgressMessages.length ≤ acts.countP RepublishAct.isDrain →
          b.inProgressMessages <+: drainOffers b acts := by
  constructor
  · apply Machine.along_of_step Republisher.Inv
    · intro w a w' h hstep
      have hinv := Republisher.inv_step h hstep
      exact ⟨hinv, hinv.conserved, Republisher.atMostOnce_of_conserved hinv.conserved⟩
    · exact Republisher.inv_start localPeerId
  · intro b acts hdrains
    exact prefix_drainOffers acts (List.append_nil _).symm hdrains

end P2pa.Gossip
