import P2pa.Gossip.Republish

/-!
# Duplicates across topics

The messages that reach gossipsub, from the calls of the behaviour and from the
network, with gossipsub's duplicate cache.  The id that `build_swarm` gives a message is the
hash of its contents: the cache takes no notice of the topic.
-/

namespace P2pa.Gossip

open Utils Wire

/-- `message_id_fn` of `build_swarm`; `hash` is the one of `DefaultHasher`. -/
def messageIdFn (hash : Bytes → UInt64) (message : Message) : String :=
  toString (hash message.2)

def duplicateCacheTime : Duration := .fromSecs 300

structure DuplicateCache where
  /-- Whether an id is in the cache, once the ids given have been put there. -/
  contains : List (Instant × String) → Instant → String → Bool

/-- Every id put into the cache is there for the window, and no other one. -/
def DuplicateCache.Windowed (cache : DuplicateCache) : Prop :=
  ∀ inserted now id, cache.contains inserted now id = true ↔
    ∃ entry ∈ inserted, entry.2 = id ∧ now < entry.1 + duplicateCacheTime.nanos

/-- What reaches gossipsub: a call of `publish`, with whether it is refused for another
reason than being a duplicate, or a message from the network. -/
inductive Op
  | publish (now : Instant) (message : Message) (refused : Bool)
  | receive (now : Instant) (message : Message)
deriving DecidableEq, Repr

namespace Op

def now : Op → Instant
  | publish now _ _ => now
  | receive now _ => now

def message : Op → Message
  | publish _ message _ => message
  | receive _ message => message

def published : Op → Option Message
  | publish _ message _ => some message
  | receive _ _ => none

end Op

inductive Outcome
  | ok
  | duplicate
  | refused
deriving DecidableEq, Repr

section Gossipsub

variable (hash : Bytes → UInt64) (cache : DuplicateCache)

def entry (op : Op) : Instant × String := (op.now, messageIdFn hash op.message)

def duplicate (seen : List Op) (now : Instant) (message : Message) : Bool :=
  cache.contains (seen.map (entry hash)) now (messageIdFn hash message)

def outcome (seen : List Op) : Op → Outcome
  | .publish now message refused =>
      if duplicate hash cache seen now message then .duplicate
      else if refused then .refused else .ok
  | .receive now message =>
      if duplicate hash cache seen now message then .duplicate else .ok

/-- A message published, or received for the first time, puts its id into the cache. -/
def observe (seen : List Op) (op : Op) : List Op :=
  if outcome hash cache seen op = .ok then seen ++ [op] else seen

def seenAfter (ops : List Op) : List Op := ops.foldl (observe hash cache) []

def outcomesFrom : List Op → List Op → List Outcome
  | _, [] => []
  | seen, op :: ops => outcome hash cache seen op :: outcomesFrom (observe hash cache seen op) ops

def accepts (ops : List Op) (op : Op) : Bool :=
  outcome hash cache (seenAfter hash cache ops) op = .ok

end Gossipsub

/-! ## The behaviour on top -/

structure Publisher where
  behaviour : Behaviour
  ops : List Op
deriving Repr

inductive PublisherAct
  | publish (now : Instant) (topic : String) (contents : Bytes) (refused : Bool)
  | drainPublish (now : Instant) (refused : Stream' Bool)
  | receive (now : Instant) (source : PeerId) (topic : String) (contents : Bytes)

section Publishers

variable (hash : Bytes → UInt64) (cache : DuplicateCache)

/-- The calls a drain makes: one for each message, up to the first not accepted. -/
def drainOps (now : Instant) : List Op → List Message → Stream' Bool → List Op
  | _, [], _ => []
  | ops, message :: rest, refused =>
      let op := Op.publish now message refused.head
      if accepts hash cache ops op then op :: drainOps now (ops ++ [op]) rest refused.tail
      else [op]

def answersTo (ops calls : List Op) : Stream' Bool := fun i =>
  (calls[i]?).elim false fun op => accepts hash cache (ops ++ calls.take i) op

namespace Publisher

def start (localPeerId : PeerId) (enableRepublish : Bool) : Publisher where
  behaviour := new localPeerId enableRepublish
  ops := []

def next (w : Publisher) : PublisherAct → Publisher
  | .publish now topic contents refused =>
      let op := Op.publish now (topic, contents) refused
      { behaviour := publish w.behaviour (accepts hash cache w.ops op) topic contents
        ops := w.ops ++ [op] }
  | .drainPublish now refused =>
      let calls := drainOps hash cache now w.ops w.behaviour.inProgressMessages refused
      { behaviour := (drainPublish w.behaviour (answersTo hash cache w.ops calls)).1
        ops := w.ops ++ calls }
  | .receive now source topic contents =>
      let op := Op.receive now (topic, contents)
      { behaviour :=
          if accepts hash cache w.ops op then
            handleEvent w.behaviour (.message source topic contents)
          else w.behaviour
        ops := w.ops ++ [op] }

def step (w : Publisher) (a : PublisherAct) : Option Publisher := some (w.next hash cache a)

/-- A publish rejected as a duplicate has the topic and the contents of a message seen
within the window. -/
def TopicsSeparate (w : Publisher) : Prop :=
  ∀ pre now message refused post, w.ops = pre ++ .publish now message refused :: post →
    outcome hash cache (seenAfter hash cache pre) (.publish now message refused) = .duplicate →
      ∃ op ∈ pre, op.message = message ∧ now < op.now + duplicateCacheTime.nanos

/-- A publish is rejected as a duplicate exactly when a message with this hash of its
contents was published or received within the window, on any topic. -/
def DuplicatesByContents (w : Publisher) : Prop :=
  ∀ pre now message refused post, w.ops = pre ++ .publish now message refused :: post →
    (outcome hash cache (seenAfter hash cache pre) (.publish now message refused) = .duplicate ↔
      ∃ before op after, pre = before ++ op :: after ∧
        outcome hash cache (seenAfter hash cache before) op = .ok ∧
        messageIdFn hash op.message = messageIdFn hash message ∧
        now < op.now + duplicateCacheTime.nanos)

def CallsMatch (w : Publisher) : Prop :=
  w.behaviour.gossip.filterMap messageOf = w.ops.filterMap Op.published

def outcomes (w : Publisher) : List Outcome := outcomesFrom hash cache [] w.ops

end Publisher

/-- A message on one topic makes no difference to the same contents on another. -/
def TopicsIndependent : Prop :=
  ∀ pre op post now topic refused, op.message.1 ≠ topic →
    outcome hash cache (seenAfter hash cache (pre ++ op :: post))
        (.publish now (topic, op.message.2) refused) =
      outcome hash cache (seenAfter hash cache (pre ++ post))
        (.publish now (topic, op.message.2) refused)

end Publishers

/-! ## The cache and the history -/

section History

variable (hash : Bytes → UInt64) (cache : DuplicateCache)

theorem seenAfter_concat (ops : List Op) (op : Op) :
    seenAfter hash cache (ops ++ [op]) = observe hash cache (seenAfter hash cache ops) op := by
  unfold seenAfter
  rw [List.foldl_append, List.foldl_cons, List.foldl_nil]

/-- The cache has the messages that were accepted when they came. -/
theorem mem_seenAfter_iff (ops : List Op) (op : Op) :
    op ∈ seenAfter hash cache ops ↔
      ∃ before after, ops = before ++ op :: after ∧
        outcome hash cache (seenAfter hash cache before) op = .ok := by
  induction ops using List.reverseRecOn with
  | nil =>
      constructor
      · intro hmem
        exact absurd hmem List.not_mem_nil
      · rintro ⟨before, after, heq, -⟩
        exact absurd heq.symm (List.append_ne_nil_of_right_ne_nil _ (List.cons_ne_nil _ _))
  | append_singleton ops last ih =>
      rw [seenAfter_concat, observe]
      constructor
      · intro hmem
        have hcases : op ∈ seenAfter hash cache ops ∨
            op = last ∧ outcome hash cache (seenAfter hash cache ops) last = .ok := by
          split at hmem
          · next hok =>
              rw [List.mem_append, List.mem_singleton] at hmem
              exact hmem.imp_right fun heq => ⟨heq, hok⟩
          · exact .inl hmem
        rcases hcases with hmem | ⟨rfl, hok⟩
        · obtain ⟨before, after, rfl, hok⟩ := ih.mp hmem
          refine ⟨before, after ++ [last], ?_, hok⟩
          rw [List.append_assoc, List.cons_append]
        · exact ⟨ops, [], rfl, hok⟩
      · rintro ⟨before, after, heq, hok⟩
        rcases List.eq_nil_or_concat after with rfl | ⟨after', last', rfl⟩
        · obtain ⟨rfl, hlast⟩ := List.append_inj' heq rfl
          have hop : last = op := (List.cons.inj hlast).1
          rw [hop, if_pos hok]
          exact List.mem_append_right _ (List.mem_singleton.mpr rfl)
        · rw [List.concat_eq_append, ← List.cons_append, ← List.append_assoc] at heq
          have hops : ops = before ++ op :: after' := (List.append_inj' heq rfl).1
          have hmem : op ∈ seenAfter hash cache ops := ih.mpr ⟨before, after', hops, hok⟩
          split
          · exact List.mem_append_left _ hmem
          · exact hmem

theorem outcome_publish_duplicate_iff (seen : List Op) (now : Instant) (message : Message)
    (refused : Bool) :
    outcome hash cache seen (.publish now message refused) = .duplicate ↔
      duplicate hash cache seen now message = true := by
  unfold outcome
  dsimp only
  by_cases hdup : duplicate hash cache seen now message = true
  · rw [if_pos hdup]
    exact iff_of_true rfl hdup
  · rw [if_neg hdup]
    cases refused with
    | true => exact iff_of_false (by decide) hdup
    | false => exact iff_of_false (by decide) hdup

variable {cache}

theorem duplicate_iff (hcache : cache.Windowed) (seen : List Op) (now : Instant)
    (message : Message) :
    duplicate hash cache seen now message = true ↔
      ∃ op ∈ seen, messageIdFn hash op.message = messageIdFn hash message ∧
        now < op.now + duplicateCacheTime.nanos := by
  unfold duplicate
  rw [hcache]
  simp only [List.mem_map, exists_exists_and_eq_and, entry]

theorem duplicatesByContents (hcache : cache.Windowed) (w : Publisher) :
    w.DuplicatesByContents hash cache := by
  intro pre now message refused post hops
  rw [outcome_publish_duplicate_iff, duplicate_iff hash hcache]
  constructor
  · rintro ⟨op, hop, hid, hlive⟩
    obtain ⟨before, after, hpre, hok⟩ := (mem_seenAfter_iff hash cache pre op).mp hop
    exact ⟨before, op, after, hpre, hok, hid, hlive⟩
  · rintro ⟨before, op, after, hpre, hok, hid, hlive⟩
    exact ⟨op, (mem_seenAfter_iff hash cache pre op).mpr ⟨before, after, hpre, hok⟩, hid, hlive⟩

theorem outcome_first (hcache : cache.Windowed) (now : Instant) (message : Message) :
    outcome hash cache [] (.publish now message false) = .ok := by
  have hnot : ¬ duplicate hash cache [] now message = true := by
    rw [duplicate_iff hash hcache]
    exact nofun
  unfold outcome
  dsimp only
  rw [if_neg hnot]
  rfl

theorem seenAfter_first (hcache : cache.Windowed) (now : Instant) (message : Message) :
    seenAfter hash cache [.publish now message false] = [.publish now message false] := by
  have hobserve := seenAfter_concat hash cache [] (.publish now message false)
  rw [List.nil_append] at hobserve
  rw [hobserve]
  exact if_pos (outcome_first hash hcache now message)

/-! ## Messages with other ids -/

def hasId (id : String) (op : Op) : Bool := messageIdFn hash op.message = id

theorem duplicate_filter (hcache : cache.Windowed) (seen : List Op) (now : Instant)
    (message : Message) :
    duplicate hash cache (seen.filter (hasId hash (messageIdFn hash message))) now message =
      duplicate hash cache seen now message := by
  rw [Bool.eq_iff_iff, duplicate_iff hash hcache, duplicate_iff hash hcache]
  constructor
  · rintro ⟨op, hop, hrest⟩
    exact ⟨op, (List.mem_filter.mp hop).1, hrest⟩
  · rintro ⟨op, hop, hid, hlive⟩
    exact ⟨op, List.mem_filter.mpr ⟨hop, decide_eq_true hid⟩, hid, hlive⟩

/-- Only what has the id of the message counts for its outcome. -/
theorem outcome_filter (hcache : cache.Windowed) (seen : List Op) (op : Op) :
    outcome hash cache (seen.filter (hasId hash (messageIdFn hash op.message))) op =
      outcome hash cache seen op := by
  cases op with
  | publish now message refused =>
      have hsame := duplicate_filter hash hcache seen now message
      simp only [outcome, Op.message, hsame]
  | receive now message =>
      have hsame := duplicate_filter hash hcache seen now message
      simp only [outcome, Op.message, hsame]

/-- The cache entries of an id come from the messages with that id alone. -/
theorem filter_seenAfter (hcache : cache.Windowed) (id : String) (ops : List Op) :
    (seenAfter hash cache ops).filter (hasId hash id) =
      seenAfter hash cache (ops.filter (hasId hash id)) := by
  induction ops using List.reverseRecOn with
  | nil => rfl
  | append_singleton ops op ih =>
      rw [seenAfter_concat, List.filter_append]
      by_cases hid : messageIdFn hash op.message = id
      · have hkeep : [op].filter (hasId hash id) = [op] :=
          List.filter_cons_of_pos (decide_eq_true hid)
        rw [hkeep, seenAfter_concat, ← ih]
        have hout := outcome_filter hash hcache (seenAfter hash cache ops) op
        rw [hid] at hout
        unfold observe
        rw [hout]
        split
        · rw [List.filter_append, hkeep]
        · rfl
      · have hdrop : [op].filter (hasId hash id) = [] := by
          rw [List.filter_cons_of_neg, List.filter_nil]
          rw [hasId, decide_eq_true_eq]
          exact hid
        rw [hdrop, List.append_nil, ← ih]
        unfold observe
        split
        · rw [List.filter_append, hdrop, List.append_nil]
        · rfl

/-- A message makes no difference to contents with another hash. -/
theorem outcome_without (hcache : cache.Windowed) (pre post : List Op) (op next : Op)
    (h : messageIdFn hash op.message ≠ messageIdFn hash next.message) :
    outcome hash cache (seenAfter hash cache (pre ++ op :: post)) next =
      outcome hash cache (seenAfter hash cache (pre ++ post)) next := by
  have hdrop : hasId hash (messageIdFn hash next.message) op = false := decide_eq_false h
  rw [← outcome_filter hash hcache, filter_seenAfter hash hcache,
    ← outcome_filter hash hcache (seenAfter hash cache (pre ++ post)),
    filter_seenAfter hash hcache, List.filter_append, List.filter_append, List.filter_cons, hdrop]
  rfl

end History

/-! ## The calls of the behaviour -/

section Calls

variable (hash : Bytes → UInt64) (cache : DuplicateCache)

theorem answersTo_head (ops calls : List Op) (op : Op) :
    (answersTo hash cache ops (op :: calls)).head = accepts hash cache ops op :=
  congrArg (accepts hash cache · op) (List.append_nil ops)

theorem answersTo_tail (ops calls : List Op) (op : Op) :
    (answersTo hash cache ops (op :: calls)).tail = answersTo hash cache (ops ++ [op]) calls := by
  funext i
  change ((op :: calls)[i + 1]?).elim false
      (fun call => accepts hash cache (ops ++ (op :: calls).take (i + 1)) call) = _
  rw [List.getElem?_cons_succ, List.take_succ_cons, List.append_cons]
  rfl

theorem drainMessages_calls (now : Instant) (queue : List Message) (ops : List Op)
    (refused : Stream' Bool) (b : Behaviour) :
    ((drainMessages queue
        (answersTo hash cache ops (drainOps hash cache now ops queue refused)) b).1
        ).gossip.filterMap messageOf =
      b.gossip.filterMap messageOf ++
        (drainOps hash cache now ops queue refused).filterMap Op.published := by
  induction queue generalizing ops refused b with
  | nil => exact (List.append_nil _).symm
  | cons message rest ih =>
      unfold drainOps drainMessages
      dsimp only
      by_cases hok : accepts hash cache ops (.publish now message refused.head) = true
      · rw [if_pos hok, answersTo_head, if_pos hok, answersTo_tail, ih, List.filterMap_append,
          List.append_assoc]
        rfl
      · rw [if_neg hok, answersTo_head, if_neg hok]
        dsimp only
        rw [List.filterMap_append]
        rfl

theorem callsMatch_next {w : Publisher} (h : w.CallsMatch) (a : PublisherAct) :
    (w.next hash cache a).CallsMatch := by
  unfold Publisher.CallsMatch at h ⊢
  cases a with
  | publish now topic contents refused =>
      dsimp only [Publisher.next]
      rw [List.filterMap_append, ← h]
      unfold publish
      dsimp only
      split
      · exact List.filterMap_append
      · exact List.filterMap_append
  | drainPublish now refused =>
      dsimp only [Publisher.next, drainPublish]
      rw [drainMessages_calls, List.filterMap_append, h]
  | receive now source topic contents =>
      dsimp only [Publisher.next]
      rw [List.filterMap_append, ← h]
      have hsame : ∀ event, (handleEvent w.behaviour event).gossip = w.behaviour.gossip := by
        intro event
        unfold handleEvent
        split
        · split <;> rfl
        · rfl
      split
      · rw [hsame]
        exact (List.append_nil _).symm
      · exact (List.append_nil _).symm

end Calls

/-! ## Without the topics -/

def eraseMessage (message : Message) : Message := ("", message.2)

def Op.erase : Op → Op
  | publish now message refused => publish now (eraseMessage message) refused
  | receive now message => receive now (eraseMessage message)

def GossipCall.erase : GossipCall → GossipCall
  | publish _ contents => publish "" contents
  | call => call

def Event.erase : Event → Event
  | msgReceived _ contents => msgReceived "" contents

def Behaviour.erase (b : Behaviour) : Behaviour :=
  { b with
    gossip := b.gossip.map GossipCall.erase
    inProgressMessages := b.inProgressMessages.map eraseMessage
    eventQueue := b.eventQueue.map Event.erase }

def Publisher.erase (w : Publisher) : Publisher where
  behaviour := w.behaviour.erase
  ops := w.ops.map Op.erase

def PublisherAct.erase : PublisherAct → PublisherAct
  | publish now _ contents refused => publish now "" contents refused
  | drainPublish now refused => drainPublish now refused
  | receive now source _ contents => receive now source "" contents

section Erasure

variable (hash : Bytes → UInt64) (cache : DuplicateCache)

theorem now_erase (op : Op) : op.erase.now = op.now := by
  cases op <;> rfl

theorem messageIdFn_erase (op : Op) :
    messageIdFn hash op.erase.message = messageIdFn hash op.message := by
  cases op <;> rfl

theorem duplicate_erase (seen : List Op) (now : Instant) (message : Message) :
    duplicate hash cache (seen.map Op.erase) now (eraseMessage message) =
      duplicate hash cache seen now message := by
  have hentry : entry hash ∘ Op.erase = entry hash := by
    funext op
    exact Prod.ext (now_erase op) (messageIdFn_erase hash op)
  unfold duplicate
  rw [List.map_map, hentry]
  rfl

theorem outcome_erase (seen : List Op) (op : Op) :
    outcome hash cache (seen.map Op.erase) op.erase = outcome hash cache seen op := by
  cases op with
  | publish now message refused =>
      have hsame := duplicate_erase hash cache seen now message
      simp only [outcome, Op.erase, hsame]
  | receive now message =>
      have hsame := duplicate_erase hash cache seen now message
      simp only [outcome, Op.erase, hsame]

theorem observe_erase (seen : List Op) (op : Op) :
    observe hash cache (seen.map Op.erase) op.erase =
      (observe hash cache seen op).map Op.erase := by
  unfold observe
  rw [outcome_erase]
  split
  · rw [List.map_append, List.map_singleton]
  · rfl

theorem seenAfter_erase (ops : List Op) :
    seenAfter hash cache (ops.map Op.erase) = (seenAfter hash cache ops).map Op.erase := by
  induction ops using List.reverseRecOn with
  | nil => rfl
  | append_singleton ops op ih =>
      rw [List.map_append, List.map_singleton, seenAfter_concat, seenAfter_concat, ih,
        observe_erase]

theorem outcomesFrom_erase (seen ops : List Op) :
    outcomesFrom hash cache (seen.map Op.erase) (ops.map Op.erase) =
      outcomesFrom hash cache seen ops := by
  induction ops generalizing seen with
  | nil => rfl
  | cons op ops ih =>
      rw [List.map_cons, outcomesFrom, outcomesFrom, outcome_erase, observe_erase, ih]

theorem accepts_erase (ops : List Op) (op : Op) :
    accepts hash cache (ops.map Op.erase) op.erase = accepts hash cache ops op := by
  unfold accepts
  rw [seenAfter_erase, outcome_erase]

theorem drainOps_erase (now : Instant) (ops : List Op) (queue : List Message)
    (refused : Stream' Bool) :
    drainOps hash cache now (ops.map Op.erase) (queue.map eraseMessage) refused =
      (drainOps hash cache now ops queue refused).map Op.erase := by
  induction queue generalizing ops refused with
  | nil => rfl
  | cons message rest ih =>
      have hop := accepts_erase hash cache ops (.publish now message refused.head)
      have hops := ih (ops ++ [.publish now message refused.head]) refused.tail
      rw [List.map_append, List.map_singleton] at hops
      rw [List.map_cons, drainOps, drainOps]
      dsimp only [Op.erase] at hop hops ⊢
      rw [hop, hops]
      split <;> rfl

theorem answersTo_erase (ops calls : List Op) :
    answersTo hash cache (ops.map Op.erase) (calls.map Op.erase) =
      answersTo hash cache ops calls := by
  funext i
  unfold answersTo
  rw [List.getElem?_map, ← List.map_take, ← List.map_append]
  cases calls[i]? with
  | none => rfl
  | some op => exact accepts_erase hash cache (ops ++ calls.take i) op

theorem drainMessages_erase (queue : List Message) (answers : Stream' Bool) (b : Behaviour) :
    (drainMessages (queue.map eraseMessage) answers b.erase).1 =
      (drainMessages queue answers b).1.erase := by
  induction queue generalizing answers b with
  | nil => rfl
  | cons message rest ih =>
      rw [List.map_cons]
      unfold drainMessages
      dsimp only
      have hrest := ih answers.tail { b with
        inProgressMessages := rest
        gossip := b.gossip ++ [.publish message.1 message.2] }
      unfold Behaviour.erase at hrest ⊢
      dsimp only at hrest ⊢
      rw [List.map_append, List.map_singleton] at hrest
      split
      · exact hrest
      · dsimp only
        rw [List.map_append, List.map_append, List.map_singleton, List.map_singleton]
        rfl

theorem publish_erase (b : Behaviour) (accepted : Bool) (topic : String) (contents : Bytes) :
    publish b.erase accepted "" contents = (publish b accepted topic contents).erase := by
  unfold publish Behaviour.erase
  dsimp only
  split
  · dsimp only
    rw [List.map_append, List.map_append, List.map_singleton, List.map_singleton]
    rfl
  · dsimp only
    rw [List.map_append, List.map_singleton]
    rfl

theorem handleEvent_erase (b : Behaviour) (source : PeerId) (topic : String)
    (contents : Bytes) :
    handleEvent b.erase (.message source "" contents) =
      (handleEvent b (.message source topic contents)).erase := by
  unfold handleEvent Behaviour.erase
  dsimp only
  split
  · rfl
  · dsimp only
    rw [List.map_append, List.map_singleton]
    rfl

theorem next_erase (w : Publisher) (a : PublisherAct) :
    w.erase.next hash cache a.erase = (w.next hash cache a).erase := by
  cases a with
  | publish now topic contents refused =>
      have hop := accepts_erase hash cache w.ops (.publish now (topic, contents) refused)
      dsimp only [Op.erase, eraseMessage] at hop
      simp only [Publisher.erase, PublisherAct.erase, Publisher.next, hop, publish_erase _ _ topic,
        List.map_append, List.map_singleton, Op.erase, eraseMessage]
  | drainPublish now refused =>
      have hcalls := drainOps_erase hash cache now w.ops w.behaviour.inProgressMessages refused
      have hqueue : w.behaviour.erase.inProgressMessages =
          w.behaviour.inProgressMessages.map eraseMessage := rfl
      simp only [Publisher.erase, PublisherAct.erase, Publisher.next, List.map_append,
        drainPublish, hqueue, hcalls, answersTo_erase, drainMessages_erase]
  | receive now source topic contents =>
      have hop := accepts_erase hash cache w.ops (.receive now (topic, contents))
      dsimp only [Op.erase, eraseMessage] at hop
      simp only [Publisher.erase, PublisherAct.erase, Publisher.next, hop,
        handleEvent_erase _ _ topic, List.map_append, List.map_singleton, Op.erase, eraseMessage]
      split <;> rfl

theorem outcomes_erase (w : Publisher) : w.erase.outcomes hash cache = w.outcomes hash cache :=
  outcomesFrom_erase hash cache [] w.ops

/-- A run with all topics empty has the outcomes it has with its topics. -/
theorem outcomes_run_erase (w : Publisher) (acts : List PublisherAct) :
    (Machine.run (Publisher.step hash cache) w.erase (acts.map PublisherAct.erase)).map
        (Publisher.outcomes hash cache) =
      (Machine.run (Publisher.step hash cache) w acts).map (Publisher.outcomes hash cache) := by
  have hstep : ∀ w a, Publisher.step hash cache w.erase (PublisherAct.erase a) =
      (Publisher.step hash cache w a).map Publisher.erase :=
    fun w a => congrArg some (next_erase hash cache w a)
  rw [Machine.run_map Publisher.erase PublisherAct.erase hstep, Option.map_map]
  exact congrFun (congrArg Option.map (funext (outcomes_erase hash cache))) _

end Erasure

/-! ## Runs -/

/-- Publishes are told apart by the hash of their contents alone: a publish is rejected as
a duplicate exactly when that hash was published or received within the window, on any
topic; the topics of a run have no influence on what is rejected; and contents with another
hash never have. -/
theorem duplicates_by_contents (hash : Bytes → UInt64) {cache : DuplicateCache}
    (hcache : cache.Windowed) (localPeerId : PeerId) (enableRepublish : Bool)
    (acts : List PublisherAct) :
    Machine.Along (Publisher.step hash cache)
        (fun _ _ w' => w'.DuplicatesByContents hash cache ∧ w'.CallsMatch)
        (.start localPeerId enableRepublish) acts ∧
      (Machine.run (Publisher.step hash cache) (.start localPeerId enableRepublish)
          (acts.map PublisherAct.erase)).map (Publisher.outcomes hash cache) =
        (Machine.run (Publisher.step hash cache) (.start localPeerId enableRepublish)
          acts).map (Publisher.outcomes hash cache) ∧
      ∀ pre op post now message refused,
        messageIdFn hash op.message ≠ messageIdFn hash message →
          outcome hash cache (seenAfter hash cache (pre ++ op :: post))
              (.publish now message refused) =
            outcome hash cache (seenAfter hash cache (pre ++ post))
              (.publish now message refused) := by
  refine ⟨?_, outcomes_run_erase hash cache (.start localPeerId enableRepublish) acts, ?_⟩
  · apply Machine.along_of_step Publisher.CallsMatch
    · intro w a w' h hstep
      cases hstep
      have hcalls := callsMatch_next hash cache h a
      exact ⟨hcalls, duplicatesByContents hash hcache _, hcalls⟩
    · rfl
  · intro pre op post now message refused hid
    exact outcome_without hash hcache pre post op (.publish now message refused) hid

def DuplicateCache.timed : DuplicateCache where
  contains inserted now id :=
    inserted.any fun entry => entry.2 = id ∧ now < entry.1 + duplicateCacheTime.nanos

theorem DuplicateCache.timed_windowed : timed.Windowed := by
  intro inserted now id
  unfold timed
  simp only [List.any_eq_true, decide_eq_true_eq]

def lengthHash (contents : Bytes) : UInt64 := .ofNat contents.length

/-- Two messages of one length on two topics, and a longer one. -/
def publishActs : List PublisherAct :=
  [.publish 0 "a" [1] false, .publish 1 "b" [2] false, .publish 2 "b" [3, 4] false]

theorem duplicates_by_contents_sample :
    ∃ cache : DuplicateCache, cache = .timed ∧
      (Machine.run (Publisher.step lengthHash cache) (.start samplePeerId true)
        publishActs).map (Publisher.outcomes lengthHash cache) =
          some [.ok, .duplicate, .ok] ∧
      Machine.Along (Publisher.step lengthHash cache)
        (fun _ _ w' => w'.DuplicatesByContents lengthHash cache ∧ w'.CallsMatch)
        (.start samplePeerId true) publishActs ∧
      (Machine.run (Publisher.step lengthHash cache) (.start samplePeerId true)
          (publishActs.map PublisherAct.erase)).map (Publisher.outcomes lengthHash cache) =
        (Machine.run (Publisher.step lengthHash cache) (.start samplePeerId true)
          publishActs).map (Publisher.outcomes lengthHash cache) ∧
      ∀ pre op post now message refused,
        messageIdFn lengthHash op.message ≠ messageIdFn lengthHash message →
          outcome lengthHash cache (seenAfter lengthHash cache (pre ++ op :: post))
              (.publish now message refused) =
            outcome lengthHash cache (seenAfter lengthHash cache (pre ++ post))
              (.publish now message refused) :=
  ⟨_, rfl, by decide,
    duplicates_by_contents lengthHash DuplicateCache.timed_windowed samplePeerId true publishActs⟩

/-- Whatever the hash and the cache, contents published on one topic are rejected on another. -/
theorem topics_interfere :
    ¬ ∃ hash cache, DuplicateCache.Windowed cache ∧ ((∀ localPeerId enableRepublish acts,
      Machine.Along (Publisher.step hash cache) (fun _ _ w' => w'.TopicsSeparate hash cache)
        (.start localPeerId enableRepublish) acts) ∨ TopicsIndependent hash cache) := by
  rintro ⟨hash, cache, hcache, h⟩
  have hrejected : outcome hash cache (seenAfter hash cache [.publish 0 ("a", [1]) false])
      (.publish 1 ("b", [1]) false) = .duplicate := by
    have hfirst : seenAfter hash cache [.publish 0 ("a", [1]) false] =
        [.publish 0 ("a", [1]) false] := seenAfter_first hash hcache 0 ("a", [1])
    rw [outcome_publish_duplicate_iff, duplicate_iff hash hcache, hfirst]
    exact ⟨.publish 0 ("a", [1]) false, List.mem_singleton.mpr rfl, rfl, by decide⟩
  rcases h with hseparate | hindependent
  · have hrun := hseparate samplePeerId true
      [.publish 0 "a" [1] false, .publish 1 "b" [1] false]
    obtain ⟨-, hrun⟩ := hrun _ rfl
    obtain ⟨hseparate, -⟩ := hrun _ rfl
    obtain ⟨op, hop, hmessage, -⟩ :=
      hseparate [.publish 0 ("a", [1]) false] 1 ("b", [1]) false [] rfl hrejected
    rw [List.mem_singleton.mp hop] at hmessage
    revert hmessage
    decide
  · have hsame := hindependent [] (.publish 0 ("a", [1]) false) [] 1 "b" false (by decide)
    have haccepted : outcome hash cache (seenAfter hash cache [])
        (.publish 1 ("b", [1]) false) = .ok := outcome_first hash hcache 1 ("b", [1])
    exact absurd (hrejected.symm.trans (hsame.trans haccepted)) (by decide)

end P2pa.Gossip
