import P2pa.Node.Whole.Publish
import P2pa.Support.Simulation
import P2pa.Utils.Spacing

/-!
# How often messages are published again

The rounds in which the node offers gossipsub the messages in progress.  Their results drive
the back-off, and nothing else does.
-/

namespace P2pa.Node.Whole

open Utils ExponentialBackoff

variable {P : Type}

/-- The round that a poll makes: when, and whether every message was accepted. -/
def roundsOf (s : System) : Act P → List Call
  | .pollGossip _ now answers _ =>
      let b := s.loop.inner.swarm.gossip
      if b.enableRepublish && b.backoff.isExpired now then
        [(now, (Gossip.drainPublish b answers).2)]
      else []
  | _ => []

def halfSecond : Nat := 500000000

/-- Rounds that come neither in quick succession nor, while they fail, at a constant pace. -/
structure Limited (rounds : List Call) : Prop where
  apart : ∀ {before first between last rest},
    rounds = before ++ (first :: between ++ last :: rest) →
      first.1 + (between.length + 1) * halfSecond < last.1
  /-- The waits between failures in a row double, from one second on. -/
  slower : ∀ {before first failed next rest},
    rounds = before ++ (first :: failed ++ next :: rest) → failures before = 0 →
      (∀ call ∈ first :: failed, call.2 = false) →
      Representable (halfSecond * 2 ^ (failed.length + 1)) →
        first.1 + halfSecond * (2 ^ (failed.length + 2) - 2) < next.1

def offered (s : System) : List Gossip.Message :=
  s.loop.inner.swarm.gossip.gossip.filterMap Gossip.messageOf

/-- The message of the command that a step handles, if the command publishes one. -/
def commanded (s : System) : Act P → List Gossip.Message
  | .loop (.command _) => publishes (s.loop.commands.take 1)
  | _ => []

section Backoff

variable {lib : Libp2p} {s s' : System}

theorem gossipAfter_backoff (o : Oracle) (b : Gossip.Behaviour) (cmd : Command) :
    (gossipAfter o b cmd).backoff = b.backoff := by
  cases cmd with
  | publish topic contents =>
      unfold gossipAfter Gossip.publish
      dsimp only
      split <;> rfl
  | subscribe topic =>
      unfold gossipAfter Gossip.subscribe
      dsimp only
      split <;> rfl
  | unsubscribe topic =>
      unfold gossipAfter Gossip.unsubscribe
      dsimp only
      split <;> rfl
  | _ => rfl

/-- The loop does not touch the back-off. -/
theorem loop_backoff {w w' : World} {a : Node.Act} (hstep : Node.step lib w a = some w') :
    w'.inner.swarm.gossip.backoff = w.inner.swarm.gossip.backoff := by
  have hcalls := step_calls hstep
  generalize w'.inner.swarm.gossip = gossip, w'.inner.swarm.rdvz = rdvz at hcalls ⊢
  cases hcalls with
  | command o cmd rest hcommands => exact gossipAfter_backoff o _ cmd
  | received o event => rfl
  | none a hcommand => rfl

theorem delivers_backoff {o : Oracle} {event : Option BehaviourEvent}
    (hs' : Delivers lib s o event s') :
    s'.loop.inner.swarm.gossip.backoff = s.loop.inner.swarm.gossip.backoff := by
  cases hs' with
  | nothing => rfl
  | event event loop hstep => exact loop_backoff hstep

theorem drainPublish_backoff (b : Gossip.Behaviour) (answers : Stream' Bool) :
    (Gossip.drainPublish b answers).1.backoff = b.backoff := by
  unfold Gossip.drainPublish
  rcases Gossip.drainMessages_cases b.inProgressMessages answers b rfl with
    ⟨-, heq⟩ | ⟨sent, message, rest, -, -, -, heq⟩
  · rw [heq]
  · rw [heq]

theorem run_rounds (a : Act P) (hstep : step lib s a = some s') :
    Machine.run retry s.loop.inner.swarm.gossip.backoff (roundsOf s a) =
      some s'.loop.inner.swarm.gossip.backoff := by
  cases transition hstep with
  | loop a loop helse hloop => exact congrArg some (loop_backoff hloop).symm
  | fromSwarm event => rfl
  | pollGossip o now answers yields polled hpolled _ hs' =>
      have hpoll : polled.state.backoff = _ :=
        poll_frame Gossip.Behaviour.backoff (fun _ => rfl) hpolled
      have hafter : s'.loop.inner.swarm.gossip.backoff = polled.state.backoff :=
        delivers_backoff hs'
      rw [hafter, hpoll]
      unfold roundsOf Gossip.republish
      dsimp only
      split
      · rename_i hround
        obtain ⟨-, hexpired⟩ := Bool.and_eq_true_iff.mp hround
        rw [Machine.run_cons, retry, if_pos hexpired, drainPublish_backoff]
        rfl
      · rfl
  | pollRdvz o ticks yields b hb polled hpolled _ hs' =>
      exact congrArg some (delivers_backoff hs').symm
  | pollMdns o a w w' hw hpolled _ hs' => exact congrArg some (delivers_backoff hs').symm
  | pollDht o now answer drainNow answers fuel reads yields b hb polled hpolled _ hs' =>
      exact congrArg some (delivers_backoff hs').symm

end Backoff

/-! ## What is offered -/

section Offered

variable {lib : Libp2p} {s s' : System}

theorem offered_addExplicitPeers (b : Gossip.Behaviour) (peers : List PeerId) :
    (Gossip.addExplicitPeers b peers).gossip.filterMap Gossip.messageOf =
      b.gossip.filterMap Gossip.messageOf := by
  unfold Gossip.addExplicitPeers
  rw [List.filterMap_append, List.filterMap_map]
  have hnone : Gossip.messageOf ∘ Gossip.GossipCall.addExplicitPeer = fun _ => none := rfl
  rw [hnone, List.filterMap_none, List.append_nil]

theorem offered_gossipAfter (o : Oracle) (b : Gossip.Behaviour) (cmd : Command) :
    (gossipAfter o b cmd).gossip.filterMap Gossip.messageOf =
      b.gossip.filterMap Gossip.messageOf ++ publishes [cmd] := by
  cases cmd with
  | publish topic contents =>
      have hgossip : (Gossip.publish b o.publish topic contents).gossip =
          b.gossip ++ [.publish topic contents] := by
        unfold Gossip.publish
        dsimp only
        split <;> rfl
      change (Gossip.publish b o.publish topic contents).gossip.filterMap _ = _
      rw [hgossip, List.filterMap_append]
      rfl
  | subscribe topic =>
      change (Gossip.subscribe b topic).gossip.filterMap _ = _ ++ []
      rw [List.append_nil]
      unfold Gossip.subscribe
      split
      · rfl
      · exact List.filterMap_append.trans (List.append_nil _)
  | unsubscribe topic =>
      change (Gossip.unsubscribe b topic).gossip.filterMap _ = _ ++ []
      rw [List.append_nil]
      unfold Gossip.unsubscribe
      split
      · exact List.filterMap_append.trans (List.append_nil _)
      · rfl
  | _ => exact (List.append_nil _).symm

theorem offered_loop {loop : World} {a : Node.Act} (hstep : Node.step lib s.loop a = some loop) :
    loop.inner.swarm.gossip.gossip.filterMap Gossip.messageOf =
      offered s ++ commanded s (.loop a : Act P) := by
  have hcalls := step_calls hstep
  generalize loop.inner.swarm.gossip = gossip, loop.inner.swarm.rdvz = rdvz at hcalls ⊢
  cases hcalls with
  | command o cmd rest hcommands =>
      rw [offered_gossipAfter, commanded, hcommands]
      rfl
  | received o event => exact (offered_addExplicitPeers _ _).trans (List.append_nil _).symm
  | none a hcommand =>
      cases a with
      | command o => exact absurd rfl (hcommand o)
      | _ => exact (List.append_nil _).symm

theorem offered_delivers {o : Oracle} {event : Option BehaviourEvent}
    (hs' : Delivers lib s o event s') : offered s' = offered s := by
  cases hs' with
  | nothing => rfl
  | event event loop hstep =>
      exact (offered_loop (P := Unit) hstep).trans (List.append_nil _)

/-- Besides the rounds only a command that publishes offers gossipsub a message. -/
theorem offered_step {a : Act P} (hstep : step lib s a = some s')
    (hround : roundsOf s a = []) : offered s' = offered s ++ commanded s a := by
  have hsame : offered s = offered s ++ [] := (List.append_nil _).symm
  cases transition hstep with
  | loop a loop helse hloop => exact offered_loop hloop
  | fromSwarm event => exact hsame
  | pollGossip o now answers yields polled hpolled _ hs' =>
      refine (offered_delivers hs').trans (Eq.trans ?_ hsame)
      have hpoll : polled.state.gossip = _ :=
        poll_frame Gossip.Behaviour.gossip (fun _ => rfl) hpolled
      change polled.state.gossip.filterMap Gossip.messageOf = _
      rw [hpoll]
      unfold roundsOf at hround
      unfold Gossip.republish
      dsimp only at hround ⊢
      split at hround
      · cases hround
      · rename_i hnot
        rw [if_neg hnot]
        rfl
  | pollRdvz o ticks yields b hb polled hpolled _ hs' => exact (offered_delivers hs').trans hsame
  | pollMdns o a w w' hw hpolled _ hs' => exact (offered_delivers hs').trans hsame
  | pollDht o now answer drainNow answers fuel reads yields b hb polled hpolled _ hs' =>
      exact (offered_delivers hs').trans hsame

end Offered

theorem sum_doubling (n : Nat) :
    ∑ k ∈ Finset.range (n + 1), halfSecond * 2 ^ (k + 1) =
      halfSecond * (2 ^ (n + 2) - 2) := by
  induction n with
  | zero => rfl
  | succ n ih =>
      rw [Finset.sum_range_succ, ih, ← Nat.mul_add]
      have hle : 2 ≤ 2 ^ (n + 2) := Nat.le_self_pow (by omega) 2
      have hpow : 2 ^ (n + 1 + 2) = 2 ^ (n + 2) * 2 := pow_succ 2 (n + 2)
      have hnext : n + 1 + 1 = n + 2 := rfl
      rw [hpow, hnext]
      congr 1
      omega

theorem limited_of_spaced {rounds : List Call} (h : ExponentialBackoff.default.Spaced rounds) :
    Limited rounds where
  apart := by
    intro before first between last rest heq
    rw [heq, spaced_append] at h
    have hfloored : ExponentialBackoff.default.Floored := ⟨by decide, by decide⟩
    have hapart := apart (floored_after hfloored before) h.2
    rw [(after_settings _ before).1] at hapart
    exact hapart
  slower := by
    intro before first failed next rest heq hbefore hfailed hfits
    rw [heq, spaced_append] at h
    have htimeout : (ExponentialBackoff.default.after before).timeout.nanos = halfSecond := by
      rw [after_timeout, hbefore]
      unfold base
      split <;> rfl
    have hfactor : (ExponentialBackoff.default.after before).backoffFactor.toNat = 2 := by
      rw [(after_settings _ before).2]
      rfl
    have hslower := slower h.2 hfailed (by rwa [htimeout, hfactor])
    rwa [htimeout, hfactor, sum_doubling] at hslower

/-- In every run only a command that publishes and the rounds offer gossipsub a message.  The
results of the rounds, with those before the loop has started, are all that the back-off
follows.  Any two rounds are more than half a second apart for each round from one to the
other, and after failures in a row the waits double. -/
theorem republishes_spaced {lib : Libp2p} {inner : NodeInner} {mdns : Option Mdns.World}
    {before : List Call} (hbefore : ExponentialBackoff.default.Spaced before)
    (hbackoff : inner.swarm.gossip.backoff = ExponentialBackoff.default.after before)
    {acts : List (Act P)} {s : System}
    (hrun : Machine.run (step lib) (initial inner mdns) acts = some s) :
    let rounds := before ++ Machine.answers (step lib) roundsOf (initial inner mdns) acts
    s.loop.inner.swarm.gossip.backoff = ExponentialBackoff.default.after rounds ∧
      Limited rounds ∧
      Machine.Along (step lib) (fun s a s' => roundsOf s a = [] →
        offered s' = offered s ++ commanded s a) (initial inner mdns) acts := by
  have hsimulated : ∃ b, Machine.run retry (ExponentialBackoff.default.after before)
      (Machine.answers (step lib) roundsOf (initial inner mdns) acts) = some b ∧
        s.loop.inner.swarm.gossip.backoff = b :=
    Machine.exists_run_answers (R := fun (s : System) b => s.loop.inner.swarm.gossip.backoff = b)
      (fun h hstep => ⟨_, h ▸ run_rounds _ hstep, rfl⟩) hbackoff hrun
  obtain ⟨b, hretries, hb⟩ := hsimulated
  obtain ⟨hspaced, hafter⟩ := spaced_of_run hretries
  refine ⟨?_, limited_of_spaced (spaced_append.mpr ⟨hbefore, hspaced⟩), ?_⟩
  · rw [hb, hafter, after_append]
  · exact Machine.along_of_step (fun _ => True)
      (fun _ _ _ _ hstep => ⟨trivial, fun hround => offered_step hstep hround⟩) acts trivial

/-- A new behaviour is polled once before the loop starts.  Then a message is refused, is
refused again in a round, and is accepted in the next one. -/
def polledInner : NodeInner where
  swarm := .build (Gossip.republish (Gossip.new samplePeerId true) 0 (Stream'.const true))
    none none
  dialingRelays := []

def roundActs : List (Act Unit) :=
  [.loop (.send (.publish "chat" [72, 105])),
    .loop (.command { sampleOracle with publish := false }),
    .pollGossip sampleOracle halfSecond (Stream'.const true) [],
    .pollGossip sampleOracle (2 * halfSecond) (Stream'.const false) [],
    .pollGossip sampleOracle (5 * halfSecond) (Stream'.const true) []]

theorem republishes_spaced_sample :
    ∃ s rounds,
      Machine.run (step sampleLibp2p) (initial polledInner none) roundActs = some s ∧
      rounds = [(0, true), (2 * halfSecond, false), (5 * halfSecond, true)] ∧
      s.loop.inner.swarm.gossip.backoff = ExponentialBackoff.default.after rounds ∧
      Limited rounds ∧
      Machine.Along (step sampleLibp2p) (fun s a s' => roundsOf s a = [] →
        offered s' = offered s ++ commanded s a) (initial polledInner none) roundActs := by
  have hbefore : ExponentialBackoff.default.Spaced [(0, true)] := ⟨rfl, trivial⟩
  refine ⟨_, _, rfl, ?_, republishes_spaced hbefore rfl (show Machine.run (step sampleLibp2p)
    (initial polledInner none) roundActs = some _ from rfl)⟩
  rfl

end P2pa.Node.Whole
