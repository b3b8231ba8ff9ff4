import P2pa.Dht.Poll
import P2pa.Gossip.Poll
import P2pa.Rendezvous.Poll

/-!
# The three wrappers are transparent

Along every run the gossip, rendezvous and DHT behaviours return the actions of the
behaviour they wrap, in order, and the events they return with those in their queue are
the images of the wrapped events, in order.
-/

namespace P2pa

theorem wrappers_transparent (P : Type) :
    (∀ localPeerId enableRepublish (inputs : List (Gossip.Input P)),
      Machine.Along Gossip.Wrapper.step
        (fun _ _ w' =>
          w'.ledger.Balanced (Gossip.image localPeerId) w'.behaviour.eventQueue)
        (.start localPeerId enableRepublish) inputs) ∧
    (∀ lib currentId ttl timeout (inputs : List (Rendezvous.Input P)),
      Machine.Along (Rendezvous.Wrapper.step lib)
        (fun _ _ w' =>
          w'.ledger.Balanced (Rendezvous.image currentId) w'.behaviour.eventQueue)
        (.start currentId ttl timeout) inputs) ∧
    (∀ currentId registrations, (Rendezvous.found currentId registrations).Nodup ∧
      ∀ peerId address, (peerId, address) ∈ Rendezvous.found currentId registrations ↔
        peerId ≠ currentId ∧
          ∃ r ∈ registrations, r.peerId = peerId ∧ address ∈ r.addresses) ∧
    (∀ replicationFactor (inputs : List (Dht.Input P)),
      Machine.Along Dht.Wrapper.step
        (fun _ _ w' => w'.ledger.Balanced Dht.image w'.behaviour.eventQueue)
        (.start replicationFactor) inputs) := by
  refine ⟨?_, ?_, ?_, ?_⟩
  · intro localPeerId enableRepublish inputs
    apply Machine.along_of_step (Gossip.Wrapper.Transparent localPeerId)
    · intro w input w' h hstep
      have h' := Gossip.transparent_step h hstep
      exact ⟨h', h'.balanced⟩
    · exact Gossip.transparent_start localPeerId enableRepublish
  · intro lib currentId ttl timeout inputs
    apply Machine.along_of_step (Rendezvous.Wrapper.Transparent currentId)
    · intro w input w' h hstep
      have h' := Rendezvous.transparent_step h hstep
      exact ⟨h', h'.balanced⟩
    · exact Rendezvous.transparent_start currentId ttl timeout
  · intro currentId registrations
    exact ⟨Rendezvous.nodup_found currentId registrations,
      Rendezvous.mem_found_iff currentId registrations⟩
  · intro replicationFactor inputs
    apply Machine.along_of_step Dht.Wrapper.Transparent
    · intro w input w' h hstep
      have h' := Dht.transparent_step h hstep
      exact ⟨h', h'⟩
    · exact Dht.transparent_start replicationFactor

end P2pa
