import P2pa.Node.Survival

/-!
# A failed command changes nothing

The texts of a command are parsed before anything is written, so a command that fails
leaves the behaviours and the relays of the node as they are, and one whose texts do not
parse leaves the whole node.  Only the handshake with a relay goes on after a command's
first step; it cannot fail, and the address it is about has been parsed.
-/

namespace P2pa.Node

section IfEnabled

variable {B : Type} {n : NodeInner} {b : Option B} {f : B → Except Error B}
  {store : B → NodeInner} {result : NodeInner × Outcome}

theorem IfEnabled.ne_relaying (h : IfEnabled n b f store result) (address : Multiaddr) :
    result.2 ≠ .relaying address := by
  cases h <;> simp

end IfEnabled

section Command

variable {lib : Libp2p} {o : Oracle} {n : NodeInner}

end Command

/-! ## The handshake with a relay -/

theorem withDht_ne_relaying (n : NodeInner)
    (f : Dht.Behaviour → Except Error Dht.Behaviour) (address : Multiaddr) :
    (withDht n f).2 ≠ .relaying address :=
  (withDht_ifEnabled n f).ne_relaying address

theorem withRdvz_ne_relaying (n : NodeInner)
    (f : Rendezvous.Behaviour → Except Error Rendezvous.Behaviour) (address : Multiaddr) :
    (withRdvz n f).2 ≠ .relaying address :=
  (withRdvz_ifEnabled n f).ne_relaying address

theorem handleCommand_relaying {lib : Libp2p} {o : Oracle} {n : NodeInner} {cmd : Command}
    {address : Multiaddr} (h : (handleCommand lib o n cmd).2 = .relaying address) :
    ∃ text, cmd = .listenViaRelay text ∧ lib.multiaddrFromStr text = some address := by
  cases cmd with
  | dial addr =>
      rw [dial_outcome] at h
      cases hparse : lib.multiaddrFromStr addr with
      | none => simp [hparse] at h
      | some a => cases hdial : o.dial n.swarm.dialed a <;> simp [hparse, hdial] at h
  | listenViaRelay text =>
      rw [listenViaRelay_outcome] at h
      cases hparse : lib.multiaddrFromStr text with
      | none => simp [hparse] at h
      | some a =>
          cases hdial : o.dial n.swarm.dialed a with
          | false => simp [hparse, hdial] at h
          | true =>
              simp only [hparse, hdial, if_true, Outcome.relaying.injEq] at h
              exact ⟨text, rfl, congrArg some h ▸ hparse⟩
  | _ => simp [handleCommand, withDht_ne_relaying, withRdvz_ne_relaying] at h

end P2pa.Node
