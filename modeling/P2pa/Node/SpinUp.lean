import P2pa.Node.Inner

/-!
# The commands a node starts with

`Node::spin_up` of `node.rs` and the calls it makes.  A computation keeps the commands
it has sent, also where it fails.  Registration combines every rendezvous point with
every namespace, discovery only those that stand at the same position.
-/

namespace P2pa.Node

/-- The fields of `Config` that `spin_up` reads. -/
structure Config where
  relayNodes : List (PeerId × Multiaddr)
  rendezvousNodes : List (PeerId × Multiaddr)
  rendezvousNamespaces : List String
  enableRendezvous : Bool
  enableDht : Bool
  enableRelay : Bool
deriving Repr

abbrev Sender := ExceptT Error (StateM (List Command))

/-- The result, and the commands that have been sent. -/
def Sender.outcome {α : Type} (m : Sender α) (sent : List Command) :
    Except Error α × List Command :=
  (StateT.run (ExceptT.run m) sent).run

section Node

-- `receiving` is whether the task still has the receiver once the commands have been sent
variable (receiving : List Command → Bool) (lib : Libp2p) (config : Config)

def send (cmd : Command) : Sender Unit := do
  if receiving (← get) then modify fun sent => sent ++ [cmd]
  else throw .send

def connectRelay (addr : String) : Sender Unit := send receiving (.listenViaRelay addr)

def dial (addr : String) : Sender Unit := send receiving (.dial addr)

def beginBootstrap : Sender Unit := send receiving .beginBootstrap

def addrWithPeer (node : PeerId × Multiaddr) : String :=
  lib.multiaddrToString (node.2.push (.p2p node.1))

def register (ns : String) : Sender Unit :=
  config.rendezvousNodes.forM fun point =>
    send receiving (.register (addrWithPeer lib point) ns)

def discover : Sender Unit :=
  (config.rendezvousNodes.zip config.rendezvousNamespaces).forM fun (point, ns) =>
    send receiving (.discover (addrWithPeer lib point) ns)

def spinUp : Sender Unit := do
  if config.enableRelay then
    config.relayNodes.forM fun node => connectRelay receiving (addrWithPeer lib node)
  if config.enableRendezvous then
    config.rendezvousNodes.forM fun node => dial receiving (addrWithPeer lib node)
    config.rendezvousNamespaces.forM fun ns => register receiving lib config ns
    discover receiving lib config
  if config.enableDht then
    beginBootstrap receiving

end Node

/-! ## What a computation sends -/

/-- If it does not fail, it sends these commands. -/
def Sends (m : Sender Unit) (cmds : List Command) : Prop :=
  ∀ sent after, m.outcome sent = (.ok (), after) → after = sent ++ cmds

section Sends

variable {receiving : List Command → Bool} {a b : List Command}

theorem outcome_send (receiving : List Command → Bool) (cmd : Command)
    (sent : List Command) :
    (send receiving cmd).outcome sent =
      if receiving sent then (.ok (), sent ++ [cmd]) else (.error .send, sent) := by
  change Sender.outcome (if receiving sent then modify fun sent => sent ++ [cmd]
    else throw .send) sent = _
  split <;> rfl

theorem outcome_bind (m : Sender Unit) (f : Unit → Sender Unit) (sent : List Command) :
    (m >>= f).outcome sent =
      match m.outcome sent with
      | (.ok u, sent) => (f u).outcome sent
      | (.error e, sent) => (.error e, sent) := by
  unfold Sender.outcome
  cases hm : ((ExceptT.run m).run sent).run with
  | mk result mid => cases result <;> simp [hm]

theorem sends_send (cmd : Command) : Sends (send receiving cmd) [cmd] := by
  intro sent after h
  rw [outcome_send] at h
  split at h
  · exact (Prod.mk.inj h).2.symm
  · cases h

theorem sends_pure : Sends (pure ()) [] := by
  intro sent after h
  have h' : (Except.ok (), sent) = (Except.ok (), after) := h
  rw [List.append_nil]
  exact (Prod.mk.inj h').2.symm

theorem Sends.bind {m : Sender Unit} {f : Unit → Sender Unit} (hm : Sends m a)
    (hf : Sends (f ()) b) : Sends (m >>= f) (a ++ b) := by
  intro sent after h
  rw [outcome_bind] at h
  cases hout : m.outcome sent with
  | mk result mid =>
      rw [hout] at h
      cases result with
      | error e => cases h
      | ok u =>
          rw [hf mid after h, hm sent mid hout, List.append_assoc]

theorem sends_forM {α : Type} {f : α → Sender Unit} {cmds : α → List Command}
    (h : ∀ x, Sends (f x) (cmds x)) (l : List α) : Sends (l.forM f) (l.flatMap cmds) := by
  induction l with
  | nil => exact sends_pure
  | cons x rest ih => exact (h x).bind ih

theorem Sends.optional {c : Prop} [Decidable c] {m n : Sender Unit}
    (hm : Sends m (a ++ b)) (hn : Sends n b) :
    Sends (if c then m else n) ((if c then a else []) ++ b) := by
  split
  · exact hm
  · exact hn

theorem sends_each {α : Type} (cmd : α → Command) (l : List α) :
    Sends (l.forM fun x => send receiving (cmd x)) (l.map cmd) := by
  rw [← List.flatMap_pure_eq_map]
  exact sends_forM (fun x => sends_send (cmd x)) l

def rendezvousCommands (lib : Libp2p) (config : Config) : List Command :=
  (config.rendezvousNodes.map fun node => .dial (addrWithPeer lib node)) ++
    ((config.rendezvousNamespaces.flatMap fun ns =>
      config.rendezvousNodes.map fun point => .register (addrWithPeer lib point) ns) ++
    (config.rendezvousNodes.zip config.rendezvousNamespaces).map fun pair =>
      .discover (addrWithPeer lib pair.1) pair.2)

def spinUpCommands (lib : Libp2p) (config : Config) : List Command :=
  (if config.enableRelay then
    config.relayNodes.map fun node => .listenViaRelay (addrWithPeer lib node) else []) ++
  ((if config.enableRendezvous then rendezvousCommands lib config else []) ++
  if config.enableDht then [.beginBootstrap] else [])

theorem sends_spinUp (lib : Libp2p) (config : Config) :
    Sends (spinUp receiving lib config) (spinUpCommands lib config) := by
  have hdht : Sends (if config.enableDht then beginBootstrap receiving else pure ())
      (if config.enableDht then [.beginBootstrap] else []) := by
    split
    · exact sends_send _
    · exact sends_pure
  have hregister : Sends
      (config.rendezvousNamespaces.forM fun ns => register receiving lib config ns)
      (config.rendezvousNamespaces.flatMap fun ns =>
        config.rendezvousNodes.map fun point => .register (addrWithPeer lib point) ns) :=
    sends_forM (fun ns => sends_each _ _) _
  have hrendezvous : Sends
      (if config.enableRendezvous then do
        config.rendezvousNodes.forM fun node => dial receiving (addrWithPeer lib node)
        config.rendezvousNamespaces.forM fun ns => register receiving lib config ns
        discover receiving lib config
        if config.enableDht then beginBootstrap receiving else pure ()
      else if config.enableDht then beginBootstrap receiving else pure ())
      ((if config.enableRendezvous then rendezvousCommands lib config else []) ++
        if config.enableDht then [.beginBootstrap] else []) := by
    apply Sends.optional _ hdht
    unfold rendezvousCommands
    rw [List.append_assoc, List.append_assoc]
    refine (sends_each _ _).bind (hregister.bind (.bind ?_ hdht))
    exact sends_each _ _
  unfold spinUp spinUpCommands
  dsimp only
  apply Sends.optional
  · exact (sends_each _ _).bind hrendezvous
  · exact hrendezvous

end Sends

/-! ## Registration and discovery -/

def pointTexts (lib : Libp2p) (config : Config) : List String :=
  config.rendezvousNodes.map (addrWithPeer lib)

/-- The same pairs are registered and discovered: every point with every namespace. -/
structure SamePairs (points namespaces : List String) (sent : List Command) : Prop where
  same : ∀ point ns, .discover point ns ∈ sent ↔ .register point ns ∈ sent
  all : ∀ point ns, .register point ns ∈ sent ↔ point ∈ points ∧ ns ∈ namespaces

/-- For every point and every namespace there is a position at which the one stands among
the points and the other among the namespaces. -/
def Aligned (points namespaces : List String) : Prop :=
  ∀ point ∈ points, ∀ ns ∈ namespaces,
    ∃ i : Nat, points[i]? = some point ∧ namespaces[i]? = some ns

theorem eq_singleton_of_nodup {l : List String} (hl : l.Nodup) {x : String} (hx : x ∈ l)
    (h : ∀ y ∈ l, y = x) : l.length = 1 := by
  cases l with
  | nil => exact absurd hx List.not_mem_nil
  | cons a rest =>
      cases rest with
      | nil => rfl
      | cons b rest =>
          have hab : a = b := (h a (by simp)).trans (h b (by simp)).symm
          rw [hab] at hl
          simp at hl

/-- Without repetitions, only two lists of one entry combine all their entries. -/
theorem aligned_iff_of_nodup {points namespaces : List String} (hpoints : points.Nodup)
    (hnamespaces : namespaces.Nodup) :
    Aligned points namespaces ↔ points = [] ∨ namespaces = [] ∨
      points.length = 1 ∧ namespaces.length = 1 := by
  constructor
  · intro h
    by_cases hnil : points = []
    · exact .inl hnil
    by_cases hnil' : namespaces = []
    · exact .inr (.inl hnil')
    obtain ⟨point, hpoint⟩ := List.exists_mem_of_ne_nil points hnil
    obtain ⟨ns, hns⟩ := List.exists_mem_of_ne_nil namespaces hnil'
    refine .inr (.inr ⟨?_, ?_⟩)
    · apply eq_singleton_of_nodup hpoints hpoint
      intro other hother
      obtain ⟨i, hi, hni⟩ := h point hpoint ns hns
      obtain ⟨j, hj, hnj⟩ := h other hother ns hns
      have hij : i = j := by
        have hlt : i < namespaces.length := (List.getElem?_eq_some_iff.mp hni).1
        exact (List.getElem?_inj hlt hnamespaces).mp (hni.trans hnj.symm)
      rw [hij, hj] at hi
      exact Option.some.inj hi
    · apply eq_singleton_of_nodup hnamespaces hns
      intro other hother
      obtain ⟨i, hi, hni⟩ := h point hpoint ns hns
      obtain ⟨j, hj, hnj⟩ := h point hpoint other hother
      have hij : i = j := by
        have hlt : i < points.length := (List.getElem?_eq_some_iff.mp hi).1
        exact (List.getElem?_inj hlt hpoints).mp (hi.trans hj.symm)
      rw [hij, hnj] at hni
      exact Option.some.inj hni
  · rintro (rfl | rfl | ⟨hone, hone'⟩) point hpoint ns hns
    · exact absurd hpoint List.not_mem_nil
    · exact absurd hns List.not_mem_nil
    · obtain ⟨p, rfl⟩ := List.length_eq_one_iff.mp hone
      obtain ⟨n, rfl⟩ := List.length_eq_one_iff.mp hone'
      rw [List.mem_singleton] at hpoint hns
      exact ⟨0, by rw [hpoint]; rfl, by rw [hns]; rfl⟩

section Pairs

variable {lib : Libp2p} {config : Config} (hrdvz : config.enableRendezvous = true)

include hrdvz

theorem register_mem_iff (point ns : String) :
    .register point ns ∈ spinUpCommands lib config ↔
      point ∈ pointTexts lib config ∧ ns ∈ config.rendezvousNamespaces := by
  unfold spinUpCommands rendezvousCommands pointTexts
  rw [if_pos hrdvz]
  cases config.enableRelay <;> cases config.enableDht <;> simp [and_comm]

theorem discover_mem_iff (point ns : String) :
    .discover point ns ∈ spinUpCommands lib config ↔
      ∃ i : Nat, (pointTexts lib config)[i]? = some point ∧
        config.rendezvousNamespaces[i]? = some ns := by
  have hzip : .discover point ns ∈ spinUpCommands lib config ↔
      (point, ns) ∈ (pointTexts lib config).zip config.rendezvousNamespaces := by
    unfold spinUpCommands rendezvousCommands pointTexts
    rw [if_pos hrdvz, List.zip_map_left]
    cases config.enableRelay <;> cases config.enableDht <;> simp
  rw [hzip, List.mem_iff_getElem?]
  simp only [List.getElem?_zip_eq_some]

/-- When `spin_up` succeeds, it discovers what it registers, every point with every
namespace, exactly when each pair stands at one position of the two lists.  Where
neither has a repetition, that is when one of them is empty or both have one entry. -/
theorem discovers_what_it_registers_iff {receiving : List Command → Bool}
    {sent : List Command}
    (hsent : (spinUp receiving lib config).outcome [] = (.ok (), sent)) :
    (SamePairs (pointTexts lib config) config.rendezvousNamespaces sent ↔
      Aligned (pointTexts lib config) config.rendezvousNamespaces) ∧
    ((pointTexts lib config).Nodup → config.rendezvousNamespaces.Nodup →
      (SamePairs (pointTexts lib config) config.rendezvousNamespaces sent ↔
        config.rendezvousNodes = [] ∨ config.rendezvousNamespaces = [] ∨
          config.rendezvousNodes.length = 1 ∧ config.rendezvousNamespaces.length = 1)) := by
  have hcommands : sent = spinUpCommands lib config := sends_spinUp lib config [] sent hsent
  subst hcommands
  have hiff : SamePairs (pointTexts lib config) config.rendezvousNamespaces
      (spinUpCommands lib config) ↔
        Aligned (pointTexts lib config) config.rendezvousNamespaces := by
    constructor
    · intro h point hpoint ns hns
      rw [← discover_mem_iff hrdvz, h.same]
      exact (register_mem_iff hrdvz point ns).mpr ⟨hpoint, hns⟩
    · intro h
      refine ⟨fun point ns => ?_, register_mem_iff hrdvz⟩
      rw [discover_mem_iff hrdvz, register_mem_iff hrdvz]
      constructor
      · rintro ⟨i, hi, hni⟩
        exact ⟨List.mem_of_getElem? hi, List.mem_of_getElem? hni⟩
      · rintro ⟨hpoint, hns⟩
        exact h point hpoint ns hns
  refine ⟨hiff, fun hpoints hnamespaces => ?_⟩
  rw [hiff, aligned_iff_of_nodup hpoints hnamespaces]
  simp only [pointTexts, List.map_eq_nil_iff, List.length_map]

end Pairs

/-! ## One point and two namespaces -/

def pointLibp2p : Libp2p :=
  { sampleLibp2p with
    multiaddrToString := fun _ =>
      "/ip4/1.2.3.4/tcp/5000/p2p/QmYyQSo1c1Ym7orWxLYvCrM2EmxFTANf8wXmmE7DWjhx5N" }

def pointConfig (namespaces : List String) : Config where
  relayNodes := []
  rendezvousNodes := [(samplePeerId, sampleAddr)]
  rendezvousNamespaces := namespaces
  enableRendezvous := true
  enableDht := false
  enableRelay := false

theorem discovers_what_it_registers_iff_one :
    ∃ points sent, points = pointTexts pointLibp2p (pointConfig ["chat"]) ∧
      (spinUp (fun _ => true) pointLibp2p (pointConfig ["chat"])).outcome [] = (.ok (), sent) ∧
      (SamePairs points ["chat"] sent ↔ Aligned points ["chat"]) ∧
      (points.Nodup → ["chat"].Nodup →
        (SamePairs points ["chat"] sent ↔ (pointConfig ["chat"]).rendezvousNodes = [] ∨
          ["chat"] = [] ∨ (pointConfig ["chat"]).rendezvousNodes.length = 1 ∧
            ["chat"].length = 1)) :=
  ⟨_, _, rfl, rfl, discovers_what_it_registers_iff
    (show (pointConfig ["chat"]).enableRendezvous = true from rfl)
    (show (spinUp (fun _ => true) pointLibp2p (pointConfig ["chat"])).outcome [] =
      (.ok (), _) from rfl)⟩

/-- The second namespace is registered and never discovered. -/
theorem discovers_what_it_registers_fails :
    ¬ ∀ (lib : Libp2p) (config : Config) (receiving : List Command → Bool)
      (sent : List Command), config.enableRendezvous = true →
        (spinUp receiving lib config).outcome [] = (.ok (), sent) →
          SamePairs (pointTexts lib config) config.rendezvousNamespaces sent := by
  intro h
  have hsame := h pointLibp2p (pointConfig ["chat", "files"]) (fun _ => true) _ rfl rfl
  have hdiscover := (hsame.same
    "/ip4/1.2.3.4/tcp/5000/p2p/QmYyQSo1c1Ym7orWxLYvCrM2EmxFTANf8wXmmE7DWjhx5N"
    "files").mpr ((hsame.all _ _).mpr ⟨by decide, by decide⟩)
  revert hdiscover
  decide

end P2pa.Node
