import P2pa.Mdns.Iface.Lengths

/-!
# Names are written exactly

What `append_qname` appends is as long as the capacities of the packets count on, and is
read back as the labels of the name.  A debug build refuses a name that is not ASCII.
-/

namespace P2pa.Mdns.Iface

open Utils Wire

def LabelsFit (name : Bytes) : Prop := ∀ l ∈ name.splitOn 46, 1 ≤ l.length ∧ l.length ≤ 63

/-- The assertion that a build with debug assertions makes on a name. -/
def Accepts (debug : Bool) (name : Bytes) : Prop := debug = true → isAscii name = true

/-- `out` is extended by two bytes more than the name has, and these are read back as the
labels of the name, whatever follows them. -/
structure Extends (name out out' : Bytes) : Prop where
  appended : ∃ written, out' = out ++ written ∧ written.length = name.length + 2 ∧
    ∀ rest, ∃ labels, labels.map Dns.Label.bytes = name.splitOn 46 ∧
      Dns.readLabels (written ++ rest).length (written ++ rest) = some (labels, rest)

/-- The answer of a packet ends with the encoded name, after its length. -/
structure EndsWithName (name packet : Bytes) : Prop where
  rdata : ∃ front rdlength, packet = front ++ u16 rdlength ++ qname name ∧
    ((qname name).length < 2 ^ 16 → rdlength.toNat = (qname name).length)

theorem reads_qname {name : Bytes} (h : LabelsFit name) (rest : Bytes) :
    ∃ labels, labels.map Dns.Label.bytes = name.splitOn 46 ∧
      Dns.readLabels (qname name ++ rest).length (qname name ++ rest) =
        some (labels, rest) := by
  obtain ⟨labels, hlabels⟩ := exists_labels h
  have hencode : qname name = labels.flatMap Dns.Label.encode ++ [0] := by
    rw [qname, flatMap_encode, hlabels]
  have hcount := length_le_flatMap Dns.Label.encode (fun _ => Nat.succ_pos _) labels
  refine ⟨labels, hlabels, ?_⟩
  rw [hencode]
  apply Dns.reads_labels
  simp only [List.length_append, List.length_singleton]
  omega

theorem extends_qname {name : Bytes} (h : LabelsFit name) (out : Bytes) :
    Extends name out (out ++ qname name) :=
  ⟨qname name, rfl, length_qname name, reads_qname h⟩

theorem appendQnameIn_eq {debug : Bool} {name : Bytes} (h : LabelsFit name)
    (haccepts : Accepts debug name) (out : Bytes) :
    appendQnameIn debug out name = some (out ++ qname name) := by
  have hpasses : ¬ (debug && !isAscii name) = true := by
    rw [Bool.and_eq_true, Bool.not_eq_true']
    rintro ⟨hdebug, hascii⟩
    rw [haccepts hdebug] at hascii
    cases hascii
  rw [appendQnameIn, if_neg hpasses, appendElements_eq_some_iff.mpr ⟨h, rfl⟩,
    Option.map_some, qname, List.append_assoc]

/-! ## The two packets -/

section Packets

variable {debug : Bool} {serviceName metaQueryService : Bytes}
  (hservice : LabelsFit serviceName) (haccepts : Accepts debug serviceName)

include hservice haccepts

theorem exists_buildQueryIn (id : UInt16) :
    ∃ packet, buildQueryIn debug id serviceName = some packet ∧
      packet.length = 18 + serviceName.length := by
  unfold buildQueryIn
  dsimp only
  rw [appendQnameIn_eq hservice haccepts]
  refine ⟨_, rfl, ?_⟩
  simp only [length_appendU16, List.length_append, length_qname, List.length_nil]
  omega

theorem exists_buildServiceDiscoveryResponseIn (hmeta : LabelsFit metaQueryService)
    (haccepts' : Accepts debug metaQueryService) (id : UInt16) (ttl : Duration) :
    ∃ packet, buildServiceDiscoveryResponseIn debug id ttl serviceName metaQueryService =
      some packet ∧ packet.length = 26 + serviceName.length + metaQueryService.length ∧
        EndsWithName serviceName packet := by
  unfold buildServiceDiscoveryResponseIn
  dsimp only
  rw [appendQnameIn_eq hmeta haccepts']
  simp only [Option.bind_eq_bind, Option.bind_some]
  rw [appendQnameIn_eq hservice haccepts, Option.bind_some, List.nil_append]
  refine ⟨_, rfl, ?_, ?_⟩
  · simp only [length_appendU16, length_appendU32, List.length_append, length_qname,
      List.length_nil]
    omega
  · have hrdlength := fun out => appendU16_eq out (UInt16.ofNat (qname serviceName).length)
    exact ⟨_, _, congrArg (· ++ qname serviceName) (hrdlength _), Dns.toNat_ofNat_lt⟩

end Packets

/-- In a build with or without debug assertions a name with labels of 1 to 63 bytes is
written exactly, if the build accepts it.  So the two packets have the lengths that their
capacities say, and the length before the service name is that of its encoding. -/
theorem qname_exact (debug : Bool) (name serviceName metaQueryService : Bytes)
    (hname : LabelsFit name) (hservice : LabelsFit serviceName)
    (hmeta : LabelsFit metaQueryService) :
    (Accepts debug name →
        ∀ out, ∃ out', appendQnameIn debug out name = some out' ∧ Extends name out out') ∧
      (Accepts debug serviceName → ∀ id,
        ∃ packet, buildQueryIn debug id serviceName = some packet ∧
          packet.length = 18 + serviceName.length) ∧
      (Accepts debug serviceName → Accepts debug metaQueryService → ∀ id ttl,
        ∃ packet, buildServiceDiscoveryResponseIn debug id ttl serviceName
            metaQueryService = some packet ∧
          packet.length = 26 + serviceName.length + metaQueryService.length ∧
          EndsWithName serviceName packet) := by
  refine ⟨fun haccepts out => ?_, fun haccepts id => ?_, fun haccepts haccepts' id ttl => ?_⟩
  · exact ⟨_, appendQnameIn_eq hname haccepts out, extends_qname hname out⟩
  · exact exists_buildQueryIn hservice haccepts id
  · exact exists_buildServiceDiscoveryResponseIn hservice haccepts hmeta haccepts' id ttl

theorem qname_exact_local :
    ∃ service metaQuery, service = bytes "_p2p._udp.local" ∧
      metaQuery = bytes "_services._dns-sd._udp.local" ∧
      (∀ out, ∃ out', appendQnameIn true out service = some out' ∧ Extends service out out') ∧
      (∀ id, ∃ packet, buildQueryIn true id service = some packet ∧
        packet.length = 18 + service.length) ∧
      ∀ id ttl, ∃ packet,
        buildServiceDiscoveryResponseIn true id ttl service metaQuery = some packet ∧
          packet.length = 26 + service.length + metaQuery.length ∧
          EndsWithName service packet := by
  have hservice : LabelsFit (bytes "_p2p._udp.local") := by
    unfold LabelsFit
    decide +kernel
  have hmeta : LabelsFit (bytes "_services._dns-sd._udp.local") := by
    unfold LabelsFit
    decide +kernel
  have haccepts : Accepts true (bytes "_p2p._udp.local") := fun _ => by decide +kernel
  have haccepts' : Accepts true (bytes "_services._dns-sd._udp.local") :=
    fun _ => by decide +kernel
  obtain ⟨happend, hquery, hresponse⟩ := qname_exact true _ _ _ hservice hservice hmeta
  exact ⟨_, _, rfl, rfl, happend haccepts, hquery haccepts, hresponse haccepts haccepts'⟩

/-- A label with the two bytes of `é`. -/
theorem qname_exact_fails :
    ¬ ∀ name, LabelsFit name →
      ∀ out, ∃ out', appendQnameIn true out name = some out' ∧ Extends name out out' := by
  intro h
  have hlabels : LabelsFit [0xc3, 0xa9] := by
    unfold LabelsFit
    decide
  obtain ⟨out', hwritten, -⟩ := h [0xc3, 0xa9] hlabels []
  cases hwritten

end P2pa.Mdns.Iface
