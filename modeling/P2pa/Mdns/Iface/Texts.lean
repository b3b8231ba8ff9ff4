import P2pa.Mdns.Iface.Decoding
import P2pa.Mdns.Iface.Limits

/-!
# Texts in records

A text without a space is written as it is.  One with a space is quoted after its length
byte was taken, so the byte is short of what follows it by at least the two quotes.
-/

namespace P2pa.Mdns.Iface

open Utils Wire

section Records

variable (out name : Bytes) (ttl : UInt32) (value : String)

/-- What becomes of the text: the record is refused, or it ends in one character-string
with the right lengths, which is decoded to the text. -/
def Survives : Prop :=
  (∃ e, appendTxtRecord out name ttl value = .error e) ∨
    ∃ (rdlength : UInt16) (lengthByte : UInt8) (content : Bytes),
      appendTxtRecord out name ttl value =
        .ok (out ++ name ++ u16 16 ++ u16 0x8001 ++ u32 ttl ++ u16 rdlength ++
          lengthByte :: content) ∧
      rdlength.toNat = (lengthByte :: content).length ∧
      lengthByte.toNat = content.length ∧
      decodeCharacterString content = .ok (bytes value)

theorem appendTxtRecord_parts (h : Encodable value) :
    appendTxtRecord out name ttl value =
      .ok (out ++ name ++ u16 16 ++ u16 0x8001 ++ u32 ttl ++
        u16 (UInt16.ofNat (txtData value).length) ++
          UInt8.ofNat (bytes value).length :: quoted value) := by
  rw [appendTxtRecord_of_encodable out name ttl h]
  unfold recordBytes
  simp only [List.append_assoc]
  rfl

/-- The last two fields of a record are where they are whatever they contain. -/
theorem parts_of_record {out name content content' : Bytes} {ttl : UInt32}
    {rdlength rdlength' : UInt16} {lengthByte lengthByte' : UInt8}
    (h : out ++ name ++ u16 16 ++ u16 0x8001 ++ u32 ttl ++ u16 rdlength ++
        lengthByte :: content =
      out ++ name ++ u16 16 ++ u16 0x8001 ++ u32 ttl ++ u16 rdlength' ++
        lengthByte' :: content') :
    lengthByte = lengthByte' ∧ content = content' := by
  have hdata := (List.append_inj h (by simp)).2
  exact List.cons.inj hdata

end Records

/-! ## Texts without a space -/

theorem survives_of_no_space {value : String} (hlen : (bytes value).length ≤ 255)
    (hquote : (bytes value).head? ≠ some 34) (hspace : 32 ∉ bytes value) (out name : Bytes)
    (ttl : UInt32) : Survives out name ttl value := by
  by_cases henc : Encodable value = true
  · have hquoted : quoted value = bytes value := if_pos hspace
    have hdata : (txtData value).length = (bytes value).length + 1 := by
      rw [txtData, hquoted, List.length_cons]
    have hrecord := appendTxtRecord_parts out name ttl value henc
    rw [hquoted, hdata] at hrecord
    refine Or.inr ⟨_, _, _, hrecord, ?_, ?_, decodeCharacterString_of_ne hquote⟩
    · rw [UInt16.toNat_ofNat', List.length_cons]
      omega
    · rw [UInt8.toNat_ofNat']
      omega
  · exact Or.inl (appendTxtRecord_of_not_encodable out name ttl henc)

/-! ## Texts with a space -/

theorem lt_length_quoted {value : String} (hspace : 32 ∈ bytes value) :
    (bytes value).length < (quoted value).length := by
  rw [length_quoted, writtenLength, if_pos hspace]
  omega

theorem not_survives_of_space {value : String} (hascii : isAscii (bytes value) = true)
    (hlen : (bytes value).length ≤ 255) (hspace : 32 ∈ bytes value) (out name : Bytes)
    (ttl : UInt32) : ¬ Survives out name ttl value := by
  have henc : Encodable value = true := by
    unfold Encodable
    rw [hascii, Bool.true_and]
    exact decide_eq_true hlen
  have hrecord := appendTxtRecord_parts out name ttl value henc
  have hquoted := lt_length_quoted hspace
  rintro (⟨e, he⟩ | ⟨rdlength, lengthByte, content, hok, -, hlength, -⟩)
  · rw [hrecord] at he
    cases he
  · obtain ⟨hbyte, hcontent⟩ := parts_of_record (Except.ok.inj (hrecord.symm.trans hok))
    -- the byte counts the text, not what was written of it
    rw [← hbyte, ← hcontent, UInt8.toNat_ofNat'] at hlength
    omega

/-- A text survives exactly if it has no space. -/
theorem text_survives_iff {value : String} (hascii : isAscii (bytes value) = true)
    (hlen : (bytes value).length ≤ 255) (hstart : bytes "dnsaddr=" <+: bytes value)
    (out name : Bytes) (ttl : UInt32) :
    Survives out name ttl value ↔ 32 ∉ bytes value := by
  constructor
  · intro hsurvives hspace
    exact not_survives_of_space hascii hlen hspace out name ttl hsurvives
  · intro hspace
    have hquote : (bytes value).head? ≠ some 34 := by
      obtain ⟨rest, hrest⟩ := hstart
      rw [← hrest]
      exact nofun
    exact survives_of_no_space hlen hquote hspace out name ttl

theorem text_survives_iff_tcp : Survives [] [0] 300 "dnsaddr=/ip4/192.0.2.1/tcp/5000" :=
  (text_survives_iff (by decide) (by decide) (by decide) [] [0] 300).mpr (by decide)

theorem text_survives_fails :
    ∃ value : String, isAscii (bytes value) = true ∧ (bytes value).length ≤ 255 ∧
      bytes "dnsaddr=" <+: bytes value ∧ ¬ Survives [] [0] 300 value :=
  ⟨"dnsaddr=/unix/a b", by decide, by decide, by decide,
    not_survives_of_space (by decide) (by decide) (by decide) [] [0] 300⟩

end P2pa.Mdns.Iface
