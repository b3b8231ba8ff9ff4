import P2pa.Support.Wire

/-!
# Text as bytes

A Rust string is UTF-8, so the program's byte-level view of a string is the byte
array a Lean string holds.
-/

namespace P2pa.Utils

open Wire

/-- `str::as_bytes`. -/
def bytes (s : String) : Bytes := s.toByteArray.data.toList

/-- `str::from_utf8`. -/
def fromUtf8 (bs : Bytes) : Option String := String.fromUTF8? ⟨⟨bs⟩⟩

def isAscii (bs : Bytes) : Bool := bs.all fun b => b.toNat < 128

@[simp] theorem bytes_append (s t : String) : bytes (s ++ t) = bytes s ++ bytes t := by
  unfold bytes
  rw [String.toByteArray_append, ByteArray.data_append, Array.toList_append]

theorem bytes_injective {s t : String} (h : bytes s = bytes t) : s = t := by
  apply String.toByteArray_inj.mp
  apply ByteArray.ext
  exact Array.toList_inj.mp h

@[simp] theorem fromUtf8_bytes (s : String) : fromUtf8 (bytes s) = some s := by
  have harray : (⟨⟨bytes s⟩⟩ : ByteArray) = s.toByteArray := by
    apply ByteArray.ext
    rfl
  unfold fromUtf8
  rw [harray]
  unfold String.fromUTF8?
  rw [dif_pos s.isValidUTF8]
  rfl

def ofAscii (bs : Bytes) : String := String.ofList (bs.map fun b => Char.ofNat b.toNat)

theorem utf8EncodeChar_ascii : ∀ n : Fin 128,
    String.utf8EncodeChar (Char.ofNat n) = [UInt8.ofNat n] := by
  decide

theorem bytes_ofAscii {bs : Bytes} (h : isAscii bs) : bytes (ofAscii bs) = bs := by
  unfold bytes ofAscii
  rw [String.toByteArray_ofList]
  induction bs with
  | nil => rfl
  | cons b bs ih =>
      rw [isAscii, List.all_cons, Bool.and_eq_true, decide_eq_true_eq] at h
      have hb := utf8EncodeChar_ascii ⟨b.toNat, h.1⟩
      have hrest := ih h.2
      rw [List.map_cons, List.utf8Encode_cons, ByteArray.data_append, Array.toList_append,
        hrest, List.utf8Encode_singleton, hb, UInt8.ofNat_toNat]
      simp

end P2pa.Utils
