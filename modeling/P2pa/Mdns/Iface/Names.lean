import P2pa.Mdns.Iface.Dns

/-!
# Which names can be written

`append_qname` writes a name exactly if it is ASCII and its labels have 1 to 63 bytes;
the length of the whole is not checked.
-/

namespace P2pa.Mdns.Iface

open Utils Wire

/-! ## The labels of a text -/

theorem flatMap_snoc_eq_intercalate (sep : UInt8) {ls : List Bytes} (h : ls ≠ []) :
    ls.flatMap (fun l => l ++ [sep]) = [sep].intercalate ls ++ [sep] := by
  induction ls with
  | nil => exact absurd rfl h
  | cons l ls ih =>
      by_cases hls : ls = []
      · subst hls
        simp
      · rw [List.flatMap_cons, ih hls, List.intercalate_cons_of_ne_nil hls]
        simp

theorem flatMap_splitOn (text : Bytes) :
    (text.splitOn 46).flatMap (fun l => l ++ [46]) = text ++ [46] := by
  rw [flatMap_snoc_eq_intercalate 46 (List.splitOn_ne_nil 46 text),
    List.intercalate_splitOn]

theorem sum_splitOn (text : Bytes) :
    ((text.splitOn 46).map fun l => l.length + 1).sum = text.length + 1 := by
  have h := congrArg List.length (flatMap_splitOn text)
  rw [List.length_flatMap] at h
  simpa using h

/-! ## Names on the wire -/

def encodeLabel (label : Bytes) : Bytes := UInt8.ofNat label.length :: label

def qname (text : Bytes) : Bytes := (text.splitOn 46).flatMap encodeLabel ++ [0]

structure IsQname (text : Bytes) : Prop where
  ascii : isAscii text = true
  labels : ∀ l ∈ text.splitOn 46, 1 ≤ l.length ∧ l.length ≤ 63

theorem length_qname (text : Bytes) : (qname text).length = text.length + 2 := by
  calc
    (qname text).length =
        ((text.splitOn 46).map fun l => (encodeLabel l).length).sum + 1 := by
      rw [qname, List.length_append, List.length_flatMap, List.length_singleton]
    _ = text.length + 1 + 1 := congrArg (· + 1) (sum_splitOn text)

theorem appendElements_eq_some_iff {elements : List Bytes} {out out' : Bytes} :
    appendElements out elements = some out' ↔
      (∀ l ∈ elements, 1 ≤ l.length ∧ l.length ≤ 63) ∧
        out' = out ++ elements.flatMap encodeLabel := by
  induction elements generalizing out with
  | nil => simp [appendElements, eq_comm]
  | cons element rest ih =>
      rw [appendElements, List.forall_mem_cons, List.flatMap_cons, ← List.append_assoc]
      by_cases h : element.length < 64 ∧ element.length ≠ 0
      · have hlabel : 1 ≤ element.length ∧ element.length ≤ 63 := by omega
        rw [if_pos h, ih, and_iff_right hlabel]
        rfl
      · have hlabel : ¬ (1 ≤ element.length ∧ element.length ≤ 63) := by omega
        rw [if_neg h]
        simp [hlabel]

theorem appendQname_eq_some_iff {out text out' : Bytes} :
    appendQname out text = some out' ↔ IsQname text ∧ out' = out ++ qname text := by
  unfold appendQname appendQnameIn qname
  by_cases hascii : isAscii text = true
  · rw [if_neg (by simp [hascii]), Option.map_eq_some_iff]
    constructor
    · rintro ⟨labels, hlabels, rfl⟩
      obtain ⟨hlength, rfl⟩ := appendElements_eq_some_iff.mp hlabels
      exact ⟨⟨hascii, hlength⟩, List.append_assoc ..⟩
    · rintro ⟨hname, rfl⟩
      refine ⟨out ++ (text.splitOn 46).flatMap encodeLabel, ?_, List.append_assoc ..⟩
      exact appendElements_eq_some_iff.mpr ⟨hname.labels, rfl⟩
  · rw [if_pos (by simp [hascii])]
    refine iff_of_false nofun ?_
    rintro ⟨hname, -⟩
    exact hascii hname.ascii

theorem IsQname.appendQname_eq {text : Bytes} (h : IsQname text) (out : Bytes) :
    appendQname out text = some (out ++ qname text) :=
  appendQname_eq_some_iff.mpr ⟨h, rfl⟩

theorem length_appendQname {out name out' : Bytes} (h : appendQname out name = some out') :
    out'.length = out.length + name.length + 2 := by
  rw [(appendQname_eq_some_iff.mp h).2, List.length_append, length_qname]
  omega

theorem exists_labels {ls : List Bytes} (h : ∀ l ∈ ls, 1 ≤ l.length ∧ l.length ≤ 63) :
    ∃ labels : List Dns.Label, labels.map Dns.Label.bytes = ls := by
  induction ls with
  | nil => exact ⟨[], rfl⟩
  | cons l ls ih =>
      obtain ⟨labels, hlabels⟩ := ih fun x hx => h x (List.mem_cons_of_mem l hx)
      obtain ⟨hpos, hle⟩ := h l (by simp)
      exact ⟨⟨l, hpos, by omega⟩ :: labels, by rw [List.map_cons, hlabels]⟩

theorem length_labels (name : Dns.Name) :
    ∀ l ∈ name.labels.map Dns.Label.bytes, 1 ≤ l.length ∧ l.length ≤ 63 := by
  intro l hl
  obtain ⟨label, -, rfl⟩ := List.mem_map.mp hl
  exact ⟨label.pos, Nat.le_of_lt_succ label.lt⟩

theorem flatMap_encode (labels : List Dns.Label) :
    labels.flatMap Dns.Label.encode =
      (labels.map Dns.Label.bytes).flatMap encodeLabel := by
  rw [List.flatMap_map]
  rfl

theorem exists_name {text : Bytes}
    (h : ∀ l ∈ text.splitOn 46, 1 ≤ l.length ∧ l.length ≤ 63)
    (hle : (qname text).length ≤ 255) :
    ∃ name : Dns.Name, name.labels.map Dns.Label.bytes = text.splitOn 46 := by
  obtain ⟨labels, hlabels⟩ := exists_labels h
  refine ⟨⟨labels, ?_⟩, hlabels⟩
  unfold qname at hle
  rwa [flatMap_encode, hlabels, ← List.length_singleton, ← List.length_append]

structure Written (name : Dns.Name) (text : Bytes) : Prop where
  ascii : isAscii text = true
  labels : name.labels.map Dns.Label.bytes = text.splitOn 46

section Written

variable {name : Dns.Name} {text : Bytes}

theorem Written.isQname (h : Written name text) : IsQname text where
  ascii := h.ascii
  labels := by
    rw [← h.labels]
    exact length_labels name

theorem Written.encode_eq (h : Written name text) : name.encode = qname text := by
  unfold Dns.Name.encode qname
  rw [flatMap_encode, h.labels]

theorem Written.appendQname_eq (h : Written name text) (out : Bytes) :
    appendQname out text = some (out ++ name.encode) := by
  rw [h.encode_eq]
  exact h.isQname.appendQname_eq out

theorem exists_written (h : IsQname text) (hle : (qname text).length ≤ 255) :
    ∃ name, Written name text := by
  obtain ⟨name, hlabels⟩ := exists_name h.labels hle
  exact ⟨name, h.ascii, hlabels⟩

end Written

end P2pa.Mdns.Iface
