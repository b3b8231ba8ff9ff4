import Mathlib.Data.List.Basic
import P2pa.Support.Wire

/-!
# DNS messages on the wire

Messages of RFC 1035 with questions, pointer records and text records, their
uncompressed encoding, and a decoder that reads every well-formed message back.
A label, a name and a character-string carry the length bounds the wire format
puts on them.
-/

namespace Dns

open Wire

structure Label where
  bytes : Bytes
  pos : 0 < bytes.length
  lt : bytes.length < 64
deriving DecidableEq, Repr

def Label.encode (l : Label) : Bytes := UInt8.ofNat l.bytes.length :: l.bytes

structure Name where
  labels : List Label
  length_le : (labels.flatMap Label.encode).length + 1 ≤ 255
deriving DecidableEq, Repr

def Name.encode (n : Name) : Bytes := n.labels.flatMap Label.encode ++ [0]

structure CharString where
  bytes : Bytes
  length_le : bytes.length ≤ 255
deriving DecidableEq, Repr

def CharString.encode (s : CharString) : Bytes := UInt8.ofNat s.bytes.length :: s.bytes

structure Question where
  name : Name
  qtype : UInt16
  qclass : UInt16
deriving DecidableEq, Repr

def Question.encode (q : Question) : Bytes := q.name.encode ++ u16 q.qtype ++ u16 q.qclass

inductive RData
  | ptr (name : Name)
  | txt (strings : List CharString)
  | other (rtype : UInt16) (bytes : Bytes)
deriving DecidableEq, Repr

def RData.rtype : RData → UInt16
  | .ptr _ => 12
  | .txt _ => 16
  | .other rtype _ => rtype

def RData.encode : RData → Bytes
  | .ptr name => name.encode
  | .txt strings => strings.flatMap CharString.encode
  | .other _ bytes => bytes

structure Record where
  name : Name
  cls : UInt16
  ttl : UInt32
  data : RData
deriving DecidableEq, Repr

def Record.encode (r : Record) : Bytes :=
  r.name.encode ++ u16 r.data.rtype ++ u16 r.cls ++ u32 r.ttl ++
    u16 (UInt16.ofNat r.data.encode.length) ++ r.data.encode

structure Message where
  id : UInt16
  flags : UInt16
  queries : List Question
  answers : List Record
  nameServers : List Record
  additionals : List Record
deriving DecidableEq, Repr

def Message.encode (m : Message) : Bytes :=
  u16 m.id ++ u16 m.flags ++
    u16 (UInt16.ofNat m.queries.length) ++ u16 (UInt16.ofNat m.answers.length) ++
    u16 (UInt16.ofNat m.nameServers.length) ++ u16 (UInt16.ofNat m.additionals.length) ++
    m.queries.flatMap Question.encode ++ m.answers.flatMap Record.encode ++
    m.nameServers.flatMap Record.encode ++ m.additionals.flatMap Record.encode

/-! ## What fits the length fields -/

/-- The data fits its length field, and data of another type is not of a type that
has a constructor of its own. -/
structure Record.WellFormed (r : Record) : Prop where
  length_lt : r.data.encode.length < 65536
  rtype_ne : ∀ rtype bytes, r.data = .other rtype bytes → rtype ≠ 12 ∧ rtype ≠ 16

structure Message.WellFormed (m : Message) : Prop where
  queries_lt : m.queries.length < 65536
  answers_lt : m.answers.length < 65536
  nameServers_lt : m.nameServers.length < 65536
  additionals_lt : m.additionals.length < 65536
  answers : ∀ r ∈ m.answers, r.WellFormed
  nameServers : ∀ r ∈ m.nameServers, r.WellFormed
  additionals : ∀ r ∈ m.additionals, r.WellFormed

theorem Name.length_encode_le (n : Name) : n.encode.length ≤ 255 := by
  have := n.length_le
  simpa [Name.encode] using this

/-! ## The decoder -/

def readLabel (n : Nat) : Reader Label := fun bs =>
  if h : 0 < n ∧ n < 64 ∧ n ≤ bs.length then
    some (⟨bs.take n, by simp; omega, by simp; omega⟩, bs.drop n)
  else none

/-- A length byte above 63 would be a compression pointer, which this decoder does
not follow. -/
def readLabels : Nat → Reader (List Label)
  | 0 => fun _ => none
  | fuel + 1 => do
      let n ← readU8
      if n = 0 then pure []
      else do
        let l ← readLabel n.toNat
        let ls ← readLabels fuel
        pure (l :: ls)

def readName : Reader Name := do
  let labels ← readLabels 256
  if h : (labels.flatMap Label.encode).length + 1 ≤ 255 then pure ⟨labels, h⟩
  else fun _ => none

def readCharString : Reader CharString := do
  let n ← readU8
  let bytes ← readBytes n.toNat
  if h : bytes.length ≤ 255 then pure ⟨bytes, h⟩ else fun _ => none

def readCharStrings : Nat → Bytes → Option (List CharString)
  | _, [] => some []
  | 0, _ :: _ => none
  | fuel + 1, b :: bs => do
      let (s, rest) ← readCharString (b :: bs)
      let ss ← readCharStrings fuel rest
      some (s :: ss)

def readQuestion : Reader Question := do
  let name ← readName
  let qtype ← readU16
  let qclass ← readU16
  pure { name, qtype, qclass }

def readRData (rtype : UInt16) (bytes : Bytes) : Option RData :=
  if rtype = 12 then
    match readName bytes with
    | some (name, []) => some (.ptr name)
    | _ => none
  else if rtype = 16 then (readCharStrings bytes.length bytes).map .txt
  else some (.other rtype bytes)

def readRecord : Reader Record := do
  let name ← readName
  let rtype ← readU16
  let cls ← readU16
  let ttl ← readU32
  let n ← readU16
  let bytes ← readBytes n.toNat
  match readRData rtype bytes with
  | some data => pure { name, cls, ttl, data }
  | none => fun _ => none

def readMessage : Reader Message := do
  let id ← readU16
  let flags ← readU16
  let qd ← readU16
  let an ← readU16
  let ns ← readU16
  let ar ← readU16
  let queries ← readMany readQuestion qd.toNat
  let answers ← readMany readRecord an.toNat
  let nameServers ← readMany readRecord ns.toNat
  let additionals ← readMany readRecord ar.toNat
  pure { id, flags, queries, answers, nameServers, additionals }

/-- What follows the message is ignored. -/
def decode (bs : Bytes) : Option Message := (readMessage bs).map Prod.fst

/-- A text record among the additional ones is not a sequence of character-strings, and
what is before it is well formed. -/
structure Message.Unreadable (m : Message) : Prop where
  queries_lt : m.queries.length < 65536
  answers_lt : m.answers.length < 65536
  nameServers_lt : m.nameServers.length < 65536
  additionals_lt : m.additionals.length < 65536
  answers : ∀ r ∈ m.answers, r.WellFormed
  nameServers : ∀ r ∈ m.nameServers, r.WellFormed
  additionals : ∃ before r after bytes, m.additionals = before ++ r :: after ∧
    (∀ r ∈ before, r.WellFormed) ∧ r.data = .other 16 bytes ∧ bytes.length < 65536 ∧
    readCharStrings bytes.length bytes = none

/-! ## The round trip -/

theorem toNat_ofNat_length {bs : Bytes} (h : bs.length ≤ 255) :
    (UInt8.ofNat bs.length).toNat = bs.length := by
  rw [UInt8.toNat_ofNat']
  omega

theorem reads_label (l : Label) :
    Reads (readLabel l.bytes.length) l.bytes l := by
  intro rest
  have hpos := l.pos
  have hlt := l.lt
  unfold readLabel
  rw [dif_pos (by simp; omega)]
  simp

theorem reads_labels {fuel : Nat} {labels : List Label} (h : labels.length < fuel) :
    Reads (readLabels fuel) (labels.flatMap Label.encode ++ [0]) labels := by
  induction labels generalizing fuel with
  | nil =>
      cases fuel with
      | zero => simp at h
      | succ fuel => exact (reads_u8 0).bind (.pure _)
  | cons l labels ih =>
      cases fuel with
      | zero => simp at h
      | succ fuel =>
          have hlen := toNat_ofNat_length (Nat.le_of_lt (Nat.lt_trans l.lt (by omega)))
          have hne : UInt8.ofNat l.bytes.length ≠ 0 := by
            intro hzero
            have hpos := l.pos
            rw [hzero] at hlen
            change 0 = l.bytes.length at hlen
            omega
          have hrest : Reads (readLabels fuel) (labels.flatMap Label.encode ++ [0]) labels :=
            ih (by simpa using h)
          have hbytes : (l :: labels).flatMap Label.encode ++ [0] =
              [UInt8.ofNat l.bytes.length] ++
                (l.bytes ++ (labels.flatMap Label.encode ++ [0] ++ [])) := by
            simp [Label.encode]
          rw [hbytes]
          refine (reads_u8 _).bind ?_
          rw [if_neg hne, hlen]
          exact (reads_label l).bind (hrest.bind (.pure _))

theorem reads_name (n : Name) : Reads readName n.encode n := by
  have hlabels : Reads (readLabels 256) n.encode n.labels := by
    have hle := length_le_flatMap Label.encode (fun _ => Nat.succ_pos _) n.labels
    have hmax := n.length_le
    exact reads_labels (by omega)
  rw [← List.append_nil n.encode]
  refine hlabels.bind ?_
  rw [dif_pos n.length_le]
  exact .pure n

theorem reads_charString (s : CharString) : Reads readCharString s.encode s := by
  have hlen := toNat_ofNat_length s.length_le
  have hencode : s.encode = [UInt8.ofNat s.bytes.length] ++ (s.bytes ++ []) := by
    simp [CharString.encode]
  rw [hencode]
  refine (reads_u8 _).bind ?_
  rw [hlen]
  refine (reads_bytes s.bytes).bind ?_
  rw [dif_pos s.length_le]
  exact .pure s

theorem readCharStrings_encode {fuel : Nat} {strings : List CharString}
    (h : strings.length ≤ fuel) :
    readCharStrings fuel (strings.flatMap CharString.encode) = some strings := by
  induction strings generalizing fuel with
  | nil => simp [readCharStrings]
  | cons s strings ih =>
      cases fuel with
      | zero => simp at h
      | succ fuel =>
          have hhead := reads_charString s (strings.flatMap CharString.encode)
          have htail := @ih fuel (by simpa using h)
          rw [CharString.encode, List.cons_append] at hhead
          rw [List.flatMap_cons, CharString.encode, List.cons_append, readCharStrings, hhead]
          simp [htail]

theorem encode_of_readCharString {bs rest : Bytes} {s : CharString}
    (h : readCharString bs = some (s, rest)) : bs = s.encode ++ rest := by
  cases bs with
  | nil => cases h
  | cons n bs =>
      have hread : (readBytes n.toNat bs).bind (fun p =>
          (if h : p.1.length ≤ 255 then pure ⟨p.1, h⟩ else fun _ => none :
            Reader CharString) p.2) = some (s, rest) := h
      obtain ⟨⟨taken, left⟩, htaken, hs⟩ := Option.bind_eq_some_iff.mp hread
      unfold readBytes at htaken
      split at htaken
      · rename_i hle
        obtain ⟨rfl, rfl⟩ := Prod.mk.inj (Option.some.inj htaken)
        have hlen : (bs.take n.toNat).length = n.toNat := List.length_take_of_le hle
        have hlt := n.toNat_lt
        rw [dif_pos (show (bs.take n.toNat).length ≤ 255 by omega)] at hs
        obtain ⟨rfl, rfl⟩ := Prod.mk.inj (Option.some.inj hs)
        change n :: bs = UInt8.ofNat (bs.take n.toNat).length ::
          (bs.take n.toNat ++ bs.drop n.toNat)
        rw [hlen, UInt8.ofNat_toNat, List.take_append_drop]
      · cases htaken

theorem encode_of_readCharStrings {fuel : Nat} {bs : Bytes} {strings : List CharString}
    (h : readCharStrings fuel bs = some strings) :
    strings.flatMap CharString.encode = bs := by
  induction fuel generalizing bs strings with
  | zero =>
      cases bs with
      | nil =>
          cases h
          rfl
      | cons b bs => cases h
  | succ fuel ih =>
      cases bs with
      | nil =>
          cases h
          rfl
      | cons b bs =>
          obtain ⟨⟨s, rest⟩, hs, h⟩ := Option.bind_eq_some_iff.mp h
          obtain ⟨ss, hss, h⟩ := Option.bind_eq_some_iff.mp h
          cases h
          rw [List.flatMap_cons, ih hss]
          exact (encode_of_readCharString hs).symm

theorem reads_question (q : Question) : Reads readQuestion q.encode q := by
  have hencode : q.encode = q.name.encode ++ (u16 q.qtype ++ (u16 q.qclass ++ [])) := by
    simp [Question.encode]
  rw [hencode]
  exact (reads_name _).bind ((reads_u16 _).bind ((reads_u16 _).bind (.pure _)))

theorem readRData_encode {r : Record} (h : r.WellFormed) :
    readRData r.data.rtype r.data.encode = some r.data := by
  cases hdata : r.data with
  | ptr name =>
      have hname := (reads_name name).run
      simp [readRData, RData.rtype, RData.encode, hname]
  | txt strings =>
      have hstrings := readCharStrings_encode
        (length_le_flatMap CharString.encode (fun _ => Nat.succ_pos _) strings)
      simp only [readRData, RData.rtype, RData.encode, hstrings]
      rfl
  | other rtype bytes =>
      obtain ⟨h12, h16⟩ := h.rtype_ne rtype bytes hdata
      simp [readRData, RData.rtype, RData.encode, h12, h16]

theorem toNat_ofNat_lt {n : Nat} (h : n < 65536) : (UInt16.ofNat n).toNat = n := by
  rw [UInt16.toNat_ofNat']
  omega

theorem Record.encode_eq (r : Record) :
    r.encode = r.name.encode ++ (u16 r.data.rtype ++ (u16 r.cls ++ (u32 r.ttl ++
      (u16 (UInt16.ofNat r.data.encode.length) ++ (r.data.encode ++ []))))) := by
  simp [Record.encode]

theorem reads_record {r : Record} (h : r.WellFormed) : Reads readRecord r.encode r := by
  rw [Record.encode_eq]
  refine (reads_name _).bind ((reads_u16 _).bind ((reads_u16 _).bind
    ((reads_u32 _).bind ((reads_u16 _).bind ?_))))
  rw [toNat_ofNat_lt h.length_lt]
  refine (reads_bytes _).bind ?_
  rw [readRData_encode h]
  exact .pure r

theorem Message.encode_eq (m : Message) :
    m.encode = u16 m.id ++ (u16 m.flags ++
      (u16 (UInt16.ofNat m.queries.length) ++ (u16 (UInt16.ofNat m.answers.length) ++
      (u16 (UInt16.ofNat m.nameServers.length) ++
      (u16 (UInt16.ofNat m.additionals.length) ++
      (m.queries.flatMap Question.encode ++ (m.answers.flatMap Record.encode ++
      (m.nameServers.flatMap Record.encode ++
      (m.additionals.flatMap Record.encode ++ []))))))))) := by
  simp [Message.encode]

theorem reads_message {m : Message} (h : m.WellFormed) :
    Reads readMessage m.encode m := by
  rw [Message.encode_eq]
  refine (reads_u16 _).bind ((reads_u16 _).bind ((reads_u16 _).bind ((reads_u16 _).bind
    ((reads_u16 _).bind ((reads_u16 _).bind ?_)))))
  rw [toNat_ofNat_lt h.queries_lt, toNat_ofNat_lt h.answers_lt,
    toNat_ofNat_lt h.nameServers_lt, toNat_ofNat_lt h.additionals_lt]
  exact (reads_many fun q _ => reads_question q).bind
    ((reads_many fun r hr => reads_record (h.answers r hr)).bind
    ((reads_many fun r hr => reads_record (h.nameServers r hr)).bind
    ((reads_many fun r hr => reads_record (h.additionals r hr)).bind (.pure _))))

theorem decode_encode {m : Message} (h : m.WellFormed) : decode m.encode = some m := by
  unfold decode
  rw [(reads_message h).run]
  rfl

/-! ## What is refused -/

theorem fails_record {r : Record} {bytes : Bytes} (hdata : r.data = .other 16 bytes)
    (hlen : bytes.length < 65536) (h : readCharStrings bytes.length bytes = none) :
    Fails readRecord r.encode := by
  have hrdata : readRData 16 bytes = none := by
    unfold readRData
    rw [if_neg (by decide), if_pos rfl, h, Option.map_none]
  rw [Record.encode_eq, hdata]
  refine (reads_name _).bind_fails ((reads_u16 _).bind_fails ((reads_u16 _).bind_fails
    ((reads_u32 _).bind_fails ((reads_u16 _).bind_fails ?_))))
  change Fails (readBytes (UInt16.ofNat bytes.length).toNat >>= _) (bytes ++ [])
  rw [toNat_ofNat_lt hlen]
  refine (reads_bytes _).bind_fails ?_
  change Fails (match readRData 16 bytes with
    | some data => _
    | none => _) []
  rw [hrdata]
  exact fun _ => rfl

theorem decode_unreadable {m : Message} (h : m.Unreadable) : decode m.encode = none := by
  obtain ⟨before, r, after, bytes, heq, hbefore, hdata, hlen, hunreadable⟩ := h.additionals
  have hfails : Fails (readMany readRecord m.additionals.length)
      (m.additionals.flatMap Record.encode) := by
    rw [heq]
    exact fails_many after (fun r hr => reads_record (hbefore r hr))
      (fails_record hdata hlen hunreadable)
  have hmessage : Fails readMessage m.encode := by
    rw [Message.encode_eq]
    refine (reads_u16 _).bind_fails ((reads_u16 _).bind_fails ((reads_u16 _).bind_fails
      ((reads_u16 _).bind_fails ((reads_u16 _).bind_fails ((reads_u16 _).bind_fails ?_)))))
    rw [toNat_ofNat_lt h.queries_lt, toNat_ofNat_lt h.answers_lt,
      toNat_ofNat_lt h.nameServers_lt, toNat_ofNat_lt h.additionals_lt]
    exact (reads_many fun q _ => reads_question q).bind_fails
      ((reads_many fun r hr => reads_record (h.answers r hr)).bind_fails
      ((reads_many fun r hr => reads_record (h.nameServers r hr)).bind_fails
      (hfails.bind _ _)))
  unfold decode
  rw [hmessage.run]
  rfl

/-! ## What follows a message -/

theorem forward_label (n : Nat) : Forward (readLabel n) := by
  intro bs l rest h more
  unfold readLabel at h ⊢
  split at h
  · rename_i hn
    cases h
    rw [dif_pos (by rw [List.length_append]; omega)]
    simp only [List.take_append_of_le_length hn.2.2, List.drop_append_of_le_length hn.2.2]
  · cases h

theorem forward_labels (fuel : Nat) : Forward (readLabels fuel) := by
  induction fuel with
  | zero => exact forward_none
  | succ fuel ih =>
      refine forward_u8.bind fun n => ?_
      split
      · exact forward_pure []
      · exact (forward_label _).bind fun l => ih.bind fun ls => forward_pure (l :: ls)

theorem forward_name : Forward readName := by
  refine (forward_labels 256).bind fun labels => ?_
  split
  · exact forward_pure _
  · exact forward_none

theorem forward_question : Forward readQuestion :=
  forward_name.bind fun _ => forward_u16.bind fun _ => forward_u16.bind fun _ =>
    forward_pure _

theorem forward_record : Forward readRecord := by
  refine forward_name.bind fun name => forward_u16.bind fun rtype => forward_u16.bind fun cls =>
    forward_u32.bind fun ttl => forward_u16.bind fun n => (forward_bytes _).bind fun bytes => ?_
  split
  · exact forward_pure _
  · exact forward_none

theorem forward_message : Forward readMessage :=
  forward_u16.bind fun _ => forward_u16.bind fun _ => forward_u16.bind fun _ =>
    forward_u16.bind fun _ => forward_u16.bind fun _ => forward_u16.bind fun _ =>
      (forward_many forward_question _).bind fun _ =>
        (forward_many forward_record _).bind fun _ =>
          (forward_many forward_record _).bind fun _ =>
            (forward_many forward_record _).bind fun _ => forward_pure _

theorem decode_append {m : Message} {bs : Bytes} (h : decode bs = some m) (more : Bytes) :
    decode (bs ++ more) = some m := by
  obtain ⟨⟨m', rest⟩, hread, rfl⟩ := Option.map_eq_some_iff.mp h
  unfold decode
  rw [forward_message hread more]
  rfl

end Dns
