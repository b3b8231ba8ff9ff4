import Mathlib.Data.List.Basic

/-!
# Reading bytes back

A reader consumes a prefix of a byte list.  `Reads r bs x` says that `r` reads `x`
from exactly the bytes `bs`, whatever follows; such facts compose along the bind
of readers, so a round trip is proved field by field.
-/

namespace Wire

abbrev Bytes := List UInt8

abbrev Reader (α : Type) := StateT Bytes Option α

def Reads {α : Type} (r : Reader α) (bs : Bytes) (x : α) : Prop :=
  ∀ rest, r (bs ++ rest) = some (x, rest)

section Compose

variable {α β : Type}

theorem Reads.pure (x : α) : Reads (pure x) [] x := fun _ => rfl

theorem Reads.bind {r : Reader α} {f : α → Reader β} {bs cs : Bytes} {x : α} {y : β}
    (hr : Reads r bs x) (hf : Reads (f x) cs y) : Reads (r >>= f) (bs ++ cs) y := by
  intro rest
  change (r (bs ++ cs ++ rest)).bind (fun p => f p.1 p.2) = _
  rw [List.append_assoc, hr, Option.bind_some]
  exact hf rest

theorem Reads.map {r : Reader α} {bs : Bytes} {x : α} (hr : Reads r bs x) (f : α → β) :
    Reads (f <$> r) bs (f x) := by
  intro rest
  change (r (bs ++ rest)).bind (fun p => some (f p.1, p.2)) = _
  rw [hr, Option.bind_some]

theorem Reads.run {r : Reader α} {bs : Bytes} {x : α} (hr : Reads r bs x) :
    r bs = some (x, []) := by
  simpa using hr []

end Compose

/-! ## What cannot be read -/

section Fail

variable {α β : Type}

/-- `r` refuses an input that starts with the bytes `bs`. -/
def Fails (r : Reader α) (bs : Bytes) : Prop := ∀ rest, r (bs ++ rest) = none

theorem Fails.bind {r : Reader α} {bs : Bytes} (hr : Fails r bs) (f : α → Reader β)
    (cs : Bytes) : Fails (r >>= f) (bs ++ cs) := by
  intro rest
  change (r (bs ++ cs ++ rest)).bind (fun p => f p.1 p.2) = _
  rw [List.append_assoc, hr, Option.bind_none]

theorem Reads.bind_fails {r : Reader α} {f : α → Reader β} {bs cs : Bytes} {x : α}
    (hr : Reads r bs x) (hf : Fails (f x) cs) : Fails (r >>= f) (bs ++ cs) := by
  intro rest
  change (r (bs ++ cs ++ rest)).bind (fun p => f p.1 p.2) = _
  rw [List.append_assoc, hr, Option.bind_some]
  exact hf rest

theorem Fails.run {r : Reader α} {bs : Bytes} (hr : Fails r bs) : r bs = none := by
  simpa using hr []

end Fail

/-! ## Bytes and big-endian integers -/

def readU8 : Reader UInt8
  | [] => none
  | b :: rest => some (b, rest)

def readBytes (n : Nat) : Reader Bytes := fun bs =>
  if n ≤ bs.length then some (bs.take n, bs.drop n) else none

def u16 (v : UInt16) : Bytes := [UInt8.ofNat (v.toNat / 256), UInt8.ofNat v.toNat]

def u32 (v : UInt32) : Bytes :=
  [UInt8.ofNat (v.toNat / 16777216), UInt8.ofNat (v.toNat / 65536),
    UInt8.ofNat (v.toNat / 256), UInt8.ofNat v.toNat]

def readU16 : Reader UInt16
  | a :: b :: rest => some (UInt16.ofNat (a.toNat * 256 + b.toNat), rest)
  | _ => none

def readU32 : Reader UInt32
  | a :: b :: c :: d :: rest =>
      some (UInt32.ofNat
        (((a.toNat * 256 + b.toNat) * 256 + c.toNat) * 256 + d.toNat), rest)
  | _ => none

@[simp] theorem length_u16 (v : UInt16) : (u16 v).length = 2 := rfl

@[simp] theorem length_u32 (v : UInt32) : (u32 v).length = 4 := rfl

theorem reads_u8 (b : UInt8) : Reads readU8 [b] b := fun _ => rfl

theorem reads_bytes (bs : Bytes) : Reads (readBytes bs.length) bs bs := by
  intro rest
  unfold readBytes
  rw [if_pos (by simp), List.take_left, List.drop_left]

theorem reads_u16 (v : UInt16) : Reads readU16 (u16 v) v := by
  intro rest
  have hv := v.toNat_lt
  have hhigh : v.toNat / 256 % 256 = v.toNat / 256 := by omega
  have hvalue : v.toNat / 256 * 256 + v.toNat % 256 = v.toNat := by omega
  change some (UInt16.ofNat _, rest) = _
  rw [UInt8.toNat_ofNat', UInt8.toNat_ofNat', hhigh, hvalue, UInt16.ofNat_toNat]

theorem reads_u32 (v : UInt32) : Reads readU32 (u32 v) v := by
  intro rest
  have hv := v.toNat_lt
  have hvalue : ((v.toNat / 16777216 % 256 * 256 + v.toNat / 65536 % 256) * 256 +
      v.toNat / 256 % 256) * 256 + v.toNat % 256 = v.toNat := by omega
  change some (UInt32.ofNat _, rest) = _
  rw [UInt8.toNat_ofNat', UInt8.toNat_ofNat', UInt8.toNat_ofNat', UInt8.toNat_ofNat',
    hvalue, UInt32.ofNat_toNat]

/-! ## Repetition -/

def readMany {α : Type} (r : Reader α) : Nat → Reader (List α)
  | 0 => pure []
  | n + 1 => do
      let x ← r
      let xs ← readMany r n
      pure (x :: xs)

theorem reads_many {α : Type} {r : Reader α} {encode : α → Bytes} {xs : List α}
    (h : ∀ x ∈ xs, Reads r (encode x) x) :
    Reads (readMany r xs.length) (xs.flatMap encode) xs := by
  induction xs with
  | nil => exact .pure []
  | cons x xs ih =>
      have hx : Reads r (encode x) x := h x (by simp)
      have hxs := ih fun y hy => h y (List.mem_cons_of_mem x hy)
      rw [List.flatMap_cons]
      refine hx.bind ?_
      rw [← List.append_nil (xs.flatMap encode)]
      exact hxs.bind (.pure _)

theorem fails_many {α : Type} {r : Reader α} {encode : α → Bytes} {xs : List α} {x : α}
    (ys : List α) (h : ∀ x ∈ xs, Reads r (encode x) x) (hx : Fails r (encode x)) :
    Fails (readMany r (xs ++ x :: ys).length) ((xs ++ x :: ys).flatMap encode) := by
  induction xs with
  | nil => exact hx.bind _ _
  | cons y xs ih =>
      have hy : Reads r (encode y) y := h y (by simp)
      have hxs := ih fun z hz => h z (List.mem_cons_of_mem y hz)
      rw [List.cons_append, List.flatMap_cons]
      refine hy.bind_fails ?_
      rw [← List.append_nil (List.flatMap encode _)]
      exact hxs.bind _ _

theorem length_le_flatMap {α : Type} (encode : α → Bytes)
    (h : ∀ x, 0 < (encode x).length) (xs : List α) :
    xs.length ≤ (xs.flatMap encode).length := by
  induction xs with
  | nil => simp
  | cons x xs ih =>
      have hx := h x
      rw [List.flatMap_cons, List.length_append, List.length_cons]
      omega

/-! ## Reading from the front -/

/-- What `r` reads, it reads whatever follows, and leaves that alone. -/
def Forward {α : Type} (r : Reader α) : Prop :=
  ∀ ⦃bs x rest⦄, r bs = some (x, rest) → ∀ more, r (bs ++ more) = some (x, rest ++ more)

section Forward

variable {α β : Type}

theorem forward_pure (x : α) : Forward (pure x : Reader α) := by
  intro bs y rest h more
  cases h
  rfl

theorem forward_none : Forward (fun _ => none : Reader α) := nofun

theorem Forward.bind {r : Reader α} {f : α → Reader β} (hr : Forward r)
    (hf : ∀ x, Forward (f x)) : Forward (r >>= f) := by
  intro bs y rest h more
  obtain ⟨⟨x, middle⟩, hx, hy⟩ := Option.bind_eq_some_iff.mp h
  change (r (bs ++ more)).bind (fun p => f p.1 p.2) = _
  rw [hr hx more, Option.bind_some]
  exact hf x hy more

theorem forward_u8 : Forward readU8 := by
  intro bs x rest h more
  cases bs with
  | nil => cases h
  | cons b bs =>
      cases h
      rfl

theorem forward_bytes (n : Nat) : Forward (readBytes n) := by
  intro bs x rest h more
  unfold readBytes at h ⊢
  split at h
  · rename_i hle
    cases h
    rw [if_pos (by rw [List.length_append]; omega), List.take_append_of_le_length hle,
      List.drop_append_of_le_length hle]
  · cases h

theorem forward_u16 : Forward readU16 := by
  intro bs x rest h more
  match bs, h with
  | a :: b :: bs, h =>
      cases h
      rfl

theorem forward_u32 : Forward readU32 := by
  intro bs x rest h more
  match bs, h with
  | a :: b :: c :: d :: bs, h =>
      cases h
      rfl

theorem forward_many {r : Reader α} (hr : Forward r) (n : Nat) : Forward (readMany r n) := by
  induction n with
  | zero => exact forward_pure []
  | succ n ih => exact hr.bind fun x => ih.bind fun xs => forward_pure (x :: xs)

end Forward

end Wire
