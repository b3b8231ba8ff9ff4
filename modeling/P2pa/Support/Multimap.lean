import Mathlib.Data.List.AList
import Mathlib.Data.Prod.Basic

/-!
# Maps to lists

A map whose values are lists without repetition, as the set of the pairs of a key and an
entry of its list.
-/

namespace AList

variable {α β : Type*}

def pairs (s : AList fun _ : α => List β) : List (α × β) :=
  s.entries.flatMap fun entry => entry.2.map (Prod.mk entry.1)

variable [DecidableEq α] {s : AList fun _ : α => List β}

theorem mem_pairs_iff {a : α} {b : β} : (a, b) ∈ s.pairs ↔ ∃ l, s.lookup a = some l ∧ b ∈ l := by
  unfold pairs
  rw [List.mem_flatMap]
  constructor
  · rintro ⟨⟨a', l⟩, hentry, hpair⟩
    obtain ⟨b', hb, heq⟩ := List.mem_map.mp hpair
    cases heq
    exact ⟨l, mem_lookup_iff.mpr hentry, hb⟩
  · rintro ⟨l, hl, hb⟩
    exact ⟨⟨a, l⟩, mem_lookup_iff.mp hl, List.mem_map_of_mem hb⟩

def Simple (s : AList fun _ : α => List β) : Prop := ∀ a l, s.lookup a = some l → l.Nodup

theorem simple_empty : Simple (∅ : AList fun _ : α => List β) := by
  intro a l hl
  rw [lookup_empty] at hl
  cases hl

theorem Simple.nodup_pairs (h : s.Simple) : s.pairs.Nodup := by
  unfold pairs
  rw [List.nodup_flatMap]
  constructor
  · rintro ⟨a, l⟩ hentry
    exact (h a l (mem_lookup_iff.mpr hentry)).map (Prod.mk_right_injective a)
  · have hkeys : s.entries.Pairwise fun x y => x.1 ≠ y.1 := List.pairwise_map.mp s.nodupKeys
    apply hkeys.imp
    rintro ⟨a, l⟩ ⟨a', l'⟩ hne ⟨x, y⟩ hx hy
    obtain ⟨b, -, hb⟩ := List.mem_map.mp hx
    obtain ⟨b', -, hb'⟩ := List.mem_map.mp hy
    cases hb
    cases hb'
    exact hne rfl

variable [BEq β] [LawfulBEq β]

def addPair (s : AList fun _ : α => List β) (a : α) (b : β) : AList fun _ : α => List β :=
  s.insert a (List.insert b ((s.lookup a).getD []))

omit [LawfulBEq β] in
theorem lookup_addPair (a : α) (b : β) (a' : α) :
    (s.addPair a b).lookup a' =
      if a' = a then some (List.insert b ((s.lookup a).getD [])) else s.lookup a' := by
  unfold addPair
  split
  · next heq =>
      rw [heq]
      exact lookup_insert s
  · next hne => exact lookup_insert_ne hne

theorem mem_pairs_addPair_iff {a a' : α} {b b' : β} :
    (a', b') ∈ (s.addPair a b).pairs ↔ (a', b') = (a, b) ∨ (a', b') ∈ s.pairs := by
  rw [mem_pairs_iff, mem_pairs_iff, lookup_addPair, Prod.mk.injEq]
  split
  · next heq =>
      rw [heq]
      cases s.lookup a with
      | none => simp
      | some l => simp [List.mem_insert_iff]
  · next hne => simp [hne]

theorem Simple.addPair (h : s.Simple) (a : α) (b : β) : (s.addPair a b).Simple := by
  intro a' l hl
  rw [lookup_addPair] at hl
  split at hl
  · cases hl
    apply List.Nodup.insert
    cases hlookup : s.lookup a with
    | none => exact List.nodup_nil
    | some l => exact h a l hlookup
  · exact h a' l hl

end AList
