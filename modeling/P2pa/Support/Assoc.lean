import Mathlib.Data.List.AList
import Mathlib.Data.Multiset.AddSub

/-!
# The values of an association list as a multiset

Conservation arguments move values between maps, queues and logs.  `AList.image`
is what a map contributes to such a balance: inserting under a fresh key adds one
value, erasing a present key takes its value out.
-/

namespace AList

variable {α β γ : Type*}

/-- The images of the stored values, with multiplicity. -/
def image (f : β → γ) (s : AList fun _ : α => β) : Multiset γ :=
  (s.entries.map fun e => f e.2 : List γ)

@[simp] theorem image_empty (f : β → γ) :
    (∅ : AList fun _ : α => β).image f = 0 := rfl

variable [DecidableEq α]

theorem image_insert_of_notMem (f : β → γ) {s : AList fun _ : α => β} {a : α}
    (h : a ∉ s) (b : β) : (s.insert a b).image f = f b ::ₘ s.image f := by
  unfold image
  rw [entries_insert_of_notMem h, List.map_cons, Multiset.cons_coe]

theorem image_eq_cons_erase (f : β → γ) {s : AList fun _ : α => β} {a : α} {b : β}
    (h : s.lookup a = some b) : s.image f = f b ::ₘ (s.erase a).image f := by
  have hmem : a ∈ s.entries.keys := by
    rw [← keys, ← mem_keys, ← lookup_isSome, h]
    rfl
  obtain ⟨b', front, back, hfront, hentries, hkerase⟩ := List.exists_of_kerase hmem
  have hb : b' = b := by
    have hlookup : s.entries.dlookup a = some b' := by
      rw [hentries]
      exact List.mem_dlookup (hentries ▸ s.nodupKeys) (by simp)
    have : some b' = some b := hlookup.symm.trans h
    exact Option.some.inj this
  subst hb
  have herase : (s.erase a).entries = front ++ back := hkerase
  unfold image
  rw [herase, hentries, List.map_append, List.map_cons, List.map_append,
    Multiset.cons_coe, Multiset.coe_eq_coe]
  exact List.perm_middle

end AList
