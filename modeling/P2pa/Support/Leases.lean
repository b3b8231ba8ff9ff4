import Mathlib.Data.List.Nodup
import Mathlib.Order.Bounds.Lattice

/-!
# Tables of leases

A table holds keys until an instant.  Admitting a key that is present prolongs its
lease, granting one that is absent appends it, and `retain` drops the leases that
have run out.  To a client the table is a function `find` from keys to instants;
the lemmas below say how each operation changes that function.
-/

namespace Leases

variable {K T : Type*}

abbrev Table (K T : Type*) := List (K × T)

def keys (s : Table K T) : List K := s.map Prod.fst

@[simp] theorem keys_nil : keys ([] : Table K T) = [] := rfl

@[simp] theorem keys_cons (e : K × T) (s : Table K T) : keys (e :: s) = e.1 :: keys s := rfl

variable [DecidableEq K]

def find (s : Table K T) (k : K) : Option T := (s.find? fun e => e.1 = k).map Prod.snd

def offers (batch : List (K × T)) (k : K) : List T :=
  (batch.filter fun e => e.1 = k).map Prod.snd

@[simp] theorem find_nil (k : K) : find ([] : Table K T) k = none := rfl

theorem find_cons (e : K × T) (s : Table K T) (k : K) :
    find (e :: s) k = if e.1 = k then some e.2 else find s k := by
  unfold find
  rw [List.find?_cons]
  by_cases h : e.1 = k
  · simp [h]
  · simp [h]

theorem offers_cons (e : K × T) (batch : List (K × T)) (k : K) :
    offers (e :: batch) k = if e.1 = k then e.2 :: offers batch k else offers batch k := by
  unfold offers
  by_cases h : e.1 = k
  · simp [h]
  · simp [h]

theorem find_eq_none_iff {s : Table K T} {k : K} : find s k = none ↔ k ∉ keys s := by
  induction s with
  | nil => simp
  | cons e s ih =>
      rw [find_cons, keys_cons, List.mem_cons]
      by_cases h : e.1 = k
      · simp [h]
      · rw [if_neg h, ih]
        simp [Ne.symm h]

theorem find_eq_some_iff {s : Table K T} (hs : (keys s).Nodup) {k : K} {t : T} :
    find s k = some t ↔ (k, t) ∈ s := by
  induction s with
  | nil => simp
  | cons e s ih =>
      rw [keys_cons, List.nodup_cons] at hs
      rw [find_cons, List.mem_cons]
      by_cases h : e.1 = k
      · have hnot : (k, t) ∉ s := by
          intro hmem
          apply hs.1
          rw [h]
          exact List.mem_map.mpr ⟨(k, t), hmem, rfl⟩
        rw [if_pos h, Option.some.injEq]
        constructor
        · intro ht
          exact .inl (Prod.ext h.symm ht.symm)
        · intro hor
          rcases hor with heq | hmem
          · rw [← heq]
          · exact absurd hmem hnot
      · have hne : (k, t) ≠ e := fun heq => h (by rw [← heq])
        rw [if_neg h, ih hs.2]
        simp [hne]

theorem mem_keys_iff {s : Table K T} {k : K} : k ∈ keys s ↔ ∃ t, find s k = some t := by
  rw [← Option.isSome_iff_exists, Option.isSome_iff_ne_none, Ne, find_eq_none_iff, not_not]

theorem find_append_singleton {s : Table K T} {k : K} (h : k ∉ keys s) (t : T) (k' : K) :
    find (s ++ [(k, t)]) k' = if k' = k then some t else find s k' := by
  induction s with
  | nil =>
      rw [List.nil_append, find_cons]
      simp [eq_comm]
  | cons e s ih =>
      rw [keys_cons, List.mem_cons, not_or] at h
      rw [List.cons_append, find_cons, find_cons, ih h.2]
      by_cases he : e.1 = k'
      · have hne : k' ≠ k := fun heq => h.1 (by rw [he, heq])
        rw [if_pos he, if_neg hne, if_pos he]
      · rw [if_neg he, if_neg he]

omit [DecidableEq K] in
theorem nodup_filter {s : Table K T} (hs : (keys s).Nodup) (p : K × T → Bool) :
    (keys (s.filter p)).Nodup := by
  apply List.Nodup.sublist ?_ hs
  exact List.filter_sublist.map Prod.fst

theorem find_filter {s : Table K T} (hs : (keys s).Nodup) (p : K × T → Bool) {k : K} {t : T} :
    find (s.filter p) k = some t ↔ find s k = some t ∧ p (k, t) := by
  rw [find_eq_some_iff (nodup_filter hs p), find_eq_some_iff hs, List.mem_filter]

variable [LinearOrder T]

/-- The first entry of the key keeps the later instant. -/
def renew : Table K T → K → T → Table K T
  | [], _, _ => []
  | e :: s, k, t => if e.1 = k then (e.1, max e.2 t) :: s else e :: renew s k t

def grant (s : Table K T) (k : K) (t : T) : Table K T :=
  if k ∈ keys s then renew s k t else s ++ [(k, t)]

def grantAll (s : Table K T) (batch : List (K × T)) : Table K T :=
  batch.foldl (fun s e => grant s e.1 e.2) s

/-- The keys of the batch that are absent when their turn comes. -/
def fresh : Table K T → List (K × T) → List K
  | _, [] => []
  | s, e :: batch =>
      if e.1 ∈ keys s then fresh (grant s e.1 e.2) batch
      else e.1 :: fresh (grant s e.1 e.2) batch

def retain (s : Table K T) (now : T) : Table K T := s.filter fun e => now < e.2

def expired (s : Table K T) (now : T) : List K := keys (s.filter fun e => e.2 ≤ now)

def prolong (held : Option T) (t : T) : T := held.elim t fun u => max u t

/-! ## Admission -/

theorem keys_renew (s : Table K T) (k : K) (t : T) : keys (renew s k t) = keys s := by
  induction s with
  | nil => rfl
  | cons e s ih =>
      unfold renew
      by_cases h : e.1 = k
      · rw [if_pos h]
        rfl
      · rw [if_neg h, keys_cons, keys_cons, ih]

theorem keys_grant (s : Table K T) (k : K) (t : T) :
    keys (grant s k t) = if k ∈ keys s then keys s else keys s ++ [k] := by
  unfold grant
  by_cases h : k ∈ keys s
  · rw [if_pos h, if_pos h, keys_renew]
  · rw [if_neg h, if_neg h]
    simp [keys]

theorem nodup_grant {s : Table K T} (hs : (keys s).Nodup) (k : K) (t : T) :
    (keys (grant s k t)).Nodup := by
  rw [keys_grant]
  by_cases h : k ∈ keys s
  · rwa [if_pos h]
  · rw [if_neg h]
    apply List.Nodup.append hs (List.nodup_singleton k)
    rw [List.disjoint_singleton]
    exact h

theorem find_renew {s : Table K T} {k : K} (h : k ∈ keys s) (t : T) (k' : K) :
    find (renew s k t) k' =
      if k' = k then some (prolong (find s k) t) else find s k' := by
  induction s with
  | nil => simp at h
  | cons e s ih =>
      unfold renew
      by_cases he : e.1 = k
      · rw [if_pos he, find_cons, find_cons, find_cons, if_pos he]
        by_cases hk : k' = k
        · rw [if_pos (he.trans hk.symm), if_pos hk]
          rfl
        · rw [if_neg (fun heq => hk (heq.symm.trans he)), if_neg hk, if_neg]
          exact fun heq => hk (heq.symm.trans he)
      · have hmem : k ∈ keys s := by
          rw [keys_cons, List.mem_cons] at h
          exact h.resolve_left fun heq => he heq.symm
        rw [if_neg he, find_cons, find_cons, find_cons, if_neg he, ih hmem]
        by_cases hk : k' = k
        · rw [if_pos hk, if_neg (fun heq => he (heq.trans hk)), if_pos hk]
        · rw [if_neg hk, if_neg hk]

theorem find_grant (s : Table K T) (k : K) (t : T) (k' : K) :
    find (grant s k t) k' = if k' = k then some (prolong (find s k) t) else find s k' := by
  unfold grant
  by_cases h : k ∈ keys s
  · rw [if_pos h, find_renew h]
  · rw [if_neg h, find_append_singleton h, find_eq_none_iff.mpr h]
    rfl

/-! ## Batches -/

theorem nodup_grantAll {s : Table K T} (hs : (keys s).Nodup) (batch : List (K × T)) :
    (keys (grantAll s batch)).Nodup := by
  induction batch generalizing s with
  | nil => exact hs
  | cons e batch ih => exact ih (nodup_grant hs e.1 e.2)

/-- A key's lease after a batch depends on what the batch offers for it only. -/
theorem find_grantAll (s : Table K T) (batch : List (K × T)) (k : K) :
    find (grantAll s batch) k =
      (offers batch k).foldl (fun held t => some (prolong held t)) (find s k) := by
  induction batch generalizing s with
  | nil => rfl
  | cons e batch ih =>
      have hstep : grantAll s (e :: batch) = grantAll (grant s e.1 e.2) batch := rfl
      rw [hstep, ih, find_grant, offers_cons]
      by_cases h : e.1 = k
      · rw [if_pos h, if_pos h.symm, List.foldl_cons, h]
      · rw [if_neg h, if_neg (Ne.symm h)]

theorem foldl_prolong_eq_none {ts : List T} {held : Option T} :
    ts.foldl (fun held t => some (prolong held t)) held = none ↔ held = none ∧ ts = [] := by
  induction ts generalizing held with
  | nil => simp
  | cons t ts ih =>
      rw [List.foldl_cons, ih]
      simp

/-- A lease runs until the latest instant offered for it: if `held` is the greatest of
the earlier offers, the lease after the batch is the greatest of them all. -/
theorem isGreatest_foldl_prolong {ts past : List T} {held : Option T} {t : T}
    (hheld : ∀ u, held = some u → IsGreatest {e | e ∈ past} u)
    (hnone : held = none → past = [])
    (ht : ts.foldl (fun held t => some (prolong held t)) held = some t) :
    IsGreatest {e | e ∈ past ++ ts} t := by
  induction ts generalizing held past with
  | nil =>
      rw [List.append_nil]
      exact hheld t ht
  | cons u ts ih =>
      have hstep : IsGreatest {e | e ∈ past ++ [u]} (prolong held u) := by
        cases held with
        | none =>
            rw [hnone rfl]
            simp [prolong]
        | some v =>
            have hv := hheld v rfl
            have hset : {e | e ∈ past ++ [u]} = {e | e ∈ past} ∪ {u} := by
              ext e
              simp [or_comm]
            rw [hset]
            exact hv.union isGreatest_singleton
      have hrest := @ih (past ++ [u]) (some (prolong held u))
        (fun v hv => Option.some.inj hv ▸ hstep) nofun ht
      rwa [List.append_assoc, List.singleton_append] at hrest

theorem mem_fresh_iff (s : Table K T) (batch : List (K × T)) (k : K) :
    k ∈ fresh s batch ↔ k ∉ keys s ∧ offers batch k ≠ [] := by
  induction batch generalizing s with
  | nil => simp [fresh, offers]
  | cons e batch ih =>
      have hkeys : k ∈ keys (grant s e.1 e.2) ↔ k ∈ keys s ∨ k = e.1 := by
        rw [keys_grant]
        by_cases h : e.1 ∈ keys s
        · rw [if_pos h]
          constructor
          · exact .inl
          · rintro (hk | rfl)
            · exact hk
            · exact h
        · rw [if_neg h, List.mem_append, List.mem_singleton]
      rw [offers_cons]
      unfold fresh
      by_cases h : e.1 ∈ keys s
      · rw [if_pos h, ih, hkeys]
        by_cases hk : e.1 = k
        · subst hk
          simp [h]
        · rw [if_neg hk]
          simp [Ne.symm hk]
      · rw [if_neg h, List.mem_cons, ih, hkeys]
        by_cases hk : e.1 = k
        · subst hk
          simp [h]
        · rw [if_neg hk]
          simp [Ne.symm hk]

theorem nodup_fresh (s : Table K T) (batch : List (K × T)) : (fresh s batch).Nodup := by
  induction batch generalizing s with
  | nil => exact List.nodup_nil
  | cons e batch ih =>
      unfold fresh
      by_cases h : e.1 ∈ keys s
      · rw [if_pos h]
        exact ih _
      · rw [if_neg h, List.nodup_cons]
        refine ⟨fun hmem => ?_, ih _⟩
        have hnot := ((mem_fresh_iff _ _ _).mp hmem).1
        rw [keys_grant, if_neg h] at hnot
        exact hnot (List.mem_append_right _ (List.mem_singleton_self e.1))

/-! ## Expiry -/

theorem find_retain_iff {s : Table K T} (hs : (keys s).Nodup) (now : T) {k : K} {t : T} :
    find (retain s now) k = some t ↔ find s k = some t ∧ now < t := by
  unfold retain
  rw [find_filter hs, decide_eq_true_eq]

theorem mem_expired_iff {s : Table K T} (hs : (keys s).Nodup) (now : T) {k : K} :
    k ∈ expired s now ↔ ∃ t, find s k = some t ∧ t ≤ now := by
  unfold expired
  rw [mem_keys_iff]
  simp only [find_filter hs, decide_eq_true_eq]

section Earliest

omit [DecidableEq K]

theorem retain_of_lt {s : Table K T} {now : T} (h : ∀ e ∈ s, now < e.2) : retain s now = s := by
  unfold retain
  rw [List.filter_eq_self]
  exact fun e he => decide_eq_true (h e he)

theorem expired_eq_nil_iff {s : Table K T} {now : T} :
    expired s now = [] ↔ ∀ e ∈ s, now < e.2 := by
  unfold expired keys
  rw [List.map_eq_nil_iff, List.filter_eq_nil_iff]
  simp only [decide_eq_true_eq, not_le]

def earliest : Table K T → Option T
  | [] => none
  | e :: s => some ((earliest s).elim e.2 (min e.2))

theorem earliest_eq_none_iff {s : Table K T} : earliest s = none ↔ s = [] := by
  cases s with
  | nil => exact iff_of_true rfl rfl
  | cons e s => exact iff_of_false nofun nofun

theorem isLeast_earliest {s : Table K T} {t : T} (h : earliest s = some t) :
    IsLeast {u | ∃ k, (k, u) ∈ s} t := by
  induction s generalizing t with
  | nil => cases h
  | cons e s ih =>
      have hset : {u | ∃ k, (k, u) ∈ e :: s} = insert e.2 {u | ∃ k, (k, u) ∈ s} := by
        ext u
        simp only [List.mem_cons, Prod.ext_iff, exists_or, Set.mem_ofPred_eq,
          Set.mem_insert_iff, exists_and_right, exists_eq, true_and]
      rw [hset]
      cases h
      cases hs : earliest s with
      | none =>
          rw [earliest_eq_none_iff.mp hs]
          simp [isLeast_singleton]
      | some u => exact (ih hs).insert e.2

end Earliest

end Leases
