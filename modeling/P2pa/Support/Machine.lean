import Mathlib.Logic.Basic

/-!
# Guarded machines and what holds along their runs

A machine is a step function `S → A → Option S`: the action is not enabled where
the step is `none`.  A run is driven by a list of actions.  `Along` says that
every transition a run takes has a property; `along_of_invariant` and
`along_iff_of_invariant` reduce such a statement to one step from an invariant
state.
-/

namespace Machine

variable {S A : Type*}

/-- The state a list of actions leads to, `none` if one of them is not enabled. -/
def run (step : S → A → Option S) : S → List A → Option S
  | s, [] => some s
  | s, a :: as => (step s a).bind fun t => run step t as

/-- Every transition taken from `s` under `as` satisfies `Q` (state before,
action, state after).  The run ends at the first action that is not enabled. -/
def Along (step : S → A → Option S) (Q : S → A → S → Prop) : S → List A → Prop
  | _, [] => True
  | s, a :: as => ∀ t, step s a = some t → Q s a t ∧ Along step Q t as

@[simp] theorem run_nil (step : S → A → Option S) (s : S) :
    run step s [] = some s := rfl

@[simp] theorem run_cons (step : S → A → Option S) (s : S) (a : A) (as : List A) :
    run step s (a :: as) = (step s a).bind fun t => run step t as := rfl

@[simp] theorem along_nil (step : S → A → Option S) (Q : S → A → S → Prop) (s : S) :
    Along step Q s [] := trivial

theorem along_cons (step : S → A → Option S) (Q : S → A → S → Prop) (s : S) (a : A)
    (as : List A) :
    Along step Q s (a :: as) ↔
      ∀ t, step s a = some t → Q s a t ∧ Along step Q t as := Iff.rfl

theorem along_cons_of_step {step : S → A → Option S} {Q : S → A → S → Prop} {s t : S}
    {a : A} {as : List A} (h : step s a = some t) :
    Along step Q s (a :: as) ↔ Q s a t ∧ Along step Q t as := by
  rw [along_cons, h]
  constructor
  · intro hall
    exact hall t rfl
  · rintro hq u ⟨⟩
    exact hq

def Reachable (step : S → A → Option S) (init s : S) : Prop :=
  ∃ as, run step init as = some s

/-- What holds at the start and is kept by every step holds at the end of a run. -/
theorem run_invariant {step : S → A → Option S} (Inv : S → Prop)
    (hstep : ∀ s a t, Inv s → step s a = some t → Inv t) {s t : S} {as : List A}
    (hs : Inv s) (hrun : run step s as = some t) : Inv t := by
  induction as generalizing s with
  | nil =>
      cases hrun
      exact hs
  | cons a as ih =>
      rw [run_cons, Option.bind_eq_some_iff] at hrun
      obtain ⟨u, hu, hrest⟩ := hrun
      exact ih (hstep s a u hs hu) hrest

theorem run_append (step : S → A → Option S) (s : S) (as bs : List A) :
    run step s (as ++ bs) = (run step s as).bind fun t => run step t bs := by
  induction as generalizing s with
  | nil => rfl
  | cons a as ih =>
      rw [List.cons_append, run_cons, run_cons, Option.bind_assoc]
      exact congrArg (Option.bind (step s a)) (funext ih)

theorem run_trace {step : S → A → Option S} (Inv : List A → S → Prop)
    (hstep : ∀ as s a t, Inv as s → step s a = some t → Inv (as ++ [a]) t) {s t : S}
    {as : List A} (hs : Inv [] s) (hrun : run step s as = some t) : Inv as t := by
  have hafter : ∀ before s, Inv before s → run step s as = some t → Inv (before ++ as) t := by
    clear hs hrun s
    induction as with
    | nil =>
        rintro before s hs ⟨⟩
        rwa [List.append_nil]
    | cons a as ih =>
        intro before s hs hrun
        obtain ⟨u, hu, hrest⟩ := Option.bind_eq_some_iff.mp hrun
        have hinv := ih (before ++ [a]) u (hstep before s a u hs hu) hrest
        rwa [List.append_assoc] at hinv
  exact hafter [] s hs hrun

/-- A map of the states under which the steps of `step'` are the images of those of
`step` takes runs to runs. -/
theorem run_map {T B : Type*} {step : S → A → Option S} {step' : T → B → Option T}
    (f : S → T) (g : A → B) (hstep : ∀ s a, step' (f s) (g a) = (step s a).map f)
    (s : S) (as : List A) : run step' (f s) (as.map g) = (run step s as).map f := by
  induction as generalizing s with
  | nil => rfl
  | cons a as ih =>
      rw [List.map_cons, run_cons, run_cons, hstep]
      cases step s a with
      | none => rfl
      | some t => exact ih t

/-- A run whose steps all meet `ok` has `Q` along it, if from every invariant
state a step that meets `ok` keeps the invariant and satisfies `Q`. -/
theorem along_of_invariant {step : S → A → Option S} (Inv : S → Prop)
    {ok : S → A → Prop} {Q : S → A → S → Prop}
    (hstep : ∀ s a t, Inv s → step s a = some t → ok s a → Inv t ∧ Q s a t)
    {s : S} {as : List A} (hs : Inv s)
    (hok : Along step (fun s a _ => ok s a) s as) : Along step Q s as := by
  induction as generalizing s with
  | nil => trivial
  | cons a as ih =>
      intro t ht
      obtain ⟨hoka, hrest⟩ := hok t ht
      obtain ⟨hinv, hq⟩ := hstep s a t hs ht hoka
      exact ⟨hq, ih hinv hrest⟩

/-- The condition is exact when, besides, a step that does not meet `ok` breaks
`Q` at once. -/
theorem along_iff_of_invariant {step : S → A → Option S} (Inv : S → Prop)
    {ok : S → A → Prop} {Q : S → A → S → Prop}
    (hgood : ∀ s a t, Inv s → step s a = some t → ok s a → Inv t ∧ Q s a t)
    (hbad : ∀ s a t, Inv s → step s a = some t → Q s a t → ok s a)
    {s : S} {as : List A} (hs : Inv s) :
    Along step Q s as ↔ Along step (fun s a _ => ok s a) s as := by
  refine ⟨fun hq => ?_, fun hok => along_of_invariant Inv hgood hs hok⟩
  induction as generalizing s with
  | nil => trivial
  | cons a as ih =>
      intro t ht
      obtain ⟨hqa, hrest⟩ := hq t ht
      have hoka : ok s a := hbad s a t hs ht hqa
      exact ⟨hoka, ih (hgood s a t hs ht hoka).1 hrest⟩

theorem along_of_step {step : S → A → Option S} (Inv : S → Prop)
    {Q : S → A → S → Prop}
    (hstep : ∀ s a t, Inv s → step s a = some t → Inv t ∧ Q s a t)
    {s : S} (as : List A) (hs : Inv s) : Along step Q s as := by
  induction as generalizing s with
  | nil => trivial
  | cons a as ih =>
      intro t ht
      obtain ⟨hinv, hq⟩ := hstep s a t hs ht
      exact ⟨hq, ih hinv⟩

/-- What holds along a whole run, if an invariant of the actions taken so far says of each step
what they say. -/
theorem along_iff_splits {step : S → A → Option S} (Inv : List A → S → Prop)
    {ok : List A → A → Prop} {Q : S → A → S → Prop}
    (hkeep : ∀ as s a t, Inv as s → step s a = some t → Inv (as ++ [a]) t)
    (hiff : ∀ as s a t, Inv as s → step s a = some t → (Q s a t ↔ ok as a))
    {s t : S} {as : List A} (hs : Inv [] s) (hrun : run step s as = some t) :
    Along step Q s as ↔ ∀ before a after, as = before ++ a :: after → ok before a := by
  have hafter : ∀ first s, Inv first s → run step s as = some t →
      (Along step Q s as ↔
        ∀ before a after, as = before ++ a :: after → ok (first ++ before) a) := by
    clear hs hrun s
    induction as with
    | nil =>
        intro first s _ _
        exact iff_of_true trivial fun before a after heq =>
          absurd heq.symm (List.append_ne_nil_of_right_ne_nil before (List.cons_ne_nil a after))
    | cons a as ih =>
        intro first s hs hrun
        obtain ⟨u, hu, hrest⟩ := Option.bind_eq_some_iff.mp hrun
        rw [along_cons_of_step hu, hiff first s a u hs hu,
          ih (first ++ [a]) u (hkeep first s a u hs hu) hrest]
        constructor
        · rintro ⟨hok, hlater⟩ before b after heq
          cases before with
          | nil =>
              obtain ⟨rfl, -⟩ := List.cons.inj heq
              rwa [List.append_nil]
          | cons c before =>
              obtain ⟨rfl, htail⟩ := List.cons.inj heq
              have hb := hlater before b after htail
              rwa [List.append_assoc] at hb
        · intro hall
          refine ⟨?_, fun before b after heq => ?_⟩
          · have hok := hall [] a as rfl
            rwa [List.append_nil] at hok
          · rw [List.append_assoc]
            exact hall (a :: before) b after (congrArg (a :: ·) heq)
  exact hafter [] s hs hrun

/-! ## The actions a run tries -/

/-- Every action tried from `s` on under `as`, also the one the run ends at because it is
not enabled, has the property in the state it is tried in. -/
def Tried (step : S → A → Option S) (Q : S → A → Prop) : S → List A → Prop
  | _, [] => True
  | s, a :: as => Q s a ∧ ∀ t, step s a = some t → Tried step Q t as

theorem tried_iff_of_invariant {step : S → A → Option S} (Inv : S → Prop)
    {P Q : S → A → Prop} (hinv : ∀ s a t, Inv s → step s a = some t → Inv t)
    (hiff : ∀ s a, Inv s → (P s a ↔ Q s a)) {s : S} (hs : Inv s) (as : List A) :
    Tried step P s as ↔ Tried step Q s as := by
  induction as generalizing s with
  | nil => exact Iff.rfl
  | cons a as ih =>
      apply and_congr (hiff s a hs)
      apply forall_congr'
      intro t
      exact imp_congr_right fun ht => ih (hinv s a t hs ht)

/-! ## The step that settles a run -/

section Settled

variable {step : S → A → Option S} {ok : S → A → Prop} {s t : S} {as : List A}

/-- Once a run is settled it stays so, with the outcome it has. -/
theorem settled_run (Inv settled good : S → Prop)
    (hinv : ∀ s a t, Inv s → step s a = some t → Inv t)
    (hstay : ∀ s a t, Inv s → step s a = some t → settled s →
      settled t ∧ (good t ↔ good s) ∧ ok s a)
    (hs : Inv s) (hsettled : settled s) (hrun : run step s as = some t) :
    (good t ↔ good s) ∧ Along step (fun s a _ => ok s a) s as := by
  induction as generalizing s with
  | nil =>
      cases hrun
      exact ⟨Iff.rfl, trivial⟩
  | cons a as ih =>
      rw [run_cons, Option.bind_eq_some_iff] at hrun
      obtain ⟨u, hu, hrest⟩ := hrun
      obtain ⟨husettled, hgood, hok⟩ := hstay s a u hs hu hsettled
      obtain ⟨hgood', hrest'⟩ := ih (hinv s a u hs hu) husettled hrest
      rw [along_cons_of_step hu]
      exact ⟨hgood'.trans hgood, hok, hrest'⟩

/-- A run that gets settled has the good outcome exactly when all its steps meet
`ok`, if a step of a run that is not settled yet meets `ok` exactly when it does not
settle the run otherwise. -/
theorem good_iff_along (Inv settled good : S → Prop)
    (hinv : ∀ s a t, Inv s → step s a = some t → Inv t)
    (hstay : ∀ s a t, Inv s → step s a = some t → settled s →
      settled t ∧ (good t ↔ good s) ∧ ok s a)
    (hturn : ∀ s a t, Inv s → step s a = some t → ¬ settled s →
      (ok s a ↔ (settled t → good t)))
    (hs : Inv s) (hopen : ¬ settled s) (hrun : run step s as = some t)
    (hsettled : settled t) :
    good t ↔ Along step (fun s a _ => ok s a) s as := by
  induction as generalizing s with
  | nil =>
      cases hrun
      exact absurd hsettled hopen
  | cons a as ih =>
      rw [run_cons, Option.bind_eq_some_iff] at hrun
      obtain ⟨u, hu, hrest⟩ := hrun
      have hinvu : Inv u := hinv s a u hs hu
      rw [along_cons_of_step hu, hturn s a u hs hu hopen]
      by_cases husettled : settled u
      · have hafter := settled_run Inv settled good hinv hstay hinvu husettled hrest
        rw [hafter.1]
        exact ⟨fun hgood => ⟨fun _ => hgood, hafter.2⟩, fun h => h.1 husettled⟩
      · rw [ih hinvu husettled hrest]
        exact ⟨fun h => ⟨fun hu => absurd hu husettled, h⟩, fun h => h.2⟩

end Settled

end Machine
