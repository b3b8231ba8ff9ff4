import P2pa.Support.Machine

/-!
# One step as a run of smaller ones

A machine whose every step is answered by a list of actions of a second machine.  What
relates the states before such a step and after it relates them after whole runs.
-/

namespace Machine

variable {S T A B : Type*}

def answers (step : S → A → Option S) (answer : S → A → List B) : S → List A → List B
  | _, [] => []
  | s, a :: as => answer s a ++ ((step s a).elim [] fun t => answers step answer t as)

theorem run_answers {step : S → A → Option S} {step' : T → B → Option T}
    {answer : S → A → List B} {R : S → T → Prop}
    (hstep : ∀ {s a s' t t'}, R s t → step s a = some s' → run step' t (answer s a) = some t' →
      R s' t') {s s' : S} {t t' : T} {as : List A} (h : R s t) (hrun : run step s as = some s')
    (hrun' : run step' t (answers step answer s as) = some t') : R s' t' := by
  induction as generalizing s t with
  | nil =>
      cases hrun
      cases hrun'
      exact h
  | cons a as ih =>
      obtain ⟨u, hu, hrest⟩ := Option.bind_eq_some_iff.mp hrun
      unfold answers at hrun'
      rw [hu, Option.elim_some, run_append, Option.bind_eq_some_iff] at hrun'
      obtain ⟨v, hv, hrest'⟩ := hrun'
      exact ih (hstep h hu hv) hrest hrest'

/-- If every step can be answered, every run can. -/
theorem exists_run_answers {step : S → A → Option S} {step' : T → B → Option T}
    {answer : S → A → List B} {R : S → T → Prop}
    (hstep : ∀ {s a s' t}, R s t → step s a = some s' →
      ∃ t', run step' t (answer s a) = some t' ∧ R s' t')
    {s s' : S} {t : T} {as : List A} (h : R s t) (hrun : run step s as = some s') :
    ∃ t', run step' t (answers step answer s as) = some t' ∧ R s' t' := by
  induction as generalizing s t with
  | nil =>
      cases hrun
      exact ⟨t, rfl, h⟩
  | cons a as ih =>
      obtain ⟨u, hu, hrest⟩ := Option.bind_eq_some_iff.mp hrun
      obtain ⟨v, hv, huv⟩ := hstep h hu
      obtain ⟨t', hrun', h'⟩ := ih huv hrest
      refine ⟨t', ?_, h'⟩
      unfold answers
      rw [hu, Option.elim_some, run_append, hv, Option.bind_some, hrun']

end Machine
