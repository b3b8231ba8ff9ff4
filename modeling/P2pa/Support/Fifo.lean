import Mathlib.Data.List.Basic

/-!
# Queues that neither lose, repeat nor reorder

`Conserves before entered left after` relates a queue at two moments to what has
entered it and what has left it in between.  Entries enter at the back and leave at
the front, so the equation holds of one operation and composes along a run.
-/

namespace Fifo

variable {α : Type*}

/-- What was in the queue followed by what entered is what left followed by what is
in it now. -/
def Conserves (before entered left after : List α) : Prop :=
  before ++ entered = left ++ after

namespace Conserves

theorem refl (queue : List α) : Conserves queue [] [] queue := List.append_nil queue

theorem enter (queue entered : List α) : Conserves queue entered [] (queue ++ entered) := rfl

theorem leave (x : α) (queue : List α) : Conserves (x :: queue) [] [x] queue := by
  rw [Conserves, List.append_nil, List.singleton_append]

theorem trans {before middle after entered₁ entered₂ left₁ left₂ : List α}
    (h₁ : Conserves before entered₁ left₁ middle)
    (h₂ : Conserves middle entered₂ left₂ after) :
    Conserves before (entered₁ ++ entered₂) (left₁ ++ left₂) after := by
  calc
    before ++ (entered₁ ++ entered₂) = (before ++ entered₁) ++ entered₂ :=
      (List.append_assoc _ _ _).symm
    _ = left₁ ++ (middle ++ entered₂) := by rw [h₁, List.append_assoc]
    _ = left₁ ++ (left₂ ++ after) := by rw [h₂]
    _ = (left₁ ++ left₂) ++ after := (List.append_assoc _ _ _).symm

theorem of_empty {entered left after : List α} (h : Conserves [] entered left after) :
    left ++ after = entered := h.symm

end Conserves

end Fifo
