import Mathlib.Data.List.Basic
import Mathlib.Data.List.Induction

/-!
# Runs as folds

A run is what a list of steps, taken one after another, makes of a state.  What is said of runs is said of the step that
is taken last, after any run (`foldl_induction`); a property that does not speak of the steps before is kept by
`List.foldlRecOn`.
-/

namespace SpeechDispatch

variable {ι τ : Type}

/-- What holds at the start and is kept by every step, whatever steps were taken before, holds after every run. -/
theorem foldl_induction {step : τ → ι → τ} {start : τ} {motive : List ι → τ → Prop} (hstart : motive [] start)
    (hstep : ∀ before last, motive before (before.foldl step start) →
      motive (before ++ [last]) (step (before.foldl step start) last))
    (steps : List ι) : motive steps (steps.foldl step start) := by
  -- the last step comes on top of the run before it, so the induction is from the end of the list
  induction steps using List.reverseRecOn with
  | nil => exact hstart
  | append_singleton before last ih =>
    rw [List.foldl_concat]
    exact hstep before last ih

end SpeechDispatch
