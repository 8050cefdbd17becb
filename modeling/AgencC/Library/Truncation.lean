import Mathlib.Data.List.TakeDrop

/-! A list that keeps what fits: appending piece by piece keeps what fits of the whole. -/

set_option autoImplicit false

namespace AgencC.Library

variable {α : Type}

theorem take_append_take (cap : Nat) (kept more : List α) :
    (kept.take cap ++ more).take cap = (kept ++ more).take cap := by
  rw [List.take_append, List.take_append, List.take_take, Nat.min_self, List.length_take]
  congr 2
  omega

/-- Steps that each keep what fits of one more piece keep what fits of all of them. -/
theorem foldl_keeps {State Step : Type} {cap : Nat} (kept : State → List α)
    (step : State → Step → State) (piece : Step → List α)
    (keeps : ∀ state next, (kept state).length ≤ cap →
      kept (step state next) = (kept state ++ piece next).take cap)
    (steps : List Step) (state : State) (fits : (kept state).length ≤ cap) :
    kept (steps.foldl step state) = (kept state ++ steps.flatMap piece).take cap := by
  induction steps generalizing state with
  | nil => rw [List.foldl_nil, List.flatMap_nil, List.append_nil, List.take_of_length_le fits]
  | cons next rest ih =>
      have first := keeps state next fits
      have fitsNext : (kept (step state next)).length ≤ cap := by
        rw [first]
        exact List.length_take_le _ _
      rw [List.foldl_cons, ih _ fitsNext, first, take_append_take, List.flatMap_cons,
        List.append_assoc]

end AgencC.Library
