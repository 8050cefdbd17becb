import Mathlib.Data.Nat.Notation

/-! Loops by the number of turns they have taken: invariants of every state a loop
reaches, and the bound a growing measure puts on the turns. -/

set_option autoImplicit false

namespace AgencC.Library

variable {State : Type} {turn : State → State → Prop} {start state last : State}

/-- `state` is what a loop from `start` has after `taken` turns. -/
inductive Turns (turn : State → State → Prop) (start : State) : Nat → State → Prop
  | start : Turns turn start 0 start
  | turn {taken : Nat} {state state' : State} (reached : Turns turn start taken state)
      (turned : turn state state') : Turns turn start (taken + 1) state'

namespace Turns

theorem invariant (Inv : State → Prop) {taken : Nat} (reached : Turns turn start taken state)
    (initial : Inv start) (kept : ∀ {state state'}, Inv state → turn state state' → Inv state') :
    Inv state := by
  induction reached with
  | start => exact initial
  | turn _ turned ih => exact kept ih turned

/-- A measure that every turn raises has grown by the number of turns. -/
theorem measure_le (Inv : State → Prop) (measure : State → Nat) {taken : Nat}
    (reached : Turns turn start taken state) (initial : Inv start)
    (kept : ∀ {state state'}, Inv state → turn state state' → Inv state')
    (grows : ∀ {state state'}, Inv state → turn state state' → measure state < measure state') :
    measure start + taken ≤ measure state := by
  induction reached with
  | start => exact Nat.le_refl _
  | turn reached turned ih =>
      have grown := grows (reached.invariant Inv initial kept) turned
      omega

end Turns

end AgencC.Library
