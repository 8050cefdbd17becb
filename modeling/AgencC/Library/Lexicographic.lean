import Mathlib.Data.List.Infix
import Mathlib.Data.List.TakeDrop

/-! The lexicographic order of lists, a proper prefix being smaller. -/

set_option autoImplicit false

namespace AgencC.Library

variable {α : Type} [Ord α]

theorem compare_append_left [Std.LawfulEqOrd α] (common xs ys : List α) :
    compare (common ++ xs) (common ++ ys) = compare xs ys := by
  induction common with
  | nil => rfl
  | cons x rest ih =>
      rw [List.cons_append, List.cons_append, List.compare_cons_cons, ih,
        Std.compare_eq_iff_eq.mpr rfl]
      rfl

/-- A list is smaller if it is a proper prefix, or smaller where the two differ first. -/
theorem compare_eq_lt_iff [Std.LawfulEqOrd α] (xs ys : List α) :
    compare xs ys = .lt ↔ (∃ y rest, ys = xs ++ y :: rest) ∨
      ∃ common x y xs' ys', xs = common ++ x :: xs' ∧ ys = common ++ y :: ys' ∧
        compare x y = .lt := by
  constructor
  · induction xs generalizing ys with
    | nil =>
        cases ys with
        | nil => intro less; cases less
        | cons y ys => exact fun _ => .inl ⟨y, ys, rfl⟩
    | cons x xs ih =>
        cases ys with
        | nil => intro less; cases less
        | cons y ys =>
            intro less
            rw [List.compare_cons_cons] at less
            cases first : compare x y with
            | lt => exact .inr ⟨[], x, y, xs, ys, rfl, rfl, first⟩
            | gt =>
                rw [first] at less
                cases less
            | eq =>
                rw [first] at less
                obtain rfl := Std.compare_eq_iff_eq.mp first
                rcases ih ys less with ⟨z, rest, rfl⟩ | ⟨common, a, b, xs', ys', rfl, rfl, differ⟩
                · exact .inl ⟨z, rest, rfl⟩
                · exact .inr ⟨x :: common, a, b, xs', ys', rfl, rfl, differ⟩
  · rintro (⟨y, rest, rfl⟩ | ⟨common, x, y, xs', ys', rfl, rfl, differ⟩)
    · have longer := compare_append_left xs [] (y :: rest)
      rwa [List.append_nil] at longer
    · rw [compare_append_left, List.compare_cons_cons, differ]
      rfl

/-- Two lists are in the order of what they begin with for as long as both go on, and else in the
order of their lengths. -/
theorem compare_eq_then_length (xs ys : List α) :
    compare xs ys =
      (compare (xs.take (min xs.length ys.length)) (ys.take (min xs.length ys.length))).then
        (compare xs.length ys.length) := by
  induction xs generalizing ys with
  | nil =>
      cases ys with
      | nil => rfl
      | cons y ys =>
          rw [List.compare_nil_cons, List.length_nil, Nat.zero_min, List.take_zero, List.take_zero]
          exact (Nat.compare_eq_lt.mpr (Nat.succ_pos _)).symm
  | cons x xs ih =>
      cases ys with
      | nil =>
          rw [List.compare_cons_nil, List.length_nil, Nat.min_zero, List.take_zero, List.take_zero]
          exact (Nat.compare_eq_gt.mpr (Nat.succ_pos _)).symm
      | cons y ys =>
          have lengths : compare (xs.length + 1) (ys.length + 1) = compare xs.length ys.length := by
            simp only [Nat.compare_eq_ite_lt, Nat.add_lt_add_iff_right]
          rw [List.compare_cons_cons, ih, List.length_cons, List.length_cons, Nat.succ_min_succ,
            List.take_succ_cons, List.take_succ_cons, List.compare_cons_cons, lengths,
            Ordering.then_assoc]

/-- Two lists of one length are equal or differ in a first place. -/
theorem eq_or_first_difference {α : Type} {xs ys : List α} (length : xs.length = ys.length) :
    xs = ys ∨ ∃ common x y xs' ys', xs = common ++ x :: xs' ∧ ys = common ++ y :: ys' ∧ x ≠ y ∧
      xs'.length = ys'.length := by
  induction xs generalizing ys with
  | nil =>
      cases ys with
      | nil => exact .inl rfl
      | cons y ys => cases length
  | cons x xs ih =>
      cases ys with
      | nil => cases length
      | cons y ys =>
          have rest := Nat.succ.inj length
          by_cases same : x = y
          · subst same
            rcases ih rest with rfl | ⟨common, a, b, xs', ys', rfl, rfl, differ, lengths⟩
            · exact .inl rfl
            · exact .inr ⟨x :: common, a, b, xs', ys', rfl, rfl, differ, lengths⟩
          · exact .inr ⟨[], x, y, xs, ys, rfl, rfl, same, rest⟩

end AgencC.Library
