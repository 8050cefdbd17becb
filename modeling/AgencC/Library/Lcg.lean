import Mathlib.Data.Nat.Factorization.Basic
import Mathlib.Data.Nat.ModEq
import Mathlib.Data.Nat.Count
import Mathlib.Dynamics.PeriodicPts.Lemmas
import Mathlib.SetTheory.Cardinal.Finite
import Mathlib.Tactic.LinearCombination
import Mathlib.Tactic.Ring

/-! Linear congruential generators modulo a power of two, over any commutative
ring in which `2 ^ (w + 1)` is zero and `2 ^ w` is not. With a multiplier
`1 + 4 u` and an odd increment every orbit runs through `2 ^ (w + 1)` states. -/

set_option autoImplicit false

namespace AgencC.Lcg

open Function
open scoped Count

variable {R : Type} [CommRing R]

def step (multiplier increment state : R) : R := increment + multiplier * state

/-- `2 ^ k` steps are one step of a generator whose coefficients show the power. -/
theorem iterate_two_pow (u v : R) (k : Nat) :
    ∃ t s : R, ∀ state, (step (1 + 4 * u) (1 + 2 * v))^[2 ^ k] state =
      step (1 + 2 ^ (k + 2) * t) (2 ^ k * (1 + 2 * s)) state := by
  induction k with
  | zero =>
      refine ⟨u, v, fun state => ?_⟩
      change step (1 + 4 * u) (1 + 2 * v) state = _
      simp only [step]
      ring
  | succ k ih =>
      obtain ⟨t, s, doubled⟩ := ih
      refine ⟨t + 2 ^ (k + 1) * t ^ 2, s + 2 ^ k * t * (1 + 2 * s), fun state => ?_⟩
      rw [Nat.pow_succ, Nat.mul_two, iterate_add_apply, doubled, doubled]
      simp only [step]
      ring

/-- Some multiple of a distance that is no period is half a period. -/
theorem exists_mul_modEq_half (w n : Nat) (apart : ¬ n ≡ 0 [MOD 2 ^ (w + 1)]) :
    ∃ m, m * n ≡ 2 ^ w [MOD 2 ^ (w + 1)] := by
  have nonzero : n ≠ 0 := fun zero => apart (by rw [zero])
  obtain ⟨e, odd, oddPart, rfl⟩ := Nat.exists_eq_two_pow_mul_odd nonzero
  obtain ⟨q, rfl⟩ := oddPart
  have small : e ≤ w := by
    by_contra large
    have divides : 2 ^ (w + 1) ∣ 2 ^ e := Nat.pow_dvd_pow 2 (by omega)
    exact apart (Nat.modEq_zero_iff_dvd.mpr (divides.mul_right _))
  have product : 2 ^ (w - e) * (2 ^ e * (2 * q + 1)) = 2 ^ w + 2 ^ (w + 1) * q := by
    rw [← Nat.mul_assoc, ← Nat.pow_add, Nat.sub_add_cancel small]
    ring
  refine ⟨2 ^ (w - e), ?_⟩
  rw [product]
  exact Nat.add_mul_mod_self_left _ _ _

section Period

variable {w : Nat} (wraps : (2 : R) ^ (w + 1) = 0)
include wraps

/-- Half a period adds the top bit. -/
theorem iterate_half (u v state : R) :
    (step (1 + 4 * u) (1 + 2 * v))^[2 ^ w] state = state + 2 ^ w := by
  obtain ⟨t, s, jumped⟩ := iterate_two_pow u v w
  rw [jumped, step]
  linear_combination (2 * t * state + s) * wraps

theorem iterate_full (u v state : R) :
    (step (1 + 4 * u) (1 + 2 * v))^[2 ^ (w + 1)] state = state := by
  obtain ⟨t, s, jumped⟩ := iterate_two_pow u v (w + 1)
  rw [jumped, step]
  linear_combination (4 * t * state + 1 + 2 * s) * wraps

variable (top : (2 : R) ^ w ≠ 0)
include top

theorem minimalPeriod_step (u v state : R) :
    minimalPeriod (step (1 + 4 * u) (1 + 2 * v)) state = 2 ^ (w + 1) := by
  have : Fact (Nat.Prime 2) := ⟨Nat.prime_two⟩
  apply minimalPeriod_eq_prime_pow
  · intro early
    have same : state + 2 ^ w = state := (iterate_half wraps u v state).symm.trans early
    exact top (left_eq_add.mp same.symm)
  · exact iterate_full wraps u v state

/-- Two step counts lead to one state exactly when they agree modulo the period. -/
theorem iterate_eq_iterate_iff (u v state : R) (m n : Nat) :
    (step (1 + 4 * u) (1 + 2 * v))^[m] state = (step (1 + 4 * u) (1 + 2 * v))^[n] state ↔
      m ≡ n [MOD 2 ^ (w + 1)] := by
  have period := minimalPeriod_step wraps top u v state
  rw [← iterate_mod_minimalPeriod_eq (n := m), ← iterate_mod_minimalPeriod_eq (n := n),
    iterate_eq_iterate_iff_of_lt_minimalPeriod, period]
  · rfl
  · rw [period]
    exact Nat.mod_lt _ (Nat.two_pow_pos _)
  · rw [period]
    exact Nat.mod_lt _ (Nat.two_pow_pos _)

/-- One period visits every state, and each of them once. -/
theorem bijective_iterate (card : Nat.card R = 2 ^ (w + 1)) (u v state : R) :
    Bijective fun n : Fin (2 ^ (w + 1)) => (step (1 + 4 * u) (1 + 2 * v))^[n] state := by
  have : Finite R := Nat.finite_of_card_ne_zero (by rw [card]; exact (Nat.two_pow_pos _).ne')
  have injective : Injective fun n : Fin (2 ^ (w + 1)) =>
      (step (1 + 4 * u) (1 + 2 * v))^[n] state := by
    intro m n same
    have agree := (iterate_eq_iterate_iff wraps top u v state m n).mp same
    exact Fin.ext (Nat.ModEq.eq_of_lt_of_lt agree m.isLt n.isLt)
  exact (Nat.bijective_iff_injective_and_card _).mpr ⟨injective, by rw [Nat.card_fin, card]⟩

/-- Every state is reached from every other one. -/
theorem exists_iterate_eq (card : Nat.card R = 2 ^ (w + 1)) (u v state target : R) :
    ∃ n, (step (1 + 4 * u) (1 + 2 * v))^[n] state = target := by
  obtain ⟨n, reached⟩ := (bijective_iterate wraps top card u v state).surjective target
  exact ⟨n, reached⟩

/-- A property holds in one period as often as there are states that have it. -/
theorem count_iterate (card : Nat.card R = 2 ^ (w + 1)) (u v state : R) (p : R → Prop)
    [DecidablePred p] :
    Nat.count (fun n => p ((step (1 + 4 * u) (1 + 2 * v))^[n] state)) (2 ^ (w + 1)) =
      Nat.card {x // p x} := by
  have visits := bijective_iterate wraps top card u v state
  rw [Nat.count_eq_card_fintype, ← Nat.card_eq_fintype_card]
  apply Nat.card_eq_of_bijective fun n => ⟨(step (1 + 4 * u) (1 + 2 * v))^[n.1] state, n.2.2⟩
  constructor
  · intro m n same
    have agree : (⟨m, m.2.1⟩ : Fin (2 ^ (w + 1))) = ⟨n, n.2.1⟩ :=
      visits.injective (congrArg Subtype.val same)
    exact Subtype.ext (congrArg Fin.val agree)
  · rintro ⟨x, holds⟩
    obtain ⟨n, rfl⟩ := visits.surjective x
    exact ⟨⟨n, n.isLt, holds⟩, rfl⟩

/-- What a function of the state shows along an orbit from two states at the
distance `n` is also shown at the distance `2 ^ w`, unless the states are equal. -/
theorem iterate_eq_of_outputs {O : Type} (output : R → O) (u v state : R) (n : Nat)
    (same : ∀ k, output ((step (1 + 4 * u) (1 + 2 * v))^[k] state) =
      output ((step (1 + 4 * u) (1 + 2 * v))^[k + n] state))
    (tells : ∃ k, output ((step (1 + 4 * u) (1 + 2 * v))^[k] state) ≠
      output ((step (1 + 4 * u) (1 + 2 * v))^[k] state + 2 ^ w)) :
    (step (1 + 4 * u) (1 + 2 * v))^[n] state = state := by
  have jumps : ∀ m k, output ((step (1 + 4 * u) (1 + 2 * v))^[k] state) =
      output ((step (1 + 4 * u) (1 + 2 * v))^[k + m * n] state) := by
    intro m k
    induction m with
    | zero => rw [Nat.zero_mul, Nat.add_zero]
    | succ m ih => rw [ih, same (k + m * n), Nat.succ_mul, Nat.add_assoc]
  refine (iterate_eq_iterate_iff wraps top u v state n 0).mpr ?_
  by_contra apart
  obtain ⟨k, differs⟩ := tells
  obtain ⟨m, half⟩ := exists_mul_modEq_half w n apart
  have reached : (step (1 + 4 * u) (1 + 2 * v))^[k + m * n] state =
      (step (1 + 4 * u) (1 + 2 * v))^[k] state + 2 ^ w := by
    rw [(iterate_eq_iterate_iff wraps top u v state (k + m * n) (2 ^ w + k)).mpr
      (by rw [Nat.add_comm (2 ^ w)]; exact half.add_left k), iterate_add_apply,
      iterate_half wraps]
  exact differs (by rw [jumps m k, reached])

end Period

end AgencC.Lcg
