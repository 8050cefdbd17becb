import Mathlib.Data.BitVec
import Mathlib.SetTheory.Cardinal.Finite

/-! Words with a right shift of themselves xored in, and a rotated part of such a
word: each of its values comes from equally many words. -/

set_option autoImplicit false

namespace AgencC.Library

open Function

variable {w : Nat}

def xorShift (s : Nat) (x : BitVec w) : BitVec w := x ^^^ (x >>> s)

theorem getLsbD_xorShift (s : Nat) (x : BitVec w) (i : Nat) :
    (xorShift s x).getLsbD i = (x.getLsbD i ^^ x.getLsbD (s + i)) := by
  rw [xorShift, BitVec.getLsbD_xor, BitVec.getLsbD_ushiftRight]

/-- Every bit is recovered with the help of the bits above it. -/
theorem xorShift_injective {s : Nat} (positive : 0 < s) : Injective (xorShift (w := w) s) := by
  intro x y same
  have bits : ∀ n i, w ≤ i + n → x.getLsbD i = y.getLsbD i := by
    intro n
    induction n with
    | zero =>
        intro i outside
        rw [BitVec.getLsbD_of_ge x i outside, BitVec.getLsbD_of_ge y i outside]
    | succ n ih =>
        intro i outside
        have above := ih (s + i) (by omega)
        have here := congrArg (fun z => z.getLsbD i) same
        simp only [getLsbD_xorShift, above] at here
        exact Bool.xor_left_inj.mp here
  exact BitVec.eq_of_getLsbD_eq fun i _ => bits w i (Nat.le_add_left w i)

theorem rotateLeft_rotateRight (x : BitVec w) (r : Nat) : (x.rotateRight r).rotateLeft r = x := by
  apply BitVec.eq_of_getElem_eq
  intro i inside
  have amount : r % w < w := Nat.mod_lt _ (Nat.zero_lt_of_lt inside)
  rw [BitVec.getElem_rotateLeft]
  split
  · rw [BitVec.getElem_rotateRight, dif_neg (by omega)]
    congr 1
    omega
  · rw [BitVec.getElem_rotateRight, dif_pos (by omega)]
    congr 1
    omega

theorem rotateRight_injective (r : Nat) : Injective fun x : BitVec w => x.rotateRight r := by
  intro x y same
  rw [← rotateLeft_rotateRight x r, ← rotateLeft_rotateRight y r]
  exact congrArg (fun z => z.rotateLeft r) same

/-- A rotation as two shifts, the left one by an amount below the width also for `r = 0`. -/
theorem or_shiftLeft_eq_rotateRight (x : BitVec w) {r : Nat} (small : r < w) :
    x >>> r ||| x <<< ((w - r) % w) = x.rotateRight r := by
  rw [BitVec.rotateRight_def, Nat.mod_eq_of_lt small]
  rcases Nat.eq_zero_or_pos r with rfl | positive
  · rw [Nat.sub_zero, Nat.mod_self, BitVec.ushiftRight_zero, BitVec.shiftLeft_zero,
      BitVec.shiftLeft_eq_zero (Nat.le_refl w), BitVec.or_self, BitVec.or_zero]
  · rw [Nat.mod_eq_of_lt (by omega)]

/-- If `f` and `g` together tell the sources apart and take all pairs of values, each value
of `f` has as many sources as `g` has values. -/
theorem card_fiber {α β γ : Type} {f : α → β} {g : α → γ}
    (bijective : Bijective fun x => (f x, g x)) (value : β) :
    Nat.card {x // f x = value} = Nat.card γ := by
  apply Nat.card_eq_of_bijective fun x : {x // f x = value} => g x
  constructor
  · rintro ⟨x, rfl⟩ ⟨y, same⟩ rest
    exact Subtype.ext (bijective.injective (Prod.ext same.symm rest))
  · intro rest
    obtain ⟨x, parts⟩ := bijective.surjective (value, rest)
    obtain ⟨first, second⟩ := Prod.mk.inj parts
    exact ⟨⟨x, first⟩, second⟩

/-- The `out` bits above the lowest `low` of the xor-shifted word, rotated right by the
`top` highest bits of the word. -/
def rotatedXorShift (s low out top : Nat) (x : BitVec w) : BitVec out :=
  ((xorShift s x).extractLsb' low out).rotateRight (x.extractLsb' (low + out) top).toNat

section Parts

variable {s low out top : Nat} (width : w = low + out + top) (positive : 0 < s) (covers : top ≤ s)
include width positive covers

/-- The amount of the rotation stands in bits the shift leaves alone, so that it can be undone. -/
theorem rotatedXorShift_parts_injective :
    Injective fun x : BitVec w => (rotatedXorShift s low out top x,
      x.extractLsb' (low + out) top, (xorShift s x).extractLsb' 0 low) := by
  intro x y same
  obtain ⟨rotated, rest⟩ := Prod.mk.inj same
  obtain ⟨amount, lowest⟩ := Prod.mk.inj rest
  have middle : (xorShift s x).extractLsb' low out = (xorShift s y).extractLsb' low out := by
    apply rotateRight_injective (x.extractLsb' (low + out) top).toNat
    rw [rotatedXorShift, rotatedXorShift, ← amount] at rotated
    exact rotated
  apply xorShift_injective positive
  apply BitVec.eq_of_getLsbD_eq
  intro i inside
  by_cases inLow : i < low
  · have bit := congrArg (fun z => z.getLsbD i) lowest
    simpa only [BitVec.getLsbD_extractLsb', inLow, decide_true, Bool.true_and, Nat.zero_add]
      using bit
  by_cases inOut : i < low + out
  · have bit := congrArg (fun z => z.getLsbD (i - low)) middle
    simpa only [BitVec.getLsbD_extractLsb', show i - low < out by omega, decide_true,
      Bool.true_and, Nat.add_sub_of_le (Nat.le_of_not_lt inLow)] using bit
  · have bit := congrArg (fun z => z.getLsbD (i - (low + out))) amount
    simp only [BitVec.getLsbD_extractLsb', show i - (low + out) < top by omega, decide_true,
      Bool.true_and, Nat.add_sub_of_le (Nat.le_of_not_lt inOut)] at bit
    rw [getLsbD_xorShift, getLsbD_xorShift, bit, BitVec.getLsbD_of_ge x (s + i) (by omega),
      BitVec.getLsbD_of_ge y (s + i) (by omega)]

/-- Every value is taken equally often. -/
theorem card_rotatedXorShift (value : BitVec out) :
    Nat.card {x : BitVec w // rotatedXorShift s low out top x = value} = 2 ^ (low + top) := by
  have finite : ∀ n, Finite (BitVec n) := fun n => .of_equiv _ BitVec.equivFin.symm.toEquiv
  have card : ∀ n, Nat.card (BitVec n) = 2 ^ n := fun n => by
    rw [Nat.card_congr BitVec.equivFin.toEquiv, Nat.card_fin]
  have injective := rotatedXorShift_parts_injective width positive covers
  have bijective := (Nat.bijective_iff_injective_and_card _).mpr ⟨injective, by
    simp only [Nat.card_prod, card, ← Nat.pow_add, width]
    congr 1
    omega⟩
  rw [card_fiber bijective, Nat.card_prod, card, card, ← Nat.pow_add, Nat.add_comm]

end Parts

end AgencC.Library
