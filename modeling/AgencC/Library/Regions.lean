import Mathlib.Algebra.Ring.Nat
import Mathlib.Data.Finset.Card
import Mathlib.Order.Interval.Finset.Nat

/-! Regions of an address space. -/

set_option autoImplicit false

namespace AgencC.Library

structure Region where
  addr : Nat
  size : Nat
  deriving DecidableEq, Repr

def Region.Apart (a b : Region) : Prop := a.addr + a.size ≤ b.addr ∨ b.addr + b.size ≤ a.addr

def Region.Within (a b : Region) : Prop := b.addr ≤ a.addr ∧ a.addr + a.size ≤ b.addr + b.size

def Region.Covers (a : Region) (x : Nat) : Prop := a.addr ≤ x ∧ x < a.addr + a.size

instance Region.decidableApart (a b : Region) : Decidable (a.Apart b) := inferInstanceAs (Decidable (_ ∨ _))

instance Region.decidableWithin (a b : Region) : Decidable (a.Within b) := inferInstanceAs (Decidable (_ ∧ _))

instance Region.decidableCovers (a : Region) (x : Nat) : Decidable (a.Covers x) := inferInstanceAs (Decidable (_ ∧ _))

theorem Region.Apart.symm {a b : Region} (apart : a.Apart b) : b.Apart a := Or.symm apart

theorem Region.Within.refl (a : Region) : a.Within a := ⟨Nat.le_refl _, Nat.le_refl _⟩

theorem Region.Within.trans {a b c : Region} (inner : a.Within b) (outer : b.Within c) :
    a.Within c :=
  ⟨Nat.le_trans outer.1 inner.1, Nat.le_trans inner.2 outer.2⟩

theorem Region.Within.covers {a b : Region} {x : Nat} (within : a.Within b) (covers : a.Covers x) :
    b.Covers x :=
  ⟨Nat.le_trans within.1 covers.1, Nat.lt_of_lt_of_le covers.2 within.2⟩

theorem Region.Apart.mono {a b a' b' : Region} (apart : a.Apart b) (left : a'.Within a)
    (right : b'.Within b) : a'.Apart b' := by
  cases apart with
  | inl before =>
      exact .inl (Nat.le_trans left.2 (Nat.le_trans before right.1))
  | inr after =>
      exact .inr (Nat.le_trans right.2 (Nat.le_trans after left.1))

theorem Region.Apart.not_covers {a b : Region} {x : Nat} (apart : a.Apart b)
    (covers : a.Covers x) : ¬ b.Covers x := by
  intro other
  cases apart with
  | inl before => exact absurd (Nat.lt_of_lt_of_le covers.2 before) (Nat.not_lt.mpr other.1)
  | inr after => exact absurd (Nat.lt_of_lt_of_le other.2 after) (Nat.not_lt.mpr covers.1)

/-- Two regions that share an address are not apart. -/
theorem Region.not_apart_of_covers {a b : Region} {x : Nat} (left : a.Covers x)
    (right : b.Covers x) : ¬ a.Apart b := fun apart => apart.not_covers left right

/-- Regions that share no address are apart, if neither is empty. -/
theorem Region.apart_of_disjoint {r r' : Region} (left : 0 < r.size) (right : 0 < r'.size)
    (disjoint : ∀ b, r.Covers b → ¬ r'.Covers b) : r.Apart r' := by
  by_contra together
  have first : ¬ r.addr + r.size ≤ r'.addr := fun before => together (.inl before)
  have second : ¬ r'.addr + r'.size ≤ r.addr := fun after => together (.inr after)
  refine disjoint (max r.addr r'.addr) ⟨Nat.le_max_left _ _, ?_⟩ ⟨Nat.le_max_right _ _, ?_⟩
  · omega
  · omega

/-- The addresses that some region covers. -/
def covered (rs : List Region) : Finset Nat :=
  rs.foldr (fun r rest => Finset.Ico r.addr (r.addr + r.size) ∪ rest) ∅

theorem mem_covered {rs : List Region} {x : Nat} : x ∈ covered rs ↔ ∃ r ∈ rs, r.Covers x := by
  induction rs with
  | nil => simp [covered]
  | cons r rs ih =>
      rw [covered, List.foldr_cons, Finset.mem_union, Finset.mem_Ico, ← covered, ih]
      simp [Region.Covers]

theorem card_covered {rs : List Region} (apart : rs.Pairwise Region.Apart) :
    (covered rs).card = (rs.map Region.size).sum := by
  induction rs with
  | nil => rfl
  | cons r rs ih =>
      obtain ⟨first, rest⟩ := List.pairwise_cons.mp apart
      have disjoint : Disjoint (Finset.Ico r.addr (r.addr + r.size)) (covered rs) := by
        refine Finset.disjoint_left.mpr fun x inside shared => ?_
        obtain ⟨other, member, covers⟩ := mem_covered.mp shared
        exact (first other member).not_covers (Finset.mem_Ico.mp inside) covers
      rw [covered, List.foldr_cons, ← covered, Finset.card_union_of_disjoint disjoint, ih rest,
        Nat.card_Ico, Nat.add_sub_cancel_left, List.map_cons, List.sum_cons]

/-- Regions that lie apart in an address space fit into it together. -/
theorem sum_sizes_le {rs : List Region} {space : Nat} (apart : rs.Pairwise Region.Apart)
    (inside : ∀ r ∈ rs, r.addr + r.size ≤ space) : (rs.map Region.size).sum ≤ space := by
  rw [← card_covered apart]
  have bounded : covered rs ⊆ Finset.range space := by
    intro x member
    obtain ⟨r, listed, covers⟩ := mem_covered.mp member
    exact Finset.mem_range.mpr (Nat.lt_of_lt_of_le covers.2 (inside r listed))
  calc (covered rs).card ≤ (Finset.range space).card := Finset.card_le_card bounded
    _ = space := Finset.card_range space

/-- Two families of regions that share no address, both inside a third. -/
theorem sum_sizes_add_le {rs ss ts : List Region} (left : rs.Pairwise Region.Apart)
    (right : ss.Pairwise Region.Apart) (around : ts.Pairwise Region.Apart)
    (disjoint : ∀ x, (∃ r ∈ rs, r.Covers x) → ¬ ∃ s ∈ ss, s.Covers x)
    (leftIn : ∀ x, (∃ r ∈ rs, r.Covers x) → ∃ t ∈ ts, t.Covers x)
    (rightIn : ∀ x, (∃ s ∈ ss, s.Covers x) → ∃ t ∈ ts, t.Covers x) :
    (rs.map Region.size).sum + (ss.map Region.size).sum ≤ (ts.map Region.size).sum := by
  rw [← card_covered left, ← card_covered right, ← card_covered around]
  have separate : Disjoint (covered rs) (covered ss) :=
    Finset.disjoint_left.mpr fun x inside shared =>
      disjoint x (mem_covered.mp inside) (mem_covered.mp shared)
  rw [← Finset.card_union_of_disjoint separate]
  refine Finset.card_le_card fun x member => mem_covered.mpr ?_
  cases Finset.mem_union.mp member with
  | inl first => exact leftIn x (mem_covered.mp first)
  | inr second => exact rightIn x (mem_covered.mp second)

end AgencC.Library
