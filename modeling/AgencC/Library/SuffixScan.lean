import AgencC.Library.Words
import Mathlib.Tactic.Ring

/-! The left-to-right scan for a maximal suffix. The scan compares the suffix at
`cut` with the one just after `candidate`, which agree on `offset - 1` letters;
the letters from `cut` up to the scan position have period `period`. -/

set_option autoImplicit false

namespace AgencC.Library

variable {α : Type} {r : α → α → Prop} {word : List α} {cut period candidate offset : Nat}

structure ScanInv (r : α → α → Prop) (word : List α)
    (cut period candidate offset : Nat) : Prop where
  period_pos : 0 < period
  offset_pos : 0 < offset
  offset_le : offset ≤ period
  cut_le : cut ≤ candidate
  reach : candidate + offset ≤ word.length
  copies : period ∣ candidate + 1 - cut
  periodic : ∀ index, cut ≤ index → index + period < candidate + offset →
    word[index]? = word[index + period]?
  /-- Inside one period every later start already loses to `cut`. -/
  inner : ∀ start, 0 < start → start < period → ∃ shared, start + shared < period ∧
    (∀ step < shared, word[cut + start + step]? = word[cut + step]?) ∧
      Below r word[cut + start + shared]? word[cut + shared]?
  dominated : ∀ start < cut, SuffixBefore r word start cut

namespace ScanInv

theorem initial (nonempty : 0 < word.length) : ScanInv r word 0 1 0 1 where
  period_pos := by omega
  offset_pos := by omega
  offset_le := by omega
  cut_le := by omega
  reach := by omega
  copies := by simp
  periodic := by intro index _ bound; omega
  inner := by intro start positive bound; omega
  dominated := by intro start bound; omega

theorem period_le (inv : ScanInv r word cut period candidate offset) :
    period ≤ candidate + 1 - cut :=
  Nat.le_of_dvd (by have := inv.cut_le; omega) inv.copies

private theorem copy (inv : ScanInv r word cut period candidate offset)
    (index count : Nat) (after : cut ≤ index)
    (bound : index + period * count < candidate + offset) :
    word[index + period * count]? = word[index]? := by
  induction count with
  | zero => simp
  | succ count ih =>
      rw [Nat.mul_succ] at bound
      have := inv.period_pos
      rw [← ih (by omega), inv.periodic (index + period * count) (by omega) (by omega),
        Nat.mul_succ, Nat.add_assoc]

/-- The compared letter of the suffix at `cut`, one period before the scan position. -/
private theorem letter_before (inv : ScanInv r word cut period candidate offset) :
    word[candidate + offset - period]? = word[cut + offset - 1]? := by
  obtain ⟨count, whole⟩ := inv.copies
  have := inv.cut_le
  have := inv.offset_pos
  have := inv.period_pos
  cases count with
  | zero => simp at whole; omega
  | succ count =>
      rw [Nat.mul_succ] at whole
      rw [← inv.copy (cut + offset - 1) count (by omega) (by omega)]
      congr 1
      omega

private theorem periodic_next (inv : ScanInv r word cut period candidate offset)
    (same : word[candidate + offset]? = word[cut + offset - 1]?) (index : Nat)
    (after : cut ≤ index) (bound : index + period < candidate + offset + 1) :
    word[index]? = word[index + period]? := by
  rcases Nat.lt_or_ge (index + period) (candidate + offset) with before | last
  · exact inv.periodic index after before
  · have here : index + period = candidate + offset := by omega
    rw [here, same, ← inv.letter_before]
    congr 1
    omega

theorem step_offset (inv : ScanInv r word cut period candidate offset)
    (more : candidate + offset < word.length)
    (same : word[candidate + offset]? = word[cut + offset - 1]?) (short : offset ≠ period) :
    ScanInv r word cut period candidate (offset + 1) where
  period_pos := inv.period_pos
  offset_pos := by omega
  offset_le := by have := inv.offset_le; omega
  cut_le := inv.cut_le
  reach := by omega
  copies := inv.copies
  periodic := fun index after bound => inv.periodic_next same index after (by omega)
  inner := inv.inner
  dominated := inv.dominated

theorem step_copy (inv : ScanInv r word cut period candidate offset)
    (more : candidate + offset < word.length)
    (same : word[candidate + offset]? = word[cut + offset - 1]?) (full : offset = period) :
    ScanInv r word cut period (candidate + period) 1 where
  period_pos := inv.period_pos
  offset_pos := by omega
  offset_le := inv.period_pos
  cut_le := by have := inv.cut_le; omega
  reach := by omega
  copies := by
    have := inv.cut_le
    rw [show candidate + period + 1 - cut = (candidate + 1 - cut) + period by omega]
    exact Nat.dvd_add inv.copies (Nat.dvd_refl period)
  periodic := fun index after bound => inv.periodic_next same index after (by omega)
  inner := inv.inner
  dominated := inv.dominated

/-- The scan position read from any whole number of periods after `cut`. -/
private theorem copy_letter (inv : ScanInv r word cut period candidate offset)
    (count : Nat) (bound : period * count ≤ candidate + 1 - cut) (positive : 0 < count) :
    word[cut + (candidate + offset - (cut + period * count))]? = word[cut + offset - 1]? := by
  obtain ⟨total, whole⟩ := inv.copies
  have := inv.cut_le
  have := inv.offset_pos
  have := inv.period_pos
  rw [whole] at bound
  have ordered : count ≤ total := Nat.le_of_mul_le_mul_left bound inv.period_pos
  obtain ⟨rest, rfl⟩ := Nat.exists_eq_add_of_le ordered
  rw [Nat.mul_add] at whole
  have large : period * 1 ≤ period * count := Nat.mul_le_mul_left period positive
  rw [← inv.copy (cut + offset - 1) rest (by omega) (by omega)]
  congr 1
  omega

/-- A start between `cut` and the scan position, split into whole periods and a rest. -/
private theorem split_start (inv : ScanInv r word cut period candidate offset)
    (start : Nat) (bound : start ≤ candidate + offset - cut) :
    ∃ count rest, start = period * count + rest ∧ rest < period ∧
      period * count ≤ candidate + 1 - cut := by
  have positive := inv.period_pos
  have := inv.offset_le
  have := inv.offset_pos
  refine ⟨start / period, start % period, (Nat.div_add_mod start period).symm,
    Nat.mod_lt _ positive, ?_⟩
  obtain ⟨total, whole⟩ := inv.copies
  rw [whole]
  apply Nat.mul_le_mul_left
  have upper : start < period * (total + 1) := by
    rw [Nat.mul_add, ← whole]
    omega
  exact Nat.le_of_lt_succ (Nat.div_lt_of_lt_mul upper)

private theorem inner_extend [IsTrans α r] (inv : ScanInv r word cut period candidate offset)
    (less : Below r word[candidate + offset]? word[cut + offset - 1]?)
    (start : Nat) (positive : 0 < start) (bound : start ≤ candidate + offset - cut) :
    ∃ shared, start + shared ≤ candidate + offset - cut ∧
      (∀ step < shared, word[cut + start + step]? = word[cut + step]?) ∧
        Below r word[cut + start + shared]? word[cut + shared]? := by
  obtain ⟨count, rest, rfl, small, whole⟩ := inv.split_start start bound
  have := inv.cut_le
  have := inv.offset_pos
  rcases Nat.eq_zero_or_pos rest with zero | inside
  · subst zero
    refine ⟨candidate + offset - (cut + period * count), by omega, fun step before => ?_, ?_⟩
    · rw [show cut + (period * count + 0) + step = cut + step + period * count by omega]
      exact inv.copy (cut + step) count (by omega) (by omega)
    · rw [inv.copy_letter count whole (by
        cases count with
        | zero => simp at positive
        | succ count => omega)]
      rwa [show cut + (period * count + 0) + (candidate + offset - (cut + period * count)) =
        candidate + offset by omega]
  · obtain ⟨shared, fits, same, below⟩ := inv.inner rest inside small
    have moved : ∀ step, rest + step < period →
        cut + period * count + rest + step < candidate + offset →
        word[cut + (period * count + rest) + step]? = word[cut + rest + step]? := by
      intro step _ before
      rw [← inv.copy (cut + rest + step) count (by omega) (by omega)]
      congr 1
      omega
    rcases Nat.lt_or_ge (cut + period * count + rest + shared) (candidate + offset)
      with before | reaches
    · refine ⟨shared, by omega, fun step near => ?_, ?_⟩
      · rw [moved step (by omega) (by omega), same step near]
      · rwa [moved shared fits before]
    · -- Only the last, partial copy is cut off by the scan position.
      obtain ⟨total, exact⟩ := inv.copies
      have last : candidate + 1 - cut = period * count := by
        rw [exact] at whole ⊢
        have ordered : count ≤ total := Nat.le_of_mul_le_mul_left whole inv.period_pos
        have tight : total < count + 1 := by
          apply Nat.lt_of_mul_lt_mul_left (a := period)
          rw [Nat.mul_add, ← exact]
          omega
        congr 1
        omega
      refine ⟨offset - 1 - rest, by omega, fun step near => ?_, ?_⟩
      · rw [moved step (by omega) (by omega), same step (by omega)]
      · rw [show cut + (period * count + rest) + (offset - 1 - rest) = candidate + offset by omega]
        rcases Nat.lt_or_ge (offset - 1 - rest) shared with earlier | here
        · rw [← same _ earlier]
          rwa [show cut + rest + (offset - 1 - rest) = cut + offset - 1 by omega]
        · rw [show cut + rest + shared = cut + offset - 1 by omega] at below
          rw [show offset - 1 - rest = shared by omega]
          exact less.trans below

theorem step_extend [IsTrans α r] (inv : ScanInv r word cut period candidate offset)
    (more : candidate + offset < word.length)
    (less : Below r word[candidate + offset]? word[cut + offset - 1]?) :
    ScanInv r word cut (candidate + offset - cut + 1) (candidate + offset) 1 where
  period_pos := by omega
  offset_pos := by omega
  offset_le := by omega
  cut_le := by have := inv.cut_le; omega
  reach := by omega
  copies := by
    have := inv.cut_le
    rw [show candidate + offset + 1 - cut = candidate + offset - cut + 1 by omega]
  periodic := by intro index after bound; have := inv.cut_le; omega
  inner := by
    intro start positive bound
    obtain ⟨shared, fits, same, below⟩ := inv.inner_extend less start positive (by omega)
    exact ⟨shared, by omega, same, below⟩
  dominated := inv.dominated

private theorem cut_before_next (inv : ScanInv r word cut period candidate offset)
    (greater : Below r word[cut + offset - 1]? word[candidate + offset]?) :
    SuffixBefore r word cut (candidate + 1) := by
  have := inv.cut_le
  have := inv.offset_pos
  obtain ⟨total, whole⟩ := inv.copies
  refine ⟨offset - 1, fun step near => ?_, ?_⟩
  · rw [← inv.copy (cut + step) total (by omega) (by omega)]
    congr 1
    omega
  · rwa [show cut + (offset - 1) = cut + offset - 1 by omega,
      show candidate + 1 + (offset - 1) = candidate + offset by omega]

/-- A start after `cut` that is not a whole number of periods away loses to `cut`. -/
private theorem rest_before_cut (inv : ScanInv r word cut period candidate offset)
    (count rest : Nat) (inside : 0 < rest) (small : rest < period)
    (bound : cut + period * count + period ≤ candidate + offset) :
    SuffixBefore r word (cut + period * count + rest) cut := by
  obtain ⟨shared, fits, same, below⟩ := inv.inner rest inside small
  have moved : ∀ step, rest + step < period →
      word[cut + period * count + rest + step]? = word[cut + rest + step]? := by
    intro step before
    rw [← inv.copy (cut + rest + step) count (by omega) (by omega)]
    congr 1
    omega
  exact ⟨shared, fun step near => by rw [moved step (by omega), same step near],
    by rwa [moved shared fits]⟩

private theorem dominated_restart [IsTrans α r]
    (inv : ScanInv r word cut period candidate offset)
    (greater : Below r word[cut + offset - 1]? word[candidate + offset]?)
    (start : Nat) (bound : start ≤ candidate) :
    SuffixBefore r word start (candidate + 1) := by
  have base := inv.cut_before_next greater
  have := inv.cut_le
  have := inv.offset_pos
  rcases Nat.lt_or_ge start cut with before | after
  · exact (inv.dominated start before).trans base
  obtain ⟨count, rest, split, small, whole⟩ := inv.split_start (start - cut) (by omega)
  obtain ⟨total, exact⟩ := inv.copies
  have room : period * count + period ≤ candidate + 1 - cut := by
    have ordered : count < total := by
      by_contra reaches
      have := Nat.mul_le_mul_left period (Nat.le_of_not_lt reaches)
      omega
    rw [exact, ← Nat.mul_succ]
    exact Nat.mul_le_mul_left period ordered
  rcases Nat.eq_zero_or_pos rest with zero | inside
  · refine ⟨offset - 1, fun step near => ?_, ?_⟩
    · have left := inv.copy (cut + step) count (by omega) (by omega)
      have right := inv.copy (cut + step) total (by omega) (by omega)
      rw [show start + step = cut + step + period * count by omega, left, ← right]
      congr 1
      omega
    · have left := inv.copy (cut + offset - 1) count (by omega)
        (by have := inv.offset_le; omega)
      rw [show start + (offset - 1) = cut + offset - 1 + period * count by omega, left]
      rwa [show candidate + 1 + (offset - 1) = candidate + offset by omega]
  · have lost := inv.rest_before_cut count rest inside small (by omega)
    rw [show cut + period * count + rest = start by omega] at lost
    exact lost.trans base

theorem step_restart [IsTrans α r] (inv : ScanInv r word cut period candidate offset)
    (more : candidate + offset < word.length)
    (greater : Below r word[cut + offset - 1]? word[candidate + offset]?) :
    ScanInv r word (candidate + 1) 1 (candidate + 1) 1 where
  period_pos := by omega
  offset_pos := by omega
  offset_le := by omega
  cut_le := by omega
  reach := by have := inv.offset_pos; omega
  copies := by simp
  periodic := by intro index after bound; omega
  inner := by intro start positive bound; omega
  dominated := fun start bound => inv.dominated_restart greater start (by omega)

/-- A finished scan has found the maximal suffix. -/
theorem isMaxSuffix (inv : ScanInv r word cut period candidate offset)
    (done : candidate + offset = word.length) : IsMaxSuffix r word cut where
  inside := by have := inv.cut_le; have := inv.offset_pos; omega
  largest := by
    intro start bound different
    have := inv.cut_le
    rcases Nat.lt_or_ge start cut with before | after
    · exact inv.dominated start before
    obtain ⟨count, rest, split, small, whole⟩ := inv.split_start (start - cut) (by omega)
    have ends : ∀ limit, start + limit = word.length →
        (∀ step < limit, word[start + step]? = word[cut + step]?) →
        SuffixBefore r word start cut := by
      intro limit last same
      refine ⟨limit, same, ?_⟩
      rw [List.getElem?_eq_none (by omega), List.getElem?_eq_getElem (by omega)]
      exact below_none_some r _
    rcases Nat.eq_zero_or_pos rest with zero | inside
    · refine ends (word.length - start) (by omega) fun step near => ?_
      rw [← inv.copy (cut + step) count (by omega) (by omega)]
      congr 1
      omega
    · obtain ⟨shared, fits, same, below⟩ := inv.inner rest inside small
      have moved : ∀ step, start + step < word.length →
          word[start + step]? = word[cut + rest + step]? := by
        intro step before
        rw [← inv.copy (cut + rest + step) count (by omega) (by omega)]
        congr 1
        omega
      rcases Nat.lt_or_ge (start + shared) word.length with before | reaches
      · exact ⟨shared, fun step near => by rw [moved step (by omega), same step near],
          by rwa [moved shared before]⟩
      · refine ends (word.length - start) (by omega) fun step near => ?_
        rw [moved step (by omega), same step (by omega)]

/-- A finished scan has found the smallest period of the maximal suffix. -/
theorem isSmallestPeriod [Std.Asymm r] (inv : ScanInv r word cut period candidate offset)
    (done : candidate + offset = word.length) : IsSmallestPeriod (word.drop cut) period := by
  have := inv.cut_le
  refine ⟨⟨inv.period_pos, ?_⟩, ?_⟩
  · rw [List.hasPeriod_iff_getElem?]
    intro index bound
    rw [List.length_drop] at bound
    rw [List.getElem?_drop, List.getElem?_drop, ← Nat.add_assoc]
    exact inv.periodic (cut + index) (by omega) (by omega)
  · intro other member
    obtain ⟨positive, periodic⟩ := member
    by_contra shorter
    obtain ⟨shared, fits, _, below⟩ := inv.inner other positive (by omega)
    have := inv.period_le
    have := inv.offset_pos
    have step := List.hasPeriod_iff_getElem?.mp periodic shared
      (by rw [List.length_drop]; omega)
    rw [List.getElem?_drop, List.getElem?_drop] at step
    rw [show cut + other + shared = cut + (shared + other) by omega, ← step] at below
    exact below.irrefl

end ScanInv

end AgencC.Library
