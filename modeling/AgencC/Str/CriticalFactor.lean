import AgencC.Str.MaximalSuffix

/-! The factor the search works with: its cut is critical, and the shift chosen from it
never exceeds the smallest period of the needle. -/

set_option autoImplicit false

namespace AgencC.Str

open Library

theorem isByteSpanEqual_spec (view : View) (len left right : Nat)
    (leftFits : left + len ≤ view.bytes.length) (rightFits : right + len ≤ view.bytes.length) :
    ∃ same, isByteSpanEqual view left right len = .ok same ∧
      (same = true ↔ ∀ index < len, view.bytes[left + index]? = view.bytes[right + index]?) := by
  by_cases empty : len = 0
  · exact ⟨true, if_pos empty, iff_of_true rfl fun index bound => by omega⟩
  · have designated := View.isSome_of_bytes (by omega : 0 < view.bytes.length)
    simp only [isByteSpanEqual, if_neg empty, ensure_of designated, ok_bind, View.readBytes,
      if_pos leftFits, if_pos rightFits]
    refine ⟨_, rfl, beq_iff_eq.trans ⟨fun same index bound => ?_, fun all => ?_⟩⟩
    · have found := congrArg (·[index]?) same
      simpa only [List.getElem?_take_of_lt bound, List.getElem?_drop] using found
    · refine List.ext_getElem? fun index => ?_
      by_cases bound : index < len
      · simpa only [List.getElem?_take_of_lt bound, List.getElem?_drop] using all index bound
      · rw [List.getElem?_take_eq_none (by omega), List.getElem?_take_eq_none (by omega)]

theorem isFactorPeriodic_spec {needle : View} (valid : viewIsValid needle)
    (nonempty : 0 < needle.len) {factor : Factor} (chosen : IsCriticalFactor needle factor)
    {period : Nat} (smallest : IsSmallestPeriod needle.bytes period) :
    ∃ isPeriodic, isFactorPeriodic needle factor = .ok isPeriodic ∧
      (isPeriodic = true ↔ factor.period = period) := by
  have length := View.length_bytes valid
  have designated := View.isSome_of_pos valid nonempty
  have inside := chosen.critical.inside
  have positive := chosen.right.pos
  have decides := chosen.critical.right_period_iff smallest chosen.right
  have cutInside : factor.cut < needle.len := by omega
  simp only [isFactorPeriodic, ensure_of designated, ensure_of cutInside, ensure_of positive,
    ok_bind]
  by_cases long : needle.len - factor.cut < factor.period
  · rw [if_pos long]
    exact ⟨false, rfl, by simp, fun equal => by have := (decides.mpr equal).1; omega⟩
  · rw [if_neg long]
    obtain ⟨same, ran, correct⟩ := isByteSpanEqual_spec needle factor.cut 0
      factor.period (by omega) (by omega)
    refine ⟨same, ran, correct.trans (Iff.trans ?_ decides)⟩
    simp only [Nat.zero_add]
    exact ⟨fun all => ⟨by omega, all⟩, fun both => both.2⟩

theorem calculateNonperiodicShift_eq {needle : View} {factor : Factor} (positive : 0 < factor.cut)
    (inside : factor.cut < needle.len) :
    calculateNonperiodicShift needle factor =
      .ok (max factor.cut (needle.len - factor.cut + 1)) := by
  simp only [calculateNonperiodicShift, ensure_of positive, ensure_of inside, ok_bind]
  by_cases left : needle.len - factor.cut + 1 < factor.cut
  · rw [if_pos left, Nat.max_eq_left (Nat.le_of_lt left)]
  · rw [if_neg left, Nat.max_eq_right (Nat.le_of_not_lt left)]

/-- What is decided about a needle before the search starts. -/
structure Factored (needle : View) (factor : Factor) (isPeriodic : Bool) (period : Nat) :
    Prop where
  found : findCriticalFactor needle = .ok factor
  chosen : IsCriticalFactor needle factor
  smallest : IsSmallestPeriod needle.bytes period
  tested : isFactorPeriodic needle factor = .ok isPeriodic
  decides : isPeriodic = true ↔ factor.period = period

theorem exists_factored {needle : View} (valid : viewIsValid needle) (nonempty : 0 < needle.len) :
    ∃ factor isPeriodic period, Factored needle factor isPeriodic period := by
  have length := View.length_bytes valid
  obtain ⟨factor, found, chosen⟩ := findCriticalFactor_spec valid nonempty
  obtain ⟨period, smallest⟩ := exists_smallestPeriod
    (List.ne_nil_of_length_pos (by omega : 0 < needle.bytes.length))
  obtain ⟨isPeriodic, tested, decides⟩ := isFactorPeriodic_spec valid nonempty chosen smallest
  exact ⟨factor, isPeriodic, period, found, chosen, smallest, tested, decides⟩

namespace Factored

variable {needle : View} {factor : Factor} {isPeriodic : Bool} {period : Nat}

theorem cut_lt_period (factored : Factored needle factor isPeriodic period) :
    factor.cut < period :=
  factored.chosen.critical.cut_lt_period factored.smallest.pos factored.smallest.hasPeriod

theorem cut_lt_len (factored : Factored needle factor isPeriodic period)
    (valid : viewIsValid needle) : factor.cut < needle.len := by
  have inside := factored.chosen.critical.inside
  rwa [View.length_bytes valid] at inside

theorem period_le_len (factored : Factored needle factor isPeriodic period)
    (valid : viewIsValid needle) (nonempty : 0 < needle.len) : period ≤ needle.len := by
  have length := View.length_bytes valid
  have whole := factored.smallest.le (by omega : 0 < needle.bytes.length)
    (List.hasPeriod_of_length_le _ _ (Nat.le_refl _))
  omega

/-- The needle's smallest period is the smallest repetition around the cut. -/
theorem least_localPeriod (factored : Factored needle factor isPeriodic period) :
    IsLeast {repetition | LocalPeriod needle.bytes factor.cut repetition} period :=
  ⟨localPeriod_of_hasPeriod factored.smallest.pos factored.smallest.hasPeriod factor.cut,
    fun repetition isLocal => factored.smallest.le isLocal.pos
      (factored.chosen.critical.global repetition isLocal)⟩

/-- Without the factor's period the needle's smallest period exceeds the right part, hence
both parts of the cut. -/
theorem nonperiodic (factored : Factored needle factor false period)
    (valid : viewIsValid needle) (nonempty : 0 < needle.len) :
    0 < factor.cut ∧ max factor.cut (needle.len - factor.cut + 1) ≤ period := by
  have length := View.length_bytes valid
  have inside := factored.cut_lt_len valid
  have before := factored.cut_lt_period
  have shortest := factored.period_le_len valid nonempty
  have outruns : needle.len - factor.cut < period := by
    by_contra within
    have equal := factored.chosen.critical.period_of_right factored.smallest
      factored.chosen.right (by omega)
    exact absurd (factored.decides.mpr equal) (by simp)
  omega

/-- The shift after a full right match, and the prefix known to match then. -/
theorem context (factored : Factored needle factor isPeriodic period)
    (needleValid : viewIsValid needle) (long : 1 < needle.len) {haystack : View}
    (haystackValid : viewIsValid haystack) (fits : needle.len ≤ haystack.len)
    (mode : SearchMode) :
    buildSearchContext haystack needle mode = .ok {
      haystack, needle, factor, mode
      fullShift := if isPeriodic then period else max factor.cut (needle.len - factor.cut + 1)
      savedMemory := if isPeriodic then needle.len - period else 0
      lastIdx := haystack.len - needle.len } := by
  have designated := View.isSome_of_pos needleValid (by omega)
  simp only [buildSearchContext, ensure_of (View.isSome_of_pos haystackValid (by omega)),
    ensure_of designated, ensure_of fits, ensure_of long, ok_bind, factored.found,
    factored.tested]
  cases isPeriodic with
  | true =>
      have equal := factored.decides.mp rfl
      simp only [if_true, equal]
  | false =>
      have positive := (factored.nonperiodic needleValid (by omega)).1
      simp only [Bool.false_eq_true, if_false, ok_bind,
        calculateNonperiodicShift_eq positive (factored.cut_lt_len needleValid)]

end Factored

/-- What the search relies on in its context. -/
structure ContextOk (context : SearchContext) (period : Nat) : Prop where
  haystackValid : viewIsValid context.haystack
  needleValid : viewIsValid context.needle
  needlePos : 0 < context.needle.len
  fits : context.lastIdx + context.needle.len = context.haystack.len
  chosen : IsCriticalFactor context.needle context.factor
  smallest : IsSmallestPeriod context.needle.bytes period
  shiftPos : 0 < context.fullShift
  shiftLe : context.fullShift ≤ period
  memoryLt : context.savedMemory < context.needle.len
  /-- Only a shift by the whole period leaves a known prefix behind. -/
  memoryKnown : context.savedMemory = 0 ∨
    (context.fullShift = period ∧ context.savedMemory + period = context.needle.len)

theorem buildSearchContext_spec {haystack needle : View} (mode : SearchMode)
    (haystackValid : viewIsValid haystack) (needleValid : viewIsValid needle)
    (long : 1 < needle.len) (fits : needle.len ≤ haystack.len) :
    ∃ context period, buildSearchContext haystack needle mode = .ok context ∧
      ContextOk context period ∧ context.haystack = haystack ∧ context.needle = needle ∧
      context.mode = mode := by
  have nonempty : 0 < needle.len := by omega
  obtain ⟨factor, isPeriodic, period, factored⟩ := exists_factored needleValid nonempty
  refine ⟨_, period, factored.context needleValid long haystackValid fits mode, ?_, rfl, rfl, rfl⟩
  have within := factored.period_le_len needleValid nonempty
  have positive := factored.smallest.pos
  cases isPeriodic with
  | true =>
      exact {
        haystackValid, needleValid
        chosen := factored.chosen
        smallest := factored.smallest
        needlePos := nonempty
        fits := Nat.sub_add_cancel fits
        shiftPos := positive
        shiftLe := Nat.le_refl _
        memoryLt := Nat.sub_lt nonempty positive
        memoryKnown := .inr ⟨rfl, Nat.sub_add_cancel within⟩ }
  | false =>
      obtain ⟨cutPos, shiftLe⟩ := factored.nonperiodic needleValid nonempty
      exact {
        haystackValid, needleValid, shiftLe
        chosen := factored.chosen
        smallest := factored.smallest
        needlePos := nonempty
        fits := Nat.sub_add_cancel fits
        shiftPos := Nat.lt_of_lt_of_le cutPos (Nat.le_max_left _ _)
        memoryLt := nonempty
        memoryKnown := .inl rfl }

/-- For every needle of at least two bytes: the chosen cut comes before the smallest period,
which is also the smallest repetition around it; the periodicity test answers whether the
factor's period is the smallest one; and both kinds of shift stay within that period. -/
theorem findCriticalFactor_critical (needle : View) (needleValid : viewIsValid needle)
    (long : 2 ≤ needle.len) :
    ∃ factor isPeriodic period,
      findCriticalFactor needle = .ok factor ∧
      IsLeast {period | 0 < period ∧ needle.bytes.HasPeriod period} period ∧
      factor.cut < period ∧
      IsLeast {repetition | LocalPeriod needle.bytes factor.cut repetition} period ∧
      isFactorPeriodic needle factor = .ok isPeriodic ∧
      (isPeriodic = true ↔ factor.period = period) ∧
      (isPeriodic = false → 0 < factor.cut ∧
        calculateNonperiodicShift needle factor =
          .ok (max factor.cut (needle.len - factor.cut + 1)) ∧
        max factor.cut (needle.len - factor.cut + 1) ≤ period) ∧
      ∀ haystack mode, viewIsValid haystack → needle.len ≤ haystack.len →
        ∃ context, buildSearchContext haystack needle mode = .ok context ∧
          context.factor = factor ∧
          (isPeriodic = true → context.fullShift = period ∧
            context.savedMemory = needle.len - period ∧ period ≤ needle.len) ∧
          (isPeriodic = false →
            context.fullShift = max factor.cut (needle.len - factor.cut + 1) ∧
              context.savedMemory = 0) := by
  have nonempty : 0 < needle.len := by omega
  obtain ⟨factor, isPeriodic, period, factored⟩ := exists_factored needleValid nonempty
  refine ⟨factor, isPeriodic, period, factored.found, factored.smallest, factored.cut_lt_period,
    factored.least_localPeriod, factored.tested, factored.decides, ?_, ?_⟩
  · rintro rfl
    obtain ⟨cutPos, shiftLe⟩ := factored.nonperiodic needleValid nonempty
    exact ⟨cutPos, calculateNonperiodicShift_eq cutPos (factored.cut_lt_len needleValid), shiftLe⟩
  · intro haystack mode haystackValid fits
    refine ⟨_, factored.context needleValid long haystackValid fits mode, rfl, ?_, ?_⟩
    · rintro rfl
      exact ⟨rfl, rfl, factored.period_le_len needleValid nonempty⟩
    · rintro rfl
      exact ⟨rfl, rfl⟩

theorem findCriticalFactor_critical_abab :
    ∃ factor period context,
      findCriticalFactor (.ofBytes [97, 98, 97, 98] (by decide)) = .ok factor ∧
      factor = { cut := 1, period := 2 } ∧ factor.period = period ∧ factor.cut < period ∧
      isFactorPeriodic (.ofBytes [97, 98, 97, 98] (by decide)) factor = .ok true ∧
      buildSearchContext (.ofBytes [98, 97, 98, 97, 98] (by decide))
        (.ofBytes [97, 98, 97, 98] (by decide)) .last = .ok context ∧
      context.fullShift = 2 ∧ context.savedMemory = 2 := by
  obtain ⟨factor, isPeriodic, period, found, _, before, _, tested, decides, _, contexts⟩ :=
    findCriticalFactor_critical (.ofBytes [97, 98, 97, 98] (by decide)) rfl (by decide)
  have computed : findCriticalFactor (.ofBytes [97, 98, 97, 98] (by decide)) =
      .ok { cut := 1, period := 2 } := rfl
  obtain rfl : factor = { cut := 1, period := 2 } :=
    (Except.ok.inj (computed.symm.trans found)).symm
  have periodic : isFactorPeriodic (.ofBytes [97, 98, 97, 98] (by decide))
      { cut := 1, period := 2 } = .ok true := rfl
  obtain rfl : isPeriodic = true := Except.ok.inj (tested.symm.trans periodic)
  obtain rfl : 2 = period := decides.mp rfl
  obtain ⟨context, built, _, shifts, _⟩ :=
    contexts (.ofBytes [98, 97, 98, 97, 98] (by decide)) .last rfl (by decide)
  exact ⟨_, 2, context, computed, rfl, rfl, before, periodic, built, (shifts rfl).1,
    (shifts rfl).2.1⟩

end AgencC.Str
