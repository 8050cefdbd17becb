import Mathlib.Data.List.PeriodicityLemma
import Mathlib.Data.List.Lex

/-! Words, their periods and their suffix order. The suffix order is read by
index: a suffix that ends first is smaller. The critical factorization theorem
below needs only that the letter order is asymmetric. -/

set_option autoImplicit false

namespace AgencC.Library

variable {α : Type}

/-- Letter order with the end of the word below every letter. -/
def Below (r : α → α → Prop) : Option α → Option α → Prop
  | none, some _ => True
  | some left, some right => r left right
  | _, none => False

@[simp] theorem below_none_right (r : α → α → Prop) (left : Option α) :
    ¬ Below r left none := by
  cases left <;> simp [Below]

@[simp] theorem below_some_some (r : α → α → Prop) (left right : α) :
    Below r (some left) (some right) ↔ r left right := Iff.rfl

@[simp] theorem below_none_some (r : α → α → Prop) (right : α) :
    Below r none (some right) := trivial

theorem Below.irrefl {r : α → α → Prop} [Std.Asymm r] {letter : Option α} :
    ¬ Below r letter letter := by
  cases letter with
  | none => simp
  | some letter => exact fun before => Std.Asymm.asymm (r := r) letter letter before before

theorem Below.asymm {r : α → α → Prop} [Std.Asymm r] {left right : Option α}
    (before : Below r left right) : ¬ Below r right left := by
  cases left with
  | none => simp
  | some left =>
      cases right with
      | none => simp at before
      | some right => exact Std.Asymm.asymm (r := r) left right before

theorem Below.trans {r : α → α → Prop} [IsTrans α r] {first second third : Option α}
    (before : Below r first second) (after : Below r second third) : Below r first third := by
  cases third with
  | none => simp at after
  | some third =>
      cases second with
      | none => simp at before
      | some second =>
          cases first with
          | none => simp
          | some first => exact IsTrans.trans (r := r) first second third before after

instance flip_asymm {r : α → α → Prop} [Std.Asymm r] : Std.Asymm (flip r) :=
  ⟨fun left right before => Std.Asymm.asymm (r := r) right left before⟩

/-- The suffix of `word` at `left` is lexicographically below the one at `right`. -/
def SuffixBefore (r : α → α → Prop) (word : List α) (left right : Nat) : Prop :=
  ∃ shared : Nat, (∀ step < shared, word[left + step]? = word[right + step]?) ∧
    Below r word[left + shared]? word[right + shared]?

/-- The index reading of the suffix order is the lexicographic order of lists. -/
theorem lex_iff_exists_mismatch (r : α → α → Prop) (left right : List α) :
    List.Lex r left right ↔ ∃ shared : Nat,
      (∀ step < shared, left[step]? = right[step]? ∧ left[step]? ≠ none) ∧
        Below r left[shared]? right[shared]? := by
  induction left generalizing right with
  | nil =>
      cases right with
      | nil =>
          constructor
          · intro before; cases before
          · rintro ⟨shared, _, before⟩; simp at before
      | cons head tail =>
          exact ⟨fun _ => ⟨0, by simp, by simp⟩, fun _ => .nil⟩
  | cons head tail ih =>
      cases right with
      | nil =>
          constructor
          · intro before; cases before
          · rintro ⟨shared, _, before⟩; simp at before
      | cons other rest =>
          constructor
          · intro before
            cases before with
            | rel less => exact ⟨0, by simp, by simpa using less⟩
            | cons deeper =>
                obtain ⟨shared, same, before⟩ := (ih rest).mp deeper
                refine ⟨shared + 1, ?_, by simpa using before⟩
                intro step bound
                cases step with
                | zero => simp
                | succ step => simpa using same step (by omega)
          · rintro ⟨shared, same, before⟩
            cases shared with
            | zero => exact .rel (by simpa using before)
            | succ shared =>
                have heads := (same 0 (by omega)).1
                simp only [List.getElem?_cons_zero, Option.some.injEq] at heads
                subst heads
                refine .cons ((ih rest).mpr ⟨shared, ?_, by simpa using before⟩)
                intro step bound
                simpa using same (step + 1) (by omega)

theorem suffixBefore_iff_lex (r : α → α → Prop) (word : List α) (left right : Nat) :
    SuffixBefore r word left right ↔ List.Lex r (word.drop left) (word.drop right) := by
  rw [lex_iff_exists_mismatch]
  simp only [List.getElem?_drop]
  constructor
  · rintro ⟨shared, same, before⟩
    refine ⟨shared, fun step bound => ⟨same step bound, ?_⟩, before⟩
    intro ended
    have other : word[right + step]? = none := (same step bound).symm.trans ended
    have later : word[right + shared]? = none := by
      rw [List.getElem?_eq_none_iff] at other ⊢
      omega
    simp [later] at before
  · rintro ⟨shared, same, before⟩
    exact ⟨shared, fun step bound => (same step bound).1, before⟩

theorem SuffixBefore.asymm {r : α → α → Prop} [Std.Asymm r] {word : List α}
    {left right : Nat} (before : SuffixBefore r word left right) :
    ¬ SuffixBefore r word right left := by
  obtain ⟨shared, same, less⟩ := before
  rintro ⟨shared', same', less'⟩
  rcases Nat.lt_trichotomy shared shared' with lower | equal | higher
  · rw [same' shared lower] at less
    exact less.irrefl
  · subst equal
    exact less.asymm less'
  · rw [same shared' higher] at less'
    exact less'.irrefl

theorem SuffixBefore.trans {r : α → α → Prop} [IsTrans α r] {word : List α}
    {first second third : Nat} (before : SuffixBefore r word first second)
    (after : SuffixBefore r word second third) : SuffixBefore r word first third := by
  rw [suffixBefore_iff_lex] at *
  exact List.lex_trans (fun less next => IsTrans.trans _ _ _ less next) before after

/-- `cut` starts the largest suffix of `word` for the letter order `r`. -/
structure IsMaxSuffix (r : α → α → Prop) (word : List α) (cut : Nat) : Prop where
  inside : cut < word.length
  largest : ∀ start < word.length, start ≠ cut → SuffixBefore r word start cut

theorem hasPeriod_iff_back {word : List α} {period : Nat} :
    word.HasPeriod period ↔
      ∀ index, period ≤ index → index < word.length → word[index]? = word[index - period]? := by
  rw [List.hasPeriod_iff_getElem?]
  constructor
  · intro forward index enough bound
    have step := forward (index - period) (by omega)
    rwa [Nat.sub_add_cancel enough, eq_comm] at step
  · intro back index bound
    have step := back (index + period) (by omega) (by omega)
    rwa [Nat.add_sub_cancel, eq_comm] at step

theorem hasPeriod_drop {word : List α} {period : Nat} (periodic : word.HasPeriod period)
    (cut : Nat) : (word.drop cut).HasPeriod period :=
  periodic.infix (List.drop_suffix cut word).isInfix

/-- The smallest positive period of a word. -/
def IsSmallestPeriod (word : List α) (period : Nat) : Prop :=
  IsLeast {candidate | 0 < candidate ∧ word.HasPeriod candidate} period

theorem IsSmallestPeriod.pos {word : List α} {period : Nat}
    (smallest : IsSmallestPeriod word period) : 0 < period := smallest.1.1

theorem IsSmallestPeriod.hasPeriod {word : List α} {period : Nat}
    (smallest : IsSmallestPeriod word period) : word.HasPeriod period := smallest.1.2

theorem IsSmallestPeriod.le {word : List α} {period other : Nat}
    (smallest : IsSmallestPeriod word period) (positive : 0 < other)
    (periodic : word.HasPeriod other) : period ≤ other := smallest.2 ⟨positive, periodic⟩

theorem exists_smallestPeriod {word : List α} (nonempty : word ≠ []) :
    ∃ period, IsSmallestPeriod word period := by
  have some_period : ∃ candidate, 0 < candidate ∧ word.HasPeriod candidate :=
    ⟨word.length, List.length_pos_iff.mpr nonempty, List.hasPeriod_of_length_le _ _ le_rfl⟩
  classical
  exact ⟨Nat.find some_period, Nat.find_spec some_period,
    fun _ member => Nat.find_min' some_period member⟩

/-- A repetition of length `period` centred at `cut`. Either half may run past
its end of the word. -/
structure LocalPeriod (word : List α) (cut period : Nat) : Prop where
  pos : 0 < period
  repeats : ∀ index, cut ≤ index → index < cut + period → period ≤ index →
    index < word.length → word[index]? = word[index - period]?

/-- Every repetition centred at a critical cut is a period of the whole word
and is longer than the part before the cut. -/
structure IsCritical (word : List α) (cut : Nat) : Prop where
  inside : cut < word.length
  before_cut : ∀ period, LocalPeriod word cut period → cut < period
  global : ∀ period, LocalPeriod word cut period → word.HasPeriod period

theorem localPeriod_of_hasPeriod {word : List α} {period : Nat} (positive : 0 < period)
    (periodic : word.HasPeriod period) (cut : Nat) : LocalPeriod word cut period :=
  ⟨positive, fun index _ _ enough bound => hasPeriod_iff_back.mp periodic index enough bound⟩

theorem IsCritical.cut_lt_period {word : List α} {cut period : Nat}
    (critical : IsCritical word cut) (positive : 0 < period)
    (periodic : word.HasPeriod period) : cut < period :=
  critical.before_cut period (localPeriod_of_hasPeriod positive periodic cut)

private theorem LocalPeriod.cut_lt {r : α → α → Prop} [Std.Asymm r] {word : List α}
    {cut period : Nat} (largest : IsMaxSuffix r word cut)
    (repetition : LocalPeriod word cut period) : cut < period := by
  by_contra reaches
  -- A repetition inside the left part would start an even larger suffix.
  have earlier := largest.largest (cut - period) (by have := largest.inside; omega)
    (by have := repetition.pos; omega)
  obtain ⟨shared, same, below⟩ := earlier
  have copies : ∀ step < period, cut + step < word.length →
      word[cut - period + step]? = word[cut + step]? := by
    intro step bound inside
    rw [repetition.repeats (cut + step) (by omega) (by omega) (by omega) inside]
    congr 1
    omega
  have long : period ≤ shared := by
    by_contra short
    rcases Nat.lt_or_ge (cut + shared) word.length with inside | outside
    · rw [copies shared (by omega) inside] at below
      exact below.irrefl
    · rw [List.getElem?_eq_none outside] at below
      simp at below
  obtain ⟨rest, rfl⟩ := Nat.exists_eq_add_of_le long
  have later : SuffixBefore r word cut (cut + period) := by
    refine ⟨rest, fun step bound => ?_, ?_⟩
    · have step_same := same (period + step) (by omega)
      rwa [show cut - period + (period + step) = cut + step by omega,
        show cut + (period + step) = cut + period + step by omega] at step_same
    · rwa [show cut - period + (period + rest) = cut + rest by omega,
        show cut + (period + rest) = cut + period + rest by omega] at below
  rcases Nat.lt_or_ge (cut + period) word.length with inside | outside
  · exact later.asymm (largest.largest (cut + period) inside (by have := repetition.pos; omega))
  · obtain ⟨shared', _, below'⟩ := later
    rw [List.getElem?_eq_none (by omega : word.length ≤ cut + period + shared')] at below'
    simp at below'

private theorem LocalPeriod.hasPeriod {r : α → α → Prop} [Std.Asymm r] {word : List α}
    {cut other period : Nat} (largest : IsMaxSuffix r word cut)
    (reversed : IsMaxSuffix (flip r) word other) (ordered : other ≤ cut)
    (repetition : LocalPeriod word cut period) : word.HasPeriod period := by
  have reach := repetition.cut_lt largest
  rw [hasPeriod_iff_back]
  intro index enough bound
  rcases Nat.lt_or_ge index (cut + period) with near | far
  · exact repetition.repeats index (by omega) near enough bound
  -- Both maximal suffixes dominate the tail after one copy, so it only ends early.
  obtain ⟨shared, same, below⟩ :=
    largest.largest (cut + period) (by omega) (by have := repetition.pos; omega)
  obtain ⟨shared', same', below'⟩ :=
    reversed.largest (other + period) (by omega) (by have := repetition.pos; omega)
  have aligned : ∀ step < cut - other,
      word[other + period + step]? = word[other + step]? := by
    intro step near
    rw [repetition.repeats (other + period + step) (by omega) (by omega) (by omega) (by omega)]
    congr 1
    omega
  have long : cut - other ≤ shared' := by
    by_contra short
    rw [aligned shared' (by omega)] at below'
    exact below'.irrefl (r := flip r)
  obtain ⟨rest, rfl⟩ := Nat.exists_eq_add_of_le long
  rw [show other + period + (cut - other + rest) = cut + period + rest by omega,
    show other + (cut - other + rest) = cut + rest by omega] at below'
  have same_rest : ∀ step < rest, word[cut + period + step]? = word[cut + step]? := by
    intro step near
    have step_same := same' (cut - other + step) (by omega)
    rwa [show other + period + (cut - other + step) = cut + period + step by omega,
      show other + (cut - other + step) = cut + step by omega] at step_same
  have ended : word.length ≤ cut + period + shared := by
    rcases Nat.lt_trichotomy shared rest with lower | equal | higher
    · rw [same_rest shared lower] at below
      exact absurd below Below.irrefl
    · subst equal
      cases first : word[cut + period + shared]? with
      | none => exact List.getElem?_eq_none_iff.mp first
      | some letter =>
          cases second : word[cut + shared]? with
          | none => simp [second] at below
          | some letter' =>
              rw [first, second] at below below'
              exact absurd below (Std.Asymm.asymm (r := r) letter' letter below')
    · rw [same rest higher] at below'
      exact absurd below' (Below.irrefl (r := flip r))
  have tail := same (index - (cut + period)) (by omega)
  rw [show cut + period + (index - (cut + period)) = index by omega] at tail
  rw [tail]
  congr 1
  omega

/-- Critical factorization: of the two maximal suffixes for a letter order and
its reverse, the shorter one starts at a critical cut. -/
theorem isCritical_of_maxSuffixes {r : α → α → Prop} [Std.Asymm r] {word : List α}
    {cut other : Nat} (largest : IsMaxSuffix r word cut)
    (reversed : IsMaxSuffix (flip r) word other) (ordered : other ≤ cut) :
    IsCritical word cut where
  inside := largest.inside
  before_cut _ repetition := repetition.cut_lt largest
  global _ repetition := repetition.hasPeriod largest reversed ordered

private theorem getElem?_add_mul {word : List α} {period : Nat}
    (periodic : word.HasPeriod period) (index copies : Nat)
    (bound : index + period * copies < word.length) :
    word[index + period * copies]? = word[index]? := by
  rw [← periodic.getElem?_mod period _ _ bound, Nat.add_mul_mod_self_left,
    periodic.getElem?_mod period _ _ (by omega)]

/-- When the smallest period fits right of a critical cut, the right part
already has it as its own smallest period. -/
theorem IsCritical.period_of_right {word : List α} {cut period right : Nat}
    (critical : IsCritical word cut) (smallest : IsSmallestPeriod word period)
    (rightSmallest : IsSmallestPeriod (word.drop cut) right)
    (fits : period ≤ word.length - cut) : right = period := by
  have upper : right ≤ period :=
    rightSmallest.le smallest.pos (hasPeriod_drop smallest.hasPeriod cut)
  by_contra different
  have positive := rightSmallest.pos
  have reach := critical.cut_lt_period smallest.pos smallest.hasPeriod
  -- The remainder of `period` modulo `right`, taken in `1..right`, repeats at the cut.
  obtain ⟨copies, split⟩ : ∃ copies, (period - 1) % right + right * copies = period - 1 :=
    ⟨(period - 1) / right, Nat.mod_add_div (period - 1) right⟩
  have small := Nat.mod_lt (period - 1) positive
  have repetition : LocalPeriod word cut ((period - 1) % right + 1) := by
    refine ⟨by omega, fun index after before enough bound => ?_⟩
    have left := hasPeriod_iff_back.mp smallest.hasPeriod
      (index - ((period - 1) % right + 1) + period) (by omega) (by omega)
    rw [Nat.add_sub_cancel] at left
    rw [← left]
    have shifted := getElem?_add_mul rightSmallest.hasPeriod (index - cut) copies
      (by rw [List.length_drop]; omega)
    rw [List.getElem?_drop, List.getElem?_drop] at shifted
    rw [show index = cut + (index - cut) by omega, ← shifted]
    congr 1
    omega
  have shorter := smallest.le repetition.pos (critical.global _ repetition)
  omega

/-- Comparing the left part one right-period later decides whether that period
is the smallest period of the whole word. -/
theorem IsCritical.right_period_iff {word : List α} {cut period right : Nat}
    (critical : IsCritical word cut) (smallest : IsSmallestPeriod word period)
    (rightSmallest : IsSmallestPeriod (word.drop cut) right) :
    (right ≤ word.length - cut ∧ ∀ index < cut, word[index]? = word[right + index]?) ↔
      right = period := by
  have inside := critical.inside
  constructor
  · rintro ⟨fits, leftSame⟩
    have periodic : word.HasPeriod right := by
      rw [List.hasPeriod_iff_getElem?]
      intro index bound
      rcases Nat.lt_or_ge index cut with before | after
      · rw [leftSame index before, Nat.add_comm]
      · have step := List.hasPeriod_iff_getElem?.mp rightSmallest.hasPeriod (index - cut)
          (by rw [List.length_drop]; omega)
        rw [List.getElem?_drop, List.getElem?_drop] at step
        rwa [show cut + (index - cut) = index by omega,
          show cut + (index - cut + right) = index + right by omega] at step
    exact Nat.le_antisymm
      (rightSmallest.le smallest.pos (hasPeriod_drop smallest.hasPeriod cut))
      (smallest.le rightSmallest.pos periodic)
  · rintro rfl
    have fits : right ≤ word.length - cut := by
      have whole := rightSmallest.le (by omega : 0 < word.length - cut)
        (List.hasPeriod_of_length_le _ _ (by rw [List.length_drop]))
      exact whole
    refine ⟨fits, fun index before => ?_⟩
    rw [List.hasPeriod_iff_getElem?.mp smallest.hasPeriod index (by omega), Nat.add_comm]

/-- `needle` occurs in `text` at `start`. -/
def OccursAt (text needle : List α) (start : Nat) : Prop :=
  start + needle.length ≤ text.length ∧
    ∀ index < needle.length, text[start + index]? = needle[index]?

theorem occursAt_iff_isPrefix {text needle : List α} {start : Nat} :
    OccursAt text needle start ↔
      start + needle.length ≤ text.length ∧ needle <+: text.drop start := by
  unfold OccursAt
  refine and_congr_right fun fits => ?_
  rw [List.prefix_iff_getElem?]
  constructor
  · intro same index bound
    rw [List.getElem?_drop, same index bound, List.getElem?_eq_getElem bound]
  · intro same index bound
    have copied := same index bound
    rwa [List.getElem?_drop, ← List.getElem?_eq_getElem bound] at copied

theorem occursAt_singleton {text : List α} {a : α} {start : Nat} :
    OccursAt text [a] start ↔ text[start]? = some a := by
  constructor
  · intro occurs
    exact occurs.2 0 Nat.zero_lt_one
  · intro found
    obtain ⟨inside, _⟩ := List.getElem?_eq_some_iff.mp found
    refine ⟨inside, fun index bound => ?_⟩
    obtain rfl : index = 0 := Nat.lt_one_iff.mp bound
    exact found

instance [DecidableEq α] (text needle : List α) (start : Nat) :
    Decidable (OccursAt text needle start) :=
  decidable_of_iff _ occursAt_iff_isPrefix.symm

/-- The position-by-position search from the left. -/
def firstOccurrence [DecidableEq α] (text needle : List α) : Option Nat :=
  (List.range (text.length + 1)).find? fun start => decide (OccursAt text needle start)

/-- The position-by-position search from the right. -/
def lastOccurrence [DecidableEq α] (text needle : List α) : Option Nat :=
  (List.range (text.length + 1)).reverse.find? fun start => decide (OccursAt text needle start)

theorem OccursAt.start_le {text needle : List α} {start : Nat}
    (occurs : OccursAt text needle start) : start < text.length + 1 := by
  have := occurs.1
  omega

theorem firstOccurrence_eq_none_iff [DecidableEq α] {text needle : List α} :
    firstOccurrence text needle = none ↔ ∀ start, ¬ OccursAt text needle start := by
  rw [firstOccurrence, List.find?_eq_none]
  constructor
  · intro none start occurs
    exact none start (List.mem_range.mpr occurs.start_le) (decide_eq_true occurs)
  · intro none start _
    simpa using none start

theorem firstOccurrence_eq_some_of_isLeast [DecidableEq α] {text needle : List α} {start : Nat}
    (least : IsLeast {start | OccursAt text needle start} start) :
    firstOccurrence text needle = some start := by
  rw [firstOccurrence, List.find?_range_eq_some]
  refine ⟨decide_eq_true least.1, List.mem_range.mpr (OccursAt.start_le least.1), ?_⟩
  intro earlier before
  simp only [Bool.not_eq_true', decide_eq_false_iff_not]
  intro occurs
  have := least.2 occurs
  omega

theorem lastOccurrence_eq_none_iff [DecidableEq α] {text needle : List α} :
    lastOccurrence text needle = none ↔ ∀ start, ¬ OccursAt text needle start := by
  rw [lastOccurrence, List.find?_eq_none]
  constructor
  · intro none start occurs
    exact none start (List.mem_reverse.mpr (List.mem_range.mpr occurs.start_le))
      (decide_eq_true occurs)
  · intro none start _
    simpa using none start

theorem lastOccurrence_eq_some_of_isGreatest [DecidableEq α] {text needle : List α}
    {start : Nat} (greatest : IsGreatest {start | OccursAt text needle start} start) :
    lastOccurrence text needle = some start := by
  have bound := OccursAt.start_le greatest.1
  cases found : lastOccurrence text needle with
  | none => exact absurd greatest.1 (lastOccurrence_eq_none_iff.mp found start)
  | some other =>
      have split := List.find?_eq_some_iff_append.mp found
      obtain ⟨occurs, later, earlier, order, none⟩ := split
      have upper := greatest.2 (of_decide_eq_true occurs)
      rcases Nat.lt_or_eq_of_le upper with below | same
      · -- A larger occurrence would stand before `other` in the reversed range.
        have member : start ∈ later := by
          have sorted : ((List.range (text.length + 1)).reverse).Pairwise (· > ·) := by
            rw [List.pairwise_reverse]
            exact List.pairwise_lt_range
          rw [order] at sorted
          have inRange : start ∈ (List.range (text.length + 1)).reverse :=
            List.mem_reverse.mpr (List.mem_range.mpr bound)
          rw [order] at inRange
          rcases List.mem_append.mp inRange with before | after
          · exact before
          · rcases List.mem_cons.mp after with here | behind
            · omega
            · have := List.rel_of_pairwise_cons (List.pairwise_append.mp sorted).2.1 behind
              omega
        have absent := none start member
        simp only [Bool.not_eq_true', decide_eq_false_iff_not] at absent
        exact absurd greatest.1 absent
      · rw [same]

/-- With the right part matched up to `scanned`, an occurrence at most
`scanned - cut` further on makes the shift a period of the needle. -/
theorem IsCritical.hasPeriod_of_occurrence {text needle : List α}
    {cut start scanned shift : Nat} (critical : IsCritical needle cut)
    (matched : ∀ index, cut ≤ index → index < scanned →
      text[start + index]? = needle[index]?)
    (reach : cut + shift ≤ scanned ∨ needle.length ≤ scanned) (positive : 0 < shift)
    (occurs : OccursAt text needle (start + shift)) : needle.HasPeriod shift := by
  refine critical.global shift ⟨positive, fun index after before enough bound => ?_⟩
  rw [← matched index after (by omega), ← occurs.2 (index - shift) (by omega)]
  congr 1
  omega

/-- A mismatch right of the cut rules out every start up to one past it. -/
theorem IsCritical.no_occurrence_after_mismatch {text needle : List α}
    {cut start mismatch shift : Nat} (critical : IsCritical needle cut)
    (matched : ∀ index, cut ≤ index → index < mismatch →
      text[start + index]? = needle[index]?)
    (inside : mismatch < needle.length)
    (differs : text[start + mismatch]? ≠ needle[mismatch]?) (positive : 0 < shift)
    (short : cut + shift ≤ mismatch) : ¬ OccursAt text needle (start + shift) := by
  intro occurs
  have periodic := critical.hasPeriod_of_occurrence matched (.inl short) positive occurs
  apply differs
  rw [hasPeriod_iff_back.mp periodic mismatch (by omega) inside,
    ← occurs.2 (mismatch - shift) (by omega)]
  congr 1
  omega

/-- A full match right of the cut rules out every start closer than the smallest period. -/
theorem IsCritical.no_occurrence_within_period {text needle : List α}
    {cut start shift period : Nat} (critical : IsCritical needle cut)
    (smallest : IsSmallestPeriod needle period)
    (matched : ∀ index, cut ≤ index → index < needle.length →
      text[start + index]? = needle[index]?)
    (positive : 0 < shift) (short : shift < period) :
    ¬ OccursAt text needle (start + shift) := by
  intro occurs
  have periodic := critical.hasPeriod_of_occurrence matched (.inr le_rfl) positive occurs
  have := smallest.le positive periodic
  omega

end AgencC.Library
