import AgencC.Str.Search
import AgencC.Library.SuffixScan
import AgencC.Library.Turns

/-! The needle factorization: the suffix walk finishes within its two passes and
returns the maximal suffix with its period; the factor it is used for is critical. -/

set_option autoImplicit false

namespace AgencC.Str

open Library

/-- The byte order a suffix walk uses. -/
def ByteBefore (isReverseOrder : Bool) (left right : UInt8) : Prop :=
  isByteBefore left right isReverseOrder = true

theorem byteBefore_false : ByteBefore false = (· < ·) := by
  funext left right
  simp [ByteBefore, isByteBefore]

theorem byteBefore_true : ByteBefore true = flip (· < ·) := by
  funext left right
  simp [ByteBefore, isByteBefore, flip]

instance (isReverseOrder : Bool) : Std.Asymm (ByteBefore isReverseOrder) := by
  cases isReverseOrder with
  | false => rw [byteBefore_false]; exact ⟨fun _ _ => UInt8.lt_asymm⟩
  | true => rw [byteBefore_true]; exact ⟨fun _ _ before => UInt8.lt_asymm before⟩

instance (isReverseOrder : Bool) : IsTrans UInt8 (ByteBefore isReverseOrder) := by
  cases isReverseOrder with
  | false => rw [byteBefore_false]; exact ⟨fun _ _ _ => UInt8.lt_trans⟩
  | true => rw [byteBefore_true]; exact ⟨fun _ _ _ before after => UInt8.lt_trans after before⟩

theorem byteBefore_of_not {isReverseOrder : Bool} {left right : UInt8}
    (different : left ≠ right) (notBefore : ¬ ByteBefore isReverseOrder left right) :
    ByteBefore isReverseOrder right left := by
  cases isReverseOrder with
  | false =>
      rw [byteBefore_false] at notBefore ⊢
      exact UInt8.lt_of_le_of_ne (UInt8.not_lt.mp notBefore) (Ne.symm different)
  | true =>
      rw [byteBefore_true] at notBefore ⊢
      exact UInt8.lt_of_le_of_ne (UInt8.not_lt.mp notBefore) different

/-- The scan invariant at a walk of the needle. -/
def WalkInv (needle : View) (isReverseOrder : Bool) (walk : SuffixWalk) : Prop :=
  ScanInv (ByteBefore isReverseOrder) needle.bytes walk.factor.cut walk.factor.period
    walk.candidate walk.offset

/-- Grows with every step of the walk and bounds the steps it can take. -/
def SuffixWalk.progress (walk : SuffixWalk) : Nat :=
  walk.factor.cut + walk.candidate + walk.offset

theorem SuffixWalk.initial_inv {needle : View} (valid : viewIsValid needle)
    (nonempty : 0 < needle.len) (isReverseOrder : Bool) :
    WalkInv needle isReverseOrder SuffixWalk.initial :=
  ScanInv.initial (by rw [View.length_bytes valid]; exact nonempty)

theorem suffixWalkStep_inv {needle : View} {isReverseOrder : Bool} {walk : SuffixWalk}
    (inv : WalkInv needle isReverseOrder walk)
    {suffixByte candidateByte : UInt8}
    (suffixFound : needle.bytes[walk.factor.cut + walk.offset - 1]? = some suffixByte)
    (candidateFound : needle.bytes[walk.candidate + walk.offset]? = some candidateByte) :
    WalkInv needle isReverseOrder
        (suffixWalkStep walk candidateByte suffixByte isReverseOrder) ∧
      walk.progress < (suffixWalkStep walk candidateByte suffixByte isReverseOrder).progress := by
  have more := (List.getElem?_eq_some_iff.mp candidateFound).1
  have offset_pos := inv.offset_pos
  have offset_le := inv.offset_le
  have cut_le := inv.cut_le
  have period_le := inv.period_le
  unfold suffixWalkStep
  by_cases same : candidateByte = suffixByte
  · have letters : needle.bytes[walk.candidate + walk.offset]? =
        needle.bytes[walk.factor.cut + walk.offset - 1]? := by
      rw [suffixFound, candidateFound, same]
    rw [if_pos same]
    by_cases full : walk.offset = walk.factor.period
    · rw [if_pos full]
      exact ⟨inv.step_copy more letters full, by simp only [SuffixWalk.progress]; omega⟩
    · rw [if_neg full]
      exact ⟨inv.step_offset more letters full, by simp only [SuffixWalk.progress]; omega⟩
  · rw [if_neg same]
    by_cases before : isByteBefore candidateByte suffixByte isReverseOrder = true
    · rw [if_pos before]
      refine ⟨inv.step_extend more ?_, by simp only [SuffixWalk.progress]; omega⟩
      rw [suffixFound, candidateFound]
      exact before
    · rw [if_neg before]
      refine ⟨inv.step_restart more ?_, by simp only [SuffixWalk.progress]; omega⟩
      rw [suffixFound, candidateFound]
      exact byteBefore_of_not same before

/-- One turn of the loop of `str_run_suffix_walk_pass`. -/
structure WalkTurn (needle : View) (isReverseOrder : Bool) (walk walk' : SuffixWalk) : Prop where
  goesOn : walk.offset < needle.len - walk.candidate
  step : ∃ suffixByte candidateByte,
    readViewByte needle (walk.factor.cut + walk.offset - 1) = .ok suffixByte ∧
      readViewByte needle (walk.candidate + walk.offset) = .ok candidateByte ∧
      walk' = suffixWalkStep walk candidateByte suffixByte isReverseOrder

/-- Both bytes a walk compares next lie inside the needle. -/
structure WalkReads (needle : View) (walk : SuffixWalk) : Prop where
  offset_pos : 0 < walk.offset
  suffix : walk.factor.cut + walk.offset - 1 < needle.len
  candidate : walk.candidate + walk.offset < needle.len

theorem WalkInv.reads {needle : View} {isReverseOrder : Bool} {walk : SuffixWalk}
    (inv : WalkInv needle isReverseOrder walk)
    (goesOn : walk.offset < needle.len - walk.candidate) : WalkReads needle walk := by
  have cut_le := inv.cut_le
  exact ⟨inv.offset_pos, by omega, by omega⟩

/-- A walk that goes on takes a turn, which keeps the invariant and makes progress. -/
theorem WalkInv.turn {needle : View} (valid : viewIsValid needle) {isReverseOrder : Bool}
    {walk : SuffixWalk} (inv : WalkInv needle isReverseOrder walk)
    (goesOn : walk.offset < needle.len - walk.candidate) :
    ∃ suffixByte candidateByte,
      readViewByte needle (walk.factor.cut + walk.offset - 1) = .ok suffixByte ∧
        readViewByte needle (walk.candidate + walk.offset) = .ok candidateByte ∧
        WalkInv needle isReverseOrder
          (suffixWalkStep walk candidateByte suffixByte isReverseOrder) ∧
        walk.progress <
          (suffixWalkStep walk candidateByte suffixByte isReverseOrder).progress := by
  have length := View.length_bytes valid
  have reads := inv.reads goesOn
  have suffixFound := List.getElem?_eq_getElem
    (by have := reads.suffix; omega : walk.factor.cut + walk.offset - 1 < needle.bytes.length)
  have candidateFound := List.getElem?_eq_getElem
    (by have := reads.candidate; omega : walk.candidate + walk.offset < needle.bytes.length)
  exact ⟨_, _, readViewByte_of_getElem? valid suffixFound,
    readViewByte_of_getElem? valid candidateFound,
    suffixWalkStep_inv inv suffixFound candidateFound⟩

theorem WalkTurn.keeps {needle : View} (valid : viewIsValid needle) {isReverseOrder : Bool}
    {walk walk' : SuffixWalk} (inv : WalkInv needle isReverseOrder walk)
    (turn : WalkTurn needle isReverseOrder walk walk') :
    WalkInv needle isReverseOrder walk' ∧ walk.progress < walk'.progress := by
  obtain ⟨suffixByte, candidateByte, readSuffix, readCandidate, rfl⟩ := turn.step
  obtain ⟨_, _, readSuffix', readCandidate', kept⟩ := inv.turn valid turn.goesOn
  rw [readSuffix] at readSuffix'
  rw [readCandidate] at readCandidate'
  cases readSuffix'
  cases readCandidate'
  exact kept

/-- A pass of `steps` steps takes turns until the walk is complete or the steps are used up. -/
theorem suffixWalkLoop_turns {needle : View} (valid : viewIsValid needle)
    {isReverseOrder : Bool} (start : SuffixWalk) {taken : Nat} (steps : Nat) (walk : SuffixWalk)
    (reached : Turns (WalkTurn needle isReverseOrder) start taken walk)
    (inv : WalkInv needle isReverseOrder walk) :
    ∃ walk' isComplete taken',
      suffixWalkLoop needle isReverseOrder steps walk = .ok (walk', isComplete) ∧
        Turns (WalkTurn needle isReverseOrder) start taken' walk' ∧
        (isComplete = true → needle.len - walk'.candidate ≤ walk'.offset) ∧
        (isComplete = false → taken' = taken + steps) := by
  induction steps generalizing taken walk with
  | zero => exact ⟨walk, _, taken, rfl, reached, of_decide_eq_true, fun _ => rfl⟩
  | succ steps ih =>
      unfold suffixWalkLoop
      by_cases complete : needle.len - walk.candidate ≤ walk.offset
      · rw [if_pos complete]
        exact ⟨walk, true, taken, rfl, reached, fun _ => complete, by simp⟩
      · rw [if_neg complete]
        have goesOn := Nat.lt_of_not_le complete
        obtain ⟨suffixByte, candidateByte, readSuffix, readCandidate, next, _⟩ :=
          inv.turn valid goesOn
        obtain ⟨walk', isComplete, taken', ran, later, done, used⟩ :=
          ih _ (reached.turn ⟨goesOn, _, _, readSuffix, readCandidate, rfl⟩) next
        rw [readSuffix, readCandidate]
        exact ⟨walk', isComplete, taken', ran, later, done, fun incomplete => by
          have := used incomplete
          omega⟩

/-- What a reached walk is known to satisfy, with a bound on the turns it took. -/
theorem Turns.walk {needle : View} (valid : viewIsValid needle) (nonempty : 0 < needle.len)
    {isReverseOrder : Bool} {taken : Nat} {walk : SuffixWalk}
    (reached : Turns (WalkTurn needle isReverseOrder) SuffixWalk.initial taken walk) :
    WalkInv needle isReverseOrder walk ∧ taken < 2 * needle.len := by
  have initial := SuffixWalk.initial_inv valid nonempty isReverseOrder
  have length := View.length_bytes valid
  have inv := reached.invariant (WalkInv needle isReverseOrder) initial
    fun inv turn => (turn.keeps valid inv).1
  have grown := reached.measure_le (WalkInv needle isReverseOrder) SuffixWalk.progress initial
    (fun inv turn => (turn.keeps valid inv).1) fun inv turn => (turn.keeps valid inv).2
  have reach := inv.reach
  have cut_le := inv.cut_le
  have offset_pos := inv.offset_pos
  simp only [SuffixWalk.progress, SuffixWalk.initial] at grown
  exact ⟨inv, by omega⟩

theorem runSuffixWalkPass_turns {needle : View} (valid : viewIsValid needle)
    (nonempty : 0 < needle.len) {isReverseOrder : Bool} {taken : Nat} {walk : SuffixWalk}
    (reached : Turns (WalkTurn needle isReverseOrder) SuffixWalk.initial taken walk) :
    ∃ walk' isComplete taken',
      runSuffixWalkPass walk needle isReverseOrder = .ok (walk', isComplete) ∧
        Turns (WalkTurn needle isReverseOrder) SuffixWalk.initial taken' walk' ∧
        (isComplete = true → needle.len - walk'.candidate ≤ walk'.offset) ∧
        (isComplete = false → taken' = taken + needle.len) := by
  have inv := (Turns.walk valid nonempty reached).1
  have length := View.length_bytes valid
  have reach := inv.reach
  have offset_pos := inv.offset_pos
  have inside : walk.candidate < needle.len := by omega
  obtain ⟨walk', isComplete, taken', ran, later, done, used⟩ :=
    suffixWalkLoop_turns valid SuffixWalk.initial needle.len walk reached inv
  refine ⟨walk', isComplete, taken', ?_, later, done, used⟩
  simp only [runSuffixWalkPass, ensure_of (View.isSome_of_pos valid nonempty), ensure_of inside,
    ensure_of offset_pos, ok_bind, ran]

/-- A walk over the needle that is complete after `taken` turns. -/
structure CompletedWalk (needle : View) (isReverseOrder : Bool) (taken : Nat)
    (last : SuffixWalk) : Prop where
  turns : Turns (WalkTurn needle isReverseOrder) SuffixWalk.initial taken last
  complete : needle.len - last.candidate ≤ last.offset
  /-- The first or the second pass reports it, so that nothing after the passes is reached. -/
  reported : runSuffixWalkPass SuffixWalk.initial needle isReverseOrder = .ok (last, true) ∨
    ∃ halfway, runSuffixWalkPass SuffixWalk.initial needle isReverseOrder = .ok (halfway, false) ∧
      runSuffixWalkPass halfway needle isReverseOrder = .ok (last, true)

/-- Two passes suffice: a walk that is still open has not used up twice the needle. -/
theorem exists_completedWalk {needle : View} (valid : viewIsValid needle)
    (nonempty : 0 < needle.len) (isReverseOrder : Bool) :
    ∃ taken last, CompletedWalk needle isReverseOrder taken last := by
  obtain ⟨first, isComplete, taken, ran, reached, done, used⟩ :=
    runSuffixWalkPass_turns valid nonempty
      (.start : Turns (WalkTurn needle isReverseOrder) SuffixWalk.initial 0 _)
  cases isComplete with
  | true => exact ⟨taken, first, reached, done rfl, .inl ran⟩
  | false =>
      obtain ⟨second, isComplete', taken', ran', reached', done', used'⟩ :=
        runSuffixWalkPass_turns valid nonempty reached
      cases isComplete' with
      | true => exact ⟨taken', second, reached', done' rfl, .inr ⟨first, ran, ran'⟩⟩
      | false =>
          have few := (Turns.walk valid nonempty reached').2
          have := used rfl
          have := used' rfl
          omega

namespace CompletedWalk

variable {needle : View} {isReverseOrder : Bool} {taken : Nat} {last : SuffixWalk}

theorem findMaximalSuffix_eq (walk : CompletedWalk needle isReverseOrder taken last)
    (valid : viewIsValid needle) (nonempty : 0 < needle.len) :
    findMaximalSuffix needle isReverseOrder = .ok last.factor := by
  have designated := View.isSome_of_pos valid nonempty
  simp only [findMaximalSuffix, ensure_of designated, ensure_of nonempty, ok_bind,
    suffixWalkPasses, maximalSuffixPasses]
  rcases walk.reported with ran | ⟨halfway, ran, ran'⟩
  · rw [ran]
    rfl
  · rw [ran]
    simp only [ok_bind, Bool.false_eq_true, if_false]
    rw [ran']
    rfl

theorem at_end (walk : CompletedWalk needle isReverseOrder taken last)
    (valid : viewIsValid needle) (nonempty : 0 < needle.len) :
    WalkInv needle isReverseOrder last ∧
      last.candidate + last.offset = needle.bytes.length := by
  have inv := (Turns.walk valid nonempty walk.turns).1
  have reach := inv.reach
  have complete := walk.complete
  have length := View.length_bytes valid
  exact ⟨inv, by omega⟩

theorem isMaxSuffix (walk : CompletedWalk needle isReverseOrder taken last)
    (valid : viewIsValid needle) (nonempty : 0 < needle.len) :
    IsMaxSuffix (ByteBefore isReverseOrder) needle.bytes last.factor.cut :=
  (walk.at_end valid nonempty).1.isMaxSuffix (walk.at_end valid nonempty).2

theorem isSmallestPeriod (walk : CompletedWalk needle isReverseOrder taken last)
    (valid : viewIsValid needle) (nonempty : 0 < needle.len) :
    IsSmallestPeriod (needle.bytes.drop last.factor.cut) last.factor.period :=
  (walk.at_end valid nonempty).1.isSmallestPeriod (walk.at_end valid nonempty).2

end CompletedWalk

theorem findMaximalSuffix_spec {needle : View} (valid : viewIsValid needle)
    (nonempty : 0 < needle.len) (isReverseOrder : Bool) :
    ∃ factor, findMaximalSuffix needle isReverseOrder = .ok factor ∧
      IsMaxSuffix (ByteBefore isReverseOrder) needle.bytes factor.cut ∧
      IsSmallestPeriod (needle.bytes.drop factor.cut) factor.period := by
  obtain ⟨_, last, walk⟩ := exists_completedWalk valid nonempty isReverseOrder
  exact ⟨last.factor, walk.findMaximalSuffix_eq valid nonempty, walk.isMaxSuffix valid nonempty,
    walk.isSmallestPeriod valid nonempty⟩

/-- For every needle and both byte orders: the suffix walk completes within its two passes in
fewer than twice the needle's length turns, its indices stay in the needle, so that no sum or
difference of them wraps around, it reads inside the needle only, and it returns where the
greatest suffix starts together with the smallest period of that suffix. -/
theorem findMaximalSuffix_completes (needle : View) (valid : viewIsValid needle)
    (nonempty : 0 < needle.len) (isReverseOrder : Bool) :
    ∃ taken last, CompletedWalk needle isReverseOrder taken last ∧ taken < 2 * needle.len ∧
      (∀ reached walk,
        Turns (WalkTurn needle isReverseOrder) SuffixWalk.initial reached walk →
          (walk.factor.cut ≤ walk.candidate ∧ walk.candidate + walk.offset ≤ needle.len) ∧
          (walk.offset < needle.len - walk.candidate → WalkReads needle walk)) ∧
      findMaximalSuffix needle isReverseOrder = .ok last.factor ∧
      last.factor.cut < needle.len ∧
      (∀ start ≤ needle.len, start ≠ last.factor.cut →
        List.Lex (fun left right => isByteBefore left right isReverseOrder = true)
          (needle.bytes.drop start) (needle.bytes.drop last.factor.cut)) ∧
      IsLeast {period | 0 < period ∧ (needle.bytes.drop last.factor.cut).HasPeriod period}
        last.factor.period := by
  have length := View.length_bytes valid
  obtain ⟨taken, last, walk⟩ := exists_completedWalk valid nonempty isReverseOrder
  have greatest := walk.isMaxSuffix valid nonempty
  refine ⟨taken, last, walk, (Turns.walk valid nonempty walk.turns).2,
    fun _ _ reached => ?_, walk.findMaximalSuffix_eq valid nonempty, by have := greatest.inside; omega,
    fun start bound different => ?_, walk.isSmallestPeriod valid nonempty⟩
  · have inv := (Turns.walk valid nonempty reached).1
    exact ⟨⟨inv.cut_le, length ▸ inv.reach⟩, inv.reads⟩
  rcases Nat.lt_or_eq_of_le bound with inside | atEnd
  · exact (suffixBefore_iff_lex _ _ _ _).mp (greatest.largest start (by omega) different)
  · -- The empty suffix is a proper prefix of every other one.
    obtain ⟨letter, rest, split⟩ := List.exists_cons_of_ne_nil
      (List.ne_nil_of_length_pos (by rw [List.length_drop]; have := greatest.inside; omega :
        0 < (needle.bytes.drop last.factor.cut).length))
    rw [atEnd, ← length, List.drop_length, split]
    exact .nil

theorem findMaximalSuffix_completes_abab :
    ∃ taken last, CompletedWalk (.ofBytes [97, 98, 97, 98] (by decide)) false taken last ∧
      taken < 8 ∧ findMaximalSuffix (.ofBytes [97, 98, 97, 98] (by decide)) false =
        .ok last.factor ∧ last.factor = { cut := 1, period := 2 } := by
  obtain ⟨taken, last, walk, few, _, found, _⟩ := findMaximalSuffix_completes
    (.ofBytes [97, 98, 97, 98] (by decide)) rfl (by decide) false
  have computed : findMaximalSuffix (.ofBytes [97, 98, 97, 98] (by decide)) false =
      .ok { cut := 1, period := 2 } := rfl
  exact ⟨taken, last, walk, few, found, (Except.ok.inj (computed.symm.trans found)).symm⟩

/-- What the search uses of the chosen factor. -/
structure IsCriticalFactor (needle : View) (factor : Factor) : Prop where
  critical : IsCritical needle.bytes factor.cut
  right : IsSmallestPeriod (needle.bytes.drop factor.cut) factor.period

theorem findCriticalFactor_spec {needle : View} (valid : viewIsValid needle)
    (nonempty : 0 < needle.len) :
    ∃ factor, findCriticalFactor needle = .ok factor ∧ IsCriticalFactor needle factor := by
  have designated := View.isSome_of_pos valid nonempty
  obtain ⟨forward, ranForward, forwardMax, forwardPeriod⟩ :=
    findMaximalSuffix_spec valid nonempty false
  obtain ⟨reverse, ranReverse, reverseMax, reversePeriod⟩ :=
    findMaximalSuffix_spec valid nonempty true
  simp only [findCriticalFactor, ensure_of designated, ensure_of nonempty, ok_bind, ranForward,
    ranReverse]
  rw [byteBefore_false] at forwardMax
  rw [byteBefore_true] at reverseMax
  by_cases later : forward.cut < reverse.cut
  · rw [if_pos later]
    have twice : IsMaxSuffix (flip (flip (· < ·))) needle.bytes forward.cut := forwardMax
    exact ⟨reverse, rfl, isCritical_of_maxSuffixes reverseMax twice (by omega), reversePeriod⟩
  · rw [if_neg later]
    exact ⟨forward, rfl, isCritical_of_maxSuffixes forwardMax reverseMax (by omega),
      forwardPeriod⟩

end AgencC.Str
