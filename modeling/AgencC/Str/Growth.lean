import AgencC.Str.Reservation
import Mathlib.Data.Nat.Find

/-! How far the buffer grows: by doublings, to the first that is large enough. -/

set_option autoImplicit false

namespace AgencC.Str

open Library

/-- `first * 2 ^ k` is the first doubling of `first` that covers `need`. -/
structure Covers (need first k : Nat) : Prop where
  covers : need ≤ first * 2 ^ k
  least : ∀ j, need ≤ first * 2 ^ j → k ≤ j

theorem Covers.exists (need : Nat) {first : Nat} (pos : 0 < first) : ∃ k, Covers need first k := by
  have enough : ∃ k, need ≤ first * 2 ^ k := by
    refine ⟨need, ?_⟩
    calc need ≤ 1 * 2 ^ need := by
          rw [Nat.one_mul]
          exact Nat.le_of_lt Nat.lt_two_pow_self
      _ ≤ first * 2 ^ need := Nat.mul_le_mul_right _ pos
  exact ⟨Nat.find enough, Nat.find_spec enough, fun j covers => Nat.find_min' enough covers⟩

/-- The values of `cap` that the iterations of the loop of `str_grow_capacity` start with. -/
def growCapacityCaps (need : Nat) : Nat → Nat → List Nat
  | 0, _ => []
  | steps + 1, cap =>
      if need ≤ cap ∨ hasCapacityDoublingOverflow cap = true then [cap]
      else cap :: growCapacityCaps need steps (sizeMul cap capacityGrowthFactor)

/-- The loop is left by a return inside it, after fewer than `steps` iterations, and the values of
`cap` on the way are the doublings of `first`, none of them reduced. -/
structure Doubles (need steps first : Nat) : Prop where
  few : (growCapacityCaps need steps first).length < steps
  fits : ∀ cap ∈ growCapacityCaps need steps first, cap ≤ sizeMax
  exact : growCapacityCaps need steps first =
    (List.range (growCapacityCaps need steps first).length).map fun i => first * 2 ^ i

theorem Doubles.once {need steps first : Nat} (fits : first ≤ sizeMax)
    (caps : growCapacityCaps need (steps + 2) first = [first]) : Doubles need (steps + 2) first where
  few := by
    rw [caps]
    exact Nat.succ_lt_succ (Nat.succ_pos steps)
  fits := by
    rw [caps]
    exact List.forall_mem_singleton.mpr fits
  exact := by
    rw [caps]
    exact congrArg (· :: []) (Nat.mul_one first).symm

theorem Doubles.cons {need steps first : Nat} (fits : first ≤ sizeMax)
    (caps : growCapacityCaps need (steps + 1) first =
      first :: growCapacityCaps need steps (first * 2))
    (rest : Doubles need steps (first * 2)) : Doubles need (steps + 1) first where
  few := by
    rw [caps]
    exact Nat.succ_lt_succ rest.few
  fits := by
    rw [caps]
    exact List.forall_mem_cons.mpr ⟨fits, rest.fits⟩
  exact := by
    rw [caps, List.length_cons, List.range_succ_eq_map, List.map_cons, List.map_map]
    refine congrArg₂ List.cons (Nat.mul_one first).symm (rest.exact.trans (List.map_congr_left ?_))
    intro i _
    change first * 2 * 2 ^ i = first * 2 ^ (i + 1)
    rw [Nat.pow_succ, Nat.mul_comm (2 ^ i), Nat.mul_assoc]

/-- With a step more than the doublings it takes, the budget of the loop decides nothing. -/
theorem growCapacityLoop_eq {need steps first k : Nat} (covers : Covers need first k)
    (fits : first ≤ sizeMax) (enough : k + 1 < steps) :
    growCapacityLoop need steps first =
        .ok (if first * 2 ^ k ≤ sizeMax then first * 2 ^ k else need) ∧
      Doubles need steps first := by
  induction k generalizing steps first with
  | zero =>
      obtain ⟨steps, rfl⟩ : ∃ rest, steps = rest + 2 := ⟨steps - 2, by omega⟩
      have room : need ≤ first := by simpa using covers.covers
      refine ⟨?_, .once fits (if_pos (.inl room))⟩
      rw [growCapacityLoop, if_pos room, Nat.pow_zero, Nat.mul_one, if_pos fits]
  | succ k ih =>
      obtain ⟨steps, rfl⟩ : ∃ rest, steps = rest + 2 := ⟨steps - 2, by omega⟩
      have short : first < need := by
        refine Nat.lt_of_not_le fun room => ?_
        have none := covers.least 0 (by simpa using room)
        cases none
      have doubled : first * 2 ^ (k + 1) = first * 2 * 2 ^ k := by
        rw [Nat.pow_succ, Nat.mul_comm (2 ^ k), Nat.mul_assoc]
      rw [growCapacityLoop, if_neg (Nat.not_le.mpr short)]
      by_cases overflows : hasCapacityDoublingOverflow first = true
      · have above : sizeMax / 2 < first := of_decide_eq_true overflows
        have large : ¬ first * 2 ^ (k + 1) ≤ sizeMax := by
          have twice : first * 2 * 1 ≤ first * 2 * 2 ^ k :=
            Nat.mul_le_mul_left _ (Nat.one_le_two_pow)
          omega
        rw [if_pos overflows, if_neg large]
        exact ⟨rfl, .once fits (if_pos (.inr overflows))⟩
      · have half : ¬ sizeMax / 2 < first := fun above => overflows (decide_eq_true above)
        have twice : first * 2 ≤ sizeMax := by omega
        have next : Covers need (first * 2) k :=
          { covers := doubled ▸ covers.covers
            least := fun j room => by
              refine Nat.le_of_succ_le_succ (covers.least (j + 1) ?_)
              rw [Nat.pow_succ, Nat.mul_comm (2 ^ j), ← Nat.mul_assoc]
              exact room }
        obtain ⟨returned, doubles⟩ := @ih (steps + 1) (first * 2) next twice (by omega)
        rw [if_neg overflows, capacityGrowthFactor, sizeMul_of_le twice, returned, doubled]
        refine ⟨rfl, .cons fits ?_ doubles⟩
        have stays : ¬ (need ≤ first ∨ hasCapacityDoublingOverflow first = true) :=
          not_or.mpr ⟨Nat.not_le.mpr short, overflows⟩
        rw [growCapacityCaps, if_neg stays, capacityGrowthFactor, sizeMul_of_le twice]

/-- What `str_choose_capacity` answers for a need beyond the current capacity. -/
structure Chooses (current need newCap : Nat) : Prop where
  grows : current < newCap
  doubled : ∃ k, Covers need (max current minCapacityBytes) k ∧
    newCap = if max current minCapacityBytes * 2 ^ k ≤ sizeMax then
      max current minCapacityBytes * 2 ^ k else need
  steps : Doubles need maxCapacityGrowthSteps (max current minCapacityBytes)

theorem chooseCapacity_eq {current need : Nat} (currentFits : current ≤ sizeMax)
    (needFits : need ≤ sizeMax) (short : current < need) :
    ∃ newCap, chooseCapacity current need = .ok newCap ∧ Chooses current need newCap := by
  have first : (if current < minCapacityBytes then minCapacityBytes else current) =
      max current minCapacityBytes := by
    rw [Nat.max_def]
    split
    · rw [if_pos (Nat.le_of_lt ‹_›)]
    · split
      · omega
      · rfl
  have pos : 16 ≤ max current minCapacityBytes := Nat.le_max_right _ _
  have fits : max current minCapacityBytes ≤ sizeMax := Nat.max_le.mpr ⟨currentFits, by decide⟩
  obtain ⟨k, covers⟩ := Covers.exists need (Nat.lt_of_lt_of_le (by decide) pos)
  have few : k ≤ 60 := by
    refine covers.least 60 ?_
    calc need ≤ 16 * 2 ^ 60 := by
          unfold sizeMax at needFits
          omega
      _ ≤ _ := Nat.mul_le_mul_right _ pos
  have enough : k + 1 < maxCapacityGrowthSteps := by
    unfold maxCapacityGrowthSteps
    omega
  obtain ⟨returned, doubles⟩ := growCapacityLoop_eq covers fits enough
  refine ⟨_, ?_, ?_, ⟨k, covers, rfl⟩, doubles⟩
  · rw [chooseCapacity, if_neg (Nat.not_le.mpr short), first, growCapacity, returned]
  · have covered := covers.covers
    split
    · exact Nat.lt_of_lt_of_le short covered
    · exact short

/-! The buffer across one call. -/

/-- The buffer after a call that asked for `need` bytes: the old one, or one of the capacity chosen
for them. -/
inductive Sizes (need : Nat) (c c' : Cell) : Prop
  | kept (buf : c'.str.buf = c.str.buf) (cap : c'.str.cap = c.str.cap)
  | grown (fits : need ≤ sizeMax) (short : c.str.cap < need)
      (chosen : chooseCapacity c.str.cap need = .ok c'.str.cap)

theorem Still.sizes {c c' : Cell} (still : Still c c') (need : Nat) : Sizes need c c' :=
  .kept still.buf still.cap

/-- The writes after the growth leave the buffer where it is. -/
theorem Sizes.still {need : Nat} {c c₁ c' : Cell} (sizes : Sizes need c c₁) (still : Still c₁ c') :
    Sizes need c c' := by
  cases sizes with
  | kept buf cap => exact .kept (still.buf.trans buf) (still.cap.trans cap)
  | grown fits short chosen => exact .grown fits short (still.cap ▸ chosen)

theorem expandHeap_error {buf : Option Ptr} {bytes : Nat} {owned : Bool} {heap heap' : Memory}
    {status : Status} (ran : expandHeap buf bytes owned heap = .ok (.error status, heap')) :
    status = .errAlloc := by
  obtain ⟨_, _, ran⟩ := bind_eq_ok.mp ran
  obtain ⟨_, _, ran⟩ := bind_eq_ok.mp ran
  cases owned with
  | true =>
      obtain ⟨p, _, ran⟩ := bind_eq_ok.mp ran
      obtain ⟨_, _, ran⟩ := bind_eq_ok.mp ran
      obtain ⟨⟨answer, heap₁⟩, _, ran⟩ := bind_eq_ok.mp ran
      cases answer with
      | none | some => cases ran; try rfl
  | false =>
      obtain ⟨_, _, ran⟩ := bind_eq_ok.mp ran
      rcases answered : heap.malloc bytes with ⟨answer, heap₁⟩
      rw [answered] at ran
      cases answer with
      | none | some => cases ran; try rfl

theorem growHeap_cap {c c' : Cell} {newCap : Nat} (ran : growHeap newCap c = .ok (.ok, c')) :
    c'.str.cap = newCap ∧ c'.str.len = c.str.len := by
  obtain ⟨_, _, ran⟩ := bind_eq_ok.mp ran
  obtain ⟨owned, _, ran⟩ := bind_eq_ok.mp ran
  obtain ⟨⟨answer, heap⟩, expanded, ran⟩ := bind_eq_ok.mp ran
  cases answer with
  | error status =>
      cases expandHeap_error expanded
      cases ran
  | ok grownBuf =>
      cases owned with
      | true =>
          cases ran
          exact ⟨rfl, rfl⟩
      | false =>
          obtain ⟨heap', _, finished⟩ := bind_eq_ok.mp ran
          cases finished
          exact ⟨rfl, rfl⟩

theorem ensureCapacity_sizes {c c' : Cell} {need : Nat} (capFits : c.str.cap ≤ sizeMax)
    (fits : need ≤ sizeMax) (ran : ensureCapacity need c = .ok (.ok, c')) :
    Sizes need c c' ∧ c'.str.len = c.str.len := by
  unfold ensureCapacity at ran
  by_cases enough : need ≤ c.str.cap
  · rw [if_pos enough] at ran
    cases ran
    exact ⟨.kept rfl rfl, rfl⟩
  · have short := Nat.lt_of_not_le enough
    obtain ⟨newCap, chosen, _⟩ := chooseCapacity_eq capFits fits short
    rw [if_neg enough, chosen] at ran
    obtain ⟨cap, len⟩ := growHeap_cap ran
    exact ⟨.grown fits short (cap ▸ chosen), len⟩

theorem calculateCapacity_inv {len additionalLen need : Nat} (size : additionalLen ≤ sizeMax)
    (calculated : calculateCapacity len additionalLen = .ok need) :
    need = len + additionalLen + 1 ∧ need ≤ sizeMax := by
  rw [calculateCapacity_eq size] at calculated
  split at calculated
  · cases calculated
    exact ⟨rfl, ‹_›⟩
  · cases calculated

theorem recordFailure_failed {status status' : Status} {c c' : Cell}
    (ran : recordFailure status c = .ok (status', c')) : status' ≠ .ok := by
  obtain ⟨_, checked, finished⟩ := bind_eq_ok.mp ran
  cases finished
  rintro rfl
  cases checked

theorem writeTerminator_len {c c' : Cell} (ran : writeTerminator c = .ok c') :
    c'.str.len = c.str.len := by
  obtain ⟨_, _, ran⟩ := bind_eq_ok.mp ran
  obtain ⟨_, _, ran⟩ := bind_eq_ok.mp ran
  obtain ⟨_, _, ran⟩ := bind_eq_ok.mp ran
  obtain ⟨_, _, finished⟩ := bind_eq_ok.mp ran
  cases finished
  rfl

section
variable {source : Source} {len idx : Nat} {c c' : Cell}

theorem prepareWrite_sizes {baseLen : Nat} {ready : Source} (capFits : c.str.cap ≤ sizeMax) (size : len ≤ sizeMax)
    (ran : prepareWrite source len baseLen c = .ok (.ok ready, c')) :
    Sizes (baseLen + len + 1) c c' ∧ c'.str.len = c.str.len ∧ baseLen + len + 1 ≤ sizeMax := by
  obtain ⟨_, _, ran⟩ := bind_eq_ok.mp ran
  obtain ⟨_, _, ran⟩ := bind_eq_ok.mp ran
  cases calculated : calculateCapacity baseLen len with
  | error status =>
      rw [calculated] at ran
      cases ran
  | ok need =>
      obtain ⟨rfl, fits⟩ := calculateCapacity_inv size calculated
      rw [calculated] at ran
      obtain ⟨overlap, _, ran⟩ := bind_eq_ok.mp ran
      cases overlap with
      | error status => cases ran
      | ok overlap =>
          obtain ⟨⟨status, c₁⟩, ensured, ran⟩ := bind_eq_ok.mp ran
          cases status with
          | ok =>
              cases ran
              obtain ⟨sizes, same⟩ := ensureCapacity_sizes capFits fits ensured
              exact ⟨sizes, same, fits⟩
          | errArg | errAlloc | errRange | errOverflow | errFmt => cases ran

theorem prepareValidSpan_sizes {baseLen : Nat} {ready : Source} (capFits : c.str.cap ≤ sizeMax)
    (size : len ≤ sizeMax)
    (ran : prepareValidSpan source len baseLen c = .ok (.ok ready, c')) :
    Sizes (baseLen + len + 1) c c' ∧ c'.str.len = c.str.len ∧ baseLen + len + 1 ≤ sizeMax := by
  obtain ⟨_, _, ran⟩ := bind_eq_ok.mp ran
  obtain ⟨⟨prepared, c₁⟩, wrote, ran⟩ := bind_eq_ok.mp ran
  cases prepared with
  | ok ready =>
      cases ran
      exact prepareWrite_sizes capFits size wrote
  | error status =>
      obtain ⟨⟨status, c₂⟩, _, ran⟩ := bind_eq_ok.mp ran
      cases ran

theorem prepareValidSpan_failed {baseLen : Nat} {status : Status}
    (ran : prepareValidSpan source len baseLen c = .ok (.error status, c')) : status ≠ .ok := by
  obtain ⟨_, _, ran⟩ := bind_eq_ok.mp ran
  obtain ⟨⟨prepared, c₁⟩, _, ran⟩ := bind_eq_ok.mp ran
  cases prepared with
  | ok ready => cases ran
  | error status' =>
      obtain ⟨⟨failed, c₂⟩, recorded, finished⟩ := bind_eq_ok.mp ran
      cases finished
      exact recordFailure_failed recorded

theorem replaceContent_len (ran : replaceContent source len c = .ok c') : c'.str.len = len := by
  obtain ⟨_, _, ran⟩ := bind_eq_ok.mp ran
  obtain ⟨_, _, ran⟩ := bind_eq_ok.mp ran
  obtain ⟨_, _, ran⟩ := bind_eq_ok.mp ran
  exact writeTerminator_len ran

theorem setValidSpan_sizes (capFits : c.str.cap ≤ sizeMax) (size : len ≤ sizeMax)
    (ran : setValidSpan source len c = .ok (.ok, c')) : Sizes (c'.str.len + 1) c c' := by
  obtain ⟨_, _, ran⟩ := bind_eq_ok.mp ran
  by_cases empty : len = 0
  · rw [if_pos empty] at ran
    obtain ⟨c₁, cleared, finished⟩ := bind_eq_ok.mp ran
    cases finished
    exact (clearContent_still cleared).sizes _
  · rw [if_neg empty] at ran
    obtain ⟨⟨prepared, c₁⟩, ready, ran⟩ := bind_eq_ok.mp ran
    cases prepared with
    | error status =>
        cases ran
        exact absurd rfl (prepareValidSpan_failed ready)
    | ok source =>
        obtain ⟨sizes, _, _⟩ := prepareValidSpan_sizes capFits size ready
        obtain ⟨c₂, replaced, finished⟩ := bind_eq_ok.mp ran
        cases finished
        have length := replaceContent_len replaced
        rw [Nat.zero_add, ← length] at sizes
        exact sizes.still (replaceContent_still replaced)

theorem appendContent_len (fits : c.str.len + len ≤ sizeMax)
    (ran : appendContent source len c = .ok c') : c'.str.len = c.str.len + len := by
  obtain ⟨_, _, ran⟩ := bind_eq_ok.mp ran
  obtain ⟨_, _, ran⟩ := bind_eq_ok.mp ran
  obtain ⟨_, _, ran⟩ := bind_eq_ok.mp ran
  obtain ⟨_, _, ran⟩ := bind_eq_ok.mp ran
  exact (writeTerminator_len ran).trans (sizeAdd_of_le fits)

theorem appendValidSpan_sizes (capFits : c.str.cap ≤ sizeMax) (size : len ≤ sizeMax)
    (ran : appendValidSpan source len c = .ok (.ok, c')) : Sizes (c'.str.len + 1) c c' := by
  obtain ⟨_, _, ran⟩ := bind_eq_ok.mp ran
  by_cases empty : len = 0
  · rw [if_pos empty] at ran
    cases ran
    exact (Still.refl c).sizes _
  · rw [if_neg empty] at ran
    obtain ⟨⟨prepared, c₁⟩, ready, ran⟩ := bind_eq_ok.mp ran
    cases prepared with
    | error status =>
        cases ran
        exact absurd rfl (prepareValidSpan_failed ready)
    | ok source =>
        obtain ⟨sizes, same, fits⟩ := prepareValidSpan_sizes capFits size ready
        obtain ⟨c₂, appended, finished⟩ := bind_eq_ok.mp ran
        cases finished
        have length := appendContent_len (by omega) appended
        rw [← same, ← length] at sizes
        exact sizes.still (appendContent_still appended)

theorem appendUnaliasedSpan_sizes (capFits : c.str.cap ≤ sizeMax) (size : len ≤ sizeMax)
    (ran : appendUnaliasedSpan source len c = .ok (.ok, c')) : Sizes (c'.str.len + 1) c c' := by
  obtain ⟨_, _, ran⟩ := bind_eq_ok.mp ran
  obtain ⟨_, _, ran⟩ := bind_eq_ok.mp ran
  by_cases empty : len = 0
  · rw [if_pos empty] at ran
    cases ran
    exact (Still.refl c).sizes _
  · rw [if_neg empty] at ran
    cases calculated : calculateCapacity c.str.len len with
    | error status =>
        rw [calculated] at ran
        exact absurd rfl (recordFailure_failed ran)
    | ok need =>
        obtain ⟨rfl, fits⟩ := calculateCapacity_inv size calculated
        rw [calculated] at ran
        obtain ⟨⟨status, c₁⟩, ensured, ran⟩ := bind_eq_ok.mp ran
        cases status with
        | ok =>
            obtain ⟨sizes, same⟩ := ensureCapacity_sizes capFits fits ensured
            obtain ⟨c₂, appended, finished⟩ := bind_eq_ok.mp ran
            cases finished
            have length := appendContent_len (by omega) appended
            rw [← same, ← length] at sizes
            exact sizes.still (appendContent_still appended)
        | errArg | errAlloc | errRange | errOverflow | errFmt =>
            exact absurd rfl (recordFailure_failed ran)

theorem setN_sizes (wf : WellFormed c) (ok : c.str.status = .ok) (size : len ≤ sizeMax)
    (ran : setN source len c = .ok (.ok, c')) : Sizes (c'.str.len + 1) c c' := by
  rcases beginMutation_cases ok source len with ⟨begun, _⟩ | rejected
  · simp only [setN, begun, ok_bind] at ran
    exact setValidSpan_sizes wf.cap_le size ran
  · simp only [setN, rejected, ok_bind] at ran
    cases ran

theorem appendN_sizes (wf : WellFormed c) (ok : c.str.status = .ok) (size : len ≤ sizeMax)
    (ran : appendN source len c = .ok (.ok, c')) : Sizes (c'.str.len + 1) c c' := by
  rcases beginMutation_cases ok source len with ⟨begun, _⟩ | rejected
  · simp only [appendN, begun, ok_bind] at ran
    exact appendValidSpan_sizes wf.cap_le size ran
  · simp only [appendN, rejected, ok_bind] at ran
    cases ran

theorem setCString_sizes (wf : WellFormed c) (ok : c.str.status = .ok) (sized : source.Sized)
    (readable : ReadableText c source) (ran : setCString source c = .ok (.ok, c')) :
    Sizes (c'.str.len + 1) c c' := by
  obtain ⟨⟨measured, c₁⟩, measure, rest⟩ := bind_eq_ok.mp ran
  rcases measureCStringInput_takes wf ok readable measure with
    ⟨rfl, _⟩ | ⟨text, rfl, rfl, found, _⟩
  · cases rest
  · exact setValidSpan_sizes wf.cap_le (Source.length_text_le sized found) rest

theorem appendCString_sizes (wf : WellFormed c) (ok : c.str.status = .ok) (sized : source.Sized)
    (readable : ReadableText c source) (ran : appendCString source c = .ok (.ok, c')) :
    Sizes (c'.str.len + 1) c c' := by
  obtain ⟨⟨measured, c₁⟩, measure, rest⟩ := bind_eq_ok.mp ran
  rcases measureCStringInput_takes wf ok readable measure with
    ⟨rfl, _⟩ | ⟨text, rfl, rfl, found, _⟩
  · cases rest
  · exact appendValidSpan_sizes wf.cap_le (Source.length_text_le sized found) rest

theorem appendChar_sizes {byte : UInt8} (wf : WellFormed c) (ok : c.str.status = .ok)
    (ran : appendChar byte c = .ok (.ok, c')) : Sizes (c'.str.len + 1) c c' := by
  simp only [appendChar, validateMutation, ok] at ran
  exact appendUnaliasedSpan_sizes wf.cap_le (by decide) ran

/-- The heap takes no part in the size of the buffer. -/
theorem Sizes.of_str {need : Nat} {d e : Cell} (before : d.str = c.str) (after : e.str = c'.str)
    (sizes : Sizes need d e) : Sizes need c c' := by
  cases sizes with
  | kept buf cap => exact .kept (before ▸ after ▸ buf) (before ▸ after ▸ cap)
  | grown fits short chosen => exact .grown fits (before ▸ short) (before ▸ after ▸ chosen)

theorem appendFormatPayload_sizes {stackBuf : Bytes} {arguments : Arguments}
    (capFits : c.str.cap ≤ sizeMax) (size : len ≤ sizeMax)
    (ran : appendFormatPayload stackBuf len source arguments c = .ok (.ok, c')) :
    Sizes (c'.str.len + 1) c c' := by
  obtain ⟨_, _, ran⟩ := bind_eq_ok.mp ran
  by_cases short : len < formatStackBytes
  · rw [if_pos short] at ran
    exact appendUnaliasedSpan_sizes capFits size ran
  · rw [if_neg short] at ran
    obtain ⟨⟨built, heap⟩, _, ran⟩ := bind_eq_ok.mp ran
    cases built with
    | error status => exact absurd rfl (recordFailure_failed ran)
    | ok renderedBuf =>
        obtain ⟨⟨status, c₁⟩, appended, ran⟩ := bind_eq_ok.mp ran
        obtain ⟨heap', _, finished⟩ := bind_eq_ok.mp ran
        cases finished
        have sizes := appendUnaliasedSpan_sizes (c := { c with heap }) capFits size appended
        exact .of_str (d := { c with heap }) (e := c₁) rfl rfl sizes

theorem appendFmt_sizes {arguments : Arguments} (wf : WellFormed c) (ok : c.str.status = .ok)
    (readable : ReadableText c source) (ran : appendFmt source arguments c = .ok (.ok, c')) :
    Sizes (c'.str.len + 1) c c' := by
  obtain ⟨⟨measured, c₁⟩, measure, rest⟩ := bind_eq_ok.mp ran
  rcases measureCStringInput_takes wf ok readable measure with
    ⟨rfl, _⟩ | ⟨text, rfl, rfl, found, takes⟩
  · cases rest
  · rcases renderFormat_cases 0 formatStackBytes (by decide) takes.1 arguments found with
      ⟨failed, _⟩ | ⟨output, prints, rendered⟩
    · simp only [failed, ok_bind] at rest
      exact absurd rfl (recordFailure_failed rest)
    · simp only [rendered, ok_bind] at rest
      exact appendFormatPayload_sizes wf.cap_le (Nat.le_trans prints.2 (by decide)) rest

theorem prepareInsert_sizes {ready : Source} (capFits : c.str.cap ≤ sizeMax) (size : len ≤ sizeMax)
    (ran : prepareInsert idx source len c = .ok (.ok ready, c')) :
    Sizes (c.str.len + len + 1) c c' ∧ c'.str.len = c.str.len ∧ c.str.len + len + 1 ≤ sizeMax := by
  obtain ⟨_, _, ran⟩ := bind_eq_ok.mp ran
  obtain ⟨_, _, ran⟩ := bind_eq_ok.mp ran
  cases calculated : calculateCapacity c.str.len len with
  | error status =>
      rw [calculated] at ran
      cases ran
  | ok need =>
      obtain ⟨rfl, fits⟩ := calculateCapacity_inv size calculated
      rw [calculated] at ran
      obtain ⟨overlap, _, ran⟩ := bind_eq_ok.mp ran
      have ensured : ∃ c₁, ensureCapacity (c.str.len + len + 1) c = .ok (.ok, c₁) ∧ c₁ = c' := by
        cases overlap with
        | error status => cases ran
        | ok overlap =>
            cases overlap with
            | none =>
                obtain ⟨⟨status, c₁⟩, ensured, ran⟩ := bind_eq_ok.mp ran
                cases status with
                | ok => cases ran; exact ⟨_, ensured, rfl⟩
                | errArg | errAlloc | errRange | errOverflow | errFmt => cases ran
            | some offset =>
                obtain ⟨adjusted, _, ran⟩ := bind_eq_ok.mp ran
                obtain ⟨⟨status, c₁⟩, ensured, ran⟩ := bind_eq_ok.mp ran
                cases status with
                | ok => cases ran; exact ⟨_, ensured, rfl⟩
                | errArg | errAlloc | errRange | errOverflow | errFmt => cases ran
      obtain ⟨_, ensured, rfl⟩ := ensured
      obtain ⟨sizes, same⟩ := ensureCapacity_sizes capFits fits ensured
      exact ⟨sizes, same, fits⟩

theorem commitInsert_len (fits : c.str.len + len ≤ sizeMax)
    (ran : commitInsert idx source len c = .ok c') : c'.str.len = c.str.len + len := by
  obtain ⟨_, _, ran⟩ := bind_eq_ok.mp ran
  obtain ⟨_, _, ran⟩ := bind_eq_ok.mp ran
  obtain ⟨_, _, ran⟩ := bind_eq_ok.mp ran
  obtain ⟨_, _, ran⟩ := bind_eq_ok.mp ran
  obtain ⟨_, _, ran⟩ := bind_eq_ok.mp ran
  obtain ⟨_, _, ran⟩ := bind_eq_ok.mp ran
  exact (writeTerminator_len ran).trans (sizeAdd_of_le fits)

theorem insertN_sizes (wf : WellFormed c) (ok : c.str.status = .ok) (size : len ≤ sizeMax)
    (ran : insertN idx source len c = .ok (.ok, c')) : Sizes (c'.str.len + 1) c c' := by
  rcases beginMutation_cases ok source len with ⟨begun, _⟩ | rejected
  · simp only [insertN, begun, ok_bind, validateSpan_eq wf, Nat.add_zero] at ran
    by_cases span : idx ≤ c.str.len
    · simp only [if_pos span] at ran
      by_cases empty : len = 0
      · rw [if_pos empty] at ran
        cases ran
        exact (Still.refl c).sizes _
      · rw [if_neg empty] at ran
        obtain ⟨⟨prepared, c₁⟩, ready, ran⟩ := bind_eq_ok.mp ran
        cases prepared with
        | error status => exact absurd rfl (recordFailure_failed ran)
        | ok source =>
            obtain ⟨sizes, same, fits⟩ := prepareInsert_sizes wf.cap_le size ready
            obtain ⟨c₂, inserted, finished⟩ := bind_eq_ok.mp ran
            cases finished
            have still := commitInsert_still inserted
            have length := commitInsert_len (by omega) inserted
            rw [← same, ← length] at sizes
            exact sizes.still still
    · simp only [if_neg span] at ran
      exact absurd rfl (recordFailure_failed ran)
  · simp only [insertN, rejected, ok_bind] at ran
    cases ran

theorem resize_sizes {fill : UInt8} (wf : WellFormed c) (ok : c.str.status = .ok)
    (size : len ≤ sizeMax) (ran : resize len fill c = .ok (.ok, c')) :
    Sizes (c'.str.len + 1) c c' := by
  simp only [resize, validateMutation, ok] at ran
  by_cases same : len = c.str.len
  · rw [if_pos same] at ran
    cases ran
    exact (Still.refl c).sizes _
  · rw [if_neg same] at ran
    by_cases shrinks : len < c.str.len
    · rw [if_pos shrinks] at ran
      obtain ⟨_, closed, finished⟩ := bind_eq_ok.mp ran
      cases finished
      exact (closeGap_still closed).sizes _
    · rw [if_neg shrinks] at ran
      obtain ⟨⟨status, c₁⟩, grown, recorded⟩ := bind_eq_ok.mp ran
      obtain ⟨_, _, grown⟩ := bind_eq_ok.mp grown
      simp only [calculateCapacity_eq size, Nat.zero_add] at grown
      by_cases fits : len + 1 ≤ sizeMax
      · rw [if_pos fits] at grown
        obtain ⟨⟨ensuredStatus, c₂⟩, ensured, grown⟩ := bind_eq_ok.mp grown
        cases ensuredStatus with
        | ok =>
            obtain ⟨sizes, _⟩ := ensureCapacity_sizes wf.cap_le fits ensured
            obtain ⟨c₃, extended, finished⟩ := bind_eq_ok.mp grown
            cases finished
            cases recorded
            have length : c'.str.len = len := by
              obtain ⟨_, _, extended⟩ := bind_eq_ok.mp extended
              obtain ⟨_, _, extended⟩ := bind_eq_ok.mp extended
              obtain ⟨_, _, extended⟩ := bind_eq_ok.mp extended
              obtain ⟨_, _, extended⟩ := bind_eq_ok.mp extended
              exact writeTerminator_len extended
            rw [length]
            exact sizes.still (extendContent_still extended)
        | errArg | errAlloc | errRange | errOverflow | errFmt =>
            cases grown
            exact absurd rfl (recordFailure_failed recorded)
      · rw [if_neg fits] at grown
        cases grown
        exact absurd rfl (recordFailure_failed recorded)

theorem reserve_sizes (wf : WellFormed c) (ok : c.str.status = .ok) (size : len ≤ sizeMax)
    (ran : reserve len c = .ok (.ok, c')) : Sizes (len + 1) c c' := by
  simp only [reserve, validateMutation, ok, calculateCapacity_eq size, Nat.zero_add] at ran
  by_cases empty : len = 0
  · rw [if_pos empty] at ran
    cases ran
    exact (Still.refl c).sizes _
  · rw [if_neg empty] at ran
    by_cases fits : len + 1 ≤ sizeMax
    · rw [if_pos fits] at ran
      obtain ⟨⟨status, c₁⟩, ensured, recorded⟩ := bind_eq_ok.mp ran
      cases status with
      | ok =>
          cases recorded
          exact (ensureCapacity_sizes wf.cap_le fits ensured).1
      | errArg | errAlloc | errRange | errOverflow | errFmt =>
          exact absurd rfl (recordFailure_failed recorded)
    · rw [if_neg fits] at ran
      exact absurd rfl (recordFailure_failed ran)

theorem replaceResizedSpan_sizes {removeLen newLen : Nat} {replacement : Borrowed}
    (wf : WellFormed c) (given : 0 < replacement.len → replacement.ptr.isNull = false)
    (readable : Readable c replacement.ptr replacement.len) (size : newLen ≤ sizeMax)
    (length : newLen = sizeAdd (sizeSub c.str.len removeLen) replacement.len)
    (ran : replaceResizedSpan idx removeLen newLen replacement c = .ok (.ok, c')) :
    Sizes (c'.str.len + 1) c c' := by
  simp only [replaceResizedSpan, calculateCapacity_eq size, Nat.zero_add] at ran
  by_cases fits : newLen + 1 ≤ sizeMax
  · rw [if_pos fits] at ran
    obtain ⟨staged, heap, stage, stages⟩ := stageReplacement_spec wf given readable
    simp only [stage, ok_bind] at ran
    have taken : ∃ s, staged = .ok s ∧ s.view.len = replacement.len := by
      cases stages with
      | failed failure same =>
          cases ran
          exact absurd rfl failure
      | borrowed external length read => exact ⟨_, rfl, rfl⟩
      | copied tmp length old read => exact ⟨_, rfl, rfl⟩
    obtain ⟨s, rfl, same⟩ := taken
    obtain ⟨⟨status, c₁⟩, ensured, ran⟩ := bind_eq_ok.mp ran
    cases status with
    | ok =>
        obtain ⟨sizes, sameLen⟩ := ensureCapacity_sizes (c := { c with heap }) wf.cap_le fits ensured
        obtain ⟨c₂, committed, ran⟩ := bind_eq_ok.mp ran
        obtain ⟨heap', _, finished⟩ := bind_eq_ok.mp ran
        cases finished
        have still := commitReplacement_still committed
        have lengthened : c₂.str.len = newLen := by
          obtain ⟨_, _, committed⟩ := bind_eq_ok.mp committed
          obtain ⟨_, _, committed⟩ := bind_eq_ok.mp committed
          obtain ⟨_, _, committed⟩ := bind_eq_ok.mp committed
          obtain ⟨_, _, committed⟩ := bind_eq_ok.mp committed
          obtain ⟨_, _, committed⟩ := bind_eq_ok.mp committed
          obtain ⟨_, _, committed⟩ := bind_eq_ok.mp committed
          obtain ⟨_, _, committed⟩ := bind_eq_ok.mp committed
          rw [writeTerminator_len committed, length, same, sameLen]
        rw [← lengthened] at sizes
        exact .of_str (d := { c with heap }) (e := c₂) rfl rfl (sizes.still still)
    | errArg | errAlloc | errRange | errOverflow | errFmt =>
        obtain ⟨heap', _, finished⟩ := bind_eq_ok.mp ran
        cases finished
  · rw [if_neg fits] at ran
    cases ran

theorem replaceView_sizes {removeLen : Nat} (wf : WellFormed c) (ok : c.str.status = .ok)
    (size : len ≤ sizeMax) (readable : Readable c source len)
    (ran : replaceView idx removeLen { ptr := source, len } c = .ok (.ok, c')) :
    Sizes (c'.str.len + 1) c c' := by
  rcases beginMutation_cases ok source len with ⟨begun, given⟩ | rejected
  · simp only [replaceView, begun, ok_bind, validateSpan_eq wf] at ran
    by_cases span : idx + removeLen ≤ c.str.len
    · simp only [if_pos span] at ran
      by_cases nothing : removeLen = 0 ∧ len = 0
      · rw [if_pos nothing] at ran
        cases ran
        exact (Still.refl c).sizes _
      · rw [if_neg nothing] at ran
        obtain ⟨⟨reached, c₁⟩, applied, recorded⟩ := bind_eq_ok.mp ran
        have done : reached = .ok ∧ c₁ = c' := by
          cases reached with
          | ok => cases recorded; exact ⟨rfl, rfl⟩
          | errArg | errAlloc | errRange | errOverflow | errFmt =>
              exact absurd rfl (recordFailure_failed recorded)
        obtain ⟨rfl, rfl⟩ := done
        obtain ⟨_, _, applied⟩ := bind_eq_ok.mp applied
        obtain ⟨_, _, applied⟩ := bind_eq_ok.mp applied
        obtain ⟨_, _, applied⟩ := bind_eq_ok.mp applied
        by_cases equal : removeLen = len
        · have pos : 0 < len := by omega
          rw [if_pos equal] at applied
          exact (replaceEqualSpan_still wf (given pos) pos readable applied).still.sizes _
        · rw [if_neg equal] at applied
          obtain ⟨measured, calculated, applied⟩ := bind_eq_ok.mp applied
          obtain ⟨_, _, calculated⟩ := bind_eq_ok.mp calculated
          have short : removeLen ≤ c.str.len := by omega
          have kept : sizeSub c.str.len removeLen = c.str.len - removeLen :=
            sizeSub_of_le short (Nat.le_of_lt wf.len_lt)
          cases calculated
          simp only [kept, addSize_eq size] at applied
          by_cases fits : c.str.len - removeLen + len ≤ sizeMax
          · rw [if_pos fits] at applied
            refine replaceResizedSpan_sizes wf given readable fits ?_ applied
            rw [kept, sizeAdd_of_le fits]
          · rw [if_neg fits] at applied
            cases applied
    · simp only [if_neg span] at ran
      exact absurd rfl (recordFailure_failed ran)
  · simp only [replaceView, rejected, ok_bind] at ran
    cases ran

end

/-! Runs. -/

/-- `str_shrink_to_fit` gives storage back, and `str_copy` moves another string in. -/
def Mutation.Growing : Mutation → Prop
  | .shrinkToFit | .copy _ => False
  | _ => True

/-- The bytes a call that succeeded asks `str_ensure_capacity` for, where it gets there: its result
and the terminator, or what is to be reserved. -/
def Mutation.need (c' : Cell) : Mutation → Nat
  | .reserve len => len + 1
  | _ => c'.str.len + 1

theorem Mutation.sizes {c c' : Cell} (wf : WellFormed c) {m : Mutation} (legal : m.Legal c)
    (growing : m.Growing) (ran : m.run c = .ok (.ok, c')) : Sizes (m.need c') c c' := by
  have size (len : Size) : len.val ≤ sizeMax := Nat.le_of_lt_succ len.isLt
  have ok : c.str.status = .ok := by
    refine Decidable.byContradiction fun failed => failed ?_
    rw [m.run_sticky failed] at ran
    exact congrArg Prod.fst (Except.ok.inj ran)
  cases m with
  | set source => exact setCString_sizes wf ok legal.1 legal.2 ran
  | setN source len | setView source len => exact setN_sizes wf ok (size len) ran
  | append source => exact appendCString_sizes wf ok legal.1 legal.2 ran
  | appendN source len | appendView source len => exact appendN_sizes wf ok (size len) ran
  | appendChar byte => exact appendChar_sizes wf ok ran
  | appendFmt format arguments => exact appendFmt_sizes wf ok legal.2 ran
  | insertN idx source len | insertView idx source len => exact insertN_sizes wf ok (size len) ran
  | remove idx len => exact (remove_still wf ok ran).still.sizes _
  | replaceView idx removeLen replacement len =>
      exact replaceView_sizes wf ok (size len) legal ran
  | resize len fill => exact resize_sizes wf ok (size len) ran
  | reserve len => exact reserve_sizes wf ok (size len) ran
  | shrinkToFit | copy => cases growing

/-- Every buffer of the allocator has an identity of its own. -/
def allocations (c c' : Cell) : Nat := if c'.str.buf = c.str.buf then 0 else 1

/-- The states of a string after growing calls that succeed, with the number of buffers it has been
given; `n` covers what was asked for when they were. -/
inductive Grows (n : Nat) (start : Cell) : Nat → Cell → Prop
  | start : Grows n start 0 start
  | mutate {k : Nat} {c c' : Cell} {m : Mutation} (reached : Grows n start k c)
      (growing : m.Growing) (legal : m.Legal c) (ran : m.run c = .ok (.ok, c'))
      (covered : c'.str.cap ≠ c.str.cap → m.need c' ≤ n) :
      Grows n start (k + allocations c c') c'
  | clear {k : Nat} {c c' : Cell} (reached : Grows n start k c) (ran : Str.clear c = .ok c') :
      Grows n start (k + allocations c c') c'
  | elsewhere {k : Nat} {c : Cell} {heap : Memory} (reached : Grows n start k c)
      (keeps : ∀ id, c.str.Designates id → heap.objs id = c.heap.objs id) :
      Grows n start k { c with heap }

/-- After `k` buffers the capacity is that of none or the smallest capacity doubled `k - 1` times or
more, up to `d` times. -/
inductive Doubled (d k : Nat) (c : Cell) : Prop
  | empty (cap : c.str.cap = 0) (none : k = 0)
  | doubled (j : Nat) (within : j ≤ d) (cap : c.str.cap = minCapacityBytes * 2 ^ j)
      (few : k ≤ j + 1)

theorem Doubled.congr {d k : Nat} {c c' : Cell} (doubled : Doubled d k c)
    (cap : c'.str.cap = c.str.cap) : Doubled d k c' := by
  cases doubled with
  | empty none zero => exact .empty (cap.trans none) zero
  | doubled j within same few => exact .doubled j within (cap.trans same) few

theorem chooseCapacity_doubled {d j current need newCap : Nat} (small : d ≤ 59) (within : j ≤ d)
    (first : max current minCapacityBytes = minCapacityBytes * 2 ^ j) (short : current < need)
    (covered : need ≤ minCapacityBytes * 2 ^ d)
    (chosen : chooseCapacity current need = .ok newCap) :
    ∃ i, j ≤ i ∧ i ≤ d ∧ newCap = minCapacityBytes * 2 ^ i ∧ current < newCap := by
  have bound (i : Nat) (few : i ≤ d) : minCapacityBytes * 2 ^ i ≤ sizeMax := by
    calc minCapacityBytes * 2 ^ i ≤ minCapacityBytes * 2 ^ 59 :=
          Nat.mul_le_mul_left _ (Nat.pow_le_pow_right (by decide) (by omega))
      _ ≤ sizeMax := by decide
  have current_le : current ≤ sizeMax :=
    Nat.le_trans (Nat.le_max_left _ _) (first ▸ bound j within)
  obtain ⟨newCap', chosen', chooses⟩ :=
    chooseCapacity_eq current_le (Nat.le_trans covered (bound d (Nat.le_refl d))) short
  cases chosen.symm.trans chosen'
  obtain ⟨k, covers, value⟩ := chooses.doubled
  have power (k : Nat) : minCapacityBytes * 2 ^ j * 2 ^ k = minCapacityBytes * 2 ^ (j + k) := by
    rw [Nat.pow_add, Nat.mul_assoc]
  have few : k ≤ d - j := by
    refine covers.least (d - j) ?_
    rw [first, power, Nat.add_sub_cancel' within]
    exact covered
  rw [first, power, if_pos (bound (j + k) (by omega))] at value
  exact ⟨j + k, by omega, by omega, value, chooses.grows⟩

/-- A buffer is only given with a capacity doubled once more. -/
theorem Doubled.sizes {d k need : Nat} {c c' : Cell} (small : d ≤ 59) (doubled : Doubled d k c)
    (sizes : Sizes need c c')
    (covered : c'.str.cap ≠ c.str.cap → need ≤ minCapacityBytes * 2 ^ d) :
    Doubled d (k + allocations c c') c' := by
  cases sizes with
  | kept buf cap =>
      rw [allocations, if_pos buf]
      exact doubled.congr cap
  | grown fits short chosen =>
      have one : allocations c c' ≤ 1 := by
        unfold allocations
        split
        · exact Nat.zero_le 1
        · exact Nat.le_refl 1
      have grows : c.str.cap ≤ sizeMax → c'.str.cap ≠ c.str.cap := by
        intro capFits
        obtain ⟨newCap, chosen', chooses⟩ := chooseCapacity_eq capFits fits short
        cases chosen.symm.trans chosen'
        exact Nat.ne_of_gt chooses.grows
      cases doubled with
      | empty none zero =>
          have first : max c.str.cap minCapacityBytes = minCapacityBytes * 2 ^ 0 := by
            rw [none]
            rfl
          obtain ⟨i, _, within, cap, _⟩ := chooseCapacity_doubled small (Nat.zero_le d) first short
            (covered (grows (none ▸ Nat.zero_le _))) chosen
          exact .doubled i within cap (by omega)
      | doubled j within same few =>
          have first : max c.str.cap minCapacityBytes = minCapacityBytes * 2 ^ j := by
            rw [same]
            exact Nat.max_eq_left (Nat.le_mul_of_pos_right _ (Nat.two_pow_pos j))
          have capFits : c.str.cap ≤ sizeMax := Nat.le_trans (Nat.le_of_lt short) fits
          obtain ⟨i, least, within', cap, larger⟩ := chooseCapacity_doubled small within first short
            (covered (grows capFits)) chosen
          have more : j < i := by
            refine Nat.lt_of_le_of_ne least fun stays => ?_
            rw [cap, same, stays] at larger
            exact Nat.lt_irrefl _ larger
          exact .doubled i within' cap (by omega)

theorem Grows.doubled {n d k : Nat} {start c : Cell} (small : d ≤ 59)
    (covers : n ≤ minCapacityBytes * 2 ^ d) (empty : start.str = .empty)
    (grows : Grows n start k c) : WellFormed c ∧ Doubled d k c := by
  induction grows with
  | start =>
      have cap : start.str.cap = 0 := by rw [empty]; rfl
      exact ⟨.empty (by rw [empty]; rfl) (by rw [empty]; rfl) cap, .empty cap rfl⟩
  | @mutate k c c' m reached growing legal ran covered ih =>
      obtain ⟨wf, doubled⟩ := ih
      obtain ⟨_, _, run, wf', _⟩ := m.run_spec wf legal
      cases ran.symm.trans run
      exact ⟨wf', doubled.sizes small (Mutation.sizes wf legal growing ran) fun grown =>
        Nat.le_trans (covered grown) covers⟩
  | @clear k c c' reached ran ih =>
      obtain ⟨wf, doubled⟩ := ih
      obtain ⟨_, run, wf', _⟩ := clear_spec wf
      cases ran.symm.trans run
      have still := clearContent_still ran
      have kept : c'.str.buf = c.str.buf := still.buf
      rw [allocations, if_pos kept]
      exact ⟨wf', doubled.congr still.cap⟩
  | elsewhere reached keeps ih => exact ⟨(ih.1.of_same_block keeps).1, ih.2.congr rfl⟩

/-- The capacity is chosen as the first doubling that covers the need, so that a string that starts
empty is given at most one buffer more than it takes doublings to cover all it needs. -/
theorem growth_amortized :
    (∀ current need : Size, ∃ newCap, chooseCapacity current need = .ok newCap ∧
      (need.val ≤ current.val → newCap = current) ∧
      (current.val < need.val → Chooses current need newCap)) ∧
    ∀ (n d k : Nat) (start c : Cell), n ≤ 2 ^ 63 → n ≤ minCapacityBytes * 2 ^ d →
      start.str = .empty → Grows n start k c → k ≤ 1 + d := by
  refine ⟨fun current need => ?_, fun n d k start c small covers empty grows => ?_⟩
  · by_cases enough : need.val ≤ current.val
    · exact ⟨current, if_pos enough, fun _ => rfl, fun short => absurd enough (Nat.not_le.mpr short)⟩
    · obtain ⟨newCap, chosen, chooses⟩ := chooseCapacity_eq (Nat.le_of_lt_succ current.isLt)
        (Nat.le_of_lt_succ need.isLt) (Nat.lt_of_not_le enough)
      exact ⟨newCap, chosen, fun room => absurd room enough, fun _ => chooses⟩
  · have least : n ≤ minCapacityBytes * 2 ^ min d 59 := by
      rw [Nat.min_def]
      split
      · exact covers
      · exact Nat.le_trans small (by decide)
    obtain ⟨_, doubled⟩ := grows.doubled (Nat.min_le_right d 59) least empty
    have few : min d 59 ≤ d := Nat.min_le_left d 59
    cases doubled with
    | empty _ none => omega
    | doubled j within _ few => omega

/-- A string is given a first buffer for one byte and, cleared, larger ones as it is resized and
appended to itself; one more byte goes into the last. -/
theorem growth_amortized_first :
    ∃ c, Grows 48 .rising 3 c ∧ c.content = List.replicate 41 98 ∧
      c.str.cap = minCapacityBytes * 2 ^ 2 ∧ 3 ≤ 1 + 2 := by
  have blank : Grows 48 .rising 0 .rising := .start
  have first := blank.mutate (m := .appendChar 97) trivial trivial rfl fun _ => by decide
  have cleared := first.clear rfl
  have resized := cleared.mutate (m := .resize 20 98) trivial trivial rfl fun _ => by decide
  have doubled := resized.mutate (m := .appendN (.mem (some ⟨1, 8192⟩)) 20) trivial
    (.inr (.inr (.inl ⟨⟨1, 8192⟩, ⟨1, 8192⟩, rfl, rfl, rfl, by decide, by decide⟩))) rfl
    fun _ => by decide
  have last := doubled.mutate (m := .appendChar 98) trivial trivial rfl fun _ => by decide
  have grows : Grows 48 .rising 3 _ := last
  exact ⟨_, grows, rfl, rfl,
    growth_amortized.2 48 2 3 _ _ (by decide) (by decide) rfl grows⟩

end AgencC.Str
