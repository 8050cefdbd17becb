import AgencC.Str.CriticalFactor

/-! The Two-Way search examines every candidate an occurrence could start at:
shifts skip no occurrence, the remembered prefix really matches, and no state the
loop reaches lets it read outside a view. -/

set_option autoImplicit false

namespace AgencC.Str

open Library

theorem scanRightLoop_spec (haystack needle : View) (idx : Nat) (left scan : Nat)
    (end' : scan + left = needle.bytes.length)
    (fits : idx + needle.bytes.length ≤ haystack.bytes.length) :
    ∃ mismatch, scanRightLoop haystack needle idx left scan = .ok mismatch ∧
      scan ≤ mismatch ∧ mismatch ≤ needle.bytes.length ∧
      (∀ index, scan ≤ index → index < mismatch →
        haystack.bytes[idx + index]? = needle.bytes[index]?) ∧
      (mismatch < needle.bytes.length →
        haystack.bytes[idx + mismatch]? ≠ needle.bytes[mismatch]?) := by
  induction left generalizing scan with
  | zero => exact ⟨scan, rfl, Nat.le_refl _, by omega, by omega, by omega⟩
  | succ left ih =>
      have needleFound := List.getElem?_eq_getElem (by omega : scan < needle.bytes.length)
      have haystackFound :=
        List.getElem?_eq_getElem (by omega : idx + scan < haystack.bytes.length)
      simp only [scanRightLoop, View.read_of_getElem? needleFound,
        View.read_of_getElem? haystackFound, ok_bind]
      by_cases equal : needle.bytes[scan] = haystack.bytes[idx + scan]
      · obtain ⟨mismatch, ran, after, bound, matched, stops⟩ := ih (scan + 1) (by omega)
        rw [if_pos equal]
        refine ⟨mismatch, ran, by omega, bound, fun index from' before => ?_, stops⟩
        rcases Nat.eq_or_lt_of_le from' with here | later
        · subst here
          rw [needleFound, haystackFound, equal]
        · exact matched index later before
      · rw [if_neg equal]
        refine ⟨scan, rfl, Nat.le_refl _, by omega, by omega, fun _ => ?_⟩
        rw [needleFound, haystackFound]
        exact fun same => equal (Option.some.inj same).symm

theorem leftMatchLoop_spec (haystack needle : View) (idx memory left : Nat)
    (inside : memory + left ≤ needle.bytes.length)
    (fits : idx + needle.bytes.length ≤ haystack.bytes.length) :
    ∃ isMatch, leftMatchLoop haystack needle idx memory left = .ok isMatch ∧
      (isMatch = true ↔ ∀ index, memory ≤ index → index < memory + left →
        haystack.bytes[idx + index]? = needle.bytes[index]?) := by
  induction left with
  | zero => exact ⟨true, rfl, by simp only [true_iff]; intro index _ _; omega⟩
  | succ left ih =>
      have needleFound :=
        List.getElem?_eq_getElem (by omega : memory + left < needle.bytes.length)
      have haystackFound :=
        List.getElem?_eq_getElem (by omega : idx + (memory + left) < haystack.bytes.length)
      simp only [leftMatchLoop, View.read_of_getElem? needleFound,
        View.read_of_getElem? haystackFound, ok_bind]
      by_cases differ : needle.bytes[memory + left] ≠ haystack.bytes[idx + (memory + left)]
      · rw [if_pos differ]
        refine ⟨false, rfl, by simp, fun all => ?_⟩
        have last := all (memory + left) (by omega) (by omega)
        rw [needleFound, haystackFound] at last
        exact absurd (Option.some.inj last).symm differ
      · rw [if_neg differ]
        obtain ⟨isMatch, ran, correct⟩ := ih (by omega)
        refine ⟨isMatch, ran, correct.trans
          ⟨fun all index after before => ?_, fun all index after before =>
            all index after (by omega)⟩⟩
        rcases Nat.lt_or_ge index (memory + left) with lower | here
        · exact all index after lower
        · obtain rfl : index = memory + left := by omega
          rw [needleFound, haystackFound, not_ne_iff.mp differ]

/-- `result` answers the search: the first or last start of an occurrence, and
`npos` when there is none. -/
def IsAnswer (haystack needle : List UInt8) (mode : SearchMode) (result : Nat) : Prop :=
  ((∀ start, ¬ OccursAt haystack needle start) ∧ result = npos) ∨
    match mode with
    | .first => IsLeast {start | OccursAt haystack needle start} result
    | .last => IsGreatest {start | OccursAt haystack needle start} result

/-- The invariant of the search loop at a candidate: `found` answers for the
starts before it, and the remembered prefix matches. -/
structure SearchInv (context : SearchContext) (state : SearchState) (found : Nat) : Prop where
  idxLe : state.idx ≤ context.lastIdx
  memoryLt : state.memory < context.needle.len
  known : ∀ index < state.memory,
    context.haystack.bytes[state.idx + index]? = context.needle.bytes[index]?
  seen : ((∀ start < state.idx,
      ¬ OccursAt context.haystack.bytes context.needle.bytes start) ∧ found = npos) ∨
    (context.mode = .last ∧
      IsGreatest {start | start < state.idx ∧
        OccursAt context.haystack.bytes context.needle.bytes start} found)

theorem SearchInv.ensureCandidate {context : SearchContext} {period : Nat}
    {state : SearchState} {found : Nat} (inv : SearchInv context state found)
    (ok : ContextOk context period) :
    ensureCandidate context.haystack context.needle state = .ok () := by
  have fits := ok.fits
  have idxLe := inv.idxLe
  have memoryLt := inv.memoryLt
  have needlePos := ok.needlePos
  have room : context.needle.len ≤ context.haystack.len := by omega
  have reach : state.idx ≤ context.haystack.len - context.needle.len := by omega
  simp [Str.ensureCandidate, View.isSome_of_pos ok.haystackValid (by omega),
    View.isSome_of_pos ok.needleValid needlePos, room, reach, memoryLt]

/-- A candidate that does not match leaves the answer as it is. -/
theorem SearchInv.seen_through {context : SearchContext} {state : SearchState} {found : Nat}
    (inv : SearchInv context state found)
    (notHere : ¬ OccursAt context.haystack.bytes context.needle.bytes state.idx) :
    ((∀ start ≤ state.idx, ¬ OccursAt context.haystack.bytes context.needle.bytes start) ∧
      found = npos) ∨
    (context.mode = .last ∧
      IsGreatest {start | start ≤ state.idx ∧
        OccursAt context.haystack.bytes context.needle.bytes start} found) := by
  have earlier : ∀ start ≤ state.idx,
      OccursAt context.haystack.bytes context.needle.bytes start → start < state.idx :=
    fun start reach occurs => Nat.lt_of_le_of_ne reach fun here => notHere (here ▸ occurs)
  rcases inv.seen with ⟨none, missing⟩ | ⟨isLast, greatest⟩
  · exact .inl ⟨fun start reach occurs => none start (earlier start reach occurs) occurs, missing⟩
  · exact .inr ⟨isLast, ⟨Nat.le_of_lt greatest.1.1, greatest.1.2⟩,
      fun start member => greatest.2 ⟨earlier start member.1 member.2, member.2⟩⟩

/-- Moving on by a shift that skips no occurrence either keeps the loop
invariant or completes the answer. -/
private theorem searchAdvance_spec {context : SearchContext} {period : Nat}
    (ok : ContextOk context period) {state : SearchState} {shift : Nat} (found memory : Nat)
    (idxLe : state.idx ≤ context.lastIdx) (positive : 0 < shift)
    (memoryLt : memory < context.needle.len)
    (known : ∀ index < memory,
      context.haystack.bytes[state.idx + shift + index]? = context.needle.bytes[index]?)
    (skips : ∀ step, 0 < step → step < shift →
      ¬ OccursAt context.haystack.bytes context.needle.bytes (state.idx + step))
    (seen : ((∀ start ≤ state.idx,
        ¬ OccursAt context.haystack.bytes context.needle.bytes start) ∧ found = npos) ∨
      (context.mode = .last ∧
        IsGreatest {start | start ≤ state.idx ∧
          OccursAt context.haystack.bytes context.needle.bytes start} found)) :
    ∃ state' hasNext, searchAdvance state context.lastIdx shift = .ok (state', hasNext) ∧
      (hasNext = true → SearchInv context { state' with memory := memory } found ∧
        state.idx < state'.idx) ∧
      (hasNext = false →
        IsAnswer context.haystack.bytes context.needle.bytes context.mode found ∧
          ∀ start, OccursAt context.haystack.bytes context.needle.bytes start →
            start ≤ state.idx) := by
  have haystackLength := View.length_bytes ok.haystackValid
  have needleLength := View.length_bytes ok.needleValid
  have fits := ok.fits
  simp only [searchAdvance, ensure_of idxLe, ensure_of positive, ok_bind]
  by_cases last : context.lastIdx - state.idx < shift
  · rw [if_pos last]
    refine ⟨state, false, rfl, by simp, fun _ => ?_⟩
    have only : ∀ start, OccursAt context.haystack.bytes context.needle.bytes start →
        start ≤ state.idx := by
      intro start occurs
      by_contra beyond
      have room := occurs.1
      have skipped := skips (start - state.idx) (by omega) (by omega)
      rw [Nat.add_sub_cancel' (by omega)] at skipped
      exact skipped occurs
    refine ⟨?_, only⟩
    rcases seen with ⟨none, missing⟩ | ⟨isLast, greatest⟩
    · exact .inl ⟨fun start occurs => none start (only start occurs) occurs, missing⟩
    · right
      rw [isLast]
      exact ⟨greatest.1.2, fun start occurs => greatest.2 ⟨only start occurs, occurs⟩⟩
  · rw [if_neg last]
    refine ⟨{ state with idx := state.idx + shift }, true, rfl, fun _ => ⟨?_, by simp; omega⟩,
      by simp⟩
    have skipped : ∀ start, start < state.idx + shift →
        OccursAt context.haystack.bytes context.needle.bytes start → start ≤ state.idx := by
      intro start before occurs
      by_contra beyond
      have absent := skips (start - state.idx) (by omega) (by omega)
      rw [Nat.add_sub_cancel' (by omega)] at absent
      exact absent occurs
    refine ⟨by simp; omega, memoryLt, known, ?_⟩
    rcases seen with ⟨none, missing⟩ | ⟨isLast, greatest⟩
    · exact .inl ⟨fun start before occurs =>
        none start (skipped start before occurs) occurs, missing⟩
    · refine .inr ⟨isLast, ⟨?_, greatest.1.2⟩, fun start member =>
        greatest.2 ⟨skipped start member.1 member.2, member.2⟩⟩
      have := greatest.1.1
      show found < state.idx + shift
      omega

private theorem scanRight_spec {context : SearchContext} {period : Nat}
    (ok : ContextOk context period) {state : SearchState} {found : Nat}
    (inv : SearchInv context state found) :
    ∃ mismatch,
      scanRight context.haystack context.needle context.factor state = .ok mismatch ∧
      mismatch ≤ context.needle.len ∧ context.factor.cut ≤ mismatch ∧
      (∀ index, (index < state.memory ∨ context.factor.cut ≤ index) → index < mismatch →
        context.haystack.bytes[state.idx + index]? = context.needle.bytes[index]?) ∧
      (mismatch < context.needle.len →
        context.haystack.bytes[state.idx + mismatch]? ≠ context.needle.bytes[mismatch]?) := by
  have haystackLength := View.length_bytes ok.haystackValid
  have needleLength := View.length_bytes ok.needleValid
  have fits := ok.fits
  have idxLe := inv.idxLe
  have memoryLt := inv.memoryLt
  have inside := ok.chosen.critical.inside
  have candidate := inv.ensureCandidate ok
  have start : ∃ scan, (if context.factor.cut < state.memory then state.memory
      else context.factor.cut) = scan ∧ context.factor.cut ≤ scan ∧ state.memory ≤ scan ∧
      scan < context.needle.len ∧ (scan = state.memory ∨ scan = context.factor.cut) := by
    refine ⟨_, rfl, ?_⟩
    split <;> omega
  obtain ⟨scan, chose, fromCut, fromMemory, scanLt, which⟩ := start
  obtain ⟨mismatch, ran, after, bound, matched, stops⟩ :=
    scanRightLoop_spec context.haystack context.needle state.idx
      (context.needle.len - scan) scan (by omega) (by omega)
  refine ⟨mismatch, ?_, by omega, by omega, fun index known before => ?_, fun short =>
    stops (by omega)⟩
  · simp only [scanRight, candidate, ok_bind, chose, ran]
  · rcases Nat.lt_or_ge index scan with lower | upper
    · exact inv.known index (by omega)
    · exact matched index upper before

private theorem hasCandidateLeftMatch_spec {context : SearchContext} {period : Nat}
    (ok : ContextOk context period) {state : SearchState} {found : Nat}
    (inv : SearchInv context state found)
    (matched : ∀ index, (index < state.memory ∨ context.factor.cut ≤ index) →
      index < context.needle.len →
      context.haystack.bytes[state.idx + index]? = context.needle.bytes[index]?) :
    ∃ isMatch,
      hasCandidateLeftMatch context.haystack context.needle context.factor state =
        .ok isMatch ∧
      (isMatch = true ↔
        OccursAt context.haystack.bytes context.needle.bytes state.idx) := by
  have haystackLength := View.length_bytes ok.haystackValid
  have needleLength := View.length_bytes ok.needleValid
  have fits := ok.fits
  have idxLe := inv.idxLe
  have memoryLt := inv.memoryLt
  have inside := ok.chosen.critical.inside
  have candidate := inv.ensureCandidate ok
  obtain ⟨isMatch, ran, correct⟩ :=
    leftMatchLoop_spec context.haystack context.needle state.idx
      state.memory (context.factor.cut - state.memory) (by omega) (by omega)
  refine ⟨isMatch, by simp only [hasCandidateLeftMatch, candidate, ok_bind, ran],
    correct.trans ⟨fun left => ⟨by omega, fun index bound => ?_⟩, fun occurs index _ before =>
      occurs.2 index (by omega)⟩⟩
  by_cases known : index < state.memory ∨ context.factor.cut ≤ index
  · exact matched index known (by omega)
  · exact left index (by omega) (by omega)

/-- How a step of the search goes. -/
inductive Stepped (context : SearchContext) (state : SearchState) (found : Nat) :
    SearchState → Nat → Bool → Prop
  /-- The shift does not wrap: the mismatch lies in the right part. -/
  | mismatch {mismatch : Nat} {state' : SearchState} {hasNext : Bool}
      (scanned : scanRight context.haystack context.needle context.factor state = .ok mismatch)
      (fromCut : context.factor.cut ≤ mismatch) (short : mismatch < context.needle.len)
      (advanced : searchAdvance state context.lastIdx (mismatch - context.factor.cut + 1) =
        .ok (state', hasNext)) :
      Stepped context state found { state' with memory := 0 } found hasNext
  | firstMatch
      (scanned : scanRight context.haystack context.needle context.factor state =
        .ok context.needle.len)
      (matched : hasCandidateLeftMatch context.haystack context.needle context.factor state =
        .ok true)
      (first : context.mode = .first) :
      Stepped context state found state state.idx false
  | shifted {isMatch : Bool} {state' : SearchState} {hasNext : Bool}
      (scanned : scanRight context.haystack context.needle context.factor state =
        .ok context.needle.len)
      (tested : hasCandidateLeftMatch context.haystack context.needle context.factor state =
        .ok isMatch)
      (goesOn : ¬ (isMatch = true ∧ context.mode = .first)) (positive : 0 < context.fullShift)
      (advanced : searchAdvance state context.lastIdx context.fullShift = .ok (state', hasNext)) :
      Stepped context state found { state' with memory := context.savedMemory }
        (if isMatch then state.idx else found) hasNext

/-- Why the search ends at `state`: with the first match, or with no candidate left. -/
def SearchOver (context : SearchContext) (state : SearchState) (result : Nat) : Prop :=
  (context.mode = .first ∧
    OccursAt context.haystack.bytes context.needle.bytes state.idx ∧ result = state.idx) ∨
    ∀ start, OccursAt context.haystack.bytes context.needle.bytes start → start ≤ state.idx

theorem searchAdvance_le {state state' : SearchState} {lastIdx shift : Nat} {hasNext : Bool}
    (idxLe : state.idx ≤ lastIdx)
    (advanced : searchAdvance state lastIdx shift = .ok (state', hasNext)) :
    state'.idx ≤ lastIdx := by
  simp only [searchAdvance, ensure_of idxLe, ok_bind] at advanced
  obtain ⟨_, _, advanced⟩ := bind_eq_ok.mp advanced
  by_cases last : lastIdx - state.idx < shift
  · rw [if_pos last] at advanced
    cases advanced
    exact idxLe
  · rw [if_neg last] at advanced
    cases advanced
    show state.idx + shift ≤ lastIdx
    omega

namespace Stepped

variable {context : SearchContext} {state state' : SearchState} {found found' : Nat}
  {hasNext : Bool}

theorem ran (stepped : Stepped context state found state' found' hasNext) :
    searchStep context state found = .ok (state', found', hasNext) := by
  cases stepped with
  | mismatch scanned _ short advanced =>
      simp only [searchStep, scanned, ok_bind, if_pos short, searchOnMismatch, ensure_of short,
        advanced]
  | firstMatch scanned matched first =>
      simp only [searchStep, scanned, ok_bind, Nat.lt_irrefl, if_false, searchAfterRightMatch,
        matched, first, and_self, if_true]
  | shifted scanned tested goesOn _ advanced =>
      simp only [searchStep, scanned, ok_bind, Nat.lt_irrefl, if_false, searchAfterRightMatch,
        tested, if_neg goesOn, advanced]

/-- Also the last step leaves a candidate in the haystack and a memory below the needle. -/
theorem within {period : Nat} (stepped : Stepped context state found state' found' hasNext)
    (ok : ContextOk context period) (inv : SearchInv context state found) :
    state'.idx ≤ context.lastIdx ∧ state'.memory < context.needle.len := by
  cases stepped with
  | mismatch _ _ _ advanced =>
      have bound := searchAdvance_le inv.idxLe advanced
      exact ⟨bound, ok.needlePos⟩
  | firstMatch _ _ _ => exact ⟨inv.idxLe, inv.memoryLt⟩
  | shifted _ _ _ _ advanced =>
      have bound := searchAdvance_le inv.idxLe advanced
      exact ⟨bound, ok.memoryLt⟩

end Stepped

theorem searchStep_spec {context : SearchContext} {period : Nat}
    (ok : ContextOk context period) {state : SearchState} {found : Nat}
    (inv : SearchInv context state found) :
    ∃ state' found' hasNext, Stepped context state found state' found' hasNext ∧
      (hasNext = true → SearchInv context state' found' ∧ state.idx < state'.idx) ∧
      (hasNext = false →
        IsAnswer context.haystack.bytes context.needle.bytes context.mode found' ∧
          SearchOver context state found') := by
  have needleLength := View.length_bytes ok.needleValid
  have critical := ok.chosen.critical
  obtain ⟨mismatch, scanned, bound, after, matched, stops⟩ := scanRight_spec ok inv
  by_cases short : mismatch < context.needle.len
  · -- A mismatch in the right part: no start up to one past it can match.
    have differs := stops short
    have notHere : ¬ OccursAt context.haystack.bytes context.needle.bytes state.idx :=
      fun occurs => differs (occurs.2 mismatch (by omega))
    obtain ⟨state', hasNext, advanced, next, done⟩ :=
      searchAdvance_spec ok found 0 inv.idxLe
        (by omega : 0 < mismatch - context.factor.cut + 1) ok.needlePos (by simp)
        (fun step positive before => critical.no_occurrence_after_mismatch
          (fun index from' upto => matched index (.inr from') upto) (by omega) differs positive
          (by omega))
        (inv.seen_through notHere)
    exact ⟨_, found, hasNext, .mismatch scanned after short advanced, next,
      fun ended => ⟨(done ended).1, .inr (done ended).2⟩⟩
  · -- The right part matches; the full shift stays below the smallest period.
    have whole : mismatch = context.needle.len := by omega
    have all : ∀ index, (index < state.memory ∨ context.factor.cut ≤ index) →
        index < context.needle.len →
        context.haystack.bytes[state.idx + index]? = context.needle.bytes[index]? :=
      fun index known before => matched index known (by omega)
    obtain ⟨isMatch, tested, correct⟩ := hasCandidateLeftMatch_spec ok inv all
    rw [whole] at scanned
    by_cases stop : isMatch = true ∧ context.mode = .first
    · have occurs := correct.mp stop.1
      rw [stop.1] at tested
      refine ⟨state, state.idx, false, .firstMatch scanned tested stop.2, by simp,
        fun _ => ⟨.inr ?_, .inl ⟨stop.2, occurs, rfl⟩⟩⟩
      rw [stop.2]
      rcases inv.seen with ⟨none, _⟩ | ⟨isLast, _⟩
      · refine ⟨occurs, fun start member => ?_⟩
        by_contra before
        exact none start (Nat.lt_of_not_le before) member
      · rw [stop.2] at isLast
        cases isLast
    · obtain ⟨state', hasNext, advanced, next, done⟩ :=
        searchAdvance_spec ok (if isMatch then state.idx else found) context.savedMemory
          inv.idxLe ok.shiftPos ok.memoryLt
          (by
            intro index before
            rcases ok.memoryKnown with none | ⟨whole, rest⟩
            · omega
            · have cutLt := critical.cut_lt_period ok.smallest.pos ok.smallest.hasPeriod
              rw [whole, Nat.add_assoc, all (period + index) (.inr (by omega)) (by omega),
                List.hasPeriod_iff_getElem?.mp ok.smallest.hasPeriod index (by omega),
                Nat.add_comm])
          (fun step positive before => critical.no_occurrence_within_period ok.smallest
            (fun index from' upto => all index (.inr from') (by omega)) positive
            (by have := ok.shiftLe; omega))
          (by
            cases isMatch with
            | true =>
                have occurs := correct.mp rfl
                refine .inr ⟨?_, ⟨Nat.le_refl _, occurs⟩, fun start member => member.1⟩
                cases which : context.mode with
                | first => exact absurd ⟨rfl, which⟩ stop
                | last => rfl
            | false =>
                have notHere : ¬ OccursAt context.haystack.bytes context.needle.bytes
                    state.idx := fun occurs => by simpa using correct.mpr occurs
                exact inv.seen_through notHere)
      exact ⟨_, _, hasNext, .shifted scanned tested stop ok.shiftPos advanced, next,
        fun ended => ⟨(done ended).1, .inr (done ended).2⟩⟩

/-- One turn of the loop of `str_search_two_way`: a step after which there is a next candidate. -/
def SearchTurn (context : SearchContext) (now next : SearchState × Nat) : Prop :=
  searchStep context now.1 now.2 = .ok (next.1, next.2, true)

/-- What the loop starts from. -/
def searchStart : SearchState × Nat := ({ idx := 0, memory := 0 }, npos)

theorem searchStart_inv {context : SearchContext} {period : Nat} (ok : ContextOk context period) :
    SearchInv context searchStart.1 searchStart.2 :=
  ⟨Nat.zero_le _, ok.needlePos, fun _ before => absurd before (Nat.not_lt_zero _),
    .inl ⟨fun _ before => absurd before (Nat.not_lt_zero _), rfl⟩⟩

theorem SearchTurn.keeps {context : SearchContext} {period : Nat} (ok : ContextOk context period)
    {now next : SearchState × Nat} (inv : SearchInv context now.1 now.2)
    (turn : SearchTurn context now next) :
    SearchInv context next.1 next.2 ∧ now.1.idx < next.1.idx := by
  obtain ⟨state', found', hasNext, stepped, goesOn, _⟩ := searchStep_spec ok inv
  have same := turn.symm.trans stepped.ran
  cases same
  exact goesOn rfl

/-- Every turn moves the candidate forward, so that turns do not outnumber candidates. -/
theorem Turns.search {context : SearchContext} {period : Nat} (ok : ContextOk context period)
    {taken : Nat} {now : SearchState × Nat}
    (reached : Turns (SearchTurn context) searchStart taken now) :
    SearchInv context now.1 now.2 ∧ taken ≤ now.1.idx := by
  have initial := searchStart_inv ok
  have moved : searchStart.1.idx + taken ≤ now.1.idx :=
    reached.measure_le (fun now => SearchInv context now.1 now.2) (fun now => now.1.idx) initial
      (fun inv turn => (turn.keeps ok inv).1) fun inv turn => (turn.keeps ok inv).2
  exact ⟨reached.invariant (fun now => SearchInv context now.1 now.2) initial
      fun inv turn => (turn.keeps ok inv).1,
    Nat.le_trans (Nat.le_add_left _ _) moved⟩

/-- The step bound never decides: the loop ends with a step that has no next candidate. -/
theorem searchLoop_spec {context : SearchContext} {period : Nat}
    (ok : ContextOk context period) (steps : Nat) {taken : Nat} (now : SearchState × Nat)
    (reached : Turns (SearchTurn context) searchStart taken now)
    (enough : context.lastIdx < now.1.idx + steps) :
    ∃ taken' last state' result,
      Turns (SearchTurn context) searchStart taken' last ∧
      Stepped context last.1 last.2 state' result false ∧
      SearchOver context last.1 result ∧
      searchLoop context steps now.1 now.2 = .ok result ∧
      IsAnswer context.haystack.bytes context.needle.bytes context.mode result := by
  induction steps generalizing taken now with
  | zero =>
      have := (Turns.search ok reached).1.idxLe
      omega
  | succ steps ih =>
      have inv := (Turns.search ok reached).1
      obtain ⟨state', found', hasNext, stepped, next, done⟩ := searchStep_spec ok inv
      simp only [searchLoop, ensure_of inv.idxLe, ok_bind, stepped.ran]
      cases hasNext with
      | true =>
          have forward := (next rfl).2
          exact ih (state', found') (reached.turn stepped.ran) (by
            show context.lastIdx < state'.idx + steps
            omega)
      | false =>
          exact ⟨taken, now, state', found', reached, stepped, (done rfl).2, rfl, (done rfl).1⟩

/-- What holds wherever the loop of `str_search_two_way` stands after `taken` turns. -/
structure SearchSafe (context : SearchContext) (taken : Nat) (state : SearchState)
    (found : Nat) : Prop where
  /-- The step counter allows one more step. -/
  counter : taken ≤ context.lastIdx
  idxLe : state.idx ≤ context.lastIdx
  memoryLt : state.memory < context.needle.len
  /-- Every needle index has its place in the haystack, for both scans. -/
  inside : ∀ index < context.needle.len, state.idx + index < context.haystack.len
  /-- The step reads no byte outside and fails no assert, and shifts by a positive amount. -/
  steps : ∃ state' found' hasNext, searchStep context state found = .ok (state', found', hasNext) ∧
    Stepped context state found state' found' hasNext ∧ state'.idx ≤ context.lastIdx ∧
    state'.memory < context.needle.len

theorem Turns.safe {context : SearchContext} {period : Nat} (ok : ContextOk context period)
    {taken : Nat} {now : SearchState × Nat}
    (reached : Turns (SearchTurn context) searchStart taken now) :
    SearchSafe context taken now.1 now.2 := by
  obtain ⟨inv, forward⟩ := Turns.search ok reached
  have idxLe := inv.idxLe
  have fits := ok.fits
  obtain ⟨state', found', hasNext, stepped, _⟩ := searchStep_spec ok inv
  exact {
    idxLe
    counter := by omega
    memoryLt := inv.memoryLt
    inside := fun index bound => by omega
    steps := ⟨state', found', hasNext, stepped.ran, stepped, stepped.within ok inv⟩ }

/-- The context a search builds, and the run of its loop. -/
theorem searchTwoWay_run {haystack needle : View} (mode : SearchMode)
    (haystackValid : viewIsValid haystack) (needleValid : viewIsValid needle)
    (long : 1 < needle.len) (fits : needle.len ≤ haystack.len) :
    ∃ context period, buildSearchContext haystack needle mode = .ok context ∧
      ContextOk context period ∧ context.haystack = haystack ∧ context.needle = needle ∧
      context.mode = mode ∧
      ∃ taken last state' result,
        Turns (SearchTurn context) searchStart taken last ∧
        Stepped context last.1 last.2 state' result false ∧ SearchOver context last.1 result ∧
        searchTwoWay haystack needle mode = .ok result ∧
        IsAnswer haystack.bytes needle.bytes mode result := by
  obtain ⟨context, period, built, ok, rfl, rfl, rfl⟩ :=
    buildSearchContext_spec mode haystackValid needleValid long fits
  obtain ⟨taken, last, state', result, reached, stepped, ended, ran, answer⟩ :=
    searchLoop_spec ok (context.lastIdx + 1) searchStart .start (by
      show context.lastIdx < 0 + (context.lastIdx + 1)
      omega)
  refine ⟨context, period, built, ok, rfl, rfl, rfl, taken, last, state', result, reached, stepped,
    ended, ?_, answer⟩
  simp only [searchTwoWay, ensure_of (View.isSome_of_pos haystackValid (by omega)),
    ensure_of fits, ensure_of long, ok_bind, built]
  exact ran

theorem searchTwoWay_spec {haystack needle : View} {mode : SearchMode}
    (haystackValid : viewIsValid haystack) (needleValid : viewIsValid needle)
    (long : 1 < needle.len) (fits : needle.len ≤ haystack.len) :
    ∃ result, searchTwoWay haystack needle mode = .ok result ∧
      IsAnswer haystack.bytes needle.bytes mode result := by
  obtain ⟨_, _, _, _, _, _, _, _, _, _, result, _, _, _, ran, answer⟩ :=
    searchTwoWay_run mode haystackValid needleValid long fits
  exact ⟨result, ran, answer⟩

/-- For every haystack and needle of at least two bytes that fits into it, in both modes: each
state the loop reaches is safe, and the loop ends with the first match or with no candidate
left, never by its step counter. -/
theorem searchTwoWay_safe (haystack needle : View) (mode : SearchMode)
    (haystackValid : viewIsValid haystack) (needleValid : viewIsValid needle)
    (long : 2 ≤ needle.len) (fits : needle.len ≤ haystack.len) :
    ∃ context, buildSearchContext haystack needle mode = .ok context ∧
      context.haystack = haystack ∧ context.needle = needle ∧ context.mode = mode ∧
      context.lastIdx = haystack.len - needle.len ∧
      (∀ taken state found, Turns (SearchTurn context) searchStart taken (state, found) →
        SearchSafe context taken state found) ∧
      ∃ taken state found state' result,
        Turns (SearchTurn context) searchStart taken (state, found) ∧
        Stepped context state found state' result false ∧ SearchOver context state result ∧
        searchTwoWay haystack needle mode = .ok result := by
  obtain ⟨context, period, built, ok, rfl, rfl, rfl, taken, last, state', result, reached, stepped,
    ended, ran, _⟩ := searchTwoWay_run mode haystackValid needleValid long fits
  exact ⟨context, built, rfl, rfl, rfl, by have := ok.fits; omega,
    fun _ _ _ reached => Turns.safe ok reached,
    taken, last.1, last.2, state', result, reached, stepped, ended, ran⟩

theorem searchTwoWay_safe_ababa :
    ∃ context result,
      buildSearchContext (.ofBytes [97, 98, 97, 98, 97] (by decide))
        (.ofBytes [97, 98, 97] (by decide)) .last = .ok context ∧
      SearchSafe context 0 { idx := 0, memory := 0 } npos ∧
      searchTwoWay (.ofBytes [97, 98, 97, 98, 97] (by decide))
        (.ofBytes [97, 98, 97] (by decide)) .last = .ok result ∧ result = 2 := by
  obtain ⟨context, built, _, _, _, _, safe, _, _, _, _, result, _, _, _, ran⟩ :=
    searchTwoWay_safe (.ofBytes [97, 98, 97, 98, 97] (by decide))
      (.ofBytes [97, 98, 97] (by decide)) .last rfl rfl (by decide) (by decide)
  have computed : searchTwoWay (.ofBytes [97, 98, 97, 98, 97] (by decide))
      (.ofBytes [97, 98, 97] (by decide)) .last = .ok 2 := rfl
  exact ⟨context, result, built, safe 0 _ _ .start, ran,
    (Except.ok.inj (computed.symm.trans ran)).symm⟩

end AgencC.Str
