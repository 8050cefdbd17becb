import AgencC.Str.View

/-! Substring search as the library computes it: byte scans for one-byte
needles, otherwise the Two-Way search with its critical factorization, shifts
and remembered prefix. Loops carry the step bound the source gives them. -/

set_option autoImplicit false

namespace AgencC.Str

open Library

inductive SearchMode where
  | first
  | last
  deriving DecidableEq, Repr

/-- `cut` partitions the needle. `period` is always positive. -/
structure Factor where
  cut : Nat
  period : Nat
  deriving DecidableEq, Repr

/-- `idx` is the current candidate. `memory` is the known matching prefix length. -/
structure SearchState where
  idx : Nat
  memory : Nat
  deriving DecidableEq, Repr

structure SearchContext where
  haystack : View
  needle : View
  factor : Factor
  fullShift : Nat
  savedMemory : Nat
  lastIdx : Nat
  mode : SearchMode

structure SuffixWalk where
  factor : Factor
  candidate : Nat
  offset : Nat
  deriving DecidableEq, Repr

/-- `str_is_byte_before`. -/
def isByteBefore (left right : UInt8) (isReverseOrder : Bool) : Bool :=
  if isReverseOrder then right < left else left < right

/-- `str_suffix_walk_step`. -/
def suffixWalkStep (walk : SuffixWalk) (candidateByte suffixByte : UInt8)
    (isReverseOrder : Bool) : SuffixWalk :=
  if candidateByte = suffixByte then
    if walk.offset = walk.factor.period then
      { walk with candidate := walk.candidate + walk.factor.period, offset := 1 }
    else
      { walk with offset := walk.offset + 1 }
  else if isByteBefore candidateByte suffixByte isReverseOrder then
    let candidate := walk.candidate + walk.offset
    { candidate, offset := 1
      factor := { walk.factor with period := candidate - walk.factor.cut + 1 } }
  else
    let candidate := walk.candidate + 1
    { candidate, offset := 1, factor := { cut := candidate, period := 1 } }

/-- The loop of `str_run_suffix_walk_pass`, with the steps it has left. -/
def suffixWalkLoop (needle : View) (isReverseOrder : Bool) :
    Nat → SuffixWalk → Except Fault (SuffixWalk × Bool)
  | 0, walk => .ok (walk, decide (needle.len - walk.candidate ≤ walk.offset))
  | steps + 1, walk =>
      if needle.len - walk.candidate ≤ walk.offset then
        .ok (walk, true)
      else do
        let suffixByte ← readViewByte needle (walk.factor.cut + walk.offset - 1)
        let candidateByte ← readViewByte needle (walk.candidate + walk.offset)
        suffixWalkLoop needle isReverseOrder steps
          (suffixWalkStep walk candidateByte suffixByte isReverseOrder)

/-- `str_run_suffix_walk_pass`. -/
def runSuffixWalkPass (walk : SuffixWalk) (needle : View) (isReverseOrder : Bool) :
    Except Fault (SuffixWalk × Bool) := do
  ensure (needle.ptr.isSome) "needle.ptr != NULL"
  ensure (walk.candidate < needle.len) "walk->candidate < needle.len"
  ensure (0 < walk.offset) "walk->offset > 0"
  suffixWalkLoop needle isReverseOrder needle.len walk

/-- The passes of `str_find_maximal_suffix`, with the passes it has left. -/
def maximalSuffixPasses (needle : View) (isReverseOrder : Bool) :
    Nat → SuffixWalk → Except Fault Factor
  | 0, walk => do
      ensure (needle.len - walk.candidate ≤ walk.offset)
        "walk.offset >= needle.len - walk.candidate"
      .ok walk.factor
  | passes + 1, walk => do
      let (walk, isComplete) ← runSuffixWalkPass walk needle isReverseOrder
      if isComplete then .ok walk.factor
      else maximalSuffixPasses needle isReverseOrder passes walk

/-- `STR_SUFFIX_WALK_PASSES`. -/
def suffixWalkPasses : Nat := 2

def SuffixWalk.initial : SuffixWalk where
  factor := { cut := 0, period := 1 }
  candidate := 0
  offset := 1

/-- `str_find_maximal_suffix`. -/
def findMaximalSuffix (needle : View) (isReverseOrder : Bool) : Except Fault Factor := do
  ensure (needle.ptr.isSome) "needle.ptr != NULL"
  ensure (0 < needle.len) "needle.len > 0"
  maximalSuffixPasses needle isReverseOrder suffixWalkPasses SuffixWalk.initial

/-- `str_find_critical_factor`. -/
def findCriticalFactor (needle : View) : Except Fault Factor := do
  ensure (needle.ptr.isSome) "needle.ptr != NULL"
  ensure (0 < needle.len) "needle.len > 0"
  let forward ← findMaximalSuffix needle false
  let reverse ← findMaximalSuffix needle true
  if forward.cut < reverse.cut then .ok reverse else .ok forward

/-- `str_is_byte_span_equal` on two places of one view. `memcmp` may read both spans whole. -/
def isByteSpanEqual (view : View) (left right len : Nat) : Except Fault Bool :=
  if len = 0 then .ok true
  else do
    ensure (view.ptr.isSome) "left != NULL"
    ensure (view.ptr.isSome) "right != NULL"
    let leftSpan ← view.readBytes left len
    let rightSpan ← view.readBytes right len
    .ok (leftSpan == rightSpan)

/-- `str_is_factor_periodic`. -/
def isFactorPeriodic (needle : View) (factor : Factor) : Except Fault Bool := do
  ensure (needle.ptr.isSome) "needle.ptr != NULL"
  ensure (factor.cut < needle.len) "factor.cut < needle.len"
  ensure (0 < factor.period) "factor.period > 0"
  if needle.len - factor.cut < factor.period then .ok false
  else isByteSpanEqual needle 0 factor.period factor.cut

/-- `str_calculate_nonperiodic_shift`. -/
def calculateNonperiodicShift (needle : View) (factor : Factor) : Except Fault Nat := do
  ensure (0 < factor.cut) "factor.cut > 0"
  ensure (factor.cut < needle.len) "factor.cut < needle.len"
  let leftShift := factor.cut
  let rightShift := needle.len - factor.cut + 1
  if rightShift < leftShift then .ok leftShift else .ok rightShift

/-- The asserts shared by the two candidate scans. -/
def ensureCandidate (haystack needle : View) (state : SearchState) : Except Fault Unit := do
  ensure (haystack.ptr.isSome) "haystack.ptr != NULL"
  ensure (needle.ptr.isSome) "needle.ptr != NULL"
  ensure (needle.len ≤ haystack.len) "haystack.len >= needle.len"
  ensure (state.idx ≤ haystack.len - needle.len) "state.idx <= haystack.len - needle.len"
  ensure (state.memory < needle.len) "state.memory < needle.len"

/-- The loop of `str_scan_right`; `left` counts the needle bytes not yet compared. -/
def scanRightLoop (haystack needle : View) (idx : Nat) : Nat → Nat → Except Fault Nat
  | 0, scan => .ok scan
  | left + 1, scan => do
      let needleByte ← needle.read scan
      let haystackByte ← haystack.read (idx + scan)
      if needleByte = haystackByte then scanRightLoop haystack needle idx left (scan + 1)
      else .ok scan

/-- `str_scan_right`. -/
def scanRight (haystack needle : View) (factor : Factor) (state : SearchState) :
    Except Fault Nat := do
  ensureCandidate haystack needle state
  let scan := if factor.cut < state.memory then state.memory else factor.cut
  scanRightLoop haystack needle state.idx (needle.len - scan) scan

/-- The loop of `str_has_candidate_left_match`; `left` bytes remain above `memory`. -/
def leftMatchLoop (haystack needle : View) (idx memory : Nat) : Nat → Except Fault Bool
  | 0 => .ok true
  | left + 1 => do
      let needleByte ← needle.read (memory + left)
      let haystackByte ← haystack.read (idx + (memory + left))
      if needleByte ≠ haystackByte then .ok false
      else leftMatchLoop haystack needle idx memory left

/-- `str_has_candidate_left_match`. -/
def hasCandidateLeftMatch (haystack needle : View) (factor : Factor) (state : SearchState) :
    Except Fault Bool := do
  ensureCandidate haystack needle state
  leftMatchLoop haystack needle state.idx state.memory (factor.cut - state.memory)

/-- `str_search_advance`. -/
def searchAdvance (state : SearchState) (lastIdx shift : Nat) :
    Except Fault (SearchState × Bool) := do
  ensure (state.idx ≤ lastIdx) "state->idx <= last_idx"
  ensure (0 < shift) "shift > 0"
  if lastIdx - state.idx < shift then .ok (state, false)
  else .ok ({ state with idx := state.idx + shift }, true)

/-- `str_build_search_context`. -/
def buildSearchContext (haystack needle : View) (mode : SearchMode) :
    Except Fault SearchContext := do
  ensure (haystack.ptr.isSome) "haystack.ptr != NULL"
  ensure (needle.ptr.isSome) "needle.ptr != NULL"
  ensure (needle.len ≤ haystack.len) "haystack.len >= needle.len"
  ensure (1 < needle.len) "needle.len > STR_NUL_BYTES"
  let factor ← findCriticalFactor needle
  let isPeriodic ← isFactorPeriodic needle factor
  let fullShift ←
    if isPeriodic then .ok factor.period else calculateNonperiodicShift needle factor
  .ok {
    haystack, needle, factor, fullShift
    savedMemory := if isPeriodic then needle.len - factor.period else 0
    lastIdx := haystack.len - needle.len
    mode }

/-- `str_search_on_mismatch`. -/
def searchOnMismatch (context : SearchContext) (state : SearchState) (mismatch : Nat) :
    Except Fault (SearchState × Bool) := do
  ensure (mismatch < context.needle.len) "mismatch < context->needle.len"
  let shift := mismatch - context.factor.cut + 1
  let (state, hasNext) ← searchAdvance state context.lastIdx shift
  .ok ({ state with memory := 0 }, hasNext)

/-- `str_search_after_right_match`. -/
def searchAfterRightMatch (context : SearchContext) (state : SearchState) (found : Nat) :
    Except Fault (SearchState × Nat × Bool) := do
  let isMatch ← hasCandidateLeftMatch context.haystack context.needle context.factor state
  let found := if isMatch then state.idx else found
  if isMatch ∧ context.mode = .first then
    .ok (state, found, false)
  else
    let (state, hasNext) ← searchAdvance state context.lastIdx context.fullShift
    .ok ({ state with memory := context.savedMemory }, found, hasNext)

/-- `str_search_step`. -/
def searchStep (context : SearchContext) (state : SearchState) (found : Nat) :
    Except Fault (SearchState × Nat × Bool) := do
  let mismatch ← scanRight context.haystack context.needle context.factor state
  if mismatch < context.needle.len then
    let (state, hasNext) ← searchOnMismatch context state mismatch
    .ok (state, found, hasNext)
  else
    searchAfterRightMatch context state found

/-- The loop of `str_search_two_way`, with the steps it has left. -/
def searchLoop (context : SearchContext) : Nat → SearchState → Nat → Except Fault Nat
  | 0, _, found => .ok found
  | steps + 1, state, found => do
      ensure (state.idx ≤ context.lastIdx) "state.idx <= context.last_idx"
      let (state, found, hasNext) ← searchStep context state found
      if hasNext then searchLoop context steps state found else .ok found

/-- `str_search_two_way`. -/
def searchTwoWay (haystack needle : View) (mode : SearchMode) : Except Fault Nat := do
  ensure (haystack.ptr.isSome) "haystack.ptr != NULL"
  ensure (needle.len ≤ haystack.len) "haystack.len >= needle.len"
  ensure (1 < needle.len) "needle.len > STR_NUL_BYTES"
  let context ← buildSearchContext haystack needle mode
  searchLoop context (context.lastIdx + 1) { idx := 0, memory := 0 } npos

/-- The loop of `str_view_find_byte`; `left` bytes remain. -/
def findByteLoop (haystack : View) (byte : UInt8) : Nat → Nat → Except Fault Nat
  | 0, _ => .ok npos
  | left + 1, idx => do
      let candidate ← haystack.read idx
      if candidate = byte then .ok idx else findByteLoop haystack byte left (idx + 1)

/-- `str_view_find_byte`. -/
def viewFindByte (haystack : View) (byte : UInt8) : Except Fault Nat := do
  ensure (haystack.ptr.isSome) "haystack.ptr != NULL"
  ensure (0 < haystack.len) "haystack.len > 0"
  findByteLoop haystack byte haystack.len 0

/-- The loop of `str_view_rfind_byte`, entered with `idx` bytes before the cursor. -/
def rfindByteLoop (haystack : View) (byte : UInt8) : Nat → Except Fault Nat
  | 0 => .ok npos
  | idx + 1 => do
      let candidate ← haystack.read idx
      if candidate = byte then .ok idx else rfindByteLoop haystack byte idx

/-- `str_view_rfind_byte`. -/
def viewRfindByte (haystack : View) (byte : UInt8) : Except Fault Nat := do
  ensure (haystack.ptr.isSome) "haystack.ptr != NULL"
  ensure (0 < haystack.len) "haystack.len > 0"
  rfindByteLoop haystack byte haystack.len

/-- `str_search_view_byte`. -/
def searchViewByte (haystack : View) (byte : UInt8) (mode : SearchMode) : Except Fault Nat := do
  ensure (haystack.ptr.isSome) "haystack.ptr != NULL"
  ensure (0 < haystack.len) "haystack.len > 0"
  match mode with
  | .first => viewFindByte haystack byte
  | .last => viewRfindByte haystack byte

/-- `str_search_view`. -/
def searchView (haystack needle : View) (mode : SearchMode) : Except Fault Nat := do
  ensure (needle.ptr.isSome) "needle.ptr != NULL"
  ensure (0 < needle.len) "needle.len > 0"
  if haystack.ptr.isNone ∨ haystack.len < needle.len then
    .ok npos
  else if needle.len = 1 then
    let byte ← needle.read 0
    searchViewByte haystack byte mode
  else
    searchTwoWay haystack needle mode

/-- `str_locate_view_match`. -/
def locateViewMatch (haystack needle : View) (mode : SearchMode) : Except Fault Nat := do
  ensure (viewIsValid haystack) "str_view_is_valid(haystack)"
  ensure (viewIsValid needle) "str_view_is_valid(needle)"
  if 0 < needle.len then searchView haystack needle mode
  else
    match mode with
    | .first => .ok 0
    | .last => .ok haystack.len

/-- `str_find_view_match`. `outIdx` is `none` for a NULL pointer, else the value
it points to; the result holds the value after the call. -/
def findViewMatch (outIdx : Option Nat) (haystack needle : View) (mode : SearchMode) :
    Except Fault (Status × Option Nat) := do
  if outIdx.isNone then
    .ok (.errArg, outIdx)
  else if validateView haystack ≠ .ok then
    .ok (validateView haystack, outIdx)
  else if validateView needle ≠ .ok then
    .ok (validateView needle, outIdx)
  else if mode = .last ∧ needle.len = 0 ∧ haystack.len = npos then
    .ok (.errOverflow, outIdx)
  else
    let idx ← locateViewMatch haystack needle mode
    .ok (.ok, some idx)

/-- `str_view_find`. -/
def viewFind (haystack : View) (outIdx : Option Nat) (needle : View) :
    Except Fault (Status × Option Nat) :=
  findViewMatch outIdx haystack needle .first

/-- `str_view_rfind`. -/
def viewRfind (haystack : View) (outIdx : Option Nat) (needle : View) :
    Except Fault (Status × Option Nat) :=
  findViewMatch outIdx haystack needle .last

end AgencC.Str
