import AgencC.Str.Replacement

/-! Which borrowed sources a call takes: one classification against the allocation serves all
calls, and both of its implementations agree. -/

set_option autoImplicit false

namespace AgencC.Str

open Library

/-! The classification. -/

/-- The loop of `str_find_allocation_offset` under `STR_STRICT_ISO_OVERLAP`, `left` bytes of the
allocation from `offset` on. Pointers are equal where their addresses are. -/
def findAllocationOffsetLoop (base source : Ptr) : Nat → Nat → Nat
  | 0, _ => npos
  | left + 1, offset =>
      if source.addr = (base.add offset).addr then offset
      else findAllocationOffsetLoop base source left (offset + 1)

/-- `str_find_allocation_offset` under `STR_STRICT_ISO_OVERLAP`. -/
def findAllocationOffsetStrict (s : StrT) : Source → Nat
  | .mem (some source) =>
      match s.buf with
      | none => npos
      | some base => findAllocationOffsetLoop base source s.cap 0
  | _ => npos

theorem findAllocationOffsetLoop_eq (base source : Ptr) (left offset : Nat) :
    findAllocationOffsetLoop base source left offset =
      if base.addr + offset ≤ source.addr ∧ source.addr < base.addr + offset + left then
        source.addr - base.addr
      else npos := by
  induction left generalizing offset with
  | zero => exact (if_neg (by omega)).symm
  | succ left ih =>
      rw [findAllocationOffsetLoop]
      have addr : (base.add offset).addr = base.addr + offset := rfl
      by_cases here : source.addr = (base.add offset).addr
      · rw [if_pos here, if_pos (by omega)]
        omega
      · rw [if_neg here, ih]
        by_cases later : base.addr + (offset + 1) ≤ source.addr ∧
            source.addr < base.addr + (offset + 1) + left
        · rw [if_pos later, if_pos (by omega)]
        · rw [if_neg later, if_neg (by omega)]

/-- A subtraction that wraps around below the buffer is found to lie outside it. -/
theorem findAllocationOffset_eq {s : StrT} {base source : Ptr} (buf : s.buf = some base)
    (straight : base.addr + s.cap ≤ sizeMax + 1) (addr : source.addr ≤ sizeMax) :
    findAllocationOffset s (.mem (some source)) =
      if base.addr ≤ source.addr ∧ source.addr < base.addr + s.cap then source.addr - base.addr
      else npos := by
  simp only [findAllocationOffset, buf]
  by_cases above : base.addr ≤ source.addr
  · rw [sizeSub_of_le above addr]
    by_cases inside : source.addr < base.addr + s.cap
    · rw [if_pos (by omega), if_pos ⟨above, inside⟩]
    · rw [if_neg (by omega), if_neg (by omega)]
  · have wraps : sizeSub source.addr base.addr = source.addr + (sizeMax + 1) - base.addr :=
      Nat.mod_eq_of_lt (by omega)
    rw [wraps, if_neg (by omega), if_neg (by omega)]

/-- The subtraction and the scan find the same offset. -/
theorem findAllocationOffsetStrict_eq {s : StrT} {source : Source}
    (straight : ∀ base, s.buf = some base → base.addr + s.cap ≤ sizeMax + 1)
    (addressed : ∀ q, source = .mem (some q) → q.addr ≤ sizeMax) :
    findAllocationOffsetStrict s source = findAllocationOffset s source := by
  cases source with
  | array bytes => rfl
  | mem pointer =>
      cases pointer with
      | none => rfl
      | some q =>
          cases buf : s.buf with
          | none => simp only [findAllocationOffsetStrict, findAllocationOffset, buf]
          | some base =>
              rw [findAllocationOffset_eq buf (straight base buf) (addressed q rfl)]
              simp only [findAllocationOffsetStrict, buf, findAllocationOffsetLoop_eq,
                Nat.add_zero]

/-! Counted bytes. -/

/-- The calls that borrow counted bytes. -/
inductive SpanCall where
  | set
  | append
  | insert (idx : Size)
  | replace (idx removeLen : Size)

def SpanCall.run (source : Source) (len : Nat) (c : Cell) :
    SpanCall → Except Fault (Status × Cell)
  | .set => setN source len c
  | .append => appendN source len c
  | .insert idx => insertN idx source len c
  | .replace idx removeLen => replaceView idx removeLen { ptr := source, len } c

/-- The index or the span of the call lies in the string. -/
def SpanCall.Valid (c : Cell) : SpanCall → Prop
  | .set | .append => True
  | .insert idx => idx.val ≤ c.str.len
  | .replace idx removeLen => idx.val + removeLen.val ≤ c.str.len

/-- How many of the old bytes stay. -/
def SpanCall.kept (c : Cell) : SpanCall → Nat
  | .set => 0
  | .append | .insert _ => c.str.len
  | .replace _ removeLen => c.str.len - removeLen

/-- The allocator grants what the call asks it for. -/
def SpanCall.Granted (source : Source) (len : Nat) (c : Cell) (call : SpanCall) : Prop :=
  match call with
  | .replace _ removeLen =>
      removeLen.val ≠ len → StageGrants { ptr := source, len } (call.kept c + len + 1) c
  | .set | .append | .insert _ => Grants (call.kept c + len + 1) c

section
variable {c : Cell} {source : Source} {len baseLen : Nat}

theorem beginMutation_given (ok : c.str.status = .ok) (given : source.isNull = false) (len : Nat) :
    beginMutation source len c = .ok (.ok, c) := by
  simp only [beginMutation, validateMutation, ok, validateSource, given]
  by_cases empty : len = 0
  · simp only [if_pos empty]
  · simp only [if_neg empty, Bool.false_eq_true, if_false]

theorem prepareWrite_succeeds (wf : WellFormed c) (pos : 0 < len) (size : len ≤ sizeMax)
    {input : Input} (denotes : source.Denotes c len input) (fits : baseLen + len + 1 ≤ sizeMax)
    (granted : Grants (baseLen + len + 1) c) :
    ∃ ready c', prepareWrite source len baseLen c = .ok (.ok ready, c') := by
  have given := denotes.given pos
  obtain ⟨found, detected⟩ := detectOverlap_accepts wf pos denotes
  rcases ensureCapacity_decides wf (by omega) fits with
    ⟨refused, _⟩ | ⟨_, c', _, _, ensured, _⟩
  · exact absurd granted refused
  · simp only [prepareWrite, ensure_of given, ensure_of pos, ok_bind, calculateCapacity_eq size,
      if_pos fits, detected, ensured]
    exact ⟨_, c', rfl⟩

/-- A set or an append of readable bytes that fit and are granted their storage succeeds. -/
theorem setValidSpan_succeeds (wf : WellFormed c) (ok : c.str.status = .ok) (size : len ≤ sizeMax)
    {input : Input} (denotes : source.Denotes c len input) (fits : 0 + len + 1 ≤ sizeMax)
    (granted : Grants (0 + len + 1) c) {status : Status} {c' : Cell}
    (ran : setValidSpan source len c = .ok (status, c')) : status = .ok := by
  simp only [setValidSpan, ensure_of ok, ok_bind] at ran
  by_cases empty : len = 0
  · rw [if_pos empty] at ran
    obtain ⟨_, _, finished⟩ := bind_eq_ok.mp ran
    cases finished
    rfl
  · obtain ⟨ready, c₁, prepared⟩ := prepareWrite_succeeds wf (by omega) size denotes fits granted
    simp only [if_neg empty, prepareValidSpan, ensure_of ok, ok_bind, prepared] at ran
    obtain ⟨_, _, finished⟩ := bind_eq_ok.mp ran
    cases finished
    rfl

theorem appendValidSpan_succeeds (wf : WellFormed c) (ok : c.str.status = .ok)
    (size : len ≤ sizeMax) {input : Input} (denotes : source.Denotes c len input)
    (fits : c.str.len + len + 1 ≤ sizeMax) (granted : Grants (c.str.len + len + 1) c)
    {status : Status} {c' : Cell}
    (ran : appendValidSpan source len c = .ok (status, c')) : status = .ok := by
  simp only [appendValidSpan, ensure_of ok, ok_bind] at ran
  by_cases empty : len = 0
  · rw [if_pos empty] at ran
    cases ran
    rfl
  · obtain ⟨ready, c₁, prepared⟩ := prepareWrite_succeeds wf (by omega) size denotes fits granted
    simp only [if_neg empty, prepareValidSpan, ensure_of ok, ok_bind, prepared] at ran
    obtain ⟨_, _, finished⟩ := bind_eq_ok.mp ran
    cases finished
    rfl

/-- Bytes the string can be read to denote are taken. -/
theorem SpanCall.run_accepts (wf : WellFormed c) (ok : c.str.status = .ok) (call : SpanCall)
    (valid : call.Valid c) (pos : 0 < len) (size : len ≤ sizeMax) {input : Input}
    (denotes : source.Denotes c len input) (fits : call.kept c + len + 1 ≤ sizeMax)
    (granted : call.Granted source len c) :
    ∃ c', call.run source len c = .ok (.ok, c') := by
  have readable := denotes.readable wf
  have begun := beginMutation_given ok (denotes.given pos) len
  cases call with
  | set =>
      obtain ⟨status, c', ran, _⟩ := setN_spec wf ok size readable
      have entered := ran
      simp only [setN, begun, ok_bind] at entered
      obtain rfl := setValidSpan_succeeds wf ok size denotes fits granted entered
      exact ⟨c', ran⟩
  | append =>
      obtain ⟨status, c', ran, _⟩ := appendN_spec wf ok size readable
      have entered := ran
      simp only [appendN, begun, ok_bind] at entered
      obtain rfl := appendValidSpan_succeeds wf ok size denotes fits granted entered
      exact ⟨c', ran⟩
  | insert idx =>
      obtain ⟨status, c', ran, _⟩ := insertN_spec wf ok idx size readable
      obtain rfl := insertN_succeeds wf ok size valid pos denotes fits granted ran
      exact ⟨c', ran⟩
  | replace idx removeLen =>
      obtain ⟨status, c', ran, _⟩ := replaceView_spec wf ok idx removeLen
        { ptr := source, len } size readable
      obtain rfl := replaceView_succeeds wf ok size valid denotes fits granted ran
      exact ⟨c', ran⟩

/-- The source begins in the string's allocation, `offset` bytes from its start. -/
def Cell.Begins (c : Cell) (source : Source) (offset : Nat) : Prop :=
  offset < c.str.cap ∧ ∃ p, c.str.buf = some p ∧ source = .mem (some (p.add offset))

/-- The source is not an address of the string's allocation. One past its end is outside. -/
def Cell.Outside (c : Cell) (source : Source) : Prop :=
  ∀ p q, c.str.buf = some p → source = .mem (some q) →
    ¬ (p.addr ≤ q.addr ∧ q.addr < p.addr + c.str.cap)

theorem Cell.Begins.given {offset : Nat} (begins : c.Begins source offset) :
    source.isNull = false := by
  obtain ⟨_, p, _, rfl⟩ := begins
  rfl

theorem Cell.Begins.found (wf : WellFormed c) {offset : Nat} (begins : c.Begins source offset) :
    findAllocationOffset c.str source = offset := by
  obtain ⟨inside, p, buf, rfl⟩ := begins
  cases wf with
  | empty noBuf strLen cap =>
      rw [noBuf] at buf
      cases buf
  | @owned p' o holds roomy terminated =>
      obtain rfl : p' = p := Option.some.inj (holds.buf.symm.trans buf)
      rw [findAllocationOffset_own holds (Nat.le_add_right _ _)
        (Nat.add_lt_add_left (holds.cap ▸ inside) _)]
      exact Nat.add_sub_cancel_left _ _

/-- An offset into the allocation is no `STR_NPOS`. -/
theorem Cell.Begins.known (wf : WellFormed c) {offset : Nat} (begins : c.Begins source offset) :
    findAllocationOffset c.str source ≠ npos := by
  have cap := wf.cap_le
  have inside := begins.1
  rw [begins.found wf]
  unfold npos
  omega

/-- A span that reaches beyond the terminator is turned away. -/
theorem detectOverlap_rejects (wf : WellFormed c) {offset : Nat} (begins : c.Begins source offset)
    (pos : 0 < len) (beyond : ¬ (offset ≤ c.str.len ∧ offset + len ≤ c.str.len + 1)) :
    detectOverlap c.str source len = .ok (.error .errArg) := by
  have isSome : c.str.buf.isSome := by
    obtain ⟨_, p, buf, _⟩ := begins
    rw [buf]
    rfl
  have known : offset ≠ npos := begins.found wf ▸ begins.known wf
  have verdict := validateInternalSourceSpan_eq wf isSome offset len pos
  rw [if_neg (by omega)] at verdict
  simp only [detectOverlap, ensure_of begins.given, ensure_of pos, ok_bind, begins.found wf,
    if_neg known, verdict]

/-- What a rejected source leaves: the recorded status, in whatever heap. -/
def Cell.rejected (c : Cell) (heap : Memory) : Cell :=
  { str := { c.str with status := .errArg }, heap }

/-- The rejection is decided by addresses and lengths: it is the same in every heap, one without
the string's block included. -/
theorem SpanCall.run_rejects (wf : WellFormed c) (ok : c.str.status = .ok) (call : SpanCall)
    (valid : call.Valid c) (pos : 0 < len) (size : len ≤ sizeMax)
    (fits : call.kept c + len + 1 ≤ sizeMax) {offset : Nat} (begins : c.Begins source offset)
    (beyond : ¬ (offset ≤ c.str.len ∧ offset + len ≤ c.str.len + 1)) (heap : Memory) :
    call.run source len { c with heap } = .ok (.errArg, c.rejected heap) := by
  have given := begins.given
  have some : ¬ len = 0 := by omega
  have refused := detectOverlap_rejects wf begins pos beyond
  have begun : beginMutation source len { c with heap } = .ok (.ok, { c with heap }) :=
    beginMutation_given (c := { c with heap }) ok given len
  have prepared : ∀ baseLen, baseLen + len + 1 ≤ sizeMax →
      prepareValidSpan source len baseLen { c with heap } =
        .ok (.error .errArg, c.rejected heap) := fun baseLen fits => by
    simp only [prepareValidSpan, ensure_of ok, ok_bind, prepareWrite, ensure_of given,
      ensure_of pos, calculateCapacity_eq size, if_pos fits, refused,
      recordFailure_ok .errArg (by decide)]
    rfl
  cases call with
  | set =>
      simp only [run, setN, begun, ok_bind, setValidSpan, ensure_of ok, if_neg some,
        prepared 0 fits]
  | append =>
      simp only [run, appendN, begun, ok_bind, appendValidSpan, ensure_of ok, if_neg some,
        prepared c.str.len fits]
  | insert idx =>
      have span : validateSpan c.str.len idx.val 0 = .ok :=
        (validateSpan_eq wf idx.val 0).trans (if_pos valid)
      have kept : c.str.len + len + 1 ≤ sizeMax := fits
      have capacity := (@calculateCapacity_eq c.str.len _ size).trans (if_pos kept)
      simp only [run, insertN, begun, ok_bind, span, if_neg some, prepareInsert, ensure_of given,
        ensure_of pos, capacity, refused, recordFailure_ok .errArg (by decide)]
      rfl
  | replace idx removeLen =>
      have bound := wf.len_lt
      have within : idx.val + removeLen.val ≤ c.str.len := valid
      have kept : c.str.len - removeLen + len + 1 ≤ sizeMax := fits
      have span : validateSpan c.str.len idx.val removeLen.val = .ok :=
        (validateSpan_eq wf idx.val removeLen.val).trans (if_pos valid)
      have nonempty : ¬ (removeLen.val = 0 ∧ len = 0) := fun both => some both.2
      have readable : ({ ptr := source, len } : Borrowed).isValid = true :=
        Borrowed.isValid_of fun _ => given
      have start : idx.val ≤ c.str.len := by omega
      have removed : removeLen.val ≤ c.str.len := by omega
      have left : sizeSub c.str.len idx.val = c.str.len - idx.val :=
        sizeSub_of_le start (by omega)
      have remains : sizeSub c.str.len removeLen.val = c.str.len - removeLen.val :=
        sizeSub_of_le removed (by omega)
      have room : removeLen.val ≤ c.str.len - idx.val := by omega
      have applied : applyReplacement idx removeLen { ptr := source, len } { c with heap } =
          .ok (.errArg, { c with heap }) := by
        simp only [applyReplacement, ensure_of readable, ensure_of start, left, ensure_of room,
          ok_bind]
        by_cases equal : removeLen.val = len
        · have inside : len ≤ c.str.len - idx.val := equal ▸ room
          simp only [if_pos equal, replaceEqualSpan, ensure_of start, left, ensure_of inside,
            ensure_of pos, ok_bind, refused]
        · have capacity := @calculateCapacity_eq 0 _ (Nat.le_of_succ_le kept)
          rw [Nat.zero_add, if_pos kept] at capacity
          simp only [if_neg equal, calculateReplacementLength, ensure_of removed, ok_bind, remains,
            addSize_eq size, if_pos (Nat.le_of_succ_le kept), replaceResizedSpan, capacity,
            stageReplacement, ensure_of readable, if_neg some, refused]
      simp only [run, replaceView, begun, ok_bind, span, if_neg nonempty, applied,
        recordStatus_failed .errArg (by decide)]
      rfl

theorem Cell.Begins.denotes {offset : Nat} (begins : c.Begins source offset)
    (within : offset + len ≤ c.str.len + 1) : source.Denotes c len (.span offset len) := by
  obtain ⟨_, p, buf, own⟩ := begins
  exact .inside buf own within

/-- Readable bytes outside the allocation belong to another object. -/
theorem Cell.Outside.external (wf : WellFormed c) (outside : c.Outside source) {bytes : Bytes}
    (pos : 0 < len) (read : source.read c.heap len = .ok bytes) : External c source := by
  rintro q rfl ⟨p, buf, same⟩
  cases wf with
  | empty noBuf strLen cap =>
      rw [noBuf] at buf
      cases buf
  | @owned p' o holds roomy terminated =>
      obtain rfl : p' = p := Option.some.inj (holds.buf.symm.trans buf)
      obtain ⟨o', live, above, below, _⟩ := Heap.read_eq_ok read
      rw [← same, holds.live] at live
      cases live
      have start := holds.start
      have cap := holds.cap
      exact outside p' q buf rfl ⟨by omega, by omega⟩

theorem moveBytes_zero (destination : Ptr) (source : Source) (heap : Memory) :
    moveBytes destination source 0 heap = .ok heap := rfl

theorem applyReplacement_empty (idx removeLen : Nat) (source other : Source) (c : Cell) :
    applyReplacement idx removeLen { ptr := source, len := 0 } c =
      applyReplacement idx removeLen { ptr := other, len := 0 } c := by
  have valid (source : Source) : ({ ptr := source, len := 0 } : Borrowed).isValid = true := by
    simp [Borrowed.isValid]
  have committed (c : Cell) : commitReplacement idx removeLen { ptr := source, len := 0 } c =
      commitReplacement idx removeLen { ptr := other, len := 0 } c := by
    simp only [commitReplacement, valid, moveBytes_zero]
  have resized (newLen : Nat) :
      replaceResizedSpan idx removeLen newLen { ptr := source, len := 0 } c =
        replaceResizedSpan idx removeLen newLen { ptr := other, len := 0 } c := by
    simp only [replaceResizedSpan, stageReplacement, valid, ensure_of trivial, ok_bind, if_true,
      committed, releaseStagedView]
  have equal : replaceEqualSpan idx { ptr := source, len := 0 } c =
      replaceEqualSpan idx { ptr := other, len := 0 } c := by
    -- A nonempty span is asserted before the source is looked at.
    simp only [replaceEqualSpan, ensure, Nat.lt_irrefl, if_false]
    rfl
  simp only [applyReplacement, valid, equal, resized]

/-- A call without bytes to read does the same for every source. -/
theorem SpanCall.run_empty (call : SpanCall) (source other : Source) (c : Cell) :
    call.run source 0 c = call.run other 0 c := by
  have begun : beginMutation source 0 c = beginMutation other 0 c := rfl
  cases call with
  | set => simp only [run, setN, begun, setValidSpan, if_true]
  | append => simp only [run, appendN, begun, appendValidSpan, if_true]
  | insert idx => simp only [run, insertN, begun, if_true]
  | replace idx removeLen =>
      simp only [run, replaceView, begun, applyReplacement_empty idx removeLen source other]

end

/-! C strings. -/

/-- The calls that borrow a C string. -/
inductive TextCall where
  | set
  | append
  | format (arguments : Arguments)

def TextCall.run (source : Source) (c : Cell) : TextCall → Except Fault (Status × Cell)
  | .set => setCString source c
  | .append => appendCString source c
  | .format arguments => appendFmt source arguments c

section
variable {c : Cell} {source : Source}

theorem measureCStringInput_rejects (wf : WellFormed c) (ok : c.str.status = .ok) {offset : Nat}
    (begins : c.Begins source offset) (beyond : c.str.len < offset) (heap : Memory) :
    measureCStringInput source { c with heap } = .ok (.error .errArg, c.rejected heap) := by
  have given := begins.given
  have isSome : c.str.buf.isSome := by
    obtain ⟨_, p, buf, _⟩ := begins
    rw [buf]
    rfl
  have known : offset ≠ npos := begins.found wf ▸ begins.known wf
  have verdict := validateInternalSourceSpan_eq wf isSome offset 1 Nat.one_pos
  rw [if_neg (by omega)] at verdict
  simp only [measureCStringInput, validateMutation, ok, given, Bool.false_eq_true, if_false,
    measureValidCStringInput, ok_bind, begins.found wf, if_neg known, measureInternalCString,
    ensure_of isSome, nulBytes, verdict, recordFailure_ok .errArg (by decide)]
  rfl

theorem TextCall.run_rejects (wf : WellFormed c) (ok : c.str.status = .ok) (call : TextCall)
    {offset : Nat} (begins : c.Begins source offset) (beyond : c.str.len < offset)
    (heap : Memory) : call.run source { c with heap } = .ok (.errArg, c.rejected heap) := by
  have measured := measureCStringInput_rejects wf ok begins beyond heap
  cases call with
  | set => simp only [run, setCString, measured, ok_bind]
  | append => simp only [run, appendCString, measured, ok_bind]
  | format arguments => simp only [run, appendFmt, measured, ok_bind]

/-- What a call that takes the text does with it: set and append succeed where the result fits
and its storage is granted; a format is rendered. -/
def TextCall.Accepted (text : Bytes) (c : Cell) (status : Status) : TextCall → Prop
  | .set => 0 + text.length + 1 ≤ sizeMax → Grants (0 + text.length + 1) c → status = .ok
  | .append => c.str.len + text.length + 1 ≤ sizeMax → Grants (c.str.len + text.length + 1) c →
      status = .ok
  | .format _ => status ≠ .errArg

theorem Formatting.accepted {format : Source} {arguments : Arguments} {status : Status}
    {output : Bytes} (formatting : Formatting c format arguments status output)
    (takes : c.str.TakesText format) : status ≠ .errArg := by
  have appending : ∀ {c : Cell} {len : Nat} {status : Status}, Appending c len status →
      status ≠ .errArg := by
    intro c len status appending
    cases appending <;> decide
  cases formatting with
  | rejected untaken => exact absurd takes untaken
  | rendered takes found course =>
      cases course with
      | unprinted fails => decide
      | short first fits appended => exact appending appended
      | unstaged printed long refused => decide
      | changed printed long granted differs => decide
      | staged printed long granted again same wrote appended => exact appending appended

theorem TextCall.run_accepts (wf : WellFormed c) (ok : c.str.status = .ok) (call : TextCall)
    (sized : source.Sized) (readable : ReadableText c source) (takes : c.str.TakesText source)
    {text : Bytes} (found : source.cString c.heap = .ok text) (size : text.length ≤ sizeMax)
    {input : Input} (denotes : source.Denotes c text.length input) :
    ∃ status c', call.run source c = .ok (status, c') ∧ call.Accepted text c status := by
  obtain ⟨measured, c₁, measure, _⟩ := measureCStringInput_spec wf ok sized readable
  have accepted : measured = .ok text.length ∧ c₁ = c := by
    rcases measureCStringInput_takes wf ok readable measure with
      ⟨_, untaken⟩ | ⟨text', accepted, same, found', _⟩
    · exact absurd takes untaken
    · cases found.symm.trans found'
      exact ⟨accepted, same⟩
  obtain ⟨rfl, rfl⟩ := accepted
  cases call with
  | set =>
      obtain ⟨status, c', ran, _⟩ := setCString_spec wf ok sized readable
      refine ⟨status, c', ran, fun fits granted => ?_⟩
      simp only [setCString, measure, ok_bind] at ran
      exact setValidSpan_succeeds wf ok size denotes fits granted ran
  | append =>
      obtain ⟨status, c', ran, _⟩ := appendCString_spec wf ok sized readable
      refine ⟨status, c', ran, fun fits granted => ?_⟩
      simp only [appendCString, measure, ok_bind] at ran
      exact appendValidSpan_succeeds wf ok size denotes fits granted ran
  | format arguments =>
      obtain ⟨_, status, c', ran, formatting, _⟩ := appendFmt_spec wf ok sized arguments readable
      exact ⟨status, c', ran, formatting.accepted takes⟩

theorem Cell.Begins.readable {offset : Nat} (begins : c.Begins source offset) :
    source.Sized ∧ ReadableText c source := by
  obtain ⟨inside, p, buf, rfl⟩ := begins
  exact ⟨fun bytes array => (nomatch array), .inr (.inl ⟨p, p.add offset, buf, rfl, rfl,
    Nat.le_add_right _ _, Nat.add_lt_add_left inside _⟩)⟩

/-- A C string within the content ends at the terminator, or before. -/
theorem Cell.Begins.text (wf : WellFormed c) (ok : c.str.status = .ok) {offset : Nat}
    (begins : c.Begins source offset) (within : offset ≤ c.str.len) :
    c.str.TakesText source ∧ ∃ text, source.cString c.heap = .ok text ∧
      offset + text.length ≤ c.str.len := by
  have takes : c.str.TakesText source := ⟨begins.given, .inr (begins.found wf ▸ within)⟩
  obtain ⟨sized, readable⟩ := begins.readable
  obtain ⟨measured, c₁, measure, _⟩ := measureCStringInput_spec wf ok sized readable
  rcases measureCStringInput_takes wf ok readable measure with
    ⟨_, untaken⟩ | ⟨text, _, _, found, _⟩
  · exact absurd takes untaken
  · obtain ⟨_, p, buf, own⟩ := begins
    have denotes : source.DenotesText c (.text offset) := .inside buf own within
    have nul : ((c.content ++ [0]).drop offset)[c.str.len - offset]? = some 0 := by
      rw [List.getElem?_drop, Nat.add_sub_of_le within, ← wf.length_content]
      exact List.getElem?_concat_length
    have short := text_length_le nul
    have same := denotes.text wf
    rw [Source.text_of_cString found] at same
    refine ⟨takes, text, found, ?_⟩
    rw [same]
    exact Nat.le_trans (Nat.add_le_add_left short offset) (by omega)

/-- A C string outside the allocation is found nowhere in it. -/
theorem Cell.Outside.text (wf : WellFormed c) (outside : c.Outside source) {text : Bytes}
    (found : source.cString c.heap = .ok text) : c.str.TakesText source := by
  cases source with
  | array bytes => exact ⟨rfl, .inl rfl⟩
  | mem pointer =>
      cases pointer with
      | none => cases found
      | some q =>
          refine ⟨rfl, .inl ?_⟩
          cases wf with
          | empty noBuf strLen cap => simp only [findAllocationOffset, noBuf]
          | owned holds roomy terminated =>
              obtain ⟨rest, all, _⟩ := Source.cString_cases found
              obtain ⟨other, live, read⟩ := Source.rest_cases all
              obtain ⟨other', live', _, inside, _⟩ := Heap.read_eq_ok read
              have placed := c.heap.placed q.obj other' live'
              have own := c.heap.placed _ _ holds.live
              have start := holds.start
              have cap := holds.cap
              rw [findAllocationOffset_eq holds.buf (by omega) (by omega),
                if_neg (outside _ q holds.buf rfl)]

end

/-- On a string whose status is OK, where sizes fit and allocations succeed: a nonempty source in
the allocation is taken exactly if it begins at the terminator or before and ends with it or
before, a C string there exactly if it begins so; a rejection is recorded, changes nothing else
and is the same in every heap, so that nothing has been read. Sources outside are taken, empty
spans not looked at, and both classifications agree. -/
theorem borrowed_source_verdict (c : Cell) (wf : WellFormed c) (ok : c.str.status = .ok) :
    (∀ (call : SpanCall) (source : Source) (len : Size), call.Valid c → 0 < len.val →
      call.kept c + len + 1 ≤ sizeMax →
      (∀ offset, c.Begins source offset →
        (offset ≤ c.str.len ∧ offset + len ≤ c.str.len + 1 → call.Granted source len c →
          ∃ c', call.run source len c = .ok (.ok, c')) ∧
        (¬ (offset ≤ c.str.len ∧ offset + len ≤ c.str.len + 1) → ∀ heap,
          call.run source len { c with heap } = .ok (.errArg, c.rejected heap))) ∧
      (c.Outside source → ∀ bytes, source.read c.heap len = .ok bytes →
        call.Granted source len c → ∃ c', call.run source len c = .ok (.ok, c'))) ∧
    (∀ (call : SpanCall) (source other : Source), call.run source 0 c = call.run other 0 c) ∧
    (∀ (call : TextCall) (source : Source),
      (∀ offset, c.Begins source offset →
        (offset ≤ c.str.len → ∃ text status c', source.cString c.heap = .ok text ∧
          call.run source c = .ok (status, c') ∧ call.Accepted text c status) ∧
        (c.str.len < offset → ∀ heap,
          call.run source { c with heap } = .ok (.errArg, c.rejected heap))) ∧
      (c.Outside source → source.Sized → ∀ text, source.cString c.heap = .ok text →
        ∃ status c', call.run source c = .ok (status, c') ∧ call.Accepted text c status)) ∧
    (∀ (s : StrT) (source : Source),
      (∀ base, s.buf = some base → base.addr + s.cap ≤ sizeMax + 1) →
      (∀ q, source = .mem (some q) → q.addr ≤ sizeMax) →
      findAllocationOffsetStrict s source = findAllocationOffset s source) := by
  refine ⟨fun call source len valid pos fits => ⟨fun offset begins => ⟨?_, ?_⟩, ?_⟩,
    fun call source other => call.run_empty source other c,
    fun call source => ⟨fun offset begins => ⟨?_, ?_⟩, ?_⟩,
    fun s source straight addressed => findAllocationOffsetStrict_eq straight addressed⟩
  · intro within granted
    exact call.run_accepts wf ok valid pos (Nat.le_of_lt_succ len.isLt)
      (begins.denotes within.2) fits granted
  · intro beyond heap
    exact call.run_rejects wf ok valid pos (Nat.le_of_lt_succ len.isLt) fits begins beyond heap
  · intro outside bytes read granted
    exact call.run_accepts wf ok valid pos (Nat.le_of_lt_succ len.isLt)
      (.external (outside.external wf pos read) read) fits granted
  · intro within
    obtain ⟨takes, text, found, short⟩ := begins.text wf ok within
    obtain ⟨sized, readable⟩ := begins.readable
    have bound := wf.len_lt
    obtain ⟨status, c', ran, accepted⟩ := call.run_accepts wf ok sized readable takes found
      (by omega) (begins.denotes (by omega))
    exact ⟨text, status, c', found, ran, accepted⟩
  · intro beyond heap
    exact call.run_rejects wf ok begins beyond heap
  · intro outside sized text found
    have takes := outside.text wf found
    have read := Source.read_text found
    have size := Source.length_text_le sized found
    have denotes : ∃ input, source.Denotes c text.length input := by
      cases Nat.eq_zero_or_pos text.length with
      | inl none => exact ⟨_, .nothing none⟩
      | inr pos => exact ⟨_, .external (outside.external wf pos read) read⟩
    obtain ⟨input, denotes⟩ := denotes
    exact call.run_accepts wf ok sized (.inr (.inr ⟨text, found⟩)) takes found size denotes

/-- A span that ends with the terminator is appended, takes the place of the content and, staged,
that of a shorter span; one byte more is not looked at. A C string from the last byte on is
appended. -/
theorem borrowed_source_verdict_terminator :
    (∃ c', (SpanCall.append).run (.mem (some ⟨0, 17⟩)) 2 (abAt 16 14 64 (by decide)) =
      .ok (.ok, c')) ∧
    (∀ heap, (SpanCall.append).run (.mem (some ⟨0, 17⟩)) 3
        { abAt 16 14 64 (by decide) with heap } =
      .ok (.errArg, (abAt 16 14 64 (by decide)).rejected heap)) ∧
    (∃ c', (SpanCall.replace 0 2).run (.mem (some ⟨0, 17⟩)) 2 abFull = .ok (.ok, c')) ∧
    (∃ c', (SpanCall.replace 0 1).run (.mem (some ⟨0, 17⟩)) 2 abFull = .ok (.ok, c')) ∧
    (∀ heap, (SpanCall.replace 0 1).run (.mem (some ⟨0, 17⟩)) 3 { abFull with heap } =
      .ok (.errArg, abFull.rejected heap)) ∧
    ∃ c', (TextCall.append).run (.mem (some ⟨0, 17⟩)) (abAt 16 14 64 (by decide)) =
      .ok (.ok, c') := by
  have begins : (abAt 16 14 64 (by decide)).Begins (.mem (some ⟨0, 17⟩)) 1 :=
    ⟨by decide, ⟨0, 16⟩, rfl, rfl⟩
  have begins' : abFull.Begins (.mem (some ⟨0, 17⟩)) 1 := ⟨by decide, ⟨0, 16⟩, rfl, rfl⟩
  obtain ⟨spans, _, texts, _⟩ := borrowed_source_verdict (abAt 16 14 64 (by decide))
    (abAt_wellFormed _ _ _ _ (by decide)) rfl
  obtain ⟨spans', _⟩ := borrowed_source_verdict abFull abFull_wellFormed rfl
  have whole : (SpanCall.replace 0 2).Valid abFull := Nat.le_refl 2
  have first : (SpanCall.replace 0 1).Valid abFull := Nat.le_succ 1
  refine ⟨?_, ?_, ?_, ?_, ?_, ?_⟩
  · exact ((spans .append _ 2 trivial (by decide) (by decide)).1 1 begins).1 (by decide)
      fun grows => absurd grows (by decide)
  · exact ((spans .append _ 3 trivial (by decide) (by decide)).1 1 begins).2 (by decide)
  · exact ((spans' (.replace 0 2) _ 2 whole (by decide) (by decide)).1 1 begins').1
      (by decide) fun other => absurd rfl other
  · exact ((spans' (.replace 0 1) _ 2 first (by decide) (by decide)).1 1 begins').1
      (by decide) fun _ => abFull_grants
  · exact ((spans' (.replace 0 1) _ 3 first (by decide) (by decide)).1 1 begins').2
      (by decide)
  · obtain ⟨text, status, c', found, ran, accepted⟩ := ((texts .append _).1 1 begins).1 (by decide)
    cases found
    obtain rfl := accepted (by decide) fun grows => absurd grows (by decide)
    exact ⟨c', ran⟩

end AgencC.Str
