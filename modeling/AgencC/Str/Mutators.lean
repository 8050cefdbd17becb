import AgencC.Str.Buffer

/-! The lifecycle and mutating calls of the string library, on a string that is
not NULL. -/

set_option autoImplicit false

namespace AgencC.Str

open Library

/-- `str_view_t` as the mutators take it. -/
structure Borrowed where
  ptr : Source
  len : Nat
  deriving DecidableEq, Repr

def Borrowed.isValid (view : Borrowed) : Bool := !view.ptr.isNull || view.len == 0

def validateMutation (s : StrT) : Status := s.status

def validateSource (source : Source) (len : Nat) : Status :=
  if len = 0 then .ok else if source.isNull then .errArg else .ok

def validateSpan (len idx span : Nat) : Status :=
  if len < idx then .errRange
  else if sizeSub len idx < span then .errRange
  else .ok

/-- `str_begin_mutation`: a sticky status is returned as it is, a bad source is recorded. -/
def beginMutation (source : Source) (len : Nat) (c : Cell) : Except Fault (Status × Cell) :=
  match validateMutation c.str with
  | .ok =>
      match validateSource source len with
      | .ok => .ok (.ok, c)
      | status => recordFailure status c
  | status => .ok (status, c)

/-- The loop of `str_measure_bounded_c_string`. -/
def measureBoundedLoop (heap : Memory) (source : Source) :
    Nat → Nat → Except Fault (Except Status Nat)
  | 0, _ => .ok (.error .errArg)
  | available + 1, idx => do
      let byte ← (source.add idx).read heap 1
      if byte = [0] then .ok (.ok idx) else measureBoundedLoop heap source available (idx + 1)

def measureBoundedCString (heap : Memory) (source : Source) (available : Nat) :
    Except Fault (Except Status Nat) := do
  ensure (source.isNull = false) "source != NULL"
  measureBoundedLoop heap source available 0

/-- `strlen`. -/
def measureCString (heap : Memory) (source : Source) : Except Fault Nat := do
  ensure (source.isNull = false) "source != NULL"
  let text ← source.cString heap
  .ok text.length

def measureInternalCString (offset : Nat) (c : Cell) :
    Except Fault (Except Status Nat × Cell) := do
  ensure c.str.buf.isSome "string->buf != NULL"
  match ← validateInternalSourceSpan c.str offset nulBytes with
  | .ok =>
      let available := sizeAdd (sizeSub c.str.len offset) nulBytes
      match ← measureBoundedCString c.heap (c.str.at offset) available with
      | .ok len => .ok (.ok len, c)
      | .error status => do
          let (status, c) ← recordFailure status c
          .ok (.error status, c)
  | status => do
      let (status, c) ← recordFailure status c
      .ok (.error status, c)

def measureValidCStringInput (source : Source) (c : Cell) :
    Except Fault (Except Status Nat × Cell) := do
  ensure (source.isNull = false) "source != NULL"
  let idx := findAllocationOffset c.str source
  if idx = npos then
    let len ← measureCString c.heap source
    .ok (.ok len, c)
  else measureInternalCString idx c

def measureCStringInput (source : Source) (c : Cell) :
    Except Fault (Except Status Nat × Cell) :=
  match validateMutation c.str with
  | .ok =>
      if source.isNull then do
        let (status, c) ← recordFailure .errArg c
        .ok (.error status, c)
      else measureValidCStringInput source c
  | status => .ok (.error status, c)

/-- `str_prepare_write`: the source to read from once there is room. -/
def prepareWrite (source : Source) (len baseLen : Nat) (c : Cell) :
    Except Fault (Except Status Source × Cell) := do
  ensure (source.isNull = false) "request.source != NULL"
  ensure (0 < len) "request.len > 0"
  match calculateCapacity baseLen len with
  | .error status => .ok (.error status, c)
  | .ok need =>
      match ← detectOverlap c.str source len with
      | .error status => .ok (.error status, c)
      | .ok overlap =>
          match ← ensureCapacity need c with
          | (.ok, c) => .ok (.ok ((overlap.map c.str.at).getD source), c)
          | (status, c) => .ok (.error status, c)

def prepareValidSpan (source : Source) (len baseLen : Nat) (c : Cell) :
    Except Fault (Except Status Source × Cell) := do
  ensure (c.str.status = .ok) "string->status == STR_OK"
  match ← prepareWrite source len baseLen c with
  | (.ok ready, c) => .ok (.ok ready, c)
  | (.error status, c) =>
      let (status, c) ← recordFailure status c
      .ok (.error status, c)

def setValidSpan (source : Source) (len : Nat) (c : Cell) : Except Fault (Status × Cell) := do
  ensure (c.str.status = .ok) "string->status == STR_OK"
  if len = 0 then
    let c ← clearContent c
    .ok (.ok, c)
  else
    match ← prepareValidSpan source len 0 c with
    | (.error status, c) => .ok (status, c)
    | (.ok ready, c) =>
        let c ← replaceContent ready len c
        .ok (.ok, c)

def appendValidSpan (source : Source) (len : Nat) (c : Cell) : Except Fault (Status × Cell) := do
  ensure (c.str.status = .ok) "string->status == STR_OK"
  if len = 0 then .ok (.ok, c)
  else
    match ← prepareValidSpan source len c.str.len c with
    | (.error status, c) => .ok (status, c)
    | (.ok ready, c) =>
        let c ← appendContent ready len c
        .ok (.ok, c)

def appendUnaliasedSpan (source : Source) (len : Nat) (c : Cell) :
    Except Fault (Status × Cell) := do
  ensure (c.str.status = .ok) "string->status == STR_OK"
  ensure (source.isNull = false) "source != NULL"
  if len = 0 then .ok (.ok, c)
  else
    match calculateCapacity c.str.len len with
    | .error status => recordFailure status c
    | .ok need =>
        match ← ensureCapacity need c with
        | (.ok, c) =>
            let c ← appendContent source len c
            .ok (.ok, c)
        | (status, c) => recordFailure status c

def setN (source : Source) (len : Nat) (c : Cell) : Except Fault (Status × Cell) := do
  match ← beginMutation source len c with
  | (.ok, c) => setValidSpan source len c
  | (status, c) => .ok (status, c)

def setView (source : Borrowed) (c : Cell) : Except Fault (Status × Cell) :=
  setN source.ptr source.len c

/-- `str_set`. -/
def setCString (source : Source) (c : Cell) : Except Fault (Status × Cell) := do
  match ← measureCStringInput source c with
  | (.ok len, c) => setValidSpan source len c
  | (.error status, c) => .ok (status, c)

/-- `str_append`. -/
def appendCString (source : Source) (c : Cell) : Except Fault (Status × Cell) := do
  match ← measureCStringInput source c with
  | (.ok len, c) => appendValidSpan source len c
  | (.error status, c) => .ok (status, c)

def appendN (source : Source) (len : Nat) (c : Cell) : Except Fault (Status × Cell) := do
  match ← beginMutation source len c with
  | (.ok, c) => appendValidSpan source len c
  | (status, c) => .ok (status, c)

def appendView (source : Borrowed) (c : Cell) : Except Fault (Status × Cell) :=
  appendN source.ptr source.len c

def appendChar (byte : UInt8) (c : Cell) : Except Fault (Status × Cell) :=
  match validateMutation c.str with
  | .ok => appendUnaliasedSpan (.array [byte]) 1 c
  | status => .ok (status, c)

/-! Formatted output. -/

def intMax : Nat := 0x7fffffff

/-- What `vsnprintf` makes of a format with the caller's arguments: on its `k`-th
call, from the format's text and the heap the arguments may point into. -/
abbrev Arguments := Nat → Bytes → Memory → Option Bytes

/-- `vsnprintf`: the value it returns and the bytes it puts into the destination.
A result beyond `INT_MAX` is an error. -/
def vsnprintf (capacity : Nat) (output : Option Bytes) : Int × Bytes :=
  match output with
  | some text =>
      if text.length ≤ intMax then (text.length, text.take (capacity - 1) ++ [0]) else (-1, [])
  | none => (-1, [])

def convertPrintedLength (value : Int) : Except Status Nat :=
  if value < 0 then .error .errFmt
  else if (sizeMax : Int) < value then .error .errOverflow
  else .ok value.toNat

/-- `str_render_format`: the full length, and the bytes in the destination. -/
def renderFormat (k capacity : Nat) (format : Source) (arguments : Arguments) (heap : Memory) :
    Except Fault (Except Status Nat × Bytes) := do
  ensure (0 < capacity) "destination.capacity > 0"
  ensure (format.isNull = false) "format != NULL"
  let text ← format.cString heap
  let (printed, written) := vsnprintf capacity (arguments k text heap)
  if printed < 0 then .ok (.error .errFmt, written)
  else .ok (convertPrintedLength printed, written)

/-- `str_verify_format_render` into a heap buffer. -/
def verifyFormatRender (buf : Ptr) (capacity expectedLen : Nat) (format : Source)
    (arguments : Arguments) (heap : Memory) : Except Fault (Status × Memory) := do
  let (rendered, written) ← renderFormat 1 capacity format arguments heap
  let heap ← heap.write buf written
  match rendered with
  | .error status => .ok (status, heap)
  | .ok renderedLen => .ok (if renderedLen ≠ expectedLen then .errFmt else .ok, heap)

def buildFormattedBuffer (expectedLen : Nat) (format : Source) (arguments : Arguments)
    (heap : Memory) : Except Fault (Except Status Ptr × Memory) := do
  match calculateCapacity 0 expectedLen with
  | .error status => .ok (.error status, heap)
  | .ok capacity =>
      match ← allocateHeap capacity heap with
      | (.error status, heap) => .ok (.error status, heap)
      | (.ok buf, heap) =>
          match ← verifyFormatRender buf capacity expectedLen format arguments heap with
          | (.ok, heap) => .ok (.ok buf, heap)
          | (status, heap) =>
              let heap ← heap.free (some buf)
              .ok (.error status, heap)

def appendFormatPayload (stackBuf : Bytes) (renderedLen : Nat) (format : Source)
    (arguments : Arguments) (c : Cell) : Except Fault (Status × Cell) := do
  ensure (format.isNull = false) "payload.format != NULL"
  if renderedLen < formatStackBytes then appendUnaliasedSpan (.array stackBuf) renderedLen c
  else
    match ← buildFormattedBuffer renderedLen format arguments c.heap with
    | (.error status, heap) => recordFailure status { c with heap }
    | (.ok renderedBuf, heap) =>
        let (status, c) ← appendUnaliasedSpan (.mem (some renderedBuf)) renderedLen { c with heap }
        let heap ← c.heap.free (some renderedBuf)
        .ok (status, { c with heap })

/-- `str_append_fmt` over `str_append_vfmt`. -/
def appendFmt (format : Source) (arguments : Arguments) (c : Cell) :
    Except Fault (Status × Cell) := do
  match ← measureCStringInput format c with
  | (.error status, c) => .ok (status, c)
  | (.ok _, c) =>
      match ← renderFormat 0 formatStackBytes format arguments c.heap with
      | (.error status, _) => recordFailure status c
      | (.ok renderedLen, stackBuf) =>
          appendFormatPayload stackBuf renderedLen format arguments c

/-! Capacity and length. -/

def reserve (len : Nat) (c : Cell) : Except Fault (Status × Cell) :=
  match validateMutation c.str with
  | .ok =>
      if len = 0 then .ok (.ok, c)
      else
        match calculateCapacity 0 len with
        | .error status => recordFailure status c
        | .ok need => do recordStatus (← ensureCapacity need c)
  | status => .ok (status, c)

/-- `str_reset_state` after the buffer has been released or given away. -/
def StrT.reset (_ : StrT) : StrT := .empty

def discardHeap (c : Cell) : Except Fault Cell := do
  ensure (c.str.len = 0) "string->len == 0"
  let owned ← isOwned c.str
  ensure owned "str_is_owned(string)"
  let heap ← c.heap.free c.str.buf
  .ok { str := c.str.reset, heap }

def shrinkHeap (exactCap : Nat) (c : Cell) : Except Fault (Status × Cell) := do
  ensure c.str.buf.isSome "string->buf != NULL"
  ensure (0 < exactCap) "exact_cap > 0"
  if exactCap = c.str.cap then .ok (.ok, c)
  else
    match ← resizeHeap c.str.buf exactCap c.heap with
    | (.error status, heap) => .ok (status, { c with heap })
    | (.ok shrunkBuf, heap) =>
        .ok (.ok, { str := { c.str with buf := some shrunkBuf, cap := exactCap }, heap })

def shrinkToFit (c : Cell) : Except Fault (Status × Cell) :=
  match validateMutation c.str with
  | .ok =>
      if c.str.cap = 0 then .ok (.ok, c)
      else if c.str.len = 0 then do
        let c ← discardHeap c
        .ok (.ok, c)
      else
        match addSize c.str.len nulBytes with
        | .error status => recordFailure status c
        | .ok exactCap => do recordStatus (← shrinkHeap exactCap c)
  | status => .ok (status, c)

def growContent (len : Nat) (fill : UInt8) (c : Cell) : Except Fault (Status × Cell) := do
  ensure (c.str.len < len) "len > string->len"
  match calculateCapacity 0 len with
  | .error status => .ok (status, c)
  | .ok need =>
      match ← ensureCapacity need c with
      | (.ok, c) =>
          let c ← extendContent len fill c
          .ok (.ok, c)
      | (status, c) => .ok (status, c)

def resize (len : Nat) (fill : UInt8) (c : Cell) : Except Fault (Status × Cell) :=
  match validateMutation c.str with
  | .ok =>
      if len = c.str.len then .ok (.ok, c)
      else if len < c.str.len then do
        let c ← closeGap len (sizeSub c.str.len len) c
        .ok (.ok, c)
      else do recordStatus (← growContent len fill c)
  | status => .ok (status, c)

/-! Insertion, removal and replacement. -/

/-- `str_prepare_insert`: the source as it stands once there is room. -/
def prepareInsert (idx : Nat) (source : Source) (len : Nat) (c : Cell) :
    Except Fault (Except Status Source × Cell) := do
  ensure (source.isNull = false) "request->source != NULL"
  ensure (0 < len) "request->len > 0"
  match calculateCapacity c.str.len len with
  | .error status => .ok (.error status, c)
  | .ok need =>
      match ← detectOverlap c.str source len with
      | .error status => .ok (.error status, c)
      | .ok none =>
          match ← ensureCapacity need c with
          | (.ok, c) => .ok (.ok source, c)
          | (status, c) => .ok (.error status, c)
      | .ok (some offset) =>
          let adjusted ← adjustSourceOffset offset idx len
          match ← ensureCapacity need c with
          | (.ok, c) => .ok (.ok (c.str.at adjusted), c)
          | (status, c) => .ok (.error status, c)

def insertN (idx : Nat) (source : Source) (len : Nat) (c : Cell) :
    Except Fault (Status × Cell) := do
  match ← beginMutation source len c with
  | (.ok, c) =>
      match validateSpan c.str.len idx 0 with
      | .ok =>
          if len = 0 then .ok (.ok, c)
          else
            match ← prepareInsert idx source len c with
            | (.error status, c) => recordFailure status c
            | (.ok source, c) =>
                let c ← commitInsert idx source len c
                .ok (.ok, c)
      | status => recordFailure status c
  | (status, c) => .ok (status, c)

def insertView (idx : Nat) (source : Borrowed) (c : Cell) : Except Fault (Status × Cell) :=
  insertN idx source.ptr source.len c

def remove (idx len : Nat) (c : Cell) : Except Fault (Status × Cell) :=
  match validateMutation c.str with
  | .ok =>
      match validateSpan c.str.len idx len with
      | .ok =>
          if len = 0 then .ok (.ok, c)
          else do
            let c ← closeGap idx len c
            .ok (.ok, c)
      | status => recordFailure status c
  | status => .ok (status, c)

/-- `str_staged_view_t`. -/
structure Staged where
  view : Borrowed
  ownedBuf : Option Ptr

def stageReplacement (source : Borrowed) (c : Cell) :
    Except Fault (Except Status Staged × Memory) := do
  ensure source.isValid "str_view_is_valid(source)"
  if source.len = 0 then .ok (.ok { view := source, ownedBuf := none }, c.heap)
  else
    match ← detectOverlap c.str source.ptr source.len with
    | .error status => .ok (.error status, c.heap)
    | .ok none => .ok (.ok { view := source, ownedBuf := none }, c.heap)
    | .ok (some _) =>
        match ← allocateHeap source.len c.heap with
        | (.error status, heap) => .ok (.error status, heap)
        | (.ok ownedBuf, heap) =>
            let heap ← moveBytes ownedBuf source.ptr source.len heap
            .ok (.ok { view := { source with ptr := .mem (some ownedBuf) }
                       ownedBuf := some ownedBuf }, heap)

def releaseStagedView (staged : Staged) (heap : Memory) : Except Fault Memory :=
  heap.free staged.ownedBuf

def commitReplacement (idx removeLen : Nat) (replacement : Borrowed) (c : Cell) :
    Except Fault Cell := do
  let buf ← nonNull c.str.buf "string->buf != NULL"
  ensure replacement.isValid "str_view_is_valid(replacement)"
  ensure (idx ≤ c.str.len) "idx <= string->len"
  ensure (removeLen ≤ sizeSub c.str.len idx) "remove_len <= string->len - idx"
  let suffixIdx := sizeAdd idx removeLen
  let suffixLen := sizeAdd (sizeSub c.str.len suffixIdx) nulBytes
  let newLen := sizeAdd (sizeSub c.str.len removeLen) replacement.len
  ensure (newLen < c.str.cap) "new_len < string->cap"
  let heap ← moveBytes ((buf.add idx).add replacement.len) (c.str.at suffixIdx) suffixLen c.heap
  let heap ← moveBytes (buf.add idx) replacement.ptr replacement.len heap
  writeTerminator { str := { c.str with len := newLen }, heap }

def replaceEqualSpan (idx : Nat) (replacement : Borrowed) (c : Cell) :
    Except Fault (Status × Cell) := do
  ensure (idx ≤ c.str.len) "idx <= string->len"
  ensure (replacement.len ≤ sizeSub c.str.len idx) "replacement.len <= string->len - idx"
  ensure (0 < replacement.len) "replacement.len > 0"
  match ← detectOverlap c.str replacement.ptr replacement.len with
  | .error status => .ok (status, c)
  | .ok overlap =>
      let c ← writeContent idx ((overlap.map c.str.at).getD replacement.ptr) replacement.len c
      .ok (.ok, c)

def calculateReplacementLength (oldLen removeLen addedLen : Nat) :
    Except Fault (Except Status Nat) := do
  ensure (removeLen ≤ oldLen) "remove_len <= old_len"
  .ok (addSize (sizeSub oldLen removeLen) addedLen)

def replaceResizedSpan (idx removeLen newLen : Nat) (replacement : Borrowed) (c : Cell) :
    Except Fault (Status × Cell) := do
  match calculateCapacity 0 newLen with
  | .error status => .ok (status, c)
  | .ok need =>
      match ← stageReplacement replacement c with
      | (.error status, heap) => .ok (status, { c with heap })
      | (.ok staged, heap) =>
          match ← ensureCapacity need { c with heap } with
          | (.ok, c) =>
              let c ← commitReplacement idx removeLen staged.view c
              let heap ← releaseStagedView staged c.heap
              .ok (.ok, { c with heap })
          | (status, c) =>
              let heap ← releaseStagedView staged c.heap
              .ok (status, { c with heap })

def applyReplacement (idx removeLen : Nat) (replacement : Borrowed) (c : Cell) :
    Except Fault (Status × Cell) := do
  ensure replacement.isValid "str_view_is_valid(replacement)"
  ensure (idx ≤ c.str.len) "idx <= string->len"
  ensure (removeLen ≤ sizeSub c.str.len idx) "remove_len <= string->len - idx"
  if removeLen = replacement.len then replaceEqualSpan idx replacement c
  else
    match ← calculateReplacementLength c.str.len removeLen replacement.len with
    | .error status => .ok (status, c)
    | .ok newLen => replaceResizedSpan idx removeLen newLen replacement c

def replaceView (idx removeLen : Nat) (replacement : Borrowed) (c : Cell) :
    Except Fault (Status × Cell) := do
  match ← beginMutation replacement.ptr replacement.len c with
  | (.ok, c) =>
      match validateSpan c.str.len idx removeLen with
      | .ok =>
          if removeLen = 0 ∧ replacement.len = 0 then .ok (.ok, c)
          else recordStatus (← applyReplacement idx removeLen replacement c)
      | status => recordFailure status c
  | (status, c) => .ok (status, c)

/-! Lifecycle. -/

def deinit (c : Cell) : Except Fault Cell := do
  let owned ← isOwned c.str
  let heap ← if owned then c.heap.free c.str.buf else .ok c.heap
  .ok { str := c.str.reset, heap }

def clearError (c : Cell) : Cell := { c with str := { c.str with status := .ok } }

def clear (c : Cell) : Except Fault Cell := clearContent (clearError c)

/-- `str_cstr`: a NULL buffer is observed as the static empty string. -/
def cstr (s : StrT) : Source :=
  match s.buf with
  | some buf => .mem (some buf)
  | none => .array [0]

/-- `str_move` between distinct strings: the new destination; the source becomes empty. -/
def move (destination : Cell) (source : StrT) : Except Fault Cell := do
  let c ← deinit destination
  .ok { c with str := source }

/-- The source argument of `str_copy`. -/
inductive CopySource where
  | null
  | itself
  | other (s : StrT)

def copy (source : CopySource) (c : Cell) : Except Fault (Status × Cell) :=
  match validateMutation c.str with
  | .ok =>
      match source with
      | .null => recordFailure .errArg c
      | .itself => .ok (.ok, c)
      | .other s => do
          match ← setValidSpan (cstr s) s.len { str := .empty, heap := c.heap } with
          | (.ok, scratch) =>
              let c ← move { c with heap := scratch.heap } scratch.str
              .ok (.ok, c)
          | (status, scratch) =>
              let scratch ← deinit scratch
              recordFailure status { c with heap := scratch.heap }
  | status => .ok (status, c)

/-- `str_allocate_empty_buffer`. -/
def allocateEmptyBuffer (heap : Memory) : Except Fault (Except Status Ptr × Memory) := do
  match ← allocateHeap nulBytes heap with
  | (.error status, heap) => .ok (.error status, heap)
  | (.ok ownedBuf, heap) =>
      let heap ← heap.write ownedBuf [0]
      .ok (.ok ownedBuf, heap)

/-- `str_detach`: the buffer handed to the caller, NULL when it cannot be allocated. -/
def detach (c : Cell) : Except Fault (Option Ptr × Cell) := do
  if ← isOwned c.str then .ok (c.str.buf, { c with str := c.str.reset })
  else
    match ← allocateEmptyBuffer c.heap with
    | (.error status, heap) =>
        let (_, c) ← recordFailure status { c with heap }
        .ok (none, c)
    | (.ok ownedBuf, heap) => .ok (some ownedBuf, { str := c.str.reset, heap })

end AgencC.Str
