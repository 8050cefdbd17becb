import AgencC.Library.Heap
import AgencC.Str.View

/-! Owned strings and their heap buffers: `str_t`, capacity growth, source
classification and the commit of prepared bytes. -/

set_option autoImplicit false

namespace AgencC.Str

open Library

abbrev Bytes := List UInt8

abbrev Memory := Heap UInt8 (sizeMax + 1)

/-- `str_t`. -/
structure StrT where
  buf : Option Ptr
  len : Nat
  cap : Nat
  status : Status
  deriving DecidableEq, Repr

/-- `STR_EMPTY`. -/
def StrT.empty : StrT := { buf := none, len := 0, cap := 0, status := .ok }

/-- A string and the heap its buffer lives in. -/
structure Cell where
  str : StrT
  heap : Memory

def minCapacityBytes : Nat := 16
def capacityGrowthFactor : Nat := 2
def nulBytes : Nat := 1
def formatStackBytes : Nat := 256
def maxCapacityGrowthSteps : Nat := 64

/-- Where borrowed bytes come from: a pointer into the heap, possibly NULL, or an
array of automatic or static storage. -/
inductive Source where
  | mem (p : Option Ptr)
  | array (bytes : Bytes)
  deriving DecidableEq, Repr

def Source.isNull : Source → Bool
  | .mem none => true
  | _ => false

/-- `source[0 .. len)`. -/
def Source.read (heap : Memory) (len : Nat) : Source → Except Fault Bytes
  | .mem none => .error .notHeld
  | .mem (some p) => heap.read p len
  | .array bytes => if len ≤ bytes.length then .ok (bytes.take len) else .error .outOfBounds

def Source.add (offset : Nat) : Source → Source
  | .mem p => .mem (p.map (·.add offset))
  | .array bytes => .array (bytes.drop offset)

/-- The bytes from the source to the end of its object. -/
def Source.rest (heap : Memory) : Source → Except Fault Bytes
  | .mem none => .error .notHeld
  | .mem (some p) =>
      match heap.objs p.obj with
      | some o => heap.read p (o.base + o.size - p.addr)
      | none => .error .notHeld
  | .array bytes => .ok bytes

/-- The C string at the source: the bytes before the first NUL. -/
def Source.cString (heap : Memory) (source : Source) : Except Fault Bytes := do
  let bytes ← source.rest heap
  if 0 ∈ bytes then .ok (bytes.takeWhile (· ≠ 0)) else .error .outOfBounds

/-- `assert(p != NULL)` on a pointer that is used. -/
def nonNull (p : Option Ptr) (text : String) : Except Fault Ptr :=
  match p with
  | some p => .ok p
  | none => .error (.assertion text)

/-- `str_is_owned`. -/
def isOwned (s : StrT) : Except Fault Bool := do
  ensure ((s.cap == 0) = s.buf.isNone) "(string->cap == 0) == (string->buf == NULL)"
  .ok (0 < s.cap)

/-- `str_allocate_heap` over `str_call_malloc`. -/
def allocateHeap (bytes : Nat) (heap : Memory) : Except Fault (Except Status Ptr × Memory) := do
  ensure (0 < bytes) "bytes > 0"
  match heap.malloc bytes with
  | (some p, heap) => .ok (.ok p, heap)
  | (none, heap) => .ok (.error .errAlloc, heap)

/-- `str_resize_heap` over `str_call_realloc`. -/
def resizeHeap (buf : Option Ptr) (bytes : Nat) (heap : Memory) :
    Except Fault (Except Status Ptr × Memory) := do
  let buf ← nonNull buf "buf != NULL"
  ensure (0 < bytes) "bytes > 0"
  match ← heap.realloc buf bytes with
  | (some p, heap) => .ok (.ok p, heap)
  | (none, heap) => .ok (.error .errAlloc, heap)

def expandHeap (buf : Option Ptr) (bytes : Nat) (hasOwnedBuffer : Bool) (heap : Memory) :
    Except Fault (Except Status Ptr × Memory) := do
  ensure (0 < bytes) "bytes > 0"
  ensure (buf.isSome = hasOwnedBuffer) "(buf != NULL) == has_owned_buffer"
  if hasOwnedBuffer then resizeHeap buf bytes heap else allocateHeap bytes heap

def addSize (base increment : Nat) : Except Status Nat :=
  if sizeMax - increment < base then .error .errOverflow else .ok (sizeAdd base increment)

def calculateCapacity (len additionalLen : Nat) : Except Status Nat := do
  let bytes ← addSize len additionalLen
  addSize bytes nulBytes

def hasCapacityDoublingOverflow (cap : Nat) : Bool := sizeMax / capacityGrowthFactor < cap

/-- The loop of `str_grow_capacity`, `steps` doublings left. -/
def growCapacityLoop (need : Nat) : Nat → Nat → Except Status Nat
  | 0, cap => if need ≤ cap then .ok cap else .error .errOverflow
  | steps + 1, cap =>
      if need ≤ cap then .ok cap
      else if hasCapacityDoublingOverflow cap then .ok need
      else growCapacityLoop need steps (sizeMul cap capacityGrowthFactor)

def growCapacity (cap need : Nat) : Except Status Nat :=
  growCapacityLoop need maxCapacityGrowthSteps cap

def chooseCapacity (currentCap need : Nat) : Except Status Nat :=
  if need ≤ currentCap then .ok currentCap
  else growCapacity (if currentCap < minCapacityBytes then minCapacityBytes else currentCap) need

def growHeap (newCap : Nat) (c : Cell) : Except Fault (Status × Cell) := do
  ensure (c.str.cap < newCap) "new_cap > string->cap"
  let hasOwnedBuffer ← isOwned c.str
  match ← expandHeap c.str.buf newCap hasOwnedBuffer c.heap with
  | (.error status, heap) => .ok (status, { c with heap })
  | (.ok grownBuf, heap) =>
      let heap ← if hasOwnedBuffer then .ok heap else heap.write grownBuf [0]
      .ok (.ok, { str := { c.str with buf := some grownBuf, cap := newCap }, heap })

def ensureCapacity (need : Nat) (c : Cell) : Except Fault (Status × Cell) :=
  if need ≤ c.str.cap then .ok (.ok, c)
  else
    match chooseCapacity c.str.cap need with
    | .error status => .ok (status, c)
    | .ok newCap => growHeap newCap c

/-- `str_find_allocation_offset`. An array lies in no allocation. -/
def findAllocationOffset (s : StrT) : Source → Nat
  | .mem (some source) =>
      match s.buf with
      | none => npos
      | some base =>
          let delta := sizeSub source.addr base.addr
          if delta < s.cap then delta else npos
  | _ => npos

def validateInternalSourceSpan (s : StrT) (offset len : Nat) : Except Fault Status := do
  ensure s.buf.isSome "string->buf != NULL"
  ensure (0 < len) "span.len > 0"
  if s.len < offset then .ok .errArg
  else if sizeAdd (sizeSub s.len offset) nulBytes < len then .ok .errArg
  else .ok .ok

/-- `str_detect_overlap`: the offset of an internal source, `none` for one outside. -/
def detectOverlap (s : StrT) (source : Source) (len : Nat) :
    Except Fault (Except Status (Option Nat)) := do
  ensure (source.isNull = false) "source != NULL"
  ensure (0 < len) "len > 0"
  let idx := findAllocationOffset s source
  if idx = npos then .ok (.ok none)
  else
    match ← validateInternalSourceSpan s idx len with
    | .ok => .ok (.ok (some idx))
    | status => .ok (.error status)

/-- `str_set_failure` over `str_record_failure`. -/
def recordFailure (status : Status) (c : Cell) : Except Fault (Status × Cell) := do
  ensure (status ≠ .ok) "status != STR_OK"
  .ok (status, { c with str := { c.str with status } })

/-- Returns a non-OK status after recording it. -/
def recordStatus : Status × Cell → Except Fault (Status × Cell)
  | (.ok, c) => .ok (.ok, c)
  | (status, c) => recordFailure status c

def moveBytes (destination : Ptr) (source : Source) (len : Nat) (heap : Memory) :
    Except Fault Memory :=
  if len = 0 then .ok heap
  else do
    ensure (source.isNull = false) "source != NULL"
    let bytes ← source.read heap len
    heap.write destination bytes

def fillBytes (destination : Ptr) (len : Nat) (byte : UInt8) (heap : Memory) :
    Except Fault Memory :=
  heap.write destination (List.replicate len byte)

/-- `string->buf + offset` as a source. -/
def StrT.at (s : StrT) (offset : Nat) : Source := (Source.mem s.buf).add offset

def writeTerminator (c : Cell) : Except Fault Cell := do
  let buf ← nonNull c.str.buf "string->buf != NULL"
  ensure (0 < c.str.cap) "string->cap > 0"
  ensure (c.str.len < c.str.cap) "string->len < string->cap"
  let heap ← c.heap.write (buf.add c.str.len) [0]
  .ok { c with heap }

def clearContent (c : Cell) : Except Fault Cell := do
  let c := { c with str := { c.str with len := 0 } }
  if 0 < c.str.cap then
    let buf ← nonNull c.str.buf "string->buf != NULL"
    let heap ← c.heap.write buf [0]
    .ok { c with heap }
  else .ok c

def replaceContent (source : Source) (len : Nat) (c : Cell) : Except Fault Cell := do
  let buf ← nonNull c.str.buf "string->buf != NULL"
  ensure (len < c.str.cap) "len < string->cap"
  let heap ← moveBytes buf source len c.heap
  writeTerminator { str := { c.str with len }, heap }

def appendContent (source : Source) (len : Nat) (c : Cell) : Except Fault Cell := do
  let buf ← nonNull c.str.buf "string->buf != NULL"
  ensure (c.str.len < c.str.cap) "string->len < string->cap"
  ensure (len ≤ sizeSub (sizeSub c.str.cap c.str.len) nulBytes)
    "len <= string->cap - string->len - STR_NUL_BYTES"
  let heap ← moveBytes (buf.add c.str.len) source len c.heap
  writeTerminator { str := { c.str with len := sizeAdd c.str.len len }, heap }

/-- `str_adjust_source_offset` for an internal source at `offset`. -/
def adjustSourceOffset (offset idx len : Nat) : Except Fault Nat := do
  ensure (0 < len) "request->len > 0"
  .ok (if idx ≤ offset then sizeAdd offset len else offset)

def writeContent (idx : Nat) (source : Source) (len : Nat) (c : Cell) : Except Fault Cell := do
  let buf ← nonNull c.str.buf "string->buf != NULL"
  ensure (idx ≤ c.str.cap) "idx <= string->cap"
  ensure (len ≤ sizeSub c.str.cap idx) "len <= string->cap - idx"
  let heap ← moveBytes (buf.add idx) source len c.heap
  .ok { c with heap }

def commitInsert (idx : Nat) (source : Source) (len : Nat) (c : Cell) : Except Fault Cell := do
  let buf ← nonNull c.str.buf "string->buf != NULL"
  ensure (idx ≤ c.str.len) "request.idx <= string->len"
  ensure (source.isNull = false) "request.source != NULL"
  ensure (len ≤ sizeSub (sizeSub c.str.cap c.str.len) nulBytes)
    "request.len <= string->cap - string->len - STR_NUL_BYTES"
  let tailLen := sizeAdd (sizeSub c.str.len idx) nulBytes
  let heap ← moveBytes ((buf.add idx).add len) (c.str.at idx) tailLen c.heap
  let heap ← moveBytes (buf.add idx) source len heap
  writeTerminator { str := { c.str with len := sizeAdd c.str.len len }, heap }

def closeGap (idx len : Nat) (c : Cell) : Except Fault Cell := do
  let buf ← nonNull c.str.buf "string->buf != NULL"
  ensure (idx ≤ c.str.len) "idx <= string->len"
  ensure (len ≤ sizeSub c.str.len idx) "len <= string->len - idx"
  let tailLen := sizeAdd (sizeSub (sizeSub c.str.len idx) len) nulBytes
  let heap ← moveBytes (buf.add idx) ((c.str.at idx).add len) tailLen c.heap
  writeTerminator { str := { c.str with len := sizeSub c.str.len len }, heap }

def extendContent (len : Nat) (fill : UInt8) (c : Cell) : Except Fault Cell := do
  let buf ← nonNull c.str.buf "string->buf != NULL"
  ensure (c.str.len < len) "string->len < len"
  ensure (len < c.str.cap) "len < string->cap"
  let heap ← fillBytes (buf.add c.str.len) (sizeSub len c.str.len) fill c.heap
  writeTerminator { str := { c.str with len }, heap }

end AgencC.Str
