import AgencC.Arena.Libc

/-! The fuzz driver of the arena: it decodes its input into calls, keeps a model of what it has
allocated, and asserts after each call that the arena agrees with the model. -/

set_option autoImplicit false

namespace AgencC.Arena

open Library

variable {σ : Type}

def fuzzMaxLive : Nat := 64
def fuzzMaxTemps : Nat := 8
def fuzzFixedBuffer : Nat := 65536
def fuzzMaxTotalOps : Nat := 512
def fuzzParentBudget : Nat := 1048576

/-! The parent of a growing arena: the C library, with a budget. -/

/-- `struct fuzz_parent`, and the C library behind it. -/
structure FuzzParent where
  live : Nat
  heap : Malloc

def World.heap (w : World FuzzParent) : World Malloc :=
  { bytes := w.bytes, poisoned := w.poisoned, parent := w.parent.heap }

/-- The C library's part of the world, with the budget in use. -/
def World.charged (live : Nat) (w : World Malloc) : World FuzzParent :=
  { bytes := w.bytes, poisoned := w.poisoned, parent := { live, heap := w.parent } }

def fuzzParentXalloc (size : Nat) (w : World FuzzParent) : Nat × World FuzzParent :=
  if size = 0 ∨ sizeSub fuzzParentBudget w.parent.live < size then (0, w)
  else
    let (ptr, heap) := Malloc.malloc size w.heap
    if ptr ≠ 0 then (ptr, heap.charged (sizeAdd w.parent.live size))
    else (ptr, heap.charged w.parent.live)

def fuzzParentXfree (build : Build) (ptr size : Nat) (w : World FuzzParent) :
    Except Fault (World FuzzParent) :=
  if ptr = 0 then .ok w
  else do
    build.check (size ≤ w.parent.live) "parent->live >= size"
    let heap ← Malloc.free ptr w.heap
    .ok (heap.charged (sizeSub w.parent.live size))

def fuzzParentAlloc (build : Build) : AllocT FuzzParent where
  xalloc size _ w := .ok (fuzzParentXalloc size w)
  xrealloc _ _ _ _ w := do
    build.check False "0"
    .ok (0, w)
  xfree ptr size _ w := fuzzParentXfree build ptr size w

/-! The model and the input. -/

structure FuzzEntry where
  ptr : Nat
  size : Nat
  align : Nat
  seed : UInt8
  level : Nat
  deriving DecidableEq, Repr

/-- What `fuzz_fill` writes at `idx`. -/
def FuzzEntry.pattern (entry : FuzzEntry) (idx : Nat) : UInt8 := entry.seed + UInt8.ofNat idx

/-- `struct fuzz_model`: the first `live_count` entries, and the first `temp_depth` snapshots,
the innermost first. -/
structure FuzzModel where
  live : List FuzzEntry
  temps : List TempT
  nextSeed : UInt8
  deriving DecidableEq, Repr

structure FuzzInput where
  data : List UInt8
  pos : Nat

def fuzzByte (input : FuzzInput) : UInt8 × FuzzInput :=
  match input.data[input.pos]? with
  | none => (0, input)
  | some byte => (byte, { input with pos := input.pos + 1 })

def fuzzPickSize (input : FuzzInput) : Nat × FuzzInput :=
  let (classByte, input) := fuzzByte input
  let (low, input) := fuzzByte input
  let (high, input) := fuzzByte input
  let value := low.toNat ||| high.toNat <<< 8
  match classByte.toNat % 4 with
  | 0 => (value % 65, input)
  | 1 => (value % 1025, input)
  | 2 => (value % 8193, input)
  | _ => (sizeMax - value % 3, input)

def fuzzPickAlign (input : FuzzInput) : Nat × FuzzInput :=
  let (shift, input) := fuzzByte input
  if shift.toNat % 4 = 0 then (0, input) else (1 <<< (shift.toNat % 14), input)

/-! The driver's own accesses to what it has allocated. -/

section
variable (build : Build)

/-- An access to a byte in the data of a held block. The address sanitizer stops at one that is
poisoned. -/
def State.touch (p : Nat) (s : State σ) : Except Fault Unit := do
  s.dataAccess p 1
  if build.asan = true ∧ s.world.poisoned p = true then .error .outOfBounds else .ok ()

def State.load (p : Nat) (s : State σ) : Except Fault UInt8 := do
  s.touch build p
  .ok (s.world.bytes p)

def State.store (p : Nat) (value : UInt8) (s : State σ) : Except Fault (State σ) := do
  s.touch build p
  .ok { s with world := s.world.memset p value 1 }

/-- An `assert` that reads a byte. -/
def State.assertByte (p : Nat) (value : UInt8) (text : String) (s : State σ) :
    Except Fault Unit :=
  if build.ndebug then .ok ()
  else do
    let byte ← s.load build p
    ensure (byte = value) text

/-- Whether `memcmp` returns 0. -/
def State.memcmp (p q : Nat) : Nat → State σ → Except Fault Bool
  | 0, _ => .ok true
  | len + 1, s => do
      let same ← s.memcmp p q len
      let x ← s.load build (p + len)
      let y ← s.load build (q + len)
      .ok (same && x == y)

/-- The loop of `fuzz_fill`, up to `idx`. -/
def fuzzFillTo (entry : FuzzEntry) : Nat → State σ → Except Fault (State σ)
  | 0, s => .ok s
  | idx + 1, s => do
      let s ← fuzzFillTo entry idx s
      s.store build (entry.ptr + idx) (entry.pattern idx)

def fuzzFill (entry : FuzzEntry) (s : State σ) : Except Fault (State σ) :=
  fuzzFillTo build entry entry.size s

def fuzzVerifyEntry (entry : FuzzEntry) (s : State σ) : Except Fault Unit := do
  let effective := if entry.align = 0 then defaultAlign else entry.align
  build.check (entry.ptr % effective = 0) "((uintptr_t)entry->ptr % (uintptr_t)effective) == 0"
  (List.range entry.size).forM fun idx =>
    s.assertByte build (entry.ptr + idx) (entry.pattern idx)
      "entry->ptr[idx] == (unsigned char)(entry->seed + (unsigned char)idx)"

def fuzzVerifyAll (m : FuzzModel) (s : State σ) : Except Fault Unit := do
  m.live.forM fun entry => fuzzVerifyEntry build entry s
  build.check (s.arena.used ≤ s.arena.committed ∨ s.arena.committed = 0)
    "arena_used(a) <= arena_committed(a) || arena_committed(a) == 0"
  build.check (s.arena.used ≤ s.arena.highWater) "arena_high_water(a) >= arena_used(a)"

/-! Changes to the model. -/

def fuzzRemove (idx : Nat) (m : FuzzModel) : Except Fault FuzzModel :=
  match m.live.getLast? with
  | none => .error .outOfBounds
  | some last =>
      if idx < m.live.length then .ok { m with live := (m.live.set idx last).dropLast }
      else .error .outOfBounds

def fuzzDropLevelLoop (depth : Nat) : Nat → Nat → FuzzModel → Except Fault FuzzModel
  | 0, _, _ => .error .unbounded
  | bound + 1, idx, m =>
      match m.live[idx]? with
      | none => .ok m
      | some entry =>
          if depth ≤ entry.level then do
            let m ← fuzzRemove idx m
            fuzzDropLevelLoop depth bound idx m
          else fuzzDropLevelLoop depth bound (idx + 1) m

def fuzzDropLevel (depth : Nat) (m : FuzzModel) : Except Fault FuzzModel :=
  fuzzDropLevelLoop depth (m.live.length + 1) 0 m

def fuzzRecord (ptr size align : Nat) (m : FuzzModel) (s : State σ) :
    Except Fault (FuzzModel × State σ) :=
  if m.live.length < fuzzMaxLive then do
    let entry : FuzzEntry := { ptr, size, align, seed := m.nextSeed, level := m.temps.length }
    let s ← fuzzFill build entry s
    .ok ({ m with live := m.live ++ [entry], nextSeed := m.nextSeed + 1 }, s)
  else .error .outOfBounds

def fuzzHandleFailure (size : Nat) (s : State σ) : Except Fault (State σ) :=
  if size ≠ 0 then do
    build.check (!s.canServe) "arena_failed(a)"
    .ok (clearError s)
  else do
    build.check s.canServe "!arena_failed(a)"
    .ok s

/-! The operations. -/

/-- The variables of the driver. -/
structure FuzzRun (σ : Type) where
  input : FuzzInput
  model : FuzzModel
  state : State σ

/-- How an allocating operation ends: `size` bytes were asked for, and `ptr` returned. -/
def fuzzFinish (ptr size align : Nat) (input : FuzzInput) (m : FuzzModel) (s : State σ) :
    Except Fault (FuzzRun σ) :=
  if ptr = 0 then do
    let s ← fuzzHandleFailure build size s
    .ok { input, model := m, state := s }
  else do
    let (m, s) ← fuzzRecord build ptr size align m s
    .ok { input, model := m, state := s }

def fuzzAlloc (r : FuzzRun σ) : Except Fault (FuzzRun σ) :=
  if fuzzMaxLive ≤ r.model.live.length then .ok r
  else do
    let (size, input) := fuzzPickSize r.input
    let (align, input) := fuzzPickAlign input
    let (ptr, s) ← allocN build 1 size align r.state
    fuzzFinish build ptr size align input r.model s

def fuzzAllocZeroed (r : FuzzRun σ) : Except Fault (FuzzRun σ) :=
  if fuzzMaxLive ≤ r.model.live.length then .ok r
  else do
    let (value, input) := fuzzPickSize r.input
    let size := value % 4096
    let (ptr, s) ← allocZeroed build size r.state
    if ptr ≠ 0 then
      (List.range size).forM fun idx =>
        s.assertByte build (ptr + idx) 0 "((unsigned char *)ptr)[idx] == 0"
    fuzzFinish build ptr size 0 input r.model s

def fuzzMemdup (r : FuzzRun σ) : Except Fault (FuzzRun σ) :=
  if r.model.live.length = 0 ∨ fuzzMaxLive ≤ r.model.live.length then .ok r
  else do
    let (byte, input) := fuzzByte r.input
    match r.model.live[byte.toNat % r.model.live.length]? with
    | none => .error .outOfBounds
    | some entry => do
        let (ptr, s) ← memdup build entry.ptr entry.size r.state
        if ptr ≠ 0 ∧ build.ndebug = false ∧ entry.size ≠ 0 then do
          let same ← s.memcmp build ptr entry.ptr entry.size
          ensure same "entry->size == 0 || memcmp(ptr, entry->ptr, entry->size) == 0"
        fuzzFinish build ptr entry.size 0 input r.model s

def fuzzRealloc (r : FuzzRun σ) : Except Fault (FuzzRun σ) :=
  if r.model.live.length = 0 then .ok r
  else do
    let (byte, input) := fuzzByte r.input
    let idx := byte.toNat % r.model.live.length
    match r.model.live[idx]? with
    | none => .error .outOfBounds
    | some entry =>
        if entry.level ≠ r.model.temps.length then .ok { r with input }
        else do
          let (size, input) := fuzzPickSize input
          let newSize := if size = 0 then 1 else size
          let (ptr, s) ← realloc build entry.ptr entry.size newSize entry.align r.state
          if ptr = 0 then do
            build.check (!s.canServe) "arena_failed(&a)"
            let s := clearError s
            fuzzVerifyEntry build entry s
            .ok { r with input, state := s }
          else do
            let m := r.model
            let entry :=
              { entry with ptr, size := newSize, level := m.temps.length, seed := m.nextSeed }
            let s ← fuzzFill build entry s
            .ok
              { input, state := s
                model := { m with live := m.live.set idx entry, nextSeed := m.nextSeed + 1 } }

def fuzzTempBegin (r : FuzzRun σ) : Except Fault (FuzzRun σ) :=
  if fuzzMaxTemps ≤ r.model.temps.length then .ok r
  else do
    let (temp, s) ← tempBegin r.state
    .ok { r with model := { r.model with temps := temp :: r.model.temps }, state := s }

def fuzzTempEnd (r : FuzzRun σ) : Except Fault (FuzzRun σ) :=
  match r.model.temps with
  | [] => .ok r
  | temp :: temps => do
      let m ← fuzzDropLevel (temps.length + 1) { r.model with temps }
      let s ← tempEnd build temp r.state
      .ok { r with model := m, state := s }

def fuzzReset (r : FuzzRun σ) : Except Fault (FuzzRun σ) := do
  let s ← reset build r.state
  .ok { r with model := { r.model with live := [], temps := [] }, state := s }

def fuzzTrim (r : FuzzRun σ) : Except Fault (FuzzRun σ) := do
  let s ← trim build r.state
  if fuzzMaxLive ≤ r.model.live.length then .ok { r with state := s }
  else do
    let (byte, input) := fuzzByte r.input
    let size := byte.toNat
    build.check (0 &&& sizeSub 0 1 = 0) "(align & (align - 1)) == 0"
    let (ptr, s) ← adapterXalloc build size 0 s
    fuzzFinish build ptr size 0 input r.model s

def fuzzFree (r : FuzzRun σ) : Except Fault (FuzzRun σ) :=
  match r.model.live.getLast? with
  | none => .ok r
  | some entry =>
      if entry.level ≠ r.model.temps.length then .ok r
      else do
        build.check (entry.align &&& sizeSub entry.align 1 = 0) "(align & (align - 1)) == 0"
        let s ← adapterXfree build entry.ptr entry.size r.state
        let m ← fuzzRemove (r.model.live.length - 1) r.model
        .ok { r with model := m, state := s }

/-- The `switch`. -/
def fuzzOp (op : UInt8) (r : FuzzRun σ) : Except Fault (FuzzRun σ) :=
  match op.toNat % 10 with
  | 0 | 1 => fuzzAlloc build r
  | 2 => fuzzAllocZeroed build r
  | 3 => fuzzMemdup build r
  | 4 => fuzzRealloc build r
  | 5 => fuzzTempBegin r
  | 6 => fuzzTempEnd build r
  | 7 => fuzzReset build r
  | 8 => fuzzTrim build r
  | _ => fuzzFree build r

def fuzzLoop : Nat → FuzzRun σ → Except Fault (FuzzRun σ)
  | 0, r => .ok r
  | ops + 1, r =>
      if r.input.pos < r.input.data.length then do
        let (op, input) := fuzzByte r.input
        let r ← fuzzOp build op { r with input }
        fuzzVerifyAll build r.model r.state
        fuzzLoop ops r
      else .ok r

/-- The loop that ends the scopes that are still open. -/
def fuzzClose : Nat → FuzzRun σ → Except Fault (FuzzRun σ)
  | 0, _ => .error .unbounded
  | bound + 1, r =>
      if r.model.temps = [] then .ok r
      else do
        let r ← fuzzTempEnd build r
        fuzzVerifyAll build r.model r.state
        fuzzClose bound r

/-- `LLVMFuzzerTestOneInput`, with `fixed_buffer` at `buffer`. -/
def llvmFuzzerTestOneInput (buffer : Nat) (data : List UInt8) (w : World Malloc) :
    Except Fault (World Malloc) := do
  let (byte, input) := fuzzByte { data, pos := 0 }
  let state ←
    if byte &&& 1 ≠ 0 then initFixed build buffer fuzzFixedBuffer (w.charged 0)
    else do
      let (status, state) := initSized (fuzzParentAlloc build) 256 8192 (w.charged 0)
      build.check (status = .ok) "init_status == ARENA_OK"
      .ok state
  let r ← fuzzLoop build fuzzMaxTotalOps
    { input, state, model := { live := [], temps := [], nextSeed := 0 } }
  let r ← fuzzClose build (r.model.temps.length + 1) r
  let state ← deinit build r.state
  build.check (state.world.parent.live = 0) "parent.live == 0"
  .ok state.world.heap

end

end AgencC.Arena
