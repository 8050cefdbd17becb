import AgencC.Arena.Blocks

/-! The public functions of `arena.c` on an arena that is not NULL. -/

set_option autoImplicit false

namespace AgencC.Arena

open Library

variable {σ : Type} (build : Build)

def init (parent : AllocT σ) (world : World σ) : State σ where
  arena :=
    { parent, current := 0, freeBlocks := 0, minBlock := minBlockDefault
      maxBlock := maxBlockDefault, nextBlock := minBlockDefault, used := 0, committed := 0
      highWater := 0, tempDepth := 0, generation := 0, fixed := false, status := .ok }
  blocks := ∅
  world

def initSized (parent : AllocT σ) (minBlock maxBlock : Nat) (world : World σ) :
    Status × State σ :=
  let s := init parent world
  if minBlock < fixedOverhead ∨ maxBlock < minBlock ∨ ptrdiffMax < maxBlock then
    (.errArg, s.fail .errArg)
  else (.ok, { s with arena := { s.arena with minBlock, maxBlock, nextBlock := minBlock } })

def initFixed (buffer size : Nat) (world : World σ) : Except Fault (State σ) :=
  let s := init (allocNull σ) world
  let s :=
    { s with arena := { s.arena with fixed := true, minBlock := 0, maxBlock := 0, nextBlock := 0 } }
  if buffer = 0 ∨ size = 0 then .ok (s.fail .errArg)
  else if ptrdiffMax < size then .ok (s.fail .errOverflow)
  else
    let s := { s with arena := { s.arena with committed := size } }
    let pad := sizeNeg buffer &&& (blockAlign - 1)
    if size < pad ∨ size - pad < blockHdr then .ok s
    else do
      let block := buffer + pad
      let h : Block := { link := 0, cap := size - pad - blockHdr, used := 0, oversize := false }
      let s :=
        { s with blocks := s.blocks.insert block h, arena := { s.arena with current := block } }
      let data ← blockData build block
      poison build data h.cap s

def deinit (s : State σ) : Except Fault (State σ) := do
  let parent := s.arena.parent
  let generation := (s.arena.generation + 1) % 2 ^ 32
  let s ←
    if !s.arena.fixed then do
      let s ← releaseChain build s.arena.current s
      releaseChain build s.arena.freeBlocks s
    else if s.arena.current ≠ 0 then do
      let h ← s.header s.arena.current
      let data ← blockData build s.arena.current
      unpoison build data h.cap s
    else .ok s
  let s := init parent s.world
  .ok { s with arena := { s.arena with generation } }

/-- The first loop of `arena_reset`. -/
def oldestNormalLoop (s : State σ) : Nat → Nat → Nat → Except Fault Nat
  | 0, _, _ => .error .unbounded
  | bound + 1, block, oldest =>
      if block = 0 then .ok oldest
      else do
        let h ← s.header block
        oldestNormalLoop s bound h.link (if h.oversize then oldest else block)

/-- The second loop of `arena_reset`. -/
def resetLoop (oldestNormal : Nat) : Nat → Nat → State σ → Except Fault (State σ)
  | 0, _, _ => .error .unbounded
  | bound + 1, block, s =>
      if block = 0 then .ok s
      else do
        let h ← s.header block
        let s ←
          if block = oldestNormal then .ok s
          else if h.oversize then releaseBlock build block s
          else retireBlock build block s
        resetLoop oldestNormal bound h.link s

def reset (s : State σ) : Except Fault (State σ) := do
  let s ←
    if s.arena.fixed then
      if s.arena.current ≠ 0 then rewindBlock build s.arena.current s else .ok s
    else do
      let oldestNormal ← oldestNormalLoop s s.bound s.arena.current 0
      let s ← resetLoop build oldestNormal s.bound s.arena.current s
      let s ←
        if oldestNormal ≠ 0 then do
          let s ← rewindBlock build oldestNormal s
          let h ← s.header oldestNormal
          s.setHeader oldestNormal { h with link := 0 }
        else .ok s
      .ok { s with arena := { s.arena with current := oldestNormal } }
  .ok
    { s with
      arena :=
        { s.arena with
          used := 0, tempDepth := 0, generation := (s.arena.generation + 1) % 2 ^ 32
          status := .ok } }

def trim (s : State σ) : Except Fault (State σ) :=
  if s.arena.fixed then .ok s
  else do
    let s ← releaseChain build s.arena.freeBlocks s
    .ok { s with arena := { s.arena with freeBlocks := 0 } }

def clearError (s : State σ) : State σ := { s with arena := { s.arena with status := .ok } }

def alloc (size : Nat) (s : State σ) : Except Fault (Nat × State σ) := allocDefault build size s

def allocZeroed (size : Nat) (s : State σ) : Except Fault (Nat × State σ) := do
  let (ptr, s) ← allocDefault build size s
  if ptr ≠ 0 then do
    let s ← memset ptr 0 size s
    .ok (ptr, s)
  else .ok (ptr, s)

def allocN (count size align : Nat) (s : State σ) : Except Fault (Nat × State σ) :=
  allocImpl build count size align s

def allocNZeroed (count size align : Nat) (s : State σ) : Except Fault (Nat × State σ) := do
  let (ptr, s) ← allocImpl build count size align s
  if ptr ≠ 0 then do
    let s ← memset ptr 0 (sizeMul count size) s
    .ok (ptr, s)
  else .ok (ptr, s)

def memdup (src size : Nat) (s : State σ) : Except Fault (Nat × State σ) :=
  if !s.canServe then .ok (0, s)
  else if src = 0 ∧ size ≠ 0 then .ok (0, s.fail .errArg)
  else do
    let (ptr, s) ← allocDefault build size s
    if ptr ≠ 0 then do
      let s ← memcpy ptr src size s
      .ok (ptr, s)
    else .ok (ptr, s)

def realloc (ptr oldSize newSize align : Nat) (s : State σ) : Except Fault (Nat × State σ) :=
  if !s.canServe then .ok (0, s)
  else if !alignValid align then .ok (0, s.fail .errArg)
  else if newSize = 0 then .ok (0, s.fail .errArg)
  else do
    build.check (ptr ≠ 0 ∨ oldSize = 0) "ptr != NULL || old_size == 0"
    if ptr = 0 then allocImpl build 1 newSize align s
    else if ptrdiffMax < newSize then .ok (0, s.fail .errOverflow)
    else do
      let (resized, s) ← tryResizeLast build ptr oldSize newSize s
      match resized with
      | some ptr => .ok (ptr, s)
      | none => reallocMove build ptr oldSize newSize align s

def tempBegin (s : State σ) : Except Fault (TempT × State σ) := do
  let tempDepth := (s.arena.tempDepth + 1) % 2 ^ 32
  let blockUsed ←
    if s.arena.current ≠ 0 then do
      let h ← s.header s.arena.current
      .ok h.used
    else .ok 0
  .ok
    ({ block := s.arena.current, blockUsed, used := s.arena.used
       generation := s.arena.generation, depth := tempDepth },
      { s with arena := { s.arena with tempDepth } })

def tempEnd (temp : TempT) (s : State σ) : Except Fault (State σ) := do
  build.check (temp.generation = s.arena.generation) "temp.generation == a->generation"
  build.check (temp.depth = s.arena.tempDepth) "temp.depth == a->temp_depth"
  build.check (temp.used ≤ s.arena.used) "a->used >= temp.used"
  let s ← popToBlock build temp.block s
  let block := s.arena.current
  let s ←
    if block ≠ 0 then do
      let h ← s.header block
      build.check (temp.blockUsed ≤ h.used) "block->used >= temp.block_used"
      if temp.blockUsed < h.used then do
        let s ← markDead build block temp.blockUsed h.used s
        s.setHeader block { h with used := temp.blockUsed }
      else .ok s
    else .ok s
  .ok
    { s with
      arena :=
        { s.arena with
          used := if temp.used < s.arena.used then temp.used else s.arena.used
          tempDepth := if 0 < s.arena.tempDepth then s.arena.tempDepth - 1 else s.arena.tempDepth } }

/-! The functions of `arena_allocator`. -/

def adapterXalloc (size align : Nat) (s : State σ) : Except Fault (Nat × State σ) :=
  allocN build 1 size align s

def adapterXrealloc (ptr oldSize newSize align : Nat) (s : State σ) :
    Except Fault (Nat × State σ) :=
  realloc build ptr oldSize newSize align s

def adapterXfree (ptr size : Nat) (s : State σ) : Except Fault (State σ) :=
  if ptr = 0 then .ok s
  else do
    match ← isLastAlloc build ptr size s with
    | none => .ok s
    | some offset => do
        let block := s.arena.current
        let h ← s.header block
        let s ← markDead build block offset h.used s
        let h ← s.header block
        let s ← s.setHeader block { h with used := offset }
        let used ← build.sub s.arena.used (sizeAdd size build.redzone)
        .ok { s with arena := { s.arena with used } }

end AgencC.Arena
