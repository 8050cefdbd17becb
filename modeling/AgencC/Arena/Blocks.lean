import AgencC.Arena.Basic

/-! The static functions of `arena.c`: bumping, growth, release, and resizing of the
last allocation. A function that returns NULL returns 0. -/

set_option autoImplicit false

namespace AgencC.Arena

open Library

variable {σ : Type} (build : Build)

def blockData (block : Nat) : Except Fault Nat := do
  build.check (block ≠ 0) "block != NULL"
  .ok (block + blockHdr)

def alignValid (align : Nat) : Bool :=
  ((align &&& sizeSub align 1) |||
    (align &&& sizeNot (sizeSub (sizeMul 2 (2 ^ maxAlignBits)) 1))) == 0

def alignEffective (align : Nat) : Nat :=
  let effective := if align = 0 then defaultAlign else align
  if build.asan && effective < 8 then 8 else effective

def markLive (block ptr size : Nat) (s : State σ) : Except Fault (State σ) := do
  build.check (block ≠ 0 ∧ ptr ≠ 0) "block != NULL && ptr != NULL"
  let s ← unpoison build ptr size s
  fillAlloc build ptr size s

def markDead (block keep deadEnd : Nat) (s : State σ) : Except Fault (State σ) := do
  let data ← blockData build block
  if deadEnd ≤ keep then .ok s
  else do
    let s ← fillDead build (data + keep) (deadEnd - keep) s
    poison build (data + keep) (deadEnd - keep) s

def rewindBlock (block : Nat) (s : State σ) : Except Fault (State σ) := do
  let h ← s.header block
  let s ← markDead build block 0 h.used s
  s.setHeader block { h with used := 0 }

def tryBump (size alignEff : Nat) (s : State σ) : Except Fault (Nat × State σ) := do
  let block := s.arena.current
  if block = 0 then .ok (0, s)
  else do
    let h ← s.header block
    let data ← blockData build block
    let cursor := data + h.used
    let pad := sizeNeg cursor &&& sizeSub alignEff 1
    let total := sizeAdd size build.redzone
    let room ← build.sub h.cap h.used
    if room < sizeAdd pad total then .ok (0, s)
    else do
      let used ← build.add h.used (sizeAdd pad total)
      let s ← s.setHeader block { h with used }
      let arena ← s.arena.addUsed build (sizeAdd pad total)
      let s := { s with arena }
      let s ← markLive build block (cursor + pad) size s
      .ok (cursor + pad, s)

/-- A link that can be rewritten: the head of the free list or the field of a block. -/
inductive LinkPtr where
  | head
  | field (block : Nat)
  deriving DecidableEq, Repr

def State.readLink (s : State σ) : LinkPtr → Except Fault Nat
  | .head => .ok s.arena.freeBlocks
  | .field block => do
      let h ← s.header block
      .ok h.link

def State.writeLink (target : Nat) (s : State σ) : LinkPtr → Except Fault (State σ)
  | .head => .ok { s with arena := { s.arena with freeBlocks := target } }
  | .field block => do
      let h ← s.header block
      s.setHeader block { h with link := target }

/-- How many blocks a list can hold at most, with one more step to see its end. -/
def State.bound (s : State σ) : Nat := s.blocks.entries.length + 1

/-- The loop of `arena_take_free_block` at `linkp`. -/
def takeFreeLoop (dataNeed : Nat) (s : State σ) :
    Nat → LinkPtr → Except Fault (Nat × State σ)
  | 0, _ => .error .unbounded
  | bound + 1, linkp => do
      let block ← s.readLink linkp
      if block = 0 then .ok (0, s)
      else do
        let h ← s.header block
        if dataNeed ≤ h.cap then do
          let s ← s.writeLink h.link linkp
          .ok (block, s)
        else takeFreeLoop dataNeed s bound (.field block)

def takeFreeBlock (dataNeed : Nat) (s : State σ) : Except Fault (Nat × State σ) :=
  takeFreeLoop dataNeed s s.bound .head

/-- The header's `link` is left for the caller to set. -/
def newBlock (dataNeed : Nat) (s : State σ) : Except Fault (Nat × State σ) := do
  let target := s.arena.nextBlock
  let blockSize :=
    if sizeAdd blockHdr dataNeed ≤ target then target else sizeAdd blockHdr dataNeed
  let (block, world) ← allocAlloc build s.arena.parent blockSize 0 s.world
  let s := { s with world }
  if block = 0 then .ok (0, s.fail .errAlloc)
  else do
    let h : Block :=
      { link := 0, cap := sizeSub blockSize blockHdr, used := 0, oversize := blockSize ≠ target }
    let next :=
      if h.oversize then target
      else if s.arena.maxBlock < sizeMul target 2 then s.arena.maxBlock else sizeMul target 2
    let committed ← build.add s.arena.committed blockSize
    let s :=
      { s with
        blocks := s.blocks.insert block h
        arena := { s.arena with nextBlock := next, committed } }
    let data ← blockData build block
    let s ← poison build data h.cap s
    .ok (block, s)

def growAndBump (size alignEff : Nat) (s : State σ) : Except Fault (Nat × State σ) :=
  if s.arena.fixed then .ok (0, s.fail .errAlloc)
  else
    let dataNeed := sizeAdd (sizeAdd size (sizeSub alignEff 1)) build.redzone
    if ptrdiffMax - blockHdr < dataNeed then .ok (0, s.fail .errOverflow)
    else do
      let (found, s) ← takeFreeBlock dataNeed s
      let (block, s) ← if found = 0 then newBlock build dataNeed s else .ok (found, s)
      if block = 0 then .ok (0, s)
      else do
        let h ← s.header block
        let s ← s.setHeader block { h with link := s.arena.current }
        let s := { s with arena := { s.arena with current := block } }
        let (ptr, s) ← tryBump build size alignEff s
        build.check (ptr ≠ 0) "ptr != NULL"
        .ok (ptr, s)

def allocCore (size alignEff : Nat) (s : State σ) : Except Fault (Nat × State σ) := do
  let (ptr, s) ← tryBump build size alignEff s
  if ptr ≠ 0 then .ok (ptr, s) else growAndBump build size alignEff s

def allocDefault (size : Nat) (s : State σ) : Except Fault (Nat × State σ) :=
  if !s.canServe then .ok (0, s)
  else if size = 0 then .ok (0, s)
  else if ptrdiffMax < size then .ok (0, s.fail .errOverflow)
  else allocCore build size (alignEffective build 0) s

def allocImpl (count size align : Nat) (s : State σ) : Except Fault (Nat × State σ) :=
  if !s.canServe then .ok (0, s)
  else if !alignValid align then .ok (0, s.fail .errArg)
  else if count = 0 ∨ size = 0 then .ok (0, s)
  else if (count ||| size) >>> 32 ≠ 0 ∧ ptrdiffMax / size < count then
    .ok (0, s.fail .errOverflow)
  else
    let total := sizeMul count size
    if ptrdiffMax < total then .ok (0, s.fail .errOverflow)
    else allocCore build total (alignEffective build align) s

def retireBlock (block : Nat) (s : State σ) : Except Fault (State σ) := do
  let s ← rewindBlock build block s
  let h ← s.header block
  let s ← s.setHeader block { h with link := s.arena.freeBlocks }
  .ok { s with arena := { s.arena with freeBlocks := block } }

def releaseBlock (block : Nat) (s : State σ) : Except Fault (State σ) := do
  let h ← s.header block
  let blockSize := sizeAdd blockHdr h.cap
  let data ← blockData build block
  let s ← fillDead build data h.used s
  let committed ← build.sub s.arena.committed blockSize
  let arena := { s.arena with committed }
  -- The block is the parent's from here on.
  let world ← allocFree build arena.parent block blockSize 0 s.world
  .ok { arena, blocks := s.blocks.erase block, world }

def releaseChainLoop : Nat → Nat → State σ → Except Fault (State σ)
  | 0, _, _ => .error .unbounded
  | bound + 1, block, s =>
      if block = 0 then .ok s
      else do
        let h ← s.header block
        let s ← releaseBlock build block s
        releaseChainLoop bound h.link s

def releaseChain (first : Nat) (s : State σ) : Except Fault (State σ) :=
  releaseChainLoop build s.bound first s

/-- The loop of `arena_pop_to_block`. -/
def popLoop (stop : Nat) : Nat → Nat → State σ → Except Fault (Nat × State σ)
  | 0, _, _ => .error .unbounded
  | bound + 1, block, s =>
      if block ≠ 0 ∧ block ≠ stop then do
        let h ← s.header block
        let s ← if h.oversize then releaseBlock build block s else retireBlock build block s
        popLoop stop bound h.link s
      else .ok (block, s)

def popToBlock (stop : Nat) (s : State σ) : Except Fault (State σ) := do
  let (block, s) ← popLoop build stop s.bound s.arena.current s
  build.check (block = stop) "block == stop"
  .ok { s with arena := { s.arena with current := block } }

/-- The offset of `ptr` in its block where it is the last allocation. -/
def isLastAlloc (ptr size : Nat) (s : State σ) : Except Fault (Option Nat) := do
  build.check (ptr ≠ 0) "a != NULL && ptr != NULL && out_offset != NULL"
  let block := s.arena.current
  if block = 0 then .ok none
  else do
    let h ← s.header block
    if h.used < size then .ok none
    else do
      let data ← blockData build block
      if ptr < data ∨ h.cap < ptr - data then .ok none
      else
        let offset := ptr - data
        if sizeAdd (sizeAdd offset size) build.redzone ≠ h.used then .ok none
        else .ok (some offset)

/-- `none` where the move path must run. -/
def tryResizeLast (ptr oldSize newSize : Nat) (s : State σ) :
    Except Fault (Option Nat × State σ) := do
  match ← isLastAlloc build ptr oldSize s with
  | none => .ok (none, s)
  | some offset => do
      let block := s.arena.current
      let h ← s.header block
      if newSize ≤ oldSize then do
        let used ← build.sub h.used (oldSize - newSize)
        let s ← s.setHeader block { h with used }
        let live ← build.sub s.arena.used (oldSize - newSize)
        let arena := { s.arena with used := live }
        let s ← markDead build block (offset + newSize) (offset + oldSize) { s with arena }
        .ok (some ptr, s)
      else
        let growth := newSize - oldSize
        let room ← build.sub h.cap h.used
        if room < growth then .ok (none, s)
        else do
          let used ← build.add h.used growth
          let s ← s.setHeader block { h with used }
          let arena ← s.arena.addUsed build growth
          let s := { s with arena }
          let s ← unpoison build (ptr + oldSize) growth s
          let s ← fillAlloc build (ptr + oldSize) growth s
          .ok (some ptr, s)

def reallocMove (ptr oldSize newSize align : Nat) (s : State σ) :
    Except Fault (Nat × State σ) := do
  let (fresh, s) ← allocImpl build 1 newSize align s
  if fresh = 0 then .ok (0, s)
  else do
    let len := if oldSize < newSize then oldSize else newSize
    s.dataAccess ptr len
    let s ← memcpy fresh ptr len s
    let s ← fillDead build ptr oldSize s
    let s ← poison build ptr oldSize s
    let used ← build.sub s.arena.used oldSize
    .ok (fresh, { s with arena := { s.arena with used } })

end AgencC.Arena
