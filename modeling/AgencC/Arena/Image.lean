import AgencC.Arena.Cells

/-! An arena as two lists of blocks. The functions here do what those of `arena.c` do, on
lists instead of linked headers and on numbers that never wrap; only calls to the
parent can fault. -/

set_option autoImplicit false

namespace AgencC.Arena

open Library

variable {σ : Type}

structure Image (σ : Type) where
  parent : AllocT σ
  /-- The allocation chain, newest block first. -/
  chain : List Cell
  free : List Cell
  minBlock : Nat
  maxBlock : Nat
  nextBlock : Nat
  used : Nat
  committed : Nat
  highWater : Nat
  tempDepth : Nat
  generation : Nat
  fixed : Bool
  status : Status
  world : World σ

def Image.cells (a : Image σ) : List Cell := a.chain ++ a.free

def Image.regions (a : Image σ) : List Region := a.cells.map Cell.region

/-- The blocks held. -/
def Image.pieces (a : Image σ) : List Cell := a.cells.map Cell.bare

/-- What decides how large the next block will be. -/
def Image.sizes (a : Image σ) : Nat × Nat × Nat := (a.minBlock, a.maxBlock, a.nextBlock)

def Image.arena (a : Image σ) : ArenaT σ where
  parent := a.parent
  current := Cell.layout.first a.chain
  freeBlocks := Cell.layout.first a.free
  minBlock := a.minBlock
  maxBlock := a.maxBlock
  nextBlock := a.nextBlock
  used := a.used
  committed := a.committed
  highWater := a.highWater
  tempDepth := a.tempDepth
  generation := a.generation
  fixed := a.fixed
  status := a.status

/-- Bytes an allocation takes, less its padding. -/
def Build.footprint (build : Build) (size : Nat) : Nat := size + build.redzone

def Cell.pad (c : Cell) (align : Nat) : Nat := padding c.cursor align

section
variable (build : Build)

/-! What marking does to the bytes and the poison of a range. -/

def World.light (p len : Nat) (w : World σ) : World σ :=
  if build.asan then w.setPoison p len false else w

def World.shade (p len : Nat) (w : World σ) : World σ :=
  if build.asan then w.setPoison p len true else w

def World.brighten (p len : Nat) (w : World σ) : World σ :=
  if build.fills then w.memset p 0xA5 len else w

def World.fade (p len : Nat) (w : World σ) : World σ :=
  if build.fills then w.memset p 0x5A len else w

def World.live (p len : Nat) (w : World σ) : World σ := (w.light build p len).brighten build p len

def World.dead (p len : Nat) (w : World σ) : World σ := (w.fade build p len).shade build p len

/-! Allocation. -/

def Image.fail (status : Status) (a : Image σ) : Image σ :=
  if a.status = .ok then { a with status } else a

/-- The block after an allocation of `size` bytes at `align`. -/
def Cell.bump (c : Cell) (size align : Nat) : Cell :=
  { c with used := c.used + (c.pad align + build.footprint size) }

/-- Takes `size` bytes at `align` from `c`, the newest block before `cs`. -/
def Image.serve (size align : Nat) (c : Cell) (cs : List Cell) (a : Image σ) : Nat × Image σ :=
  (c.cursor + c.pad align,
    { a with
      chain := c.bump build size align :: cs
      used := a.used + (c.pad align + build.footprint size)
      highWater := max a.highWater (a.used + (c.pad align + build.footprint size))
      world := a.world.live build (c.cursor + c.pad align) size })

/-- The first block with room for `need` bytes, and the others. -/
def takeFit (need : Nat) : List Cell → Option (Cell × List Cell)
  | [] => none
  | c :: cs =>
      if need ≤ c.cap then some (c, cs)
      else (takeFit need cs).map fun found => (found.1, c :: found.2)

/-- A block for `need` bytes from the parent. -/
def Image.obtain (need : Nat) (a : Image σ) : Except Fault (Option Cell × Image σ) := do
  let size := max a.nextBlock (blockHdr + need)
  let (block, world) ← a.parent.xalloc size 0 a.world
  if block = 0 then .ok (none, Image.fail .errAlloc { a with world })
  else
    let c : Cell :=
      { addr := block, cap := size - blockHdr, used := 0, oversize := size ≠ a.nextBlock }
    .ok
      (some c,
        { a with
          nextBlock := if c.oversize then a.nextBlock else min a.maxBlock (a.nextBlock * 2)
          committed := a.committed + size
          world := world.shade build c.data c.cap })

/-- Bytes of data that hold an allocation wherever their block lies. -/
def Build.need (size align : Nat) : Nat := size + (align - 1) + build.redzone

def Image.grow (size align : Nat) (a : Image σ) : Except Fault (Nat × Image σ) :=
  if a.fixed then .ok (0, a.fail .errAlloc)
  else if ptrdiffMax - blockHdr < build.need size align then .ok (0, a.fail .errOverflow)
  else
    match takeFit (build.need size align) a.free with
    | some (c, rest) => .ok (Image.serve build size align c a.chain { a with free := rest })
    | none => do
        let (found, a) ← a.obtain build (build.need size align)
        match found with
        | none => .ok (0, a)
        | some c => .ok (a.serve build size align c a.chain)

def Image.allocCore (size align : Nat) (a : Image σ) : Except Fault (Nat × Image σ) :=
  match a.chain with
  | [] => a.grow build size align
  | c :: cs =>
      if c.cap < c.used + (c.pad align + build.footprint size) then a.grow build size align
      else .ok (a.serve build size align c cs)

def Image.allocImpl (count size align : Nat) (a : Image σ) : Except Fault (Nat × Image σ) :=
  if a.status ≠ .ok then .ok (0, a)
  else if !alignValid align then .ok (0, a.fail .errArg)
  else if count = 0 ∨ size = 0 then .ok (0, a)
  else if ptrdiffMax < count * size then .ok (0, a.fail .errOverflow)
  else a.allocCore build (count * size) (alignEffective build align)

def Image.memset (p : Nat) (value : UInt8) (len : Nat) (a : Image σ) : Image σ :=
  { a with world := a.world.memset p value len }

def Image.memcpy (destination source len : Nat) (a : Image σ) : Image σ :=
  { a with world := a.world.memcpy destination source len }

def Image.allocNZeroed (count size align : Nat) (a : Image σ) : Except Fault (Nat × Image σ) := do
  let (ptr, a) ← a.allocImpl build count size align
  if ptr = 0 then .ok (0, a) else .ok (ptr, a.memset ptr 0 (count * size))

def Image.memdup (src size : Nat) (a : Image σ) : Except Fault (Nat × Image σ) :=
  if a.status ≠ .ok then .ok (0, a)
  else if src = 0 ∧ size ≠ 0 then .ok (0, a.fail .errArg)
  else do
    let (ptr, a) ← a.allocImpl build 1 size 0
    if ptr = 0 then .ok (0, a) else .ok (ptr, a.memcpy ptr src size)

/-! Resizing and freeing the last allocation. -/

/-- The newest block and the others, where an allocation ends at its cursor. -/
def Image.lastAt (ptr size : Nat) (a : Image σ) : Option (Cell × List Cell) :=
  match a.chain with
  | [] => none
  | c :: cs =>
      if c.data ≤ ptr ∧ ptr + build.footprint size = c.cursor then some (c, cs) else none

def Image.shrinkLast (ptr oldSize newSize : Nat) (c : Cell) (cs : List Cell) (a : Image σ) :
    Image σ :=
  { a with
    chain := { c with used := c.used - (oldSize - newSize) } :: cs
    used := a.used - (oldSize - newSize)
    world := a.world.dead build (ptr + newSize) (oldSize - newSize) }

def Image.growLast (ptr oldSize newSize : Nat) (c : Cell) (cs : List Cell) (a : Image σ) :
    Image σ :=
  { a with
    chain := { c with used := c.used + (newSize - oldSize) } :: cs
    used := a.used + (newSize - oldSize)
    highWater := max a.highWater (a.used + (newSize - oldSize))
    world := a.world.live build (ptr + oldSize) (newSize - oldSize) }

def Image.resizeLast (ptr oldSize newSize : Nat) (a : Image σ) : Option (Image σ) :=
  match a.lastAt build ptr oldSize with
  | none => none
  | some (c, cs) =>
      if newSize ≤ oldSize then some (a.shrinkLast build ptr oldSize newSize c cs)
      else if c.cap - c.used < newSize - oldSize then none
      else some (a.growLast build ptr oldSize newSize c cs)

def Image.abandon (ptr oldSize fresh newSize : Nat) (a : Image σ) : Image σ :=
  { a with
    used := a.used - oldSize
    world := (a.world.memcpy fresh ptr (min oldSize newSize)).dead build ptr oldSize }

def Image.reallocMove (ptr oldSize newSize align : Nat) (a : Image σ) :
    Except Fault (Nat × Image σ) := do
  let (fresh, a) ← a.allocImpl build 1 newSize align
  if fresh = 0 then .ok (0, a) else .ok (fresh, a.abandon build ptr oldSize fresh newSize)

def Image.realloc (ptr oldSize newSize align : Nat) (a : Image σ) : Except Fault (Nat × Image σ) :=
  if a.status ≠ .ok then .ok (0, a)
  else if !alignValid align then .ok (0, a.fail .errArg)
  else if newSize = 0 then .ok (0, a.fail .errArg)
  else if ptr = 0 then a.allocImpl build 1 newSize align
  else if ptrdiffMax < newSize then .ok (0, a.fail .errOverflow)
  else
    match a.resizeLast build ptr oldSize newSize with
    | some a => .ok (ptr, a)
    | none => a.reallocMove build ptr oldSize newSize align

def Image.rollBack (ptr size : Nat) (c : Cell) (cs : List Cell) (a : Image σ) : Image σ :=
  { a with
    chain := { c with used := ptr - c.data } :: cs
    used := a.used - build.footprint size
    world := a.world.dead build ptr (build.footprint size) }

def Image.xfree (ptr size : Nat) (a : Image σ) : Image σ :=
  match a.lastAt build ptr size with
  | none => a
  | some (c, cs) => a.rollBack build ptr size c cs

/-! Giving up blocks. These leave the chain to their callers. -/

def Image.retire (c : Cell) (a : Image σ) : Image σ :=
  { a with
    free := { c with used := 0 } :: a.free
    world := a.world.dead build c.data c.used }

def Image.release (c : Cell) (a : Image σ) : Except Fault (Image σ) := do
  let world ← a.parent.xfree c.addr (blockHdr + c.cap) 0 (a.world.fade build c.data c.used)
  .ok { a with committed := a.committed - (blockHdr + c.cap), world }

def Image.releaseAll : List Cell → Image σ → Except Fault (Image σ)
  | [], a => .ok a
  | c :: cs, a => do
      let a ← a.release build c
      releaseAll cs a

/-- Oversize blocks go back to the parent, the others to the free list. -/
def Image.discard : List Cell → Image σ → Except Fault (Image σ)
  | [], a => .ok a
  | c :: cs, a => do
      let a ← if c.oversize then a.release build c else .ok (a.retire build c)
      discard cs a

def Image.tempBegin (a : Image σ) : TempT × Image σ :=
  ({ block := Cell.layout.first a.chain, blockUsed := (a.chain.head?.map Cell.used).getD 0
     used := a.used, generation := a.generation, depth := (a.tempDepth + 1) % 2 ^ 32 },
    { a with tempDepth := (a.tempDepth + 1) % 2 ^ 32 })

/-- The newest block's cursor goes down to `used`. -/
def Image.cut (used : Nat) (rest : List Cell) (a : Image σ) : Image σ :=
  match rest with
  | [] => { a with chain := [] }
  | c :: cs =>
      { a with
        chain := { c with used := min used c.used } :: cs
        world := a.world.dead build (c.data + used) (c.used - used) }

def Image.close (temp : TempT) (a : Image σ) : Image σ :=
  { a with used := min temp.used a.used, tempDepth := a.tempDepth - 1 }

def Image.tempEnd (temp : TempT) (a : Image σ) : Except Fault (Image σ) := do
  let a' ← a.discard build (a.chain.takeWhile (·.addr ≠ temp.block))
  .ok ((a'.cut build temp.blockUsed (a.chain.dropWhile (·.addr ≠ temp.block))).close temp)

def oldestNormal (chain : List Cell) : Option Cell :=
  (chain.filter (!·.oversize)).getLast?

def Image.reset (a : Image σ) : Except Fault (Image σ) := do
  let oldest := oldestNormal a.chain
  let a' ← a.discard build (a.chain.filter (oldest ≠ some ·))
  .ok
    { a' with
      chain := oldest.toList.map fun c => { c with used := 0 }
      world := oldest.elim a'.world fun c => a'.world.dead build c.data c.used
      used := 0, tempDepth := 0, generation := (a.generation + 1) % 2 ^ 32, status := .ok }

def Image.trim (a : Image σ) : Except Fault (Image σ) :=
  if a.fixed then .ok a
  else do
    let a' ← a.releaseAll build a.free
    .ok { a' with free := [] }

def Image.clearError (a : Image σ) : Image σ := { a with status := .ok }

def Image.init (parent : AllocT σ) (world : World σ) : Image σ where
  parent := parent
  chain := []
  free := []
  minBlock := minBlockDefault
  maxBlock := maxBlockDefault
  nextBlock := minBlockDefault
  used := 0
  committed := 0
  highWater := 0
  tempDepth := 0
  generation := 0
  fixed := false
  status := .ok
  world := world

def Image.deinit (a : Image σ) : Except Fault (Image σ) := do
  let world ←
    if a.fixed then
      .ok (a.chain.foldl (fun w c => w.light build c.data c.cap) a.world)
    else do
      let a' ← a.releaseAll build a.cells
      .ok a'.world
  .ok { Image.init a.parent world with generation := (a.generation + 1) % 2 ^ 32 }

end

end AgencC.Arena
