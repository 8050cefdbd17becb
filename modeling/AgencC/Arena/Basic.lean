import AgencC.Library.Alignment
import AgencC.Library.Fault
import AgencC.Library.Regions
import Mathlib.Data.List.AList

/-! Arenas, the headers of the blocks they hold, and the storage behind both. -/

set_option autoImplicit false

namespace AgencC.Arena

open Library

/-- How the library was compiled. `watched` is no option of the sources: it makes an
addition to or a subtraction from a counter a fault where C lets it wrap. -/
structure Build where
  ndebug : Bool
  asan : Bool
  msan : Bool
  valgrind : Bool
  watched : Bool
  deriving DecidableEq, Repr

/-- Whether `ARENA_FILL_ALLOC` and `ARENA_FILL_DEAD` write. -/
def Build.fills (build : Build) : Bool :=
  !build.ndebug && !build.asan && !build.msan && !build.valgrind

/-- `ARENA_REDZONE`. -/
def Build.redzone (build : Build) : Nat := if build.asan then 16 else 0

/-- `assert`. -/
def Build.check (build : Build) (condition : Prop) [Decidable condition] (text : String) :
    Except Fault Unit :=
  if build.ndebug then .ok () else ensure condition text

@[simp] theorem Build.check_of (build : Build) {condition : Prop} [Decidable condition]
    (holds : condition) (text : String) : build.check condition text = .ok () := by
  rw [check, ensure_of holds, ite_self]

/-- A counter after an addition. -/
def Build.add (build : Build) (counter bytes : Nat) : Except Fault Nat :=
  if build.watched ∧ sizeMax < counter + bytes then .error .wrapped else .ok (sizeAdd counter bytes)

/-- A counter after a subtraction. -/
def Build.sub (build : Build) (counter bytes : Nat) : Except Fault Nat :=
  if build.watched ∧ counter < bytes then .error .wrapped else .ok (sizeSub counter bytes)

theorem Build.add_of_le (build : Build) {counter bytes : Nat} (fits : counter + bytes ≤ sizeMax) :
    build.add counter bytes = .ok (counter + bytes) := by
  rw [add, if_neg fun wraps => Nat.not_lt.mpr fits wraps.2, sizeAdd_of_le fits]

theorem Build.sub_of_le (build : Build) {counter bytes : Nat} (covered : bytes ≤ counter)
    (word : counter ≤ sizeMax) : build.sub counter bytes = .ok (counter - bytes) := by
  rw [sub, if_neg fun wraps => Nat.not_lt.mpr covered wraps.2, sizeSub_of_le covered word]

def ptrdiffMax : Nat := 0x7fffffffffffffff
def blockAlign : Nat := 8
def maxAlignT : Nat := 16
def minBlockDefault : Nat := 4096
def maxBlockDefault : Nat := 65536
def defaultAlign : Nat := maxAlignT
def maxAlignBits : Nat := 16
def fixedOverhead : Nat := 64

/-- `ARENA_BLOCK_HDR`. -/
def blockHdr : Nat := 32

inductive Status where
  | ok
  | errArg
  | errAlloc
  | errOverflow
  deriving DecidableEq, Repr

/-- `struct arena_block`. Addresses are numbers, and 0 is NULL. -/
structure Block where
  link : Nat
  cap : Nat
  used : Nat
  oversize : Bool
  deriving DecidableEq, Repr

abbrev Blocks := AList fun _ : Nat => Block

/-- Everything an arena shares with its surroundings: the bytes of the address
space, which of them are poisoned, and the state of its parent. -/
structure World (σ : Type) where
  bytes : Nat → UInt8
  poisoned : Nat → Bool
  parent : σ

/-- `alloc_t`. -/
structure AllocT (σ : Type) where
  xalloc : (size align : Nat) → World σ → Except Fault (Nat × World σ)
  xrealloc : (ptr oldSize newSize align : Nat) → World σ → Except Fault (Nat × World σ)
  xfree : (ptr size align : Nat) → World σ → Except Fault (World σ)

/-- `arena_t`; `fixed` is its one flag. -/
structure ArenaT (σ : Type) where
  parent : AllocT σ
  current : Nat
  freeBlocks : Nat
  minBlock : Nat
  maxBlock : Nat
  nextBlock : Nat
  used : Nat
  committed : Nat
  highWater : Nat
  tempDepth : Nat
  generation : Nat
  fixed : Bool
  status : Status

/-- `arena_temp_t`, less the arena. -/
structure TempT where
  block : Nat
  blockUsed : Nat
  used : Nat
  generation : Nat
  depth : Nat
  deriving DecidableEq, Repr

/-- An arena, the headers of the blocks it holds, and the rest. -/
structure State (σ : Type) where
  arena : ArenaT σ
  blocks : Blocks
  world : World σ

variable {σ : Type}

/-! Access to the storage of held blocks. Anything else is a fault. -/

def State.header (s : State σ) (block : Nat) : Except Fault Block :=
  match s.blocks.lookup block with
  | some h => .ok h
  | none => .error .notHeld

def State.setHeader (block : Nat) (h : Block) (s : State σ) : Except Fault (State σ) :=
  if block ∈ s.blocks then .ok { s with blocks := s.blocks.insert block h } else .error .notHeld

/-- `[p, p + len)` lies in the data area of one held block. -/
def State.InData (s : State σ) (p len : Nat) : Prop :=
  ∃ e ∈ s.blocks.entries, e.1 + blockHdr ≤ p ∧ p + len ≤ e.1 + blockHdr + e.2.cap

instance (s : State σ) (p len : Nat) : Decidable (s.InData p len) :=
  inferInstanceAs (Decidable (∃ e ∈ s.blocks.entries, _))

def State.dataAccess (p len : Nat) (s : State σ) : Except Fault Unit :=
  if s.InData p len then .ok () else .error .outOfBounds

def World.memset (p : Nat) (value : UInt8) (len : Nat) (w : World σ) : World σ :=
  { w with bytes := fun x => if p ≤ x ∧ x < p + len then value else w.bytes x }

def World.memcpy (destination source len : Nat) (w : World σ) : World σ :=
  { w with bytes := fun x =>
      if destination ≤ x ∧ x < destination + len then w.bytes (source + (x - destination))
      else w.bytes x }

def World.setPoison (p len : Nat) (value : Bool) (w : World σ) : World σ :=
  { w with poisoned := fun x => if p ≤ x ∧ x < p + len then value else w.poisoned x }

def memset (p : Nat) (value : UInt8) (len : Nat) (s : State σ) : Except Fault (State σ) := do
  s.dataAccess p len
  .ok { s with world := s.world.memset p value len }

def memcpy (destination source len : Nat) (s : State σ) : Except Fault (State σ) := do
  s.dataAccess destination len
  .ok { s with world := s.world.memcpy destination source len }

section
variable (build : Build)

/-- `ARENA_FILL_ALLOC`. -/
def fillAlloc (p len : Nat) (s : State σ) : Except Fault (State σ) :=
  if build.fills then memset p 0xA5 len s else .ok s

/-- `ARENA_FILL_DEAD`. -/
def fillDead (p len : Nat) (s : State σ) : Except Fault (State σ) :=
  if build.fills then memset p 0x5A len s else .ok s

/-- `ARENA_POISON`. -/
def poison (p len : Nat) (s : State σ) : Except Fault (State σ) :=
  if build.asan then do
    s.dataAccess p len
    .ok { s with world := s.world.setPoison p len true }
  else .ok s

/-- `ARENA_UNPOISON`. -/
def unpoison (p len : Nat) (s : State σ) : Except Fault (State σ) :=
  if build.asan then do
    s.dataAccess p len
    .ok { s with world := s.world.setPoison p len false }
  else .ok s

end

/-! `arena_fail` and the allocator helpers of `alloc.h`. -/

def State.fail (status : Status) (s : State σ) : State σ :=
  if s.arena.status = .ok then { s with arena := { s.arena with status } } else s

def State.canServe (s : State σ) : Bool := s.arena.status = .ok

/-- Adds to `used` and keeps its maximum. -/
def ArenaT.addUsed (build : Build) (bytes : Nat) (a : ArenaT σ) : Except Fault (ArenaT σ) := do
  let used ← build.add a.used bytes
  .ok { a with used, highWater := if a.highWater < used then used else a.highWater }

def allocAlloc (build : Build) (a : AllocT σ) (size align : Nat) (w : World σ) :
    Except Fault (Nat × World σ) := do
  build.check (align &&& sizeSub align 1 = 0) "(align & (align - 1)) == 0"
  a.xalloc size align w

def allocFree (build : Build) (a : AllocT σ) (ptr size align : Nat) (w : World σ) :
    Except Fault (World σ) := do
  build.check (align &&& sizeSub align 1 = 0) "(align & (align - 1)) == 0"
  a.xfree ptr size align w

/-- `alloc_null`. -/
def allocNull (σ : Type) : AllocT σ where
  xalloc _ _ w := .ok (0, w)
  xrealloc _ _ _ _ w := .ok (0, w)
  xfree _ _ _ w := .ok w

end AgencC.Arena
