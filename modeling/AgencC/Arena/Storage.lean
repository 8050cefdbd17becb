import AgencC.Arena.Service

/-! The functions of `arena.c` on an arena whose headers hold the lists of an image: reading
and rewriting headers, marking, and the cursor of the newest block. -/

set_option autoImplicit false

namespace AgencC.Arena

open Library

variable {σ : Type} {build : Build}

/-- The state is that of `a`, but for where its lists start, and for its blocks, which are
on `chain`, on `free` or on neither list. -/
structure State.Mirrors (s : State σ) (a : Image σ) (current freeBlocks : Nat)
    (chain free loose : List Cell) : Prop where
  arena : s.arena = { a.arena with current, freeBlocks }
  world : s.world = a.world
  blocks : Holds s.blocks chain free loose

/-- Between two calls both lists start where the arena says. -/
def State.Shows (s : State σ) (a : Image σ) : Prop :=
  s.Mirrors a (Cell.layout.first a.chain) (Cell.layout.first a.free) a.chain a.free []

/-! Headers. -/

theorem State.header_of_lookup {s : State σ} {block : Nat} {h : Block}
    (found : s.blocks.lookup block = some h) : s.header block = .ok h := by
  rw [header, found]

theorem State.mem_of_lookup {s : State σ} {block : Nat} {h : Block}
    (found : s.blocks.lookup block = some h) : block ∈ s.blocks :=
  AList.lookup_isSome.mp (by rw [found]; rfl)

theorem State.setHeader_of_lookup {s : State σ} {block : Nat} {h : Block}
    (found : s.blocks.lookup block = some h) (h' : Block) :
    s.setHeader block h' = .ok { s with blocks := s.blocks.insert block h' } :=
  if_pos (mem_of_lookup found)

theorem State.inData_of_lookup {s : State σ} {block p len : Nat} {h : Block}
    (found : s.blocks.lookup block = some h) (above : block + blockHdr ≤ p)
    (below : p + len ≤ block + blockHdr + h.cap) : s.InData p len :=
  ⟨⟨block, h⟩, AList.mem_lookup_iff.mp found, above, below⟩

theorem State.dataAccess_of {s : State σ} {p len : Nat} (inside : s.InData p len) :
    s.dataAccess p len = .ok () := if_pos inside

variable (build) in
theorem blockData_of {block : Nat} (nonzero : block ≠ 0) :
    blockData build block = .ok (block + blockHdr) := by
  rw [blockData, Build.check_of build nonzero, ok_bind]

/-! Marking. -/

theorem World.setPoison_zero (p : Nat) (value : Bool) (w : World σ) : w.setPoison p 0 value = w := by
  have none : ∀ x, ¬ (p ≤ x ∧ x < p + 0) := fun x inside => by omega
  simp only [setPoison, none, if_false]

theorem World.memset_zero (p : Nat) (value : UInt8) (w : World σ) : w.memset p value 0 = w := by
  have none : ∀ x, ¬ (p ≤ x ∧ x < p + 0) := fun x inside => by omega
  simp only [memset, none, if_false]

@[simp] theorem World.dead_zero (p : Nat) (w : World σ) : w.dead build p 0 = w := by
  simp only [dead, fade, shade, memset_zero, setPoison_zero, ite_self]

theorem memset_of {s : State σ} {p len : Nat} (inside : s.InData p len) (value : UInt8) :
    memset p value len s = .ok { s with world := s.world.memset p value len } := by
  rw [memset, State.dataAccess_of inside, ok_bind]

theorem memcpy_of {s : State σ} {destination len : Nat} (inside : s.InData destination len)
    (source : Nat) :
    memcpy destination source len s =
      .ok { s with world := s.world.memcpy destination source len } := by
  rw [memcpy, State.dataAccess_of inside, ok_bind]

variable (build) in
theorem fillAlloc_of {s : State σ} {p len : Nat} (inside : s.InData p len) :
    fillAlloc build p len s = .ok { s with world := s.world.brighten build p len } := by
  unfold fillAlloc World.brighten
  split
  · exact memset_of inside 0xA5
  · rfl

variable (build) in
theorem fillDead_of {s : State σ} {p len : Nat} (inside : s.InData p len) :
    fillDead build p len s = .ok { s with world := s.world.fade build p len } := by
  unfold fillDead World.fade
  split
  · exact memset_of inside 0x5A
  · rfl

variable (build) in
theorem poison_of {s : State σ} {p len : Nat} (inside : s.InData p len) :
    poison build p len s = .ok { s with world := s.world.shade build p len } := by
  unfold poison World.shade
  split
  · rw [State.dataAccess_of inside, ok_bind]
  · rfl

variable (build) in
theorem unpoison_of {s : State σ} {p len : Nat} (inside : s.InData p len) :
    unpoison build p len s = .ok { s with world := s.world.light build p len } := by
  unfold unpoison World.light
  split
  · rw [State.dataAccess_of inside, ok_bind]
  · rfl

variable (build) in
theorem markLive_of {s : State σ} {block ptr size : Nat} (nonzero : block ≠ 0) (given : ptr ≠ 0)
    (inside : s.InData ptr size) :
    markLive build block ptr size s = .ok { s with world := s.world.live build ptr size } := by
  rw [markLive, Build.check_of build ⟨nonzero, given⟩, ok_bind, unpoison_of build inside, ok_bind]
  exact fillAlloc_of build inside

variable (build) in
theorem markDead_of {s : State σ} {block : Nat} (keep deadEnd : Nat) (nonzero : block ≠ 0)
    (inside : s.InData (block + blockHdr + keep) (deadEnd - keep)) :
    markDead build block keep deadEnd s =
      .ok { s with world := s.world.dead build (block + blockHdr + keep) (deadEnd - keep) } := by
  rw [markDead, blockData_of build nonzero, ok_bind]
  split
  · case isTrue empty => rw [Nat.sub_eq_zero_of_le empty, World.dead_zero]
  · rw [fillDead_of build inside, ok_bind]
    exact poison_of build inside

/-! The cursor of the newest block. -/

section
variable {parent : AllocT σ} {Out : World σ → List Region → Prop} {a : Image σ} {s : State σ}

/-- The newest block's header after a change of the block, and of nothing else that is stored. -/
theorem State.Shows.setHead (shows : s.Shows a) {c : Cell} {cs : List Cell}
    (chain : a.chain = c :: cs) {d : Cell} (same : d.addr = c.addr) :
    s.blocks.lookup c.addr = some (c.header (Cell.layout.first cs)) ∧
      Holds (s.blocks.insert c.addr (d.header (Cell.layout.first cs))) (d :: cs) a.free [] := by
  have held := shows.blocks
  rw [chain] at held
  refine ⟨held.linked.2.1, ?_⟩
  have moved := held.detach.rewrite same (Cell.layout.first cs)
  refine moved.attach ?_
  rw [same]
  exact AList.lookup_insert _

theorem State.Shows.current (shows : s.Shows a) : s.arena.current = Cell.layout.first a.chain := by
  rw [shows.arena]

theorem State.Shows.mem_chain {c : Cell} {cs : List Cell} (chain : a.chain = c :: cs) :
    c ∈ a.cells := by
  rw [Image.cells, chain]
  exact .head _

/-- Where a block is sound, what its size and cursor fit in. -/
structure Cell.Words (c : Cell) : Prop where
  nonzero : c.addr ≠ 0
  cursor : c.cursor ≤ sizeMax
  fits : c.used ≤ c.cap
  sized : blockHdr + c.cap ≤ ptrdiffMax

theorem Image.Owned.words (owned : a.Owned build parent Out) {c : Cell} (member : c ∈ a.cells) :
    c.Words := by
  obtain ⟨nonzero, inside⟩ := owned.inside c member
  have fits := owned.fits c member
  have sized := owned.sized c member
  refine ⟨nonzero, ?_, fits, sized⟩
  unfold Cell.cursor
  omega

variable (build) in
/-- What bumping adds never wraps. -/
theorem bump_words {c : Cell} (words : c.Words) {size k : Nat} (small : size ≤ ptrdiffMax)
    (bits : k ≤ maxAlignBits) :
    sizeNeg (c.addr + blockHdr + c.used) &&& sizeSub (2 ^ k) 1 = c.pad (2 ^ k) ∧
      sizeAdd size build.redzone = build.footprint size ∧
      sizeAdd (c.pad (2 ^ k)) (build.footprint size) = c.pad (2 ^ k) + build.footprint size ∧
      build.sub c.cap c.used = .ok (c.cap - c.used) := by
  have redzone := build.redzone_le
  have align := two_pow_le bits
  have pos := Nat.two_pow_pos k
  have bound : 65536 + ptrdiffMax + 16 ≤ sizeMax := by decide
  have padded : c.pad (2 ^ k) < 2 ^ k := padding_lt pos
  have footprint : build.footprint size = size + build.redzone := rfl
  have fits := words.fits
  have sized := words.sized
  refine ⟨?_, sizeAdd_of_le (by omega), sizeAdd_of_le (by omega), build.sub_of_le fits (by omega)⟩
  rw [sizeSub_of_le pos (by omega)]
  exact sizeNeg_and words.cursor (Nat.le_trans bits (by decide))

/-! `arena_try_bump`, where its sums are known. -/

theorem tryBump_none {block size align pad total sum room : Nat} {h : Block}
    (current : s.arena.current = block) (nonzero : block ≠ 0)
    (found : s.blocks.lookup block = some h)
    (padded : sizeNeg (block + blockHdr + h.used) &&& sizeSub align 1 = pad)
    (totalled : sizeAdd size build.redzone = total) (summed : sizeAdd pad total = sum)
    (left : build.sub h.cap h.used = .ok room) (full : room < sum) :
    tryBump build size align s = .ok (0, s) := by
  subst padded totalled summed
  have look : s.header block = .ok h := State.header_of_lookup found
  simp only [tryBump, current, nonzero, if_false, look]
  rw [ok_bind, blockData_of build nonzero, ok_bind, left, ok_bind, if_pos full]

theorem tryBump_some {block size align pad total sum room used : Nat} {h : Block}
    {arena : ArenaT σ} (current : s.arena.current = block) (nonzero : block ≠ 0)
    (found : s.blocks.lookup block = some h)
    (padded : sizeNeg (block + blockHdr + h.used) &&& sizeSub align 1 = pad)
    (totalled : sizeAdd size build.redzone = total) (summed : sizeAdd pad total = sum)
    (left : build.sub h.cap h.used = .ok room) (fits : sum ≤ room)
    (moved : build.add h.used sum = .ok used) (counted : s.arena.addUsed build sum = .ok arena)
    (inside : State.InData
      { s with blocks := s.blocks.insert block { h with used }, arena }
      (block + blockHdr + h.used + pad) size) :
    tryBump build size align s =
      .ok (block + blockHdr + h.used + pad,
        { arena, blocks := s.blocks.insert block { h with used }
          world := s.world.live build (block + blockHdr + h.used + pad) size }) := by
  subst padded totalled summed
  have look : s.header block = .ok h := State.header_of_lookup found
  have given : block + blockHdr + h.used + (sizeNeg (block + blockHdr + h.used) &&& sizeSub align 1) ≠ 0 := by
    omega
  simp only [tryBump, current, nonzero, if_false, look]
  rw [ok_bind, blockData_of build nonzero, ok_bind, left, ok_bind, if_neg (Nat.not_lt.mpr fits),
    moved, ok_bind, State.setHeader_of_lookup found, ok_bind, counted, ok_bind,
    markLive_of build nonzero given inside, ok_bind]

theorem tryBump_full (shows : s.Shows a) (owned : a.Owned build parent Out) {c : Cell}
    {cs : List Cell} (chain : a.chain = c :: cs) {size k : Nat} (small : size ≤ ptrdiffMax)
    (bits : k ≤ maxAlignBits) (full : c.cap < c.used + (c.pad (2 ^ k) + build.footprint size)) :
    tryBump build size (2 ^ k) s = .ok (0, s) := by
  have words := owned.words (State.Shows.mem_chain chain)
  obtain ⟨pad, total, sum, room⟩ := bump_words build words small bits
  have current : s.arena.current = c.addr := by rw [shows.current, chain]; rfl
  have found := (shows.setHead chain (d := c) rfl).1
  have fits := words.fits
  exact tryBump_none current words.nonzero found pad total sum room (by omega)

/-- Counting what was taken does not wrap, and keeps the maximum. -/
theorem ArenaT.addUsed_of_le {a : ArenaT σ} {bytes : Nat} (fits : a.used + bytes ≤ sizeMax) :
    a.addUsed build bytes =
      .ok { a with used := a.used + bytes, highWater := max a.highWater (a.used + bytes) } := by
  rw [addUsed, build.add_of_le fits, ok_bind]
  congr 2
  split <;> omega

theorem tryBump_serves (conforms : parent.Conforms Out) (shows : s.Shows a)
    (owned : a.Owned build parent Out) (counted : a.used ≤ consumed a.chain) {c : Cell}
    {cs : List Cell} (chain : a.chain = c :: cs) {size k : Nat} (small : size ≤ ptrdiffMax)
    (bits : k ≤ maxAlignBits)
    (room : c.used + (c.pad (2 ^ k) + build.footprint size) ≤ c.cap) :
    ∃ s', tryBump build size (2 ^ k) s = .ok ((a.serve build size (2 ^ k) c cs).1, s') ∧
      s'.Shows (a.serve build size (2 ^ k) c cs).2 := by
  have words := owned.words (State.Shows.mem_chain chain)
  obtain ⟨pad, total, sum, left⟩ := bump_words build words small bits
  have current : s.arena.current = c.addr := by rw [shows.current, chain]; rfl
  obtain ⟨found, held⟩ := shows.setHead chain (d := c.bump build size (2 ^ k)) rfl
  have fits := words.fits
  have sized := words.sized
  have bound : ptrdiffMax ≤ sizeMax := by decide
  have after : Image.Sane build parent Out (a.serve build size (2 ^ k) c cs).2 := by
    refine Image.Sane.serve conforms ?_ (chain ▸ counted) room
    rw [← chain]
    exact owned
  have counter : a.used + (c.pad (2 ^ k) + build.footprint size) ≤ sizeMax :=
    Nat.le_trans after.counted (Nat.le_trans after.consumed_le after.total_le)
  have cursor : build.add c.used (c.pad (2 ^ k) + build.footprint size) =
      .ok (c.used + (c.pad (2 ^ k) + build.footprint size)) := build.add_of_le (by omega)
  have usedArena : s.arena.used = a.used := by rw [shows.arena]; rfl
  have arena : s.arena.addUsed build (c.pad (2 ^ k) + build.footprint size) =
      .ok
        { s.arena with
          used := a.used + (c.pad (2 ^ k) + build.footprint size)
          highWater :=
            max s.arena.highWater (a.used + (c.pad (2 ^ k) + build.footprint size)) } := by
    rw [ArenaT.addUsed_of_le (usedArena ▸ counter), usedArena]
  refine ⟨_, tryBump_some current words.nonzero found pad total sum left (by omega) cursor arena ?_,
    ?_⟩
  · refine State.inData_of_lookup (AList.lookup_insert _) ?_ ?_
    · change c.addr + blockHdr ≤ c.addr + blockHdr + c.used + c.pad (2 ^ k)
      omega
    · change c.addr + blockHdr + c.used + c.pad (2 ^ k) + size ≤ c.addr + blockHdr + c.cap
      unfold Build.footprint at room
      omega
  · exact
      { arena := by
          have before := shows.arena
          rw [chain] at before
          rw [before]
          rfl
        world := by rw [shows.world]; rfl
        blocks := held }

end

end AgencC.Arena
