import AgencC.Arena.Growth
import AgencC.Arena.Spans

/-! Resizing and freeing the last allocation, the move path of `arena_realloc`, and the
functions that fill what they allocate. -/

set_option autoImplicit false

namespace AgencC.Arena

open Library

variable {σ : Type} {build : Build}

section
variable {parent : AllocT σ} {Out : World σ → List Region → Prop} {a : Image σ} {s : State σ}

theorem Image.lastAt_some {ptr size : Nat} {c : Cell} {cs : List Cell}
    (last : a.lastAt build ptr size = some (c, cs)) :
    a.chain = c :: cs ∧ c.data ≤ ptr ∧ ptr + build.footprint size = c.cursor := by
  unfold Image.lastAt at last
  split at last
  · cases last
  · case h_2 d ds chain =>
      split at last
      · case isTrue ends =>
          cases last
          exact ⟨chain, ends⟩
      · cases last

/-- Bytes written within the blocks, with nothing above a cursor made addressable. -/
theorem Image.Owned.mark (conforms : parent.Conforms Out) (owned : a.Owned build parent Out)
    {world : World σ} (written : a.world.Inside a.regions world)
    (dark : build.asan = true → ∀ c ∈ a.cells, c.Dark world) (used : Nat) :
    Image.Owned build parent Out { a with used, world } :=
  { apart := owned.apart
    inside := owned.inside
    sized := owned.sized
    fits := owned.fits
    empty := owned.empty
    parent := owned.parent
    policy := owned.policy
    out := fun growing => conforms.written (owned.out growing) written
    total := owned.total
    buffer := owned.buffer
    dark := dark }

/-! The arena after each way of resizing. -/

theorem Image.Sane.shrinkLast (conforms : parent.Conforms Out) (sane : a.Sane build parent Out)
    {ptr oldSize newSize : Nat} {c : Cell} {cs : List Cell}
    (last : a.lastAt build ptr oldSize = some (c, cs)) (smaller : newSize ≤ oldSize)
    (quiet : build.asan = true → ∀ x, ptr + oldSize ≤ x → x < c.cursor →
      a.world.poisoned x = true) :
    Image.Sane build parent Out (a.shrinkLast build ptr oldSize newSize c cs) := by
  obtain ⟨chain, above, ends⟩ := Image.lastAt_some last
  have words := sane.words (State.Shows.mem_chain chain)
  have fits := words.fits
  unfold Build.footprint at ends
  have cursor : c.cursor = c.data + c.used := rfl
  have data : c.data = c.addr + blockHdr := rfl
  have owned : Image.Owned build parent Out (a.shrinkLast build ptr oldSize newSize c cs) := by
    refine sane.toOwned.setHead conforms chain (by omega)
      (World.dead_touched build (ptr + newSize) (oldSize - newSize) a.world)
      (Cell.data_within (by omega) (by omega)) ?_ _ _
    intro asan x low high
    rw [World.dead_poisoned asan]
    split
    · rfl
    · case isFalse outside =>
        have low : c.addr + blockHdr + (c.used - (oldSize - newSize)) ≤ x := low
        have high : x < c.data + c.cap := high
        by_cases old : c.cursor ≤ x
        · exact sane.dark asan c (State.Shows.mem_chain chain) x old high
        · exact quiet asan x (by omega) (by omega)
  refine ⟨owned, ?_, ?_⟩
  · change a.used - (oldSize - newSize) ≤ c.used - (oldSize - newSize) + consumed cs
    have counted := sane.counted
    rw [chain, consumed_cons] at counted
    omega
  · change a.used - (oldSize - newSize) ≤ a.highWater
    have peak := sane.peak
    omega

theorem Image.Sane.growLast (conforms : parent.Conforms Out) (sane : a.Sane build parent Out)
    {ptr oldSize newSize : Nat} {c : Cell} {cs : List Cell}
    (last : a.lastAt build ptr oldSize = some (c, cs)) (larger : oldSize ≤ newSize)
    (room : newSize - oldSize ≤ c.cap - c.used) :
    Image.Sane build parent Out (a.growLast build ptr oldSize newSize c cs) := by
  obtain ⟨chain, above, ends⟩ := Image.lastAt_some last
  have words := sane.words (State.Shows.mem_chain chain)
  have fits := words.fits
  unfold Build.footprint at ends
  have cursor : c.cursor = c.data + c.used := rfl
  have data : c.data = c.addr + blockHdr := rfl
  have owned : Image.Owned build parent Out (a.growLast build ptr oldSize newSize c cs) := by
    refine sane.toOwned.setHead conforms chain (by omega)
      (World.live_touched build (ptr + oldSize) (newSize - oldSize) a.world)
      (Cell.data_within (by omega) (by omega)) ?_ _ _
    intro asan x low high
    have low : c.addr + blockHdr + (c.used + (newSize - oldSize)) ≤ x := low
    rw [World.live_poisoned asan, if_neg (by omega)]
    exact sane.dark asan c (State.Shows.mem_chain chain) x (by omega) high
  refine ⟨owned, ?_, Nat.le_max_right _ _⟩
  change a.used + (newSize - oldSize) ≤ c.used + (newSize - oldSize) + consumed cs
  have counted := sane.counted
  rw [chain, consumed_cons] at counted
  omega

theorem Image.Sane.rollBack (conforms : parent.Conforms Out) (sane : a.Sane build parent Out)
    {ptr size : Nat} {c : Cell} {cs : List Cell} (last : a.lastAt build ptr size = some (c, cs))
    (held : a.used ≤ consumed (⟨c.addr, c.cap, ptr - c.data, c.oversize⟩ :: cs) +
      build.footprint size) :
    Image.Sane build parent Out (a.rollBack build ptr size c cs) := by
  obtain ⟨chain, above, ends⟩ := Image.lastAt_some last
  have words := sane.words (State.Shows.mem_chain chain)
  have fits := words.fits
  have cursor : c.cursor = c.data + c.used := rfl
  have data : c.data = c.addr + blockHdr := rfl
  have owned : Image.Owned build parent Out (a.rollBack build ptr size c cs) := by
    refine sane.toOwned.setHead conforms chain (by omega)
      (World.dead_touched build ptr (build.footprint size) a.world)
      (Cell.data_within above (by omega)) ?_ _ _
    intro asan x low high
    have low : c.addr + blockHdr + (ptr - c.data) ≤ x := low
    rw [World.dead_poisoned asan]
    split
    · rfl
    · exact sane.dark asan c (State.Shows.mem_chain chain) x (by omega) high
  refine ⟨owned, ?_, ?_⟩
  · change a.used - build.footprint size ≤ _
    exact Nat.sub_le_of_le_add held
  · exact Nat.le_trans (Nat.sub_le _ _) sane.peak

/-! `arena_is_last_alloc` and `arena_try_resize_last`. -/

theorem isLastAlloc_eq {block ptr size : Nat} {h : Block} (given : ptr ≠ 0)
    (current : s.arena.current = block) (nonzero : block ≠ 0)
    (found : s.blocks.lookup block = some h) :
    isLastAlloc build ptr size s =
      if h.used < size then .ok none
      else if ptr < block + blockHdr ∨ h.cap < ptr - (block + blockHdr) then .ok none
      else if sizeAdd (sizeAdd (ptr - (block + blockHdr)) size) build.redzone ≠ h.used then .ok none
      else .ok (some (ptr - (block + blockHdr))) := by
  have look : s.header block = .ok h := State.header_of_lookup found
  rw [isLastAlloc, Build.check_of build given, ok_bind]
  simp only [current, nonzero, if_false, look]
  rw [ok_bind, blockData_of build nonzero, ok_bind]

/-- The sum that `arena_is_last_alloc` compares does not wrap. -/
theorem lastAt_words {offset size cap used : Nat} (inside : offset ≤ cap) (fits : used ≤ cap)
    (sized : blockHdr + cap ≤ ptrdiffMax) (small : size ≤ used) :
    sizeAdd (sizeAdd offset size) build.redzone = offset + build.footprint size := by
  have redzone := build.redzone_le
  have bound : ptrdiffMax + ptrdiffMax ≤ sizeMax := by decide
  have header : blockHdr = 32 := rfl
  have first : sizeAdd offset size = offset + size := sizeAdd_of_le (by omega)
  rw [first, sizeAdd_of_le (by omega), Nat.add_assoc]
  rfl

theorem isLastAlloc_spec (shows : s.Shows a) (owned : a.Owned build parent Out) {ptr : Nat}
    (given : ptr ≠ 0) (size : Nat) :
    isLastAlloc build ptr size s =
      .ok ((a.lastAt build ptr size).map fun found => ptr - found.1.data) := by
  unfold Image.lastAt
  cases chain : a.chain with
  | nil =>
      have current : s.arena.current = 0 := by rw [shows.current, chain]; rfl
      rw [isLastAlloc, Build.check_of build given, ok_bind]
      exact if_pos current
  | cons c cs =>
      have words := owned.words (State.Shows.mem_chain chain)
      have current : s.arena.current = c.addr := by rw [shows.current, chain]; rfl
      have found := (shows.setHead chain (d := c) rfl).1
      have fits := words.fits
      have cursor : c.cursor = c.data + c.used := rfl
      have data : c.data = c.addr + blockHdr := rfl
      have footprint : build.footprint size = size + build.redzone := rfl
      rw [isLastAlloc_eq given current words.nonzero found]
      change (if c.used < size then _ else if ptr < c.data ∨ c.cap < ptr - c.data then _ else
        if sizeAdd (sizeAdd (ptr - c.data) size) build.redzone ≠ c.used then _ else _) = _
      by_cases small : c.used < size
      · rw [if_pos small]
        dsimp only
        rw [if_neg (by omega)]
        rfl
      · rw [if_neg small]
        by_cases outside : ptr < c.data ∨ c.cap < ptr - c.data
        · rw [if_pos outside]
          dsimp only
          rw [if_neg (by omega)]
          rfl
        · rw [if_neg outside, lastAt_words (by omega) fits words.sized (Nat.le_of_not_lt small)]
          dsimp only
          by_cases ends : ptr - c.data + build.footprint size = c.used
          · rw [if_neg (not_not_intro ends), if_pos (by omega)]
            rfl
          · rw [if_pos ends, if_neg (by omega)]
            rfl

theorem tryResizeLast_shrinks {block ptr oldSize newSize offset used live : Nat} {h : Block}
    (last : isLastAlloc build ptr oldSize s = .ok (some offset))
    (current : s.arena.current = block) (nonzero : block ≠ 0)
    (found : s.blocks.lookup block = some h) (smaller : newSize ≤ oldSize)
    (moved : build.sub h.used (oldSize - newSize) = .ok used)
    (counted : build.sub s.arena.used (oldSize - newSize) = .ok live)
    (inside : State.InData
      { s with
        blocks := s.blocks.insert block { h with used }, arena := { s.arena with used := live } }
      (block + blockHdr + (offset + newSize)) (offset + oldSize - (offset + newSize))) :
    tryResizeLast build ptr oldSize newSize s =
      .ok (some ptr,
        { blocks := s.blocks.insert block { h with used }, arena := { s.arena with used := live }
          world := s.world.dead build (block + blockHdr + (offset + newSize))
            (offset + oldSize - (offset + newSize)) }) := by
  subst current
  rw [tryResizeLast, last, ok_bind]
  dsimp only
  rw [State.header_of_lookup found, ok_bind, if_pos smaller, moved, ok_bind,
    State.setHeader_of_lookup found, ok_bind, counted, ok_bind, markDead_of build _ _ nonzero inside,
    ok_bind]

theorem tryResizeLast_grows {block ptr oldSize newSize offset room used : Nat} {h : Block}
    {arena : ArenaT σ} (last : isLastAlloc build ptr oldSize s = .ok (some offset))
    (current : s.arena.current = block) (found : s.blocks.lookup block = some h)
    (larger : oldSize < newSize) (left : build.sub h.cap h.used = .ok room)
    (fits : newSize - oldSize ≤ room) (moved : build.add h.used (newSize - oldSize) = .ok used)
    (counted : s.arena.addUsed build (newSize - oldSize) = .ok arena)
    (inside : State.InData { s with blocks := s.blocks.insert block { h with used }, arena }
      (ptr + oldSize) (newSize - oldSize)) :
    tryResizeLast build ptr oldSize newSize s =
      .ok (some ptr,
        { blocks := s.blocks.insert block { h with used }, arena
          world := s.world.live build (ptr + oldSize) (newSize - oldSize) }) := by
  rw [tryResizeLast, last, ok_bind]
  simp only [current]
  rw [State.header_of_lookup found, ok_bind, if_neg (Nat.not_le.mpr larger), left, ok_bind,
    if_neg (Nat.not_lt.mpr fits), moved, ok_bind, State.setHeader_of_lookup found, ok_bind, counted,
    ok_bind, unpoison_of build inside, ok_bind]
  exact bind_eq_ok.mpr ⟨_, fillAlloc_of build inside, rfl⟩

theorem tryResizeLast_stays {block ptr oldSize newSize offset room : Nat} {h : Block}
    (last : isLastAlloc build ptr oldSize s = .ok (some offset))
    (current : s.arena.current = block) (found : s.blocks.lookup block = some h)
    (larger : oldSize < newSize) (left : build.sub h.cap h.used = .ok room)
    (full : room < newSize - oldSize) :
    tryResizeLast build ptr oldSize newSize s = .ok (none, s) := by
  rw [tryResizeLast, last, ok_bind]
  simp only [current]
  rw [State.header_of_lookup found, ok_bind, if_neg (Nat.not_le.mpr larger), left, ok_bind,
    if_pos full]

theorem tryResizeLast_refines (conforms : parent.Conforms Out) (shows : s.Shows a)
    (sane : a.Sane build parent Out) {ptr oldSize : Nat} (given : ptr ≠ 0)
    (held : oldSize ≤ a.used) (newSize : Nat) :
    (a.resizeLast build ptr oldSize newSize = none ∧
      tryResizeLast build ptr oldSize newSize s = .ok (none, s)) ∨
    ∃ a' s', a.resizeLast build ptr oldSize newSize = some a' ∧
      tryResizeLast build ptr oldSize newSize s = .ok (some ptr, s') ∧ s'.Shows a' := by
  have asked := isLastAlloc_spec shows sane.toOwned given oldSize
  unfold Image.resizeLast
  cases last : a.lastAt build ptr oldSize with
  | none =>
      rw [last] at asked
      refine .inl ⟨rfl, ?_⟩
      rw [tryResizeLast, asked]
      rfl
  | some found =>
      obtain ⟨c, cs⟩ := found
      rw [last] at asked
      have asked : isLastAlloc build ptr oldSize s = .ok (some (ptr - c.data)) := asked
      obtain ⟨chain, above, ends⟩ := Image.lastAt_some last
      have words := sane.words (State.Shows.mem_chain chain)
      have fits := words.fits
      have sized := words.sized
      have bound : ptrdiffMax ≤ sizeMax := by decide
      have current : s.arena.current = c.addr := by rw [shows.current, chain]; rfl
      have usedArena : s.arena.used = a.used := by rw [shows.arena]; rfl
      have counter : a.used ≤ sizeMax :=
        Nat.le_trans sane.counted (Nat.le_trans sane.consumed_le sane.total_le)
      have arena := shows.arena
      rw [chain] at arena
      unfold Build.footprint at ends
      have cursor : c.cursor = c.data + c.used := rfl
      dsimp only
      by_cases smaller : newSize ≤ oldSize
      · obtain ⟨found, blocks⟩ := shows.setHead chain
          (d := { c with used := c.used - (oldSize - newSize) }) rfl
        have moved : build.sub c.used (oldSize - newSize) = .ok (c.used - (oldSize - newSize)) :=
          build.sub_of_le (by omega) (by omega)
        have counted : build.sub s.arena.used (oldSize - newSize) =
            .ok (a.used - (oldSize - newSize)) := by
          rw [usedArena]
          exact build.sub_of_le (by omega) counter
        have start : c.addr + blockHdr + (ptr - c.data + newSize) = ptr + newSize := by
          change c.data + _ = _
          omega
        have length : ptr - c.data + oldSize - (ptr - c.data + newSize) = oldSize - newSize := by
          omega
        have shrunk := tryResizeLast_shrinks asked current words.nonzero found smaller moved counted
        rw [start, length] at shrunk
        refine .inr ⟨_, _, if_pos smaller, shrunk ?_, ?_⟩
        · refine State.inData_of_lookup (AList.lookup_insert _) ?_ ?_
          · change c.data ≤ _
            omega
          · change _ ≤ c.data + c.cap
            omega
        · exact ⟨by rw [arena]; rfl, by rw [shows.world]; rfl, blocks⟩
      · have larger := Nat.lt_of_not_le smaller
        have left : build.sub c.cap c.used = .ok (c.cap - c.used) :=
          build.sub_of_le fits (by omega)
        rw [if_neg smaller]
        by_cases full : c.cap - c.used < newSize - oldSize
        · have found := (shows.setHead chain (d := c) rfl).1
          exact .inl ⟨if_pos full, tryResizeLast_stays asked current found larger left full⟩
        · obtain ⟨found, blocks⟩ := shows.setHead chain
            (d := { c with used := c.used + (newSize - oldSize) }) rfl
          have after := Image.Sane.growLast conforms sane last (Nat.le_of_lt larger)
            (Nat.le_of_not_lt full)
          have moved : build.add c.used (newSize - oldSize) = .ok (c.used + (newSize - oldSize)) :=
            build.add_of_le (by omega)
          have counted : s.arena.addUsed build (newSize - oldSize) =
              .ok
                { s.arena with
                  used := a.used + (newSize - oldSize)
                  highWater := max s.arena.highWater (a.used + (newSize - oldSize)) } := by
            rw [ArenaT.addUsed_of_le, usedArena]
            rw [usedArena]
            exact Nat.le_trans after.counted (Nat.le_trans after.consumed_le after.total_le)
          refine .inr ⟨_, _, if_neg full, tryResizeLast_grows asked current found larger left
            (Nat.le_of_not_lt full) moved counted ?_, ?_⟩
          · refine State.inData_of_lookup (AList.lookup_insert _) ?_ ?_
            · change c.data ≤ _
              omega
            · change _ ≤ c.data + c.cap
              omega
          · exact ⟨by rw [arena]; rfl, by rw [shows.world]; rfl, blocks⟩

/-! The move path. -/

theorem State.Shows.inData (shows : s.Shows a) (owned : a.Owned build parent Out) {p len : Nat}
    (placed : Placed a.chain p len) : s.InData p len := by
  obtain ⟨c, member, above, below⟩ := placed
  obtain ⟨_, link, found⟩ := shows.blocks.found (List.mem_append_left _ member)
  have fits := owned.fits c (List.mem_append_left _ member)
  refine State.inData_of_lookup found above (Nat.le_trans below ?_)
  exact Nat.add_le_add_left fits _

theorem State.Shows.write (shows : s.Shows a) (world : World σ) :
    State.Shows { s with world } { a with world } :=
  ⟨shows.arena, rfl, shows.blocks⟩

theorem Image.Took.used_le {size align ptr : Nat} {a' : Image σ}
    (took : a.Took build size align ptr a') : a.used ≤ a'.used := by
  have counted := took.counted
  have grown := took.grown.consumed_le
  omega

theorem reallocMove_refines (conforms : parent.Conforms Out) (shows : s.Shows a)
    (sane : a.Sane build parent Out) {ptr oldSize newSize align : Nat} (word : align ≤ sizeMax)
    (placed : Placed a.chain ptr oldSize) (held : oldSize ≤ a.used) :
    Refines (reallocMove build ptr oldSize newSize align s)
      (a.reallocMove build ptr oldSize newSize align) := by
  obtain ⟨fresh, s', a', ran, ran', shows'⟩ :=
    allocImpl_refines conforms shows sane 1 newSize word
  obtain ⟨fresh', a'', ran'', sane', outcome⟩ :=
    sane.allocImpl conforms 1 newSize word
  cases ran'.symm.trans ran''
  by_cases null : fresh = 0
  · refine ⟨0, s', a', ?_, ?_, shows'⟩
    · rw [reallocMove, ran, ok_bind]
      exact if_pos null
    · rw [Image.reallocMove, ran', ok_bind]
      exact if_pos null
  · cases outcome with
    | inl refused => exact absurd refused.1 null
    | inr served =>
        obtain ⟨ready, some, valid, took⟩ := served
        have smaller : (if oldSize < newSize then oldSize else newSize) = min oldSize newSize := by
          split <;> omega
        have source : s'.InData ptr oldSize := shows'.inData sane'.toOwned (took.grown.placed placed)
        have start : s'.InData ptr (min oldSize newSize) :=
          shows'.inData sane'.toOwned ((took.grown.placed placed).mono (Nat.le_refl _) (by omega))
        have target : s'.InData fresh (min oldSize newSize) := by
          refine shows'.inData sane'.toOwned (took.placed.mono (Nat.le_refl _) ?_)
          unfold Build.footprint
          omega
        have counter : s'.arena.used = a'.used := by rw [shows'.arena]; rfl
        have bound : a'.used ≤ sizeMax :=
          Nat.le_trans sane'.counted (Nat.le_trans sane'.consumed_le sane'.total_le)
        have left : build.sub s'.arena.used oldSize = .ok (a'.used - oldSize) := by
          rw [counter]
          exact build.sub_of_le (Nat.le_trans held took.used_le) bound
        refine ⟨fresh,
          { blocks := s'.blocks, arena := { s'.arena with used := a'.used - oldSize }
            world := (s'.world.memcpy fresh ptr (min oldSize newSize)).dead build ptr oldSize },
          a'.abandon build ptr oldSize fresh newSize, ?_, ?_, ?_⟩
        · rw [reallocMove, ran, ok_bind]
          dsimp only
          rw [if_neg null, smaller, State.dataAccess_of start, ok_bind, memcpy_of target, ok_bind]
          refine bind_eq_ok.mpr ⟨_, fillDead_of build source, ?_⟩
          refine bind_eq_ok.mpr ⟨_, poison_of build source, ?_⟩
          rw [left]
          rfl
        · rw [Image.reallocMove, ran', ok_bind]
          exact if_neg null
        · exact ⟨by rw [shows'.arena]; rfl, by rw [shows'.world]; rfl, shows'.blocks⟩

/-- `arena_realloc`, given a live pointer and its size, or NULL and 0. -/
theorem realloc_refines (conforms : parent.Conforms Out) (shows : s.Shows a)
    (sane : a.Sane build parent Out) {ptr oldSize align : Nat} (newSize : Nat)
    (word : align ≤ sizeMax) (fresh : ptr = 0 → oldSize = 0)
    (live : ptr ≠ 0 → Placed a.chain ptr oldSize ∧ oldSize ≤ a.used) :
    Refines (realloc build ptr oldSize newSize align s)
      (a.realloc build ptr oldSize newSize align) := by
  have same : s.arena.status = a.status := by rw [shows.arena]; rfl
  unfold realloc Image.realloc State.canServe
  by_cases ready : a.status = .ok
  · rw [same, ready]
    simp only [decide_true, Bool.not_true, Bool.false_eq_true, if_false, ne_eq, not_true_eq_false]
    cases valid : alignValid align with
    | false => exact ⟨0, _, _, rfl, rfl, shows.fail .errArg⟩
    | true =>
        simp only [Bool.not_true, Bool.false_eq_true, if_false]
        by_cases empty : newSize = 0
        · exact ⟨0, _, _, if_pos empty, if_pos empty, shows.fail .errArg⟩
        · rw [if_neg empty, if_neg empty]
          by_cases null : ptr = 0
          · rw [Build.check_of build (.inr (fresh null)), ok_bind, if_pos null, if_pos null]
            exact allocImpl_refines conforms shows sane 1 newSize word
          · rw [Build.check_of build (.inl null), ok_bind, if_neg null, if_neg null]
            by_cases large : ptrdiffMax < newSize
            · exact ⟨0, _, _, if_pos large, if_pos large, shows.fail .errOverflow⟩
            · rw [if_neg large, if_neg large]
              obtain ⟨placed, held⟩ := live null
              cases tryResizeLast_refines conforms shows sane null held newSize with
              | inl moves =>
                  rw [moves.1, moves.2]
                  exact reallocMove_refines conforms shows sane word placed held
              | inr stays =>
                  obtain ⟨a', s', resized, ran, shows'⟩ := stays
                  rw [resized, ran]
                  exact ⟨ptr, s', a', rfl, rfl, shows'⟩
  · refine ⟨0, s, a, ?_, if_pos ready, shows⟩
    rw [same]
    exact if_pos (by simp [ready])

/-! `arena_adapter_xfree`. -/

theorem adapterXfree_eq {block ptr size offset footprint len live : Nat} {h : Block}
    (given : ptr ≠ 0) (last : isLastAlloc build ptr size s = .ok (some offset))
    (current : s.arena.current = block) (nonzero : block ≠ 0)
    (found : s.blocks.lookup block = some h) (total : sizeAdd size build.redzone = footprint)
    (start : block + blockHdr + offset = ptr) (dead : h.used - offset = len)
    (counted : build.sub s.arena.used footprint = .ok live) (inside : s.InData ptr len) :
    adapterXfree build ptr size s =
      .ok
        { blocks := s.blocks.insert block { h with used := offset }
          arena := { s.arena with used := live }
          world := s.world.dead build ptr len } := by
  subst total dead current
  have marked := markDead_of build (s := s) offset h.used nonzero
    (start.symm ▸ inside)
  rw [start] at marked
  rw [adapterXfree, if_neg given, last, ok_bind]
  dsimp only
  rw [State.header_of_lookup found, ok_bind, marked, ok_bind]
  refine bind_eq_ok.mpr ⟨h, State.header_of_lookup found, ?_⟩
  refine bind_eq_ok.mpr
    ⟨{ s with
       blocks := s.blocks.insert s.arena.current { h with used := offset }
       world := s.world.dead build ptr (h.used - offset) }, ?_, bind_eq_ok.mpr ⟨_, counted, rfl⟩⟩
  exact State.setHeader_of_lookup
    (s := { s with world := s.world.dead build ptr (h.used - offset) }) found _

theorem adapterXfree_refines (shows : s.Shows a) (sane : a.Sane build parent Out) {ptr size : Nat}
    (held : ptr ≠ 0 → build.footprint size ≤ a.used) :
    ∃ s', adapterXfree build ptr size s = .ok s' ∧
      s'.Shows (if ptr = 0 then a else a.xfree build ptr size) := by
  by_cases null : ptr = 0
  · refine ⟨s, by rw [adapterXfree, if_pos null], ?_⟩
    rw [if_pos null]
    exact shows
  · rw [if_neg null]
    have held := held null
    have asked := isLastAlloc_spec shows sane.toOwned null size
    unfold Image.xfree
    cases last : a.lastAt build ptr size with
    | none =>
        rw [last] at asked
        refine ⟨s, ?_, shows⟩
        rw [adapterXfree, if_neg null, asked]
        rfl
    | some found =>
        obtain ⟨c, cs⟩ := found
        rw [last] at asked
        have asked : isLastAlloc build ptr size s = .ok (some (ptr - c.data)) := asked
        obtain ⟨chain, above, ends⟩ := Image.lastAt_some last
        have words := sane.words (State.Shows.mem_chain chain)
        have fits := words.fits
        have current : s.arena.current = c.addr := by rw [shows.current, chain]; rfl
        have usedArena : s.arena.used = a.used := by rw [shows.arena]; rfl
        have counter : a.used ≤ sizeMax :=
          Nat.le_trans sane.counted (Nat.le_trans sane.consumed_le sane.total_le)
        have arena := shows.arena
        rw [chain] at arena
        obtain ⟨found, blocks⟩ := shows.setHead chain (d := { c with used := ptr - c.data }) rfl
        have cursor : c.cursor = c.data + c.used := rfl
        have footprint : build.footprint size = size + build.redzone := rfl
        have total : sizeAdd size build.redzone = build.footprint size :=
          sizeAdd_of_le (footprint ▸ Nat.le_trans held counter)
        have start : c.addr + blockHdr + (ptr - c.data) = ptr := by
          change c.data + _ = _
          omega
        have length : c.used - (ptr - c.data) = build.footprint size := by omega
        have counted : build.sub s.arena.used (build.footprint size) =
            .ok (a.used - build.footprint size) := by
          rw [usedArena]
          exact build.sub_of_le held counter
        refine ⟨_, adapterXfree_eq null asked current words.nonzero found total start length counted
          ?_, ?_⟩
        · refine State.inData_of_lookup found above ?_
          change _ ≤ c.data + c.cap
          omega
        · exact ⟨by rw [arena]; rfl, by rw [shows.world]; rfl, blocks⟩

/-! Filling what was allocated. -/

/-- A successful allocation leaves its bytes in the data of a block. -/
theorem allocated_inData (conforms : parent.Conforms Out) (sane : a.Sane build parent Out)
    {count size align ptr : Nat} {s' : State σ} {a' : Image σ} (word : align ≤ sizeMax)
    (ran : a.allocImpl build count size align = .ok (ptr, a')) (shows : s'.Shows a')
    (given : ptr ≠ 0) : s'.InData ptr (count * size) ∧ sizeMul count size = count * size := by
  obtain ⟨ptr', a'', ran', sane', outcome⟩ :=
    sane.allocImpl conforms count size word
  cases ran.symm.trans ran'
  cases outcome with
  | inl refused => exact absurd refused.1 given
  | inr served =>
      obtain ⟨ready, some, valid, took⟩ := served
      have placed : Placed a'.chain ptr (count * size) := by
        refine took.placed.mono (Nat.le_refl _) ?_
        unfold Build.footprint
        omega
      refine ⟨shows.inData sane'.toOwned placed, sizeMul_of_le ?_⟩
      obtain ⟨c, member, above, below⟩ := placed
      have words := sane'.words (List.mem_append_left _ member)
      have cursor := words.cursor
      omega

theorem allocNZeroed_refines (conforms : parent.Conforms Out) (shows : s.Shows a)
    (sane : a.Sane build parent Out) {count size align : Nat} (word : align ≤ sizeMax) :
    Refines (allocNZeroed build count size align s) (a.allocNZeroed build count size align) := by
  obtain ⟨ptr, s', a', ran, ran', shows'⟩ :=
    allocImpl_refines conforms shows sane count size word
  unfold allocNZeroed Image.allocNZeroed
  rw [ran, ran', ok_bind, ok_bind]
  dsimp only
  by_cases null : ptr = 0
  · exact ⟨ptr, s', a', if_neg (not_not_intro null), by rw [if_pos null, null], shows'⟩
  · obtain ⟨inside, product⟩ := allocated_inData conforms sane word ran' shows' null
    refine ⟨ptr, _, _, ?_, if_neg null, shows'.write _⟩
    rw [if_pos null, product, memset_of inside, ok_bind, shows'.world]

theorem allocZeroed_refines (conforms : parent.Conforms Out) (shows : s.Shows a)
    (sane : a.Sane build parent Out) (size : Nat) :
    Refines (allocZeroed build size s) (a.allocNZeroed build 1 size 0) := by
  obtain ⟨ptr, s', a', ran, ran', shows'⟩ := allocDefault_refines conforms shows sane size
  unfold allocZeroed Image.allocNZeroed
  rw [ran, ran', ok_bind, ok_bind]
  dsimp only
  by_cases null : ptr = 0
  · exact ⟨ptr, s', a', if_neg (not_not_intro null), by rw [if_pos null, null], shows'⟩
  · obtain ⟨inside, product⟩ := allocated_inData conforms sane (Nat.zero_le _) ran' shows' null
    rw [Nat.one_mul] at inside ⊢
    refine ⟨ptr, _, _, ?_, if_neg null, shows'.write _⟩
    rw [if_pos null, memset_of inside, ok_bind, shows'.world]

theorem memdup_refines (conforms : parent.Conforms Out) (shows : s.Shows a)
    (sane : a.Sane build parent Out) (src size : Nat) :
    Refines (memdup build src size s) (a.memdup build src size) := by
  have same : s.arena.status = a.status := by rw [shows.arena]; rfl
  unfold memdup Image.memdup State.canServe
  by_cases ready : a.status = .ok
  · rw [same, ready]
    simp only [decide_true, Bool.not_true, Bool.false_eq_true, if_false, ne_eq, not_true_eq_false]
    by_cases missing : src = 0 ∧ ¬ size = 0
    · exact ⟨0, _, _, if_pos missing, if_pos missing, shows.fail .errArg⟩
    · rw [if_neg missing, if_neg missing]
      obtain ⟨ptr, s', a', ran, ran', shows'⟩ := allocDefault_refines conforms shows sane size
      rw [ran, ran', ok_bind, ok_bind]
      dsimp only
      by_cases null : ptr = 0
      · exact ⟨ptr, s', a', if_neg (not_not_intro null), by rw [if_pos null, null], shows'⟩
      · obtain ⟨inside, product⟩ := allocated_inData conforms sane (Nat.zero_le _) ran' shows' null
        rw [Nat.one_mul] at inside
        refine ⟨ptr, _, _, ?_, if_neg null, shows'.write _⟩
        rw [if_pos null, memcpy_of inside, ok_bind, shows'.world]
  · refine ⟨0, s, a, ?_, if_pos ready, shows⟩
    rw [same]
    exact if_pos (by simp [ready])

end

end AgencC.Arena
