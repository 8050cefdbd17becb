import AgencC.Arena.Accounting

/-! What an allocation comes to, decided in integers without bound. -/

set_option autoImplicit false

namespace AgencC.Arena

open Library

variable {σ : Type} {build : Build} {parent : AllocT σ} {Out : World σ → List Region → Prop}

/-- What a request can come to in an arena that may serve. -/
inductive Verdict where
  /-- The alignment is neither 0 nor a power of two up to 65536. -/
  | argument
  /-- Nothing is asked for. -/
  | nothing
  /-- More than `PTRDIFF_MAX` bytes are asked for. -/
  | overflow
  /-- The current block has room. -/
  | current
  /-- A fixed arena has no room. -/
  | exhausted
  /-- No block can be large enough. -/
  | unplaceable
  /-- A free block or a new one is needed. -/
  | growth
  deriving DecidableEq, Repr

/-- Where the current block is consumed to, and the bytes left above. -/
def State.room (s : State σ) : Option (Nat × Nat) :=
  (s.blocks.lookup s.arena.current).map fun h => (s.arena.current + blockHdr + h.used, h.cap - h.used)

/-- The verdict on `count` elements of `size` bytes at `align`. No operation here wraps. -/
def verdict (build : Build) (fixed : Bool) (room : Option (Nat × Nat)) (count size align : Nat) :
    Verdict :=
  if ¬ (align = 0 ∨ ∃ k ≤ 16, align = 2 ^ k) then .argument
  else if count * size = 0 then .nothing
  else if ptrdiffMax < count * size then .overflow
  else if ∃ place ∈ room, padding place.1 (alignEffective build align) + count * size + build.redzone
      ≤ place.2 then .current
  else if fixed then .exhausted
  else if ptrdiffMax - blockHdr < count * size + (alignEffective build align - 1) + build.redzone then
    .unplaceable
  else .growth

example : verdict .sanitized false none (2 ^ 32) (2 ^ 32) 16 = .overflow := by decide

/-- How an arena grows by a block with room for `need` bytes: the first on the free list that is
large enough or, if none is, one from the parent. -/
inductive State.Grows (s : State σ) (free : List Cell) (need align : Nat) : Nat → State σ → Prop where
  | reused {s' : State σ} (smaller : List Cell) (c : Cell) (others : List Cell)
      (listed : free = smaller ++ c :: others) (first : ∀ d ∈ smaller, d.cap < need)
      (large : need ≤ c.cap) (current : s'.arena.current = c.addr) (moved : c.addr ≠ s.arena.current)
      (status : s'.arena.status = .ok) (unasked : s'.world.parent = s.world.parent) :
      Grows s free need align (c.data + padding c.data align) s'
  | obtained {s' : State σ} {block : Nat} {world : World σ} (none : ∀ d ∈ free, d.cap < need)
      (given : block ≠ 0)
      (asked : s.arena.parent.xalloc (max s.arena.nextBlock (blockHdr + need)) 0 s.world =
        .ok (block, world))
      (current : s'.arena.current = block) (moved : block ≠ s.arena.current)
      (status : s'.arena.status = .ok) :
      Grows s free need align (block + blockHdr + padding (block + blockHdr) align) s'
  | refused {s' : State σ} {world : World σ} (none : ∀ d ∈ free, d.cap < need)
      (asked : s.arena.parent.xalloc (max s.arena.nextBlock (blockHdr + need)) 0 s.world =
        .ok (0, world))
      (arena : s'.arena = { s.arena with status := .errAlloc }) (world : s'.world = world)
      (blocks : ∀ block, s'.blocks.lookup block = s.blocks.lookup block) :
      Grows s free need align 0 s'

/-- The same arena, the same storage and the same headers. -/
structure State.Alike (s s' : State σ) : Prop where
  arena : s'.arena = s.arena
  world : s'.world = s.world
  blocks : ∀ block, s'.blocks.lookup block = s.blocks.lookup block

/-- What a call that comes to a verdict returns and leaves. -/
def State.Answers (build : Build) (s : State σ) (free : List Cell) (total align : Nat) (ptr : Nat)
    (s' : State σ) : Verdict → Prop
  | .argument => ptr = 0 ∧ (s.fail .errArg).Alike s'
  | .nothing => ptr = 0 ∧ s.Alike s'
  | .overflow | .unplaceable => ptr = 0 ∧ (s.fail .errOverflow).Alike s'
  | .exhausted => ptr = 0 ∧ (s.fail .errAlloc).Alike s'
  | .current => ∃ place ∈ s.room, ptr = place.1 + padding place.1 align ∧
      s'.arena.current = s.arena.current ∧ s'.arena.status = .ok ∧
      s'.world.parent = s.world.parent
  | .growth => s.Grows free (total + (align - 1) + build.redzone) align ptr s'

/-! The headers of an arena are determined by its lists. -/

theorem linked_unique {find find' : Nat → Option Block} {cells : List Cell}
    (linked : Cell.layout.Linked find cells) (linked' : Cell.layout.Linked find' cells) {c : Cell}
    (member : c ∈ cells) : find' c.addr = find c.addr := by
  induction cells with
  | nil => cases member
  | cons d ds ih =>
      cases member with
      | head => exact linked'.2.1.trans linked.2.1.symm
      | tail _ later => exact ih linked.2.2 linked'.2.2 later

theorem Holds.lookup_none {blocks : Blocks} {chain free : List Cell}
    (holds : Holds blocks chain free []) {block : Nat}
    (absent : ∀ c ∈ chain ++ free, c.addr ≠ block) : blocks.lookup block = none := by
  refine AList.lookup_eq_none.mpr fun stored => ?_
  obtain ⟨c, member, same⟩ := holds.only block stored
  rw [List.append_nil] at member
  exact absent c member same

theorem State.Shows.alike {s s' : State σ} {a : Image σ} (shows : s.Shows a)
    (shows' : s'.Shows a) : s.Alike s' where
  arena := shows'.arena.trans shows.arena.symm
  world := shows'.world.trans shows.world.symm
  blocks block := by
    have held := shows.blocks
    have held' := shows'.blocks
    by_cases listed : ∃ c ∈ a.chain ++ a.free, c.addr = block
    · obtain ⟨c, member, rfl⟩ := listed
      cases List.mem_append.mp member with
      | inl chained => exact linked_unique held.linked held'.linked chained
      | inr spare => exact linked_unique held.linkedFree held'.linkedFree spare
    · have absent : ∀ c ∈ a.chain ++ a.free, c.addr ≠ block :=
        fun c member same => listed ⟨c, member, same⟩
      rw [held.lookup_none absent, held'.lookup_none absent]

theorem State.Shows.room {s : State σ} {a : Image σ} (shows : s.Shows a) :
    s.room = a.chain.head?.map fun c => (c.cursor, c.cap - c.used) := by
  have linked := shows.blocks.linked
  have current := shows.current
  rw [State.room, current]
  cases chain : a.chain with
  | nil =>
      rw [shows.blocks.lookup_none fun c member => ?_]
      · rfl
      · have held := (shows.blocks.found (List.append_nil a.free ▸ member)).1
        exact held
  | cons c cs =>
      rw [chain] at linked
      have found : s.blocks.lookup (Cell.layout.first (c :: cs)) = some _ := linked.2.1
      rw [found]
      rfl

/-- A block that enters the chain was not the current one. -/
theorem State.Shows.entered {s s' : State σ} {a a' : Image σ} (shows : s.Shows a)
    (shows' : s'.Shows a') {c : Cell} (chain : a'.chain = c :: a.chain) :
    s'.arena.current = c.addr ∧ c.addr ≠ s.arena.current := by
  have linked := shows'.blocks.linked
  have distinct := shows'.blocks.distinct
  have current := shows'.current
  rw [chain] at linked distinct current
  refine ⟨current, ?_⟩
  rw [shows.current]
  cases before : a.chain with
  | nil => exact linked.1
  | cons d ds =>
      rw [before] at distinct
      exact fun same => (List.nodup_cons.mp distinct).1 (same ▸ .head _)

/-! First fit. -/

theorem takeFit_first {need : Nat} {free rest : List Cell} {c : Cell}
    (found : takeFit need free = some (c, rest)) :
    ∃ smaller others, free = smaller ++ c :: others ∧ need ≤ c.cap ∧
      ∀ d ∈ smaller, d.cap < need := by
  induction free generalizing rest with
  | nil => cases found
  | cons d ds ih =>
      rw [takeFit] at found
      by_cases room : need ≤ d.cap
      · cases (if_pos room).symm.trans found
        exact ⟨[], _, rfl, room, List.forall_mem_nil _⟩
      · obtain ⟨⟨e, others⟩, later, same⟩ :=
          Option.map_eq_some_iff.mp ((if_neg room).symm.trans found)
        cases same
        obtain ⟨smaller, others, listed, large, first⟩ := ih later
        exact ⟨d :: smaller, others, by rw [listed]; rfl, large,
          List.forall_mem_cons.mpr ⟨Nat.lt_of_not_le room, first⟩⟩

theorem takeFit_none {need : Nat} {free : List Cell} (absent : takeFit need free = none) :
    ∀ d ∈ free, d.cap < need := by
  induction free with
  | nil => exact List.forall_mem_nil _
  | cons d ds ih =>
      rw [takeFit] at absent
      by_cases room : need ≤ d.cap
      · cases (if_pos room).symm.trans absent
      · have later := Option.map_eq_none_iff.mp ((if_neg room).symm.trans absent)
        exact List.forall_mem_cons.mpr ⟨Nat.lt_of_not_le room, ih later⟩

section
variable {a a' : Image σ} {s s' : State σ}

theorem State.fail_blocks (status : Status) (s : State σ) : (s.fail status).blocks = s.blocks := by
  unfold State.fail
  split <;> rfl

/-- A block that serves from its start. -/
theorem Cell.empty_cursor {c : Cell} (empty : c.used = 0) : c.cursor = c.data := by
  rw [Cell.cursor, empty]
  rfl

theorem Image.Owned.grow_answers (owned : a.Owned build parent Out) (shows : s.Shows a)
    (ready : a.status = .ok) {total align ptr : Nat} (growing : a.fixed = false)
    (bound : ¬ ptrdiffMax - blockHdr < build.need total align)
    (ran : a.grow build total align = .ok (ptr, a')) (shows' : s'.Shows a') :
    s.Grows a.free (build.need total align) align ptr s' := by
  have arena := shows'.arena
  rw [Image.grow, growing, if_neg Bool.false_ne_true, if_neg bound] at ran
  cases found : takeFit (build.need total align) a.free with
  | some taken =>
      obtain ⟨c, rest⟩ := taken
      obtain ⟨smaller, others, listed, large, first⟩ := takeFit_first found
      have member : c ∈ a.free := listed ▸ List.mem_append_right _ (.head _)
      have start := Cell.empty_cursor (owned.empty c member).1
      rw [found] at ran
      cases ran
      obtain ⟨current, moved⟩ := shows.entered shows' rfl
      rw [Cell.pad, start]
      refine .reused smaller c others listed first large current moved ?_ ?_
      · rw [arena]
        exact ready
      · rw [shows'.world, shows.world]
        exact (World.live_touched build _ _ _).parent
  | none =>
      have none := takeFit_none found
      rw [found] at ran
      obtain ⟨⟨taken, b⟩, obtained, rest⟩ := bind_eq_ok.mp ran
      obtain ⟨⟨block, world⟩, asked, outcome⟩ := bind_eq_ok.mp obtained
      have asked : s.arena.parent.xalloc (max s.arena.nextBlock (blockHdr + build.need total align))
          0 s.world = .ok (block, world) := by
        rw [shows.arena, shows.world]
        exact asked
      by_cases null : block = 0
      · cases (if_pos null).symm.trans outcome
        cases rest
        subst null
        refine .refused none asked ?_ ?_ ?_
        · rw [arena, shows.arena, Image.fail, if_pos (show ({ a with world } : Image σ).status = .ok from ready)]
          rfl
        · rw [shows'.world, Image.fail, if_pos (show ({ a with world } : Image σ).status = .ok from ready)]
        · exact fun block => (((shows.write world).fail .errAlloc).alike shows').blocks block |>.trans
            (by rw [State.fail_blocks])
      · cases (if_neg null).symm.trans outcome
        cases rest
        obtain ⟨current, moved⟩ := shows.entered shows' rfl
        refine .obtained none null asked current moved ?_
        rw [arena]
        exact ready

theorem Image.Owned.grow_verdict (owned : a.Owned build parent Out) (shows : s.Shows a)
    (ready : a.status = .ok) {total align ptr : Nat}
    (ran : a.grow build total align = .ok (ptr, a')) (shows' : s'.Shows a') :
    s.Answers build a.free total align ptr s'
      (if a.fixed then .exhausted
      else if ptrdiffMax - blockHdr < total + (align - 1) + build.redzone then .unplaceable
      else .growth) := by
  cases fixed : a.fixed with
  | true =>
      cases (if_pos fixed).symm.trans ran
      exact ⟨rfl, (shows.fail .errAlloc).alike shows'⟩
  | false =>
      by_cases large : ptrdiffMax - blockHdr < build.need total align
      · rw [if_neg Bool.false_ne_true, if_pos (show _ < total + (align - 1) + build.redzone from large)]
        rw [Image.grow, fixed, if_neg Bool.false_ne_true] at ran
        cases (if_pos large).symm.trans ran
        exact ⟨rfl, (shows.fail .errOverflow).alike shows'⟩
      · rw [if_neg Bool.false_ne_true,
          if_neg (show ¬ _ < total + (align - 1) + build.redzone from large)]
        exact owned.grow_answers shows ready fixed large ran shows'

theorem Image.Owned.allocCore_verdict (owned : a.Owned build parent Out) (shows : s.Shows a)
    (ready : a.status = .ok) {total align ptr : Nat}
    (ran : a.allocCore build total align = .ok (ptr, a')) (shows' : s'.Shows a') :
    s.Answers build a.free total align ptr s'
      (if ∃ place ∈ s.room, padding place.1 align + total + build.redzone ≤ place.2 then .current
      else if a.fixed then .exhausted
      else if ptrdiffMax - blockHdr < total + (align - 1) + build.redzone then .unplaceable
      else .growth) := by
  have room := shows.room
  rw [Image.allocCore] at ran
  cases chain : a.chain with
  | nil =>
      rw [chain] at ran room
      have none : ¬ ∃ place ∈ s.room, padding place.1 align + total + build.redzone ≤ place.2 := by
        rw [room]
        rintro ⟨_, member, _⟩
        cases member
      rw [if_neg none]
      exact owned.grow_verdict shows ready ran shows'
  | cons c cs =>
      rw [chain] at ran room
      have fits : c.used ≤ c.cap := owned.fits c (State.Shows.mem_chain chain)
      have plain : (∃ place ∈ s.room, padding place.1 align + total + build.redzone ≤ place.2) ↔
          ¬ c.cap < c.used + (c.pad align + build.footprint total) := by
        rw [room]
        have pad : padding c.cursor align = c.pad align := rfl
        have footprint : build.footprint total = total + build.redzone := rfl
        constructor
        · rintro ⟨_, ⟨⟩, enough⟩
          dsimp only at enough
          omega
        · intro enough
          refine ⟨_, rfl, ?_⟩
          dsimp only
          omega
      by_cases full : c.cap < c.used + (c.pad align + build.footprint total)
      · rw [if_neg fun some => plain.mp some full]
        exact owned.grow_verdict shows ready ((if_pos full).symm.trans ran) shows'
      · rw [if_pos (plain.mpr full)]
        cases (if_neg full).symm.trans ran
        have current : s'.arena.current = c.addr := by rw [shows'.arena]; rfl
        refine ⟨(c.cursor, c.cap - c.used), ?_, rfl, ?_, ?_, ?_⟩
        · rw [room]
          rfl
        · rw [current, shows.current, chain]
          rfl
        · rw [shows'.arena]
          exact ready
        · rw [shows'.world, shows.world]
          exact (World.live_touched build _ _ _).parent

/-- The checks of an allocation decide as their plain forms do. -/
theorem Image.Owned.allocImpl_answers (owned : a.Owned build parent Out) (shows : s.Shows a)
    (ready : a.status = .ok) (count size : Nat) {align ptr : Nat} (word : align ≤ sizeMax)
    (ran : a.allocImpl build count size align = .ok (ptr, a')) (shows' : s'.Shows a') :
    s.Answers build a.free (count * size) (alignEffective build align) ptr s'
      (verdict build a.fixed s.room count size align) := by
  have known : alignValid align = true ↔ align = 0 ∨ ∃ k ≤ 16, align = 2 ^ k := alignValid_iff word
  rw [Image.allocImpl, if_neg (not_not_intro ready)] at ran
  unfold verdict
  by_cases valid : alignValid align = true
  · rw [if_neg (not_not_intro (known.mp valid))]
    rw [if_neg (by rw [valid]; decide)] at ran
    by_cases empty : count * size = 0
    · rw [if_pos empty]
      cases (if_pos (Nat.mul_eq_zero.mp empty)).symm.trans ran
      exact ⟨rfl, shows.alike shows'⟩
    · rw [if_neg empty]
      rw [if_neg fun none => empty (Nat.mul_eq_zero.mpr none)] at ran
      by_cases large : ptrdiffMax < count * size
      · rw [if_pos large]
        cases (if_pos large).symm.trans ran
        exact ⟨rfl, (shows.fail .errOverflow).alike shows'⟩
      · rw [if_neg large]
        exact owned.allocCore_verdict shows ready ((if_neg large).symm.trans ran) shows'
  · rw [if_pos (mt known.mpr valid)]
    cases (if_pos (by simpa using valid)).symm.trans ran
    exact ⟨rfl, (shows.fail .errArg).alike shows'⟩

end

/-- What can be told from what a call returned and left. -/
structure State.Tells (s : State σ) (ptr : Nat) (s' : State σ) (v : Verdict) : Prop where
  argument : s'.arena.status = .errArg ↔ v = .argument
  nothing : ptr = 0 ∧ s'.arena.status = .ok ↔ v = .nothing
  overflow : s'.arena.status = .errOverflow ↔ v = .overflow ∨ v = .unplaceable
  current : ptr ≠ 0 ∧ s'.arena.current = s.arena.current ↔ v = .current
  alloc : s'.arena.status = .errAlloc ↔ v = .exhausted ∨ v = .growth ∧ ptr = 0

/-- No two verdicts look alike. -/
theorem State.Answers.tells {s s' : State σ} {free : List Cell} {total align ptr : Nat} {v : Verdict}
    (ready : s.arena.status = .ok) (answers : s.Answers build free total align ptr s' v) :
    s.Tells ptr s' v := by
  have failed : ∀ {status}, (s.fail status).Alike s' → s'.arena.status = status := by
    intro status alike
    rw [alike.arena, State.fail, if_pos ready]
  have header : blockHdr = 32 := rfl
  cases v with
  | argument =>
      obtain ⟨rfl, alike⟩ := answers
      constructor <;> simp [failed alike]
  | nothing =>
      obtain ⟨rfl, alike⟩ := answers
      have status : s'.arena.status = .ok := by rw [alike.arena, ready]
      constructor <;> simp [status]
  | overflow | unplaceable =>
      obtain ⟨rfl, alike⟩ := answers
      constructor <;> simp [failed alike]
  | exhausted =>
      obtain ⟨rfl, alike⟩ := answers
      constructor <;> simp [failed alike]
  | current =>
      obtain ⟨place, member, rfl, current, status, _⟩ := answers
      obtain ⟨h, _, rfl⟩ := Option.map_eq_some_iff.mp member
      constructor <;> simp [status, current, header]
  | growth =>
      cases answers with
      | reused smaller c others listed first large current moved status unasked =>
          have given : c.data ≠ 0 := by unfold Cell.data; omega
          constructor <;> simp [status, current, moved, given]
      | obtained none given asked current moved status =>
          constructor <;> simp [status, current, moved, given]
      | refused none asked arena world blocks => constructor <;> simp [arena]

/-- In every arena that a legal run leaves with no error, `arena_alloc_n` decides as integers
without bound would. -/
theorem Session.allocN_decides (conforms : parent.Conforms Out) {s₀ s : Session σ}
    (started : s₀.Started build parent Out) {ops : List (Op σ)} {ptrs : List Nat}
    (allowed : s₀.Allows build (fun s op => op.Legal Out s) ops)
    (reached : s₀.run build ops = .ok (ptrs, s)) (ready : s.state.arena.status = .ok)
    (count size : Nat) {align : Nat} (word : align ≤ sizeMax) :
    ∃ chain free ptr s', s.state.Lists chain free ∧
      allocN build count size align s.state = .ok (ptr, s') ∧
      s.state.Answers build free (count * size) (alignEffective build align) ptr s'
        (verdict build s.state.arena.fixed s.state.room count size align) ∧
      s.state.Tells ptr s' (verdict build s.state.arena.fixed s.state.room count size align) := by
  obtain ⟨t, shows, kept⟩ := Session.run_kept conforms started allowed reached
  have kept : t.image.Kept build parent Out t.books := kept
  obtain ⟨ptr, s', a', ran, ran', shows'⟩ :=
    allocImpl_refines conforms shows.1 kept.sane count size word
  have able : t.image.status = .ok := by
    rw [shows.1.arena] at ready
    exact ready
  have answers := kept.sane.toOwned.allocImpl_answers shows.1 able count size word ran' shows'
  have fixed : s.state.arena.fixed = t.image.fixed := by rw [shows.1.arena]; rfl
  rw [← fixed] at answers
  exact ⟨_, _, ptr, s', shows.1.lists, ran, answers, answers.tells ready⟩

theorem Session.allocN_decides_scope :
    ∃ ptrs s, Session.rising.run .sanitized scopeCalls = .ok (ptrs, s) ∧
      ∃ chain free ptr s', s.state.Lists chain free ∧
        allocN .sanitized (2 ^ 32) (2 ^ 32) 16 s.state = .ok (ptr, s') ∧
        s.state.Answers .sanitized free (2 ^ 32 * 2 ^ 32) 16 ptr s'
          (verdict .sanitized false s.state.room (2 ^ 32) (2 ^ 32) 16) := by
  have conforms := risingParent_conforms 0x100000 (by decide)
  have reached : Session.rising.run .sanitized scopeCalls = .ok _ := rfl
  obtain ⟨chain, free, ptr, s', lists, ran, answers, _⟩ :=
    Session.allocN_decides conforms (Session.rising_started _) scopeCalls_allowed reached rfl
      (2 ^ 32) (2 ^ 32) (show 16 ≤ sizeMax by decide)
  exact ⟨_, _, reached, chain, free, ptr, s', lists, ran, answers⟩

end AgencC.Arena
