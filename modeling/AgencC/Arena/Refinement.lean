import AgencC.Arena.Resizing
import AgencC.Arena.Scopes

/-! The calls of `arena.c` that begin, unwind and end an arena do as its image does. -/

set_option autoImplicit false

namespace AgencC.Arena

open Library

variable {σ : Type} {build : Build}

section
variable {parent : AllocT σ} {Out : World σ → List Region → Prop} {a : Image σ} {s : State σ}

theorem Holds.chain_lt_bound {loose : List Cell} {chain free : List Cell}
    (holds : Holds s.blocks chain free loose) : chain.length < s.bound := by
  have count := holds.length_le
  rw [List.length_append] at count
  exact Nat.lt_succ_of_le (by omega)

theorem tempBegin_refines (shows : s.Shows a) :
    ∃ s', tempBegin s = .ok (a.tempBegin.1, s') ∧ s'.Shows a.tempBegin.2 := by
  have arena := shows.arena
  refine ⟨{ s with arena := { s.arena with tempDepth := (a.tempDepth + 1) % 2 ^ 32 } }, ?_,
    by rw [arena]; rfl, shows.world, shows.blocks⟩
  have used : s.arena.used = a.used := by rw [arena]; rfl
  have depth : s.arena.tempDepth = a.tempDepth := by rw [arena]; rfl
  have generation : s.arena.generation = a.generation := by rw [arena]; rfl
  unfold tempBegin Image.tempBegin
  rw [used, depth, generation]
  cases chain : a.chain with
  | nil =>
      have current : s.arena.current = 0 := by rw [shows.current, chain]; rfl
      rw [current]
      rfl
  | cons c cs =>
      have held := shows.blocks
      rw [chain] at held
      have nonzero : c.addr ≠ 0 := held.linked.1
      have current : s.arena.current = c.addr := by rw [shows.current, chain]; rfl
      have found : s.blocks.lookup c.addr = some (c.header (Cell.layout.first cs)) :=
        held.linked.2.1
      rw [current, if_pos nonzero, State.header_of_lookup found]
      rfl

theorem popToBlock_refines (conforms : parent.Conforms Out) (shows : s.Shows a)
    {entered rest : List Cell} (chain : a.chain = entered ++ rest)
    (owned : a.Owned build parent Out) (growing : entered ≠ [] → a.fixed = false)
    (later : ∀ c ∈ entered, c.addr ≠ Cell.layout.first rest) :
    ∃ s' a', a.discard build entered = .ok a' ∧
      popToBlock build (Cell.layout.first rest) s = .ok s' ∧
      s'.Shows { a' with chain := rest } := by
  have mirrors := shows
  unfold State.Shows at mirrors
  rw [chain] at mirrors
  have owned' : Image.Owned build parent Out { a with chain := entered ++ rest } := by
    rw [← chain]
    exact owned
  have enough : entered.length < s.bound := by
    have count := mirrors.blocks.chain_lt_bound
    rw [List.length_append] at count
    omega
  obtain ⟨s', a', ran, looped, after⟩ :=
    popLoop_spec conforms mirrors owned' growing later enough
  have current : s.arena.current = Cell.layout.first (entered ++ rest) := by
    rw [shows.current, chain]
  refine ⟨{ s' with arena := { s'.arena with current := Cell.layout.first rest } }, a', ran, ?_,
    by rw [after.arena]; rfl, after.world, after.blocks⟩
  rw [popToBlock, current, looped, ok_bind]
  exact bind_eq_ok.mpr ⟨(), Build.check_of build rfl _, rfl⟩

/-- Cutting the newest block back to where a scope began. -/
theorem cut_refines {c : Cell} {cs : List Cell} {cursor : Nat} (shows : s.Shows a)
    (chain : a.chain = { c with used := cursor } :: cs) (owned : a.Owned build parent Out)
    (above : c.used ≤ cursor) (blockUsed : Nat) (same : blockUsed = c.used) :
    ∃ s', (do
        let h ← s.header c.addr
        build.check (blockUsed ≤ h.used) "block->used >= temp.block_used"
        if blockUsed < h.used then do
          let s ← markDead build c.addr blockUsed h.used s
          s.setHeader c.addr { h with used := blockUsed }
        else .ok s) = .ok s' ∧
      s'.Shows (Image.cut build c.used ({ c with used := cursor } :: cs) a) := by
  subst same
  have low : min c.used cursor = c.used := Nat.min_eq_left above
  obtain ⟨found, blocks⟩ := shows.setHead chain (d := c) rfl
  have found : s.blocks.lookup c.addr =
      some { link := Cell.layout.first cs, cap := c.cap, used := cursor, oversize := c.oversize } :=
    found
  have words := owned.words (State.Shows.mem_chain chain)
  have nonzero : c.addr ≠ 0 := words.nonzero
  have fits : cursor ≤ c.cap := words.fits
  have arena := shows.arena
  rw [chain] at arena
  rw [Image.cut, low, State.header_of_lookup found, ok_bind, Build.check_of build above, ok_bind]
  by_cases raised : c.used < cursor
  · have inside : s.InData (c.addr + blockHdr + c.used) (cursor - c.used) :=
      State.inData_of_lookup found (Nat.le_add_right _ _) (by dsimp only; omega)
    have marked := markDead_of build (s := s) c.used cursor nonzero inside
    refine ⟨{ s with
      blocks := s.blocks.insert c.addr (c.header (Cell.layout.first cs))
      world := s.world.dead build (c.data + c.used) (cursor - c.used) }, ?_,
      by rw [arena]; rfl, by rw [shows.world]; rfl, blocks⟩
    rw [if_pos raised]
    exact bind_eq_ok.mpr ⟨_, marked, State.setHeader_of_lookup
      (s := { s with world := s.world.dead build (c.data + c.used) (cursor - c.used) }) found _⟩
  · have level : cursor = c.used := Nat.le_antisymm (Nat.le_of_not_lt raised) above
    subst level
    refine ⟨s, if_neg raised, ?_⟩
    rw [Nat.sub_self, World.dead_zero]
    have same : { a with chain := c :: cs } = a := by rw [← chain]
    exact same ▸ shows

theorem State.Shows.close (shows : s.Shows a) (temp : TempT) :
    State.Shows
      { s with
        arena :=
          { s.arena with
            used := if temp.used < s.arena.used then temp.used else s.arena.used
            tempDepth :=
              if 0 < s.arena.tempDepth then s.arena.tempDepth - 1 else s.arena.tempDepth } }
      (a.close temp) := by
  have arena := shows.arena
  have used : s.arena.used = a.used := by rw [arena]; rfl
  have depth : s.arena.tempDepth = a.tempDepth := by rw [arena]; rfl
  have least : (if temp.used < a.used then temp.used else a.used) = min temp.used a.used := by
    split <;> omega
  have shallower : (if 0 < a.tempDepth then a.tempDepth - 1 else a.tempDepth) = a.tempDepth - 1 := by
    split <;> omega
  rw [used, depth, least, shallower]
  exact ⟨by rw [arena]; rfl, shows.world, shows.blocks⟩

/-- `arena_temp_end`, given the innermost open scope. -/
theorem tempEnd_refines (conforms : parent.Conforms Out) (shows : s.Shows a)
    (sane : a.Sane build parent Out) {base : List Cell} {temp : TempT}
    (grown : Grown base a.chain) (marks : temp.Marks base)
    (same : a.fixed = true → base.length = a.chain.length) (used : temp.used ≤ a.used)
    (generation : temp.generation = a.generation)
    (depth : build.ndebug = true ∨ temp.depth = a.tempDepth) :
    ∃ s' a', tempEnd build temp s = .ok s' ∧ a.tempEnd build temp = .ok a' ∧ s'.Shows a' := by
  have arena := shows.arena
  have generation : temp.generation = s.arena.generation := by rw [arena]; exact generation
  have counted : temp.used ≤ s.arena.used := by rw [arena]; exact used
  have deep : build.check (temp.depth = s.arena.tempDepth) "temp.depth == a->temp_depth" = .ok () := by
    cases depth with
    | inl off => rw [Build.check, if_pos off]
    | inr depth =>
        refine Build.check_of build ?_ _
        rw [arena]
        exact depth
  obtain ⟨entered, rest, chain, later, first, start⟩ := sane.toOwned.unwinds grown
  obtain ⟨taken, dropped⟩ := marks.split chain later start
  have growing := entered_growing chain same start
  rw [← first] at later
  obtain ⟨s₁, a₁, ran, popped, shows₁⟩ :=
    popToBlock_refines conforms shows chain sane.toOwned growing later
  have owned : Image.Owned build parent Out { a with chain := entered ++ rest } := by
    rw [← chain]
    exact sane.toOwned
  obtain ⟨committed, world, ran', _, owned'⟩ := owned.discard conforms growing
  cases ran.symm.trans ran'
  have current : s₁.arena.current = Cell.layout.first rest := by rw [shows₁.current]
  have ended := Image.tempEnd_eq taken dropped ran
  rw [tempEnd, Build.check_of build generation, ok_bind, deep, ok_bind, Build.check_of build counted,
    ok_bind, marks.block, ← first, popped, ok_bind, current]
  cases start with
  | inl bare =>
      obtain ⟨rfl, rfl⟩ := bare
      exact ⟨_, _, rfl, ended, shows₁.close temp⟩
  | inr raised =>
      obtain ⟨c, cs, cursor, rfl, rfl, above⟩ := raised
      have nonzero : c.addr ≠ 0 := (owned'.inside _ (.head _)).1
      have cutUsed : temp.blockUsed = c.used := marks.blockUsed
      rw [cutUsed] at ended ⊢
      obtain ⟨s₂, cut, shows₂⟩ := cut_refines shows₁ rfl owned' above c.used rfl
      refine ⟨_, _, ?_, ended, shows₂.close temp⟩
      obtain ⟨h, found, cut⟩ := bind_eq_ok.mp cut
      obtain ⟨_, checked, cut⟩ := bind_eq_ok.mp cut
      refine (if_pos nonzero).trans (bind_eq_ok.mpr ⟨h, found, bind_eq_ok.mpr ⟨(), checked, ?_⟩⟩)
      split at cut
      · case isTrue raised =>
          obtain ⟨marked, dead, lowered⟩ := bind_eq_ok.mp cut
          exact (if_pos raised).trans (bind_eq_ok.mpr ⟨marked, dead, bind_eq_ok.mpr ⟨s₂, lowered, rfl⟩⟩)
      · case isFalse level =>
          cases cut
          exact if_neg level

/-! `arena_reset`. -/

/-- Comparing addresses finds the block that a reset keeps. -/
theorem Image.Owned.oldest_addr (owned : a.Owned build parent Out) {c : Cell}
    (member : c ∈ a.chain) :
    c.addr = ((oldestNormal a.chain).map Cell.addr).getD 0 ↔ oldestNormal a.chain = some c := by
  have held := List.mem_append_left a.free member
  cases oldest : oldestNormal a.chain with
  | none => exact ⟨fun null => absurd null (owned.inside c held).1, fun absurd => nomatch absurd⟩
  | some d =>
      have other := List.mem_append_left a.free (oldestNormal_some oldest).1
      constructor
      · intro same
        rw [owned.eq_of_addr held other same]
      · intro same
        cases same
        rfl

theorem Image.Owned.filter_oldest (owned : a.Owned build parent Out) :
    a.chain.filter (·.addr ≠ ((oldestNormal a.chain).map Cell.addr).getD 0) =
        a.chain.filter (oldestNormal a.chain ≠ some ·) ∧
      a.chain.filter (·.addr = ((oldestNormal a.chain).map Cell.addr).getD 0) =
        (oldestNormal a.chain).toList := by
  have others : a.chain.filter (·.addr ≠ ((oldestNormal a.chain).map Cell.addr).getD 0) =
      a.chain.filter (oldestNormal a.chain ≠ some ·) :=
    List.filter_congr fun c member => by
      rw [decide_eq_decide]
      exact not_congr (owned.oldest_addr member)
  refine ⟨others, ?_⟩
  have whole := List.filter_append_perm
    (fun c : Cell => decide (c.addr = ((oldestNormal a.chain).map Cell.addr).getD 0)) a.chain
  have rest : a.chain.filter
      (fun c => !decide (c.addr = ((oldestNormal a.chain).map Cell.addr).getD 0)) =
      a.chain.filter (oldestNormal a.chain ≠ some ·) := by
    rw [← others]
    exact List.filter_congr fun c _ => by simp
  rw [rest] at whole
  have kept := (List.perm_append_left_iff _).mp
    ((List.perm_append_comm.trans whole).trans owned.oldest_perm)
  cases oldest : oldestNormal a.chain with
  | none =>
      rw [oldest] at kept
      exact kept.eq_nil
  | some c =>
      rw [oldest] at kept
      exact List.perm_singleton.mp kept

/-- The last assignments of `arena_reset`. -/
theorem State.Shows.restart (shows : s.Shows a) :
    State.Shows
      { s with
        arena :=
          { s.arena with
            used := 0, tempDepth := 0, generation := (s.arena.generation + 1) % 2 ^ 32
            status := .ok } }
      { a with
        used := 0, tempDepth := 0, generation := (a.generation + 1) % 2 ^ 32, status := .ok } := by
  have arena := shows.arena
  have generation : s.arena.generation = a.generation := by rw [arena]; rfl
  rw [generation]
  exact ⟨by rw [arena]; rfl, shows.world, shows.blocks⟩

/-- The blocks a reset discards, before the one it keeps. -/
theorem Image.Owned.oldest_last (conforms : parent.Conforms Out) (owned : a.Owned build parent Out)
    (growing : a.fixed = false) :
    Image.Owned build parent Out
      { a with
        chain := a.chain.filter (·.addr ≠ ((oldestNormal a.chain).map Cell.addr).getD 0) ++
          (oldestNormal a.chain).toList } := by
  rw [owned.filter_oldest.1]
  exact owned.rearrange conforms growing (owned.oldest_perm.append_right _) owned.empty

variable (build) in
/-- The block a reset keeps is rewound and becomes the whole chain. -/
theorem keepOldest_spec {c : Cell} {current : Nat} (fits : c.used ≤ c.cap)
    (mirrors : s.Mirrors a current (Cell.layout.first a.free) [] a.free [c]) :
    ∃ s', (do
        let s ← rewindBlock build c.addr s
        let h ← s.header c.addr
        s.setHeader c.addr { h with link := 0 }) = .ok s' ∧
      State.Shows { s' with arena := { s'.arena with current := c.addr } }
        { a with
          chain := [{ c with used := 0 }], world := a.world.dead build c.data c.used } := by
  obtain ⟨s', rewound, mirrors'⟩ := rewindBlock_spec build mirrors fits
  obtain ⟨_, link, found⟩ := mirrors'.blocks.stored _ (.head _)
  have found : s'.blocks.lookup c.addr = some (Cell.header link { c with used := 0 }) := found
  have linked := (mirrors'.blocks.rewrite (e := { c with used := 0 }) rfl 0).attach
    (AList.lookup_insert _)
  refine ⟨{ s' with blocks := s'.blocks.insert c.addr (Cell.header 0 { c with used := 0 }) }, ?_, ?_,
    mirrors'.world, linked⟩
  · refine bind_eq_ok.mpr ⟨s', rewound, bind_eq_ok.mpr ⟨_, State.header_of_lookup found, ?_⟩⟩
    exact State.setHeader_of_lookup found _
  · rw [mirrors'.arena]
    rfl

theorem reset_refines_growing (conforms : parent.Conforms Out) (shows : s.Shows a)
    (owned : a.Owned build parent Out) (growing : a.fixed = false) :
    ∃ s' a', reset build s = .ok s' ∧ a.reset build = .ok a' ∧ s'.Shows a' := by
  have arena := shows.arena
  have kind : s.arena.fixed = false := by rw [arena]; exact growing
  have enough := shows.blocks.chain_lt_bound
  have current := shows.current
  have found := oldestNormalLoop_spec 0 shows.blocks.linked enough
  obtain ⟨others, kept⟩ := owned.filter_oldest
  have last := owned.oldest_last conforms growing
  obtain ⟨s₁, a₁, dropped, looped, mirrors⟩ := resetLoop_spec conforms shows last growing enough
  obtain ⟨committed, world, dropped', _, _⟩ := last.discard conforms fun _ => growing
  rw [others] at dropped dropped'
  cases dropped.symm.trans dropped'
  rw [kept, List.append_nil] at mirrors
  rw [← current] at found looped
  have entry : ∀ s₂ : State σ,
      (((oldestNormal a.chain).map Cell.addr).getD 0 = 0 ∧ s₂ = s₁ ∨
        ((oldestNormal a.chain).map Cell.addr).getD 0 ≠ 0 ∧ (do
          let s ← rewindBlock build (((oldestNormal a.chain).map Cell.addr).getD 0) s₁
          let h ← s.header (((oldestNormal a.chain).map Cell.addr).getD 0)
          s.setHeader (((oldestNormal a.chain).map Cell.addr).getD 0) { h with link := 0 }) =
            .ok s₂) →
      reset build s =
        .ok
          { s₂ with
            arena :=
              { s₂.arena with
                current := ((oldestNormal a.chain).map Cell.addr).getD 0
                used := 0, tempDepth := 0, generation := (s₂.arena.generation + 1) % 2 ^ 32
                status := .ok } } := by
    intro s₂ ran
    unfold reset
    rw [if_neg (kind ▸ Bool.false_ne_true), found, ok_bind, looped, ok_bind]
    cases ran with
    | inl absent =>
        obtain ⟨null, rfl⟩ := absent
        rw [if_neg (not_not_intro null)]
        rfl
    | inr present =>
        obtain ⟨some, kept⟩ := present
        obtain ⟨s₃, rewound, kept⟩ := bind_eq_ok.mp kept
        obtain ⟨h, header, kept⟩ := bind_eq_ok.mp kept
        rw [if_pos some, rewound, ok_bind, header, ok_bind, kept]
        rfl
  have image : a.reset build = _ := bind_eq_ok.mpr ⟨_, dropped, rfl⟩
  cases oldest : oldestNormal a.chain with
  | none =>
      rw [oldest] at mirrors entry image
      have shows₁ : State.Shows { s₁ with arena := { s₁.arena with current := 0 } }
          { a with
            chain := [], committed, world
            free := retired (a.chain.filter ((none : Option Cell) ≠ some ·)) ++ a.free } :=
        ⟨by rw [mirrors.arena]; rfl, mirrors.world, mirrors.blocks⟩
      exact ⟨_, _, entry s₁ (.inl ⟨rfl, rfl⟩), image, shows₁.restart⟩
  | some c =>
      have held := owned.words (List.mem_append_left _ (oldestNormal_some oldest).1)
      rw [oldest] at mirrors entry image
      obtain ⟨s₂, ran, shows₂⟩ := keepOldest_spec build held.fits mirrors
      exact ⟨_, _, entry s₂ (.inr ⟨held.nonzero, ran⟩), image, shows₂.restart⟩

theorem reset_refines_fixed (shows : s.Shows a) (owned : a.Owned build parent Out)
    (fixed : a.fixed = true) :
    ∃ s' a', reset build s = .ok s' ∧ a.reset build = .ok a' ∧ s'.Shows a' := by
  have arena := shows.arena
  have kind : s.arena.fixed = true := by rw [arena]; exact fixed
  obtain ⟨free, single, normal, _⟩ := owned.buffer fixed
  have current := shows.current
  unfold reset
  rw [kind]
  simp only [if_true]
  cases chain : a.chain with
  | nil =>
      have none : s.arena.current = 0 := by rw [current, chain]; rfl
      have image : a.reset build =
          .ok { a with
            used := 0, tempDepth := 0, generation := (a.generation + 1) % 2 ^ 32, status := .ok } := by
        rw [Image.reset, chain]
        change Except.ok { a with
          chain := [], used := 0, tempDepth := 0, generation := (a.generation + 1) % 2 ^ 32
          status := .ok } = _
        rw [← chain]
      refine ⟨_, _, ?_, image, shows.restart⟩
      rw [if_neg (not_not_intro none)]
      rfl
  | cons c cs =>
      have head : c ∈ a.chain := chain ▸ .head _
      have alone : cs = [] := by
        rw [chain] at single
        exact List.length_eq_zero_iff.mp (Nat.le_zero.mp (Nat.le_of_succ_le_succ single))
      subst alone
      have words := owned.words (List.mem_append_left _ head)
      have oldest : oldestNormal a.chain = some c := by
        rw [chain, oldestNormal_cons, (normal c head).1]
        rfl
      have others : a.chain.filter (oldestNormal a.chain ≠ some ·) = [] := by
        rw [oldest, chain]
        simp
      have image : a.reset build =
          .ok { a with
            chain := [{ c with used := 0 }], world := a.world.dead build c.data c.used
            used := 0, tempDepth := 0, generation := (a.generation + 1) % 2 ^ 32, status := .ok } := by
        rw [Image.reset, others, oldest]
        rfl
      obtain ⟨found, blocks⟩ := shows.setHead chain (d := { c with used := 0 }) rfl
      have block : s.arena.current = c.addr := by rw [current, chain]; rfl
      have rewound := rewindBlock_of build words.nonzero found words.fits
      have shows₁ : State.Shows
          { s with
            blocks := s.blocks.insert c.addr (Cell.header 0 { c with used := 0 })
            world := s.world.dead build c.data c.used }
          { a with
            chain := [{ c with used := 0 }], world := a.world.dead build c.data c.used } :=
        ⟨by rw [arena, chain]; rfl, by rw [shows.world], blocks⟩
      refine ⟨_, _, ?_, image, shows₁.restart⟩
      rw [block, if_pos words.nonzero]
      exact bind_eq_ok.mpr ⟨_, rewound, rfl⟩

theorem reset_refines (conforms : parent.Conforms Out) (shows : s.Shows a)
    (owned : a.Owned build parent Out) :
    ∃ s' a', reset build s = .ok s' ∧ a.reset build = .ok a' ∧ s'.Shows a' := by
  cases fixed : a.fixed with
  | false => exact reset_refines_growing conforms shows owned fixed
  | true => exact reset_refines_fixed shows owned fixed

/-! `arena_trim`, `arena_deinit` and `arena_clear_error`. -/

theorem State.Shows.clearError (shows : s.Shows a) : (Arena.clearError s).Shows a.clearError := by
  have arena := shows.arena
  exact ⟨by rw [Arena.clearError, arena]; rfl, shows.world, shows.blocks⟩

theorem State.Mirrors.swap {current freeBlocks : Nat} {chain free : List Cell}
    (mirrors : s.Mirrors a current freeBlocks chain free []) :
    s.Mirrors a current freeBlocks free chain [] :=
  ⟨mirrors.arena, mirrors.world, mirrors.blocks.swap⟩

theorem trim_refines (conforms : parent.Conforms Out) (shows : s.Shows a)
    (owned : a.Owned build parent Out) :
    ∃ s' a', trim build s = .ok s' ∧ a.trim build = .ok a' ∧ s'.Shows a' := by
  have arena := shows.arena
  unfold trim Image.trim
  cases fixed : a.fixed with
  | true =>
      have kind : s.arena.fixed = true := by rw [arena]; exact fixed
      exact ⟨s, a, if_pos kind, if_pos rfl, shows⟩
  | false =>
      have kind : s.arena.fixed = false := by rw [arena]; exact fixed
      have freeBlocks : s.arena.freeBlocks = Cell.layout.first a.free := by rw [arena]
      have owned' : Image.Owned build parent Out { a with chain := a.free ++ a.chain, free := [] } :=
        owned.rearrange conforms fixed
          (List.perm_append_comm.trans (.of_eq (List.append_nil _).symm)) (by simp)
      obtain ⟨s₁, a₁, ran, looped, mirrors⟩ := releaseChainLoop_spec conforms shows.swap owned' fixed
        shows.blocks.swap.chain_lt_bound
      obtain ⟨committed, world, ran', _, _⟩ := owned'.releaseAll conforms fixed
      cases ran.symm.trans ran'
      refine ⟨{ s₁ with arena := { s₁.arena with freeBlocks := 0 } },
        { a with free := [], committed, world }, ?_, ?_, ?_⟩
      · rw [kind, if_neg Bool.false_ne_true, releaseChain, freeBlocks, looped]
        rfl
      · rw [if_neg Bool.false_ne_true, ran]
        rfl
      · exact ⟨by rw [mirrors.arena]; rfl, mirrors.world, mirrors.blocks.swap⟩

theorem Image.releaseAll_append (cells cells' : List Cell) (a : Image σ) :
    a.releaseAll build (cells ++ cells') =
      a.releaseAll build cells >>= Image.releaseAll build cells' := by
  induction cells generalizing a with
  | nil => rfl
  | cons c cs ih =>
      rw [List.cons_append, Image.releaseAll, Image.releaseAll]
      cases a.release build c with
      | error fault => rfl
      | ok b => exact ih b

/-- The last assignments of `arena_deinit`. -/
theorem State.init_shows (parent : AllocT σ) (world : World σ) :
    (Arena.init parent world).Shows (Image.init parent world) :=
  ⟨rfl, rfl,
    { linked := trivial
      linkedFree := trivial
      stored := fun _ member => nomatch member
      only := fun addr stored => absurd stored (AList.notMem_empty addr)
      distinct := .nil }⟩

theorem deinit_refines (conforms : parent.Conforms Out) (shows : s.Shows a)
    (owned : a.Owned build parent Out) :
    ∃ s' a', deinit build s = .ok s' ∧ a.deinit build = .ok a' ∧ s'.Shows a' := by
  have arena := shows.arena
  have holder : s.arena.parent = a.parent := by rw [arena]; rfl
  have generation : s.arena.generation = a.generation := by rw [arena]; rfl
  have current := shows.current
  have ended : ∀ world : World σ,
      State.Shows
        { Arena.init a.parent world with
          arena :=
            { (Arena.init a.parent world).arena with
              generation := (a.generation + 1) % 2 ^ 32 } }
        { Image.init a.parent world with generation := (a.generation + 1) % 2 ^ 32 } := fun world =>
    have fresh := State.init_shows a.parent world
    ⟨by rw [fresh.arena]; rfl, rfl, fresh.blocks⟩
  unfold deinit Image.deinit
  rw [holder, generation]
  cases fixed : a.fixed with
  | true =>
      have kind : s.arena.fixed = true := by rw [arena]; exact fixed
      obtain ⟨free, single, _, _⟩ := owned.buffer fixed
      rw [kind]
      cases chain : a.chain with
      | nil =>
          have none : s.arena.current = 0 := by rw [current, chain]; rfl
          refine ⟨_, _, ?_, rfl, ended a.world⟩
          simp only [Bool.not_true, Bool.false_eq_true, if_false, if_neg (not_not_intro none)]
          rw [ok_bind, shows.world]
      | cons c cs =>
          have head : c ∈ a.chain := chain ▸ .head _
          have alone : cs = [] := by
            rw [chain] at single
            exact List.length_eq_zero_iff.mp (Nat.le_zero.mp (Nat.le_of_succ_le_succ single))
          subst alone
          have words := owned.words (List.mem_append_left _ head)
          have block : s.arena.current = c.addr := by rw [current, chain]; rfl
          have found := (shows.setHead chain (d := c) rfl).1
          have inside : s.InData (c.addr + blockHdr) c.cap :=
            State.inData_of_lookup found (Nat.le_refl _) (Nat.le_refl _)
          refine ⟨_, _, ?_, rfl, ended (a.world.light build c.data c.cap)⟩
          simp only [Bool.not_true, Bool.false_eq_true, if_false]
          rw [block, if_pos words.nonzero, State.header_of_lookup found, ok_bind,
            blockData_of build words.nonzero, ok_bind]
          refine bind_eq_ok.mpr ⟨_, unpoison_of build inside, ?_⟩
          rw [shows.world]
          rfl
  | false =>
      have kind : s.arena.fixed = false := by rw [arena]; exact fixed
      have all : Image.Owned build parent Out { a with chain := a.chain ++ a.free, free := [] } :=
        owned.rearrange conforms fixed (.of_eq (List.append_nil _).symm) (by simp)
      obtain ⟨s₁, a₁, ran₁, looped₁, mirrors₁⟩ := releaseChainLoop_spec conforms shows all fixed
        shows.blocks.chain_lt_bound
      obtain ⟨committed, world, ran', _, rest⟩ := all.releaseAll conforms fixed
      cases ran₁.symm.trans ran'
      rw [← List.append_nil a.free] at rest
      have freeBlocks : s₁.arena.freeBlocks = Cell.layout.first a.free := by rw [mirrors₁.arena]
      obtain ⟨s₂, a₂, ran₂, looped₂, mirrors₂⟩ := releaseChainLoop_spec conforms mirrors₁.swap rest
        fixed mirrors₁.blocks.swap.chain_lt_bound
      have both : a.releaseAll build a.cells = .ok a₂ := by
        rw [Image.cells, Image.releaseAll_append, ran₁]
        exact ran₂
      refine ⟨_, _, ?_, ?_, ended a₂.world⟩
      · simp only [kind, Bool.not_false, if_true]
        rw [releaseChain, current, looped₁, ok_bind, releaseChain, freeBlocks, looped₂, ok_bind,
          mirrors₂.world]
      · rw [if_neg Bool.false_ne_true, both]
        rfl

end

end AgencC.Arena
