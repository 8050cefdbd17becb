import AgencC.Arena.Storage

/-! `arena.c` allocates as its image does: the free list, new blocks, and the allocation
functions over them. -/

set_option autoImplicit false

namespace AgencC.Arena

open Library

variable {σ : Type} {build : Build}

/-- The computation on the state returns what the one on the image does. -/
def Refines (result : Except Fault (Nat × State σ)) (image : Except Fault (Nat × Image σ)) : Prop :=
  ∃ ptr s a, result = .ok (ptr, s) ∧ image = .ok (ptr, a) ∧ s.Shows a

section
variable {parent : AllocT σ} {Out : World σ → List Region → Prop} {a : Image σ} {s : State σ}

/-! The free list. -/

/-- The link that leads past `xs`. -/
def linkAfter (xs : List Cell) : LinkPtr :=
  match xs.getLast? with
  | none => .head
  | some d => .field d.addr

theorem linkAfter_concat (xs : List Cell) (d : Cell) : linkAfter (xs ++ [d]) = .field d.addr := by
  rw [linkAfter, List.getLast?_concat]

theorem State.Mirrors.readLink {current : Nat} {chain xs ys loose : List Cell}
    (mirrors : s.Mirrors a current (Cell.layout.first (xs ++ ys)) chain (xs ++ ys) loose) :
    s.readLink (linkAfter xs) = .ok (Cell.layout.first ys) := by
  cases List.eq_nil_or_concat' xs with
  | inl empty =>
      subst empty
      change Except.ok s.arena.freeBlocks = _
      rw [mirrors.arena]
      rfl
  | inr last =>
      obtain ⟨zs, d, rfl⟩ := last
      have linked := mirrors.blocks.linkedFree
      rw [List.append_assoc] at linked
      have found : s.blocks.lookup d.addr = some (d.header (Cell.layout.first ys)) :=
        (linked.drop zs).2.1
      rw [linkAfter_concat, State.readLink, State.header_of_lookup found, ok_bind]
      rfl

theorem State.Mirrors.writeLink {current : Nat} {chain xs rest loose : List Cell} {c : Cell}
    (mirrors : s.Mirrors a current (Cell.layout.first (xs ++ c :: rest)) chain (xs ++ c :: rest)
      loose) :
    ∃ s', s.writeLink (Cell.layout.first rest) (linkAfter xs) = .ok s' ∧
      s'.Mirrors a current (Cell.layout.first (xs ++ rest)) chain (xs ++ rest) (c :: loose) := by
  cases List.eq_nil_or_concat' xs with
  | inl empty =>
      subst empty
      refine ⟨_, rfl, ?_, mirrors.world, mirrors.blocks.detachFree⟩
      change { s.arena with freeBlocks := Cell.layout.first rest } =
        { a.arena with current, freeBlocks := Cell.layout.first rest }
      rw [mirrors.arena]
  | inr last =>
      obtain ⟨zs, d, rfl⟩ := last
      have held := mirrors.blocks
      have arena := mirrors.arena
      rw [List.append_assoc] at held arena
      have found : s.blocks.lookup d.addr = some (d.header c.addr) := (held.linkedFree.drop zs).2.1
      have first : Cell.layout.first (zs ++ ([d] ++ c :: rest)) =
          Cell.layout.first (zs ++ d :: rest) := Layout.first_append zs d _ _
      rw [first] at arena
      refine ⟨{ s with blocks := s.blocks.insert d.addr (d.header (Cell.layout.first rest)) },
        ?_, ?_⟩
      · rw [linkAfter_concat, State.writeLink, State.header_of_lookup found, ok_bind]
        exact State.setHeader_of_lookup found _
      · rw [List.append_assoc]
        exact ⟨arena, mirrors.world, held.unlink⟩

theorem takeFreeLoop_spec {current need bound : Nat} {chain xs ys : List Cell}
    (mirrors : s.Mirrors a current (Cell.layout.first (xs ++ ys)) chain (xs ++ ys) [])
    (enough : ys.length < bound) :
    (takeFit need ys = none ∧ takeFreeLoop need s bound (linkAfter xs) = .ok (0, s)) ∨
    ∃ c rest s', takeFit need ys = some (c, rest) ∧
      takeFreeLoop need s bound (linkAfter xs) = .ok (c.addr, s') ∧
      s'.Mirrors a current (Cell.layout.first (xs ++ rest)) chain (xs ++ rest) [c] := by
  induction ys generalizing xs bound with
  | nil =>
      cases bound with
      | zero => cases enough
      | succ bound =>
          refine .inl ⟨rfl, ?_⟩
          rw [takeFreeLoop, mirrors.readLink, ok_bind]
          rfl
  | cons c cs ih =>
      cases bound with
      | zero => cases enough
      | succ bound =>
          have member : c ∈ chain ++ ((xs ++ c :: cs) ++ []) := by simp
          obtain ⟨nonzero, _⟩ := mirrors.blocks.found member
          have found : s.blocks.lookup c.addr = some (c.header (Cell.layout.first cs)) :=
            (mirrors.blocks.linkedFree.drop xs).2.1
          have first : Cell.layout.first (c :: cs) = c.addr := rfl
          rw [takeFreeLoop, mirrors.readLink, ok_bind, first, if_neg nonzero,
            State.header_of_lookup found, ok_bind, takeFit]
          by_cases room : need ≤ c.cap
          · obtain ⟨s', written, mirrors'⟩ := mirrors.writeLink
            refine .inr ⟨c, cs, s', if_pos room, ?_, mirrors'⟩
            refine (if_pos room).trans ?_
            change (s.writeLink (Cell.layout.first cs) (linkAfter xs) >>= _) = _
            rw [written, ok_bind]
          · have shape : xs ++ c :: cs = (xs ++ [c]) ++ cs := by simp
            have mirrors' := mirrors
            rw [shape] at mirrors'
            have next := ih mirrors' (Nat.lt_of_succ_lt_succ enough)
            rw [linkAfter_concat] at next
            rw [if_neg room]
            have skip : ∀ r : Except Fault (Nat × State σ),
                takeFreeLoop need s bound (.field c.addr) = r →
                (if need ≤ (c.header (Cell.layout.first cs)).cap then
                  s.writeLink (c.header (Cell.layout.first cs)).link (linkAfter xs) >>=
                    fun s => .ok (c.addr, s)
                else takeFreeLoop need s bound (.field c.addr)) = r :=
              fun r same => (if_neg room).trans same
            cases next with
            | inl absent =>
                exact .inl ⟨by rw [absent.1]; rfl, skip _ absent.2⟩
            | inr present =>
                obtain ⟨d, rest, s', taken, ran, after⟩ := present
                refine .inr ⟨d, c :: rest, s', by rw [taken]; rfl, skip _ ran, ?_⟩
                have join : xs ++ c :: rest = (xs ++ [c]) ++ rest := by simp
                rw [join]
                exact after

theorem takeFreeBlock_spec (shows : s.Shows a) (need : Nat) :
    (takeFit need a.free = none ∧ takeFreeBlock need s = .ok (0, s)) ∨
    ∃ c rest s', takeFit need a.free = some (c, rest) ∧ takeFreeBlock need s = .ok (c.addr, s') ∧
      s'.Mirrors a (Cell.layout.first a.chain) (Cell.layout.first rest) a.chain rest [c] := by
  have count := shows.blocks.length_le
  have enough : a.free.length < s.bound := by
    rw [List.length_append, List.length_append] at count
    exact Nat.lt_succ_of_le (by omega)
  have start : s.Mirrors a (Cell.layout.first a.chain) (Cell.layout.first ([] ++ a.free)) a.chain
      ([] ++ a.free) [] := shows
  exact takeFreeLoop_spec start enough

/-! `arena_new_block`, where its sums are known. -/

theorem newBlock_refused {need request size : Nat} {world : World σ}
    (summed : sizeAdd blockHdr need = request)
    (sized : (if request ≤ s.arena.nextBlock then s.arena.nextBlock else request) = size)
    (answer : s.arena.parent.xalloc size 0 s.world = .ok (0, world)) :
    newBlock build need s = .ok (0, State.fail .errAlloc { s with world }) := by
  subst summed sized
  rw [newBlock]
  simp only [allocAlloc]
  rw [Build.check_of build (Nat.zero_and _), ok_bind, answer, ok_bind, if_pos rfl]

theorem newBlock_given {need request size block cap twice committed : Nat} {world : World σ}
    (summed : sizeAdd blockHdr need = request)
    (sized : (if request ≤ s.arena.nextBlock then s.arena.nextBlock else request) = size)
    (answer : s.arena.parent.xalloc size 0 s.world = .ok (block, world)) (nonzero : block ≠ 0)
    (rest : sizeSub size blockHdr = cap) (doubled : sizeMul s.arena.nextBlock 2 = twice)
    (counted : build.add s.arena.committed size = .ok committed) :
    newBlock build need s =
      .ok (block,
        { blocks := s.blocks.insert block
            { link := 0, cap, used := 0, oversize := size ≠ s.arena.nextBlock }
          arena :=
            { s.arena with
              nextBlock :=
                if decide (size ≠ s.arena.nextBlock) then s.arena.nextBlock
                else if s.arena.maxBlock < twice then s.arena.maxBlock else twice
              committed }
          world := world.shade build (block + blockHdr) cap }) := by
  subst summed sized rest doubled
  rw [newBlock]
  simp only [allocAlloc]
  rw [Build.check_of build (Nat.zero_and _), ok_bind, answer, ok_bind, if_neg nonzero, counted,
    ok_bind, blockData_of build nonzero, ok_bind, poison_of build, ok_bind]
  exact State.inData_of_lookup (AList.lookup_insert _) (Nat.le_refl _) (Nat.le_refl _)

theorem State.Shows.fail (shows : s.Shows a) (status : Status) :
    (s.fail status).Shows (a.fail status) := by
  have arena := shows.arena
  have same : s.arena.status = a.status := by rw [arena]; rfl
  unfold State.fail Image.fail
  rw [same]
  split
  · exact ⟨by rw [arena]; rfl, shows.world, shows.blocks⟩
  · exact shows

/-- The size of a request, and the numbers a new block changes, do not wrap. -/
theorem newBlock_words {need nextBlock maxBlock : Nat} (bound : need ≤ ptrdiffMax - blockHdr)
    (below : nextBlock ≤ maxBlock) (above : maxBlock ≤ ptrdiffMax) :
    sizeAdd blockHdr need = blockHdr + need ∧
      (if blockHdr + need ≤ nextBlock then nextBlock else blockHdr + need) =
        max nextBlock (blockHdr + need) ∧
      sizeSub (max nextBlock (blockHdr + need)) blockHdr =
        max nextBlock (blockHdr + need) - blockHdr ∧
      sizeMul nextBlock 2 = nextBlock * 2 ∧
      (if maxBlock < nextBlock * 2 then maxBlock else nextBlock * 2) =
        min maxBlock (nextBlock * 2) := by
  have word : ptrdiffMax * 2 ≤ sizeMax ∧ blockHdr ≤ ptrdiffMax := by decide
  refine ⟨sizeAdd_of_le (by omega), ?_, sizeSub_of_le (by omega) (by omega),
    sizeMul_of_le (by omega), ?_⟩
  · split <;> omega
  · split <;> omega

theorem newBlock_spec (conforms : parent.Conforms Out) (shows : s.Shows a)
    (owned : a.Owned build parent Out) (growing : a.fixed = false) {need : Nat}
    (bound : need ≤ ptrdiffMax - blockHdr) :
    (∃ s' a', a.obtain build need = .ok (none, a') ∧ newBlock build need s = .ok (0, s') ∧
      s'.Shows a') ∨
    ∃ c b s', a.obtain build need = .ok (some c, b) ∧ newBlock build need s = .ok (c.addr, s') ∧
      s'.Mirrors b (Cell.layout.first a.chain) (Cell.layout.first a.free) a.chain a.free [c] := by
  obtain ⟨floor, below, above⟩ := owned.policy growing
  obtain ⟨summed, sized, rest, doubled, next⟩ := newBlock_words bound below above
  have arena := shows.arena
  have sized : (if blockHdr + need ≤ s.arena.nextBlock then s.arena.nextBlock
      else blockHdr + need) = max a.nextBlock (blockHdr + need) := by rw [arena]; exact sized
  have same : s.arena.parent = a.parent ∧ s.arena.nextBlock = a.nextBlock ∧
      s.arena.maxBlock = a.maxBlock ∧ s.arena.committed = a.committed := by
    rw [arena]
    exact ⟨rfl, rfl, rfl, rfl⟩
  cases owned.obtain conforms growing bound with
  | inl refused =>
      obtain ⟨world, answer, refusal⟩ := refused
      obtain ⟨world', asked, result⟩ := Image.obtain_none answer
      have asked' : s.arena.parent.xalloc (max a.nextBlock (blockHdr + need)) 0 s.world =
          .ok (0, world') := by
        rw [same.1, shows.world]
        exact asked
      rw [result] at answer
      have shows' : State.Shows { s with world := world' } { a with world := world' } :=
        ⟨arena, rfl, shows.blocks⟩
      exact .inl ⟨_, _, answer, newBlock_refused summed sized asked', shows'.fail .errAlloc⟩
  | inr given =>
      obtain ⟨c, nextBlock, committed, world, answer, room, empty, keeps, after⟩ := given
      obtain ⟨world', asked, nonzero, block, result⟩ := Image.obtain_some answer
      have counter : a.committed + max a.nextBlock (blockHdr + need) ≤ sizeMax := by
        have total : committed = a.committed + max a.nextBlock (blockHdr + need) :=
          congrArg Image.committed result
        exact total ▸ Nat.le_trans (Nat.le_of_eq (after.total growing)) after.total_le
      have fresh : ∀ d ∈ a.chain ++ (a.free ++ []), d.addr ≠ c.addr := by
        have front := (List.nodup_cons.mp after.distinct).1
        intro d member equal
        refine front (equal ▸ List.mem_map_of_mem ?_)
        rw [List.append_nil] at member
        exact member
      have asked' : s.arena.parent.xalloc (max a.nextBlock (blockHdr + need)) 0 s.world =
          .ok (c.addr, world') := by
        rw [same.1, shows.world]
        exact asked
      have doubled' : sizeMul s.arena.nextBlock 2 = a.nextBlock * 2 := by
        rw [same.2.1]
        exact doubled
      have counted : build.add s.arena.committed (max a.nextBlock (blockHdr + need)) =
          .ok (a.committed + max a.nextBlock (blockHdr + need)) := by
        rw [same.2.2.2]
        exact build.add_of_le counter
      refine .inr ⟨c, _, _, answer,
        newBlock_given summed sized asked' nonzero rest doubled' counted, ?_⟩
      have held := shows.blocks.add nonzero fresh 0
      have header : c.header 0 =
          { link := 0, cap := max a.nextBlock (blockHdr + need) - blockHdr, used := 0
            oversize := max a.nextBlock (blockHdr + need) ≠ s.arena.nextBlock } := by
        rw [same.2.1]
        exact congrArg (Cell.header 0) block
      have cap : c.cap = max a.nextBlock (blockHdr + need) - blockHdr := congrArg Cell.cap block
      have oversize : c.oversize = decide (max a.nextBlock (blockHdr + need) ≠ a.nextBlock) :=
        congrArg Cell.oversize block
      rw [result]
      exact
        { arena := by
            rw [same.2.1, same.2.2.1, next, ← oversize, arena]
            rfl
          world := by
            rw [← cap]
            rfl
          blocks := header ▸ held }

/-! Allocation. -/

/-- What `arena_grow_and_bump` does with a block that is on neither list. -/
def State.linkAndBump (build : Build) (block size align : Nat) (s : State σ) :
    Except Fault (Nat × State σ) := do
  let h ← s.header block
  let s ← s.setHeader block { h with link := s.arena.current }
  let s := { s with arena := { s.arena with current := block } }
  let (ptr, s) ← tryBump build size align s
  build.check (ptr ≠ 0) "ptr != NULL"
  .ok (ptr, s)

/-- The bump after linking always succeeds. -/
theorem linkAndBump_serves (conforms : parent.Conforms Out) {b : Image σ} {c : Cell}
    (mirrors : s.Mirrors b (Cell.layout.first b.chain) (Cell.layout.first b.free) b.chain b.free [c])
    (owned : Image.Owned build parent Out { b with chain := c :: b.chain })
    (counted : b.used ≤ consumed b.chain) {size k : Nat} (small : size ≤ ptrdiffMax)
    (bits : k ≤ maxAlignBits)
    (room : c.used + (c.pad (2 ^ k) + build.footprint size) ≤ c.cap) :
    ∃ s', s.linkAndBump build c.addr size (2 ^ k) =
        .ok ((b.serve build size (2 ^ k) c b.chain).1, s') ∧
      s'.Shows (b.serve build size (2 ^ k) c b.chain).2 := by
  obtain ⟨nonzero, link, found⟩ := mirrors.blocks.stored c (.head _)
  have current : s.arena.current = Cell.layout.first b.chain := by rw [mirrors.arena]
  have linked : Holds (s.blocks.insert c.addr (c.header (Cell.layout.first b.chain)))
      (c :: b.chain) b.free [] :=
    (mirrors.blocks.rewrite rfl _).attach (AList.lookup_insert _)
  have shows : State.Shows
      { s with
        blocks := s.blocks.insert c.addr (c.header (Cell.layout.first b.chain))
        arena := { s.arena with current := c.addr } }
      { b with chain := c :: b.chain } :=
    ⟨by rw [mirrors.arena]; rfl, mirrors.world, linked⟩
  obtain ⟨s', served, shows'⟩ := tryBump_serves conforms shows owned
    (Nat.le_trans counted (Nat.le_add_left _ _)) rfl small bits room
  have given : (b.serve build size (2 ^ k) c b.chain).1 ≠ 0 := by
    change c.addr + blockHdr + c.used + c.pad (2 ^ k) ≠ 0
    omega
  refine ⟨s', ?_, shows'⟩
  rw [State.linkAndBump, State.header_of_lookup found, ok_bind, current]
  change (s.setHeader c.addr (c.header (Cell.layout.first b.chain)) >>= _) = _
  rw [State.setHeader_of_lookup found, ok_bind]
  refine (congrArg (· >>= _) served).trans ?_
  rw [ok_bind]
  exact congrArg (· >>= _) (Build.check_of build given _)

variable (build) in
theorem need_words {size k : Nat} (small : size ≤ ptrdiffMax) (bits : k ≤ maxAlignBits) :
    sizeAdd (sizeAdd size (sizeSub (2 ^ k) 1)) build.redzone = build.need size (2 ^ k) := by
  have redzone := build.redzone_le
  have align := two_pow_le bits
  have pos := Nat.two_pow_pos k
  have bound : 65536 + ptrdiffMax + 16 ≤ sizeMax := by decide
  have slack : sizeAdd size (2 ^ k - 1) = size + (2 ^ k - 1) := sizeAdd_of_le (by omega)
  rw [sizeSub_of_le pos (by omega), slack]
  exact sizeAdd_of_le (by omega)

/-- `arena_grow_and_bump` where its sum is known. -/
theorem growAndBump_eq {size align need : Nat} (growing : s.arena.fixed = false)
    (summed : sizeAdd (sizeAdd size (sizeSub align 1)) build.redzone = need)
    (bound : need ≤ ptrdiffMax - blockHdr) :
    growAndBump build size align s =
      (do
        let (found, s) ← takeFreeBlock need s
        let (block, s) ← if found = 0 then newBlock build need s else .ok (found, s)
        if block = 0 then .ok (0, s) else s.linkAndBump build block size align) := by
  subst summed
  unfold growAndBump
  rw [if_neg (by rw [growing]; decide), if_neg (Nat.not_lt.mpr bound)]
  rfl

theorem growAndBump_refines (conforms : parent.Conforms Out) (shows : s.Shows a)
    (sane : a.Sane build parent Out) {size k : Nat} (small : size ≤ ptrdiffMax)
    (bits : k ≤ maxAlignBits) :
    Refines (growAndBump build size (2 ^ k) s) (a.grow build size (2 ^ k)) := by
  have summed := need_words build small bits
  have pos := Nat.two_pow_pos k
  have same : s.arena.fixed = a.fixed := by rw [shows.arena]; rfl
  by_cases fixed : a.fixed = true
  · refine ⟨0, _, _, ?_, if_pos fixed, shows.fail .errAlloc⟩
    rw [growAndBump, if_pos (same.trans fixed)]
  · have growing : a.fixed = false := Bool.not_eq_true _ ▸ fixed
    by_cases large : ptrdiffMax - blockHdr < build.need size (2 ^ k)
    · refine ⟨0, _, _, ?_, (if_neg fixed).trans (if_pos large), shows.fail .errOverflow⟩
      rw [growAndBump, if_neg (same ▸ fixed), summed, if_pos large]
    · have bound := Nat.le_of_not_lt large
      rw [growAndBump_eq (same.trans growing) summed bound, Image.grow, if_neg fixed, if_neg large]
      cases takeFreeBlock_spec shows (build.need size (2 ^ k)) with
      | inr present =>
          obtain ⟨c, rest, s', taken, ran, mirrors⟩ := present
          obtain ⟨nonzero, _⟩ := mirrors.blocks.stored c (.head _)
          obtain ⟨xs, ys, before, after, room⟩ := takeFit_some taken
          have free := sane.empty c (before ▸ List.mem_append_right _ (.head _))
          obtain ⟨owned, _⟩ := sane.toOwned.enters conforms (.reused growing taken)
          obtain ⟨t, served, shows'⟩ := linkAndBump_serves (s := s')
            (b := { a with free := rest }) conforms ⟨mirrors.arena, mirrors.world, mirrors.blocks⟩
            owned sane.counted small bits (Cell.room_of_need pos free.1 room)
          refine ⟨_, t, _, ?_, by rw [taken], shows'⟩
          rw [ran, ok_bind]
          simp only [nonzero, if_false, ok_bind]
          exact served
      | inl absent =>
          rw [absent.1, absent.2, ok_bind]
          simp only [if_true]
          cases newBlock_spec conforms shows sane.toOwned growing bound with
          | inl refused =>
              obtain ⟨s', a', answer, ran, shows'⟩ := refused
              exact ⟨0, s', a', by rw [ran]; rfl, by rw [answer]; rfl, shows'⟩
          | inr given =>
              obtain ⟨c, b, s', answer, ran, mirrors⟩ := given
              obtain ⟨nonzero, _⟩ := mirrors.blocks.stored c (.head _)
              cases sane.toOwned.obtain conforms growing bound with
              | inl refused =>
                  obtain ⟨world, refused, _⟩ := refused
                  cases answer.symm.trans refused
              | inr given =>
                  obtain ⟨d, nextBlock, committed, world, given, room, empty, keeps, owned⟩ := given
                  cases answer.symm.trans given
                  obtain ⟨t, served, shows'⟩ := linkAndBump_serves (s := s')
                    (b := { a with nextBlock, committed, world }) conforms mirrors owned
                    sane.counted small bits (Cell.room_of_need pos empty room)
                  refine ⟨_, t, _, ?_, by rw [answer]; rfl, shows'⟩
                  rw [ran, ok_bind]
                  simp only [nonzero, if_false]
                  exact served

theorem allocCore_refines (conforms : parent.Conforms Out) (shows : s.Shows a)
    (sane : a.Sane build parent Out) {size k : Nat} (small : size ≤ ptrdiffMax)
    (bits : k ≤ maxAlignBits) :
    Refines (allocCore build size (2 ^ k) s) (a.allocCore build size (2 ^ k)) := by
  have grown := growAndBump_refines conforms shows sane small bits
  have missed : tryBump build size (2 ^ k) s = .ok (0, s) →
      allocCore build size (2 ^ k) s = growAndBump build size (2 ^ k) s := by
    intro none
    rw [allocCore, none]
    rfl
  unfold Image.allocCore
  cases chain : a.chain with
  | nil =>
      have current : s.arena.current = 0 := by rw [shows.current, chain]; rfl
      rw [missed (by rw [tryBump]; exact if_pos current)]
      exact grown
  | cons c cs =>
      by_cases full : c.cap < c.used + (c.pad (2 ^ k) + build.footprint size)
      · rw [missed (tryBump_full shows sane.toOwned chain small bits full)]
        change Refines _ (if _ then _ else _)
        rw [if_pos full]
        exact grown
      · obtain ⟨s', served, shows'⟩ := tryBump_serves conforms shows sane.toOwned sane.counted chain
          small bits (Nat.le_of_not_lt full)
        have given : (a.serve build size (2 ^ k) c cs).1 ≠ 0 := by
          have nonzero := (sane.words (State.Shows.mem_chain chain)).nonzero
          change c.addr + blockHdr + c.used + c.pad (2 ^ k) ≠ 0
          omega
        refine ⟨_, s', _, ?_, if_neg full, shows'⟩
        rw [allocCore, served, ok_bind]
        exact if_pos given

theorem allocImpl_refines (conforms : parent.Conforms Out) (shows : s.Shows a)
    (sane : a.Sane build parent Out) (count size : Nat) {align : Nat} (word : align ≤ sizeMax) :
    Refines (allocImpl build count size align s) (a.allocImpl build count size align) := by
  have same : s.arena.status = a.status := by rw [shows.arena]; rfl
  unfold allocImpl Image.allocImpl State.canServe
  by_cases ready : a.status = .ok
  · rw [same, ready]
    simp only [decide_true, Bool.not_true, Bool.false_eq_true, if_false, ne_eq, not_true_eq_false]
    cases valid : alignValid align with
    | false => exact ⟨0, _, _, rfl, rfl, shows.fail .errArg⟩
    | true =>
        simp only [Bool.not_true, Bool.false_eq_true, if_false]
        by_cases empty : count = 0 ∨ size = 0
        · exact ⟨0, _, _, if_pos empty, if_pos empty, shows⟩
        · rw [if_neg empty, if_neg empty]
          have guard : (((count ||| size) >>> 32 ≠ 0 ∧ ptrdiffMax / size < count) ∨
              ptrdiffMax < sizeMul count size) ↔ ptrdiffMax < count * size :=
            product_guard (by decide) (Nat.pos_of_ne_zero fun none => empty (.inr none))
          by_cases large : ptrdiffMax < count * size
          · refine ⟨0, _, _, ?_, if_pos large, shows.fail .errOverflow⟩
            cases guard.mpr large with
            | inl divided => exact if_pos divided
            | inr wrapped => rw [if_pos wrapped, ite_self]
          · have exactly : sizeMul count size = count * size := by
              have bound : ptrdiffMax ≤ sizeMax := by decide
              exact sizeMul_of_le (by omega)
            have clear : ¬ ((count ||| size) >>> 32 ≠ 0 ∧ ptrdiffMax / size < count) :=
              fun divided => large (guard.mp (.inl divided))
            obtain ⟨k, bits, power⟩ := alignEffective_eq build word valid
            rw [if_neg clear, if_neg large, exactly, if_neg large, power]
            exact allocCore_refines conforms shows sane (Nat.le_of_not_lt large) bits
  · refine ⟨0, s, a, ?_, if_pos ready, shows⟩
    rw [same]
    exact if_pos (by simp [ready])

theorem allocDefault_refines (conforms : parent.Conforms Out) (shows : s.Shows a)
    (sane : a.Sane build parent Out) (size : Nat) :
    Refines (allocDefault build size s) (a.allocImpl build 1 size 0) := by
  have same : s.arena.status = a.status := by rw [shows.arena]; rfl
  have valid : alignValid 0 = true := by decide
  unfold allocDefault Image.allocImpl State.canServe
  by_cases ready : a.status = .ok
  · rw [same, ready, valid, Nat.one_mul]
    simp only [decide_true, Bool.not_true, Bool.false_eq_true, if_false, ne_eq, not_true_eq_false,
      Nat.one_ne_zero, false_or]
    by_cases empty : size = 0
    · exact ⟨0, _, _, if_pos empty, if_pos empty, shows⟩
    · rw [if_neg empty, if_neg empty]
      by_cases large : ptrdiffMax < size
      · exact ⟨0, _, _, if_pos large, if_pos large, shows.fail .errOverflow⟩
      · obtain ⟨k, bits, power⟩ := alignEffective_eq build (Nat.zero_le _) valid
        rw [if_neg large, if_neg large, power]
        exact allocCore_refines conforms shows sane (Nat.le_of_not_lt large) bits
  · refine ⟨0, s, a, ?_, if_pos ready, shows⟩
    rw [same]
    exact if_pos (by simp [ready])

end

end AgencC.Arena
