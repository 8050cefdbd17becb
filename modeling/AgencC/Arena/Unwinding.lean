import AgencC.Arena.Storage

/-! `arena.c` gives up blocks as its image does: retiring, releasing, and the loops of the
calls that unwind the chain. -/

set_option autoImplicit false

namespace AgencC.Arena

open Library

variable {σ : Type} {build : Build}

section
variable {parent : AllocT σ} {Out : World σ → List Region → Prop} {a : Image σ} {s : State σ}

theorem Holds.swap {blocks : Blocks} {chain free loose : List Cell}
    (holds : Holds blocks chain free loose) : Holds blocks free chain loose where
  linked := holds.linkedFree
  linkedFree := holds.linked
  stored := holds.stored
  only addr stored := by
    obtain ⟨d, member, same⟩ := holds.only addr stored
    refine ⟨d, ?_, same⟩
    simp only [List.mem_append] at member ⊢
    grind
  distinct := by
    refine (List.Perm.map _ ?_).nodup_iff.mp holds.distinct
    rw [← List.append_assoc, ← List.append_assoc]
    exact List.perm_append_comm.append_right _

/-! One block. -/

variable (build) in
theorem rewindBlock_of {c : Cell} {link : Nat} (nonzero : c.addr ≠ 0)
    (found : s.blocks.lookup c.addr = some (c.header link)) (fits : c.used ≤ c.cap) :
    rewindBlock build c.addr s =
      .ok
        { s with
          blocks := s.blocks.insert c.addr (Cell.header link { c with used := 0 })
          world := s.world.dead build c.data c.used } := by
  have inside : s.InData (c.addr + blockHdr + 0) (c.used - 0) :=
    State.inData_of_lookup found (Nat.le_refl _) (Nat.add_le_add_left fits _)
  have marked := markDead_of build (s := s) 0 c.used nonzero inside
  rw [rewindBlock, State.header_of_lookup found, ok_bind]
  refine bind_eq_ok.mpr ⟨_, marked, ?_⟩
  exact State.setHeader_of_lookup (s := { s with world := s.world.dead build c.data c.used }) found _

variable (build) in
theorem rewindBlock_spec {current freeBlocks : Nat} {chain free loose : List Cell} {c : Cell}
    (mirrors : s.Mirrors a current freeBlocks chain free (c :: loose)) (fits : c.used ≤ c.cap) :
    ∃ s', rewindBlock build c.addr s = .ok s' ∧
      s'.Mirrors { a with world := a.world.dead build c.data c.used } current freeBlocks chain free
        ({ c with used := 0 } :: loose) := by
  obtain ⟨nonzero, link, found⟩ := mirrors.blocks.stored c (.head _)
  exact ⟨_, rewindBlock_of build nonzero found fits, mirrors.arena, by rw [mirrors.world],
    mirrors.blocks.rewrite (e := { c with used := 0 }) rfl link⟩

variable (build) in
theorem retireBlock_spec {current : Nat} {chain loose : List Cell} {c : Cell}
    (mirrors : s.Mirrors a current (Cell.layout.first a.free) chain a.free (c :: loose))
    (fits : c.used ≤ c.cap) :
    ∃ s', retireBlock build c.addr s = .ok s' ∧
      s'.Mirrors (a.retire build c) current (Cell.layout.first (a.retire build c).free) chain
        (a.retire build c).free loose := by
  obtain ⟨s', rewound, mirrors'⟩ := rewindBlock_spec build mirrors fits
  obtain ⟨nonzero, link, found⟩ := mirrors'.blocks.stored _ (.head _)
  have found : s'.blocks.lookup c.addr = some (Cell.header link { c with used := 0 }) := found
  have freeBlocks : s'.arena.freeBlocks = Cell.layout.first a.free := by rw [mirrors'.arena]
  have linked := (mirrors'.blocks.rewrite (e := { c with used := 0 }) rfl
    (Cell.layout.first a.free)).attachFree (AList.lookup_insert _)
  refine ⟨{ s' with
    blocks := s'.blocks.insert c.addr
      (Cell.header (Cell.layout.first a.free) { c with used := 0 })
    arena := { s'.arena with freeBlocks := c.addr } }, ?_, ?_, mirrors'.world, linked⟩
  · rw [retireBlock, rewound, ok_bind, State.header_of_lookup found, ok_bind, freeBlocks]
    exact bind_eq_ok.mpr ⟨_, State.setHeader_of_lookup found _, rfl⟩
  · rw [mirrors'.arena]
    rfl

theorem releaseBlock_spec {current freeBlocks : Nat} {chain free loose : List Cell} {c : Cell}
    {b : Image σ} (mirrors : s.Mirrors a current freeBlocks chain free (c :: loose))
    (fits : c.used ≤ c.cap) (counted : blockHdr + c.cap ≤ a.committed)
    (word : a.committed ≤ sizeMax) (released : a.release build c = .ok b) :
    ∃ s', releaseBlock build c.addr s = .ok s' ∧
      s'.Mirrors b current freeBlocks chain free loose := by
  obtain ⟨nonzero, link, found⟩ := mirrors.blocks.stored c (.head _)
  obtain ⟨world, freed, same⟩ := bind_eq_ok.mp released
  cases same
  have arena := mirrors.arena
  have inside : s.InData (c.addr + blockHdr) c.used :=
    State.inData_of_lookup found (Nat.le_refl _) (Nat.add_le_add_left fits _)
  have filled := fillDead_of build inside
  have size : sizeAdd blockHdr c.cap = blockHdr + c.cap := sizeAdd_of_le (Nat.le_trans counted word)
  have committed : s.arena.committed = a.committed := by rw [arena]; rfl
  have left : build.sub s.arena.committed (blockHdr + c.cap) =
      .ok (a.committed - (blockHdr + c.cap)) := by
    rw [committed]
    exact build.sub_of_le counted word
  have holder : s.arena.parent = a.parent := by rw [arena]; rfl
  have freed : s.arena.parent.xfree c.addr (blockHdr + c.cap) 0
      (s.world.fade build (c.addr + blockHdr) c.used) = .ok world := by
    rw [holder, mirrors.world]
    exact freed
  refine ⟨{ arena := { s.arena with committed := a.committed - (blockHdr + c.cap) }
            blocks := s.blocks.erase c.addr, world }, ?_, ?_, rfl, mirrors.blocks.erase⟩
  · rw [releaseBlock, State.header_of_lookup found, ok_bind, blockData_of build nonzero, ok_bind]
    refine bind_eq_ok.mpr ⟨_, filled, ?_⟩
    have capacity : (c.header link).cap = c.cap := rfl
    refine bind_eq_ok.mpr ⟨_, (by rw [capacity, size]; exact left), ?_⟩
    refine bind_eq_ok.mpr ⟨world, ?_, rfl⟩
    rw [capacity, size, allocFree, Build.check_of build (Nat.zero_and _), ok_bind]
    exact freed
  · rw [arena]
    rfl

/-! The loops. -/

theorem State.Mirrors.detach {current freeBlocks : Nat} {cs free loose : List Cell} {c : Cell}
    (mirrors : s.Mirrors a current freeBlocks (c :: cs) free loose) :
    s.Mirrors a current freeBlocks cs free (c :: loose) :=
  ⟨mirrors.arena, mirrors.world, mirrors.blocks.detach⟩

theorem Image.discard_cons {c : Cell} {cs : List Cell} {a' : Image σ}
    (dropped : (if c.oversize then a.release build c else .ok (a.retire build c)) = .ok a') :
    a.discard build (c :: cs) = a'.discard build cs := by
  rw [Image.discard]
  split at dropped
  · case isTrue kind => rw [if_pos kind, dropped, ok_bind]
  · case isFalse kind => rw [if_neg kind, dropped, ok_bind]

/-- What releasing the newest block needs to know of the arena. -/
theorem Image.Owned.committed_words {c : Cell} {cs free : List Cell}
    (owned : Image.Owned build parent Out { a with chain := c :: cs, free })
    (growing : a.fixed = false) :
    blockHdr + c.cap ≤ a.committed ∧ a.committed ≤ sizeMax := by
  have total : a.committed =
      blockHdr + c.cap + (((cs ++ free).map Cell.region).map Region.size).sum := owned.total growing
  have bound : blockHdr + c.cap + (((cs ++ free).map Cell.region).map Region.size).sum ≤ sizeMax :=
    owned.total_le
  omega

theorem releaseChainLoop_spec (conforms : parent.Conforms Out)
    {bound current freeBlocks : Nat} {cells other keep free : List Cell}
    (mirrors : s.Mirrors a current freeBlocks cells other [])
    (owned : Image.Owned build parent Out { a with chain := cells ++ keep, free })
    (growing : a.fixed = false) (enough : cells.length < bound) :
    ∃ s' a', a.releaseAll build cells = .ok a' ∧
      releaseChainLoop build bound (Cell.layout.first cells) s = .ok s' ∧
      s'.Mirrors a' current freeBlocks [] other [] := by
  induction cells generalizing s a bound with
  | nil =>
      cases bound with
      | zero => cases enough
      | succ bound => exact ⟨s, a, rfl, if_pos rfl, mirrors⟩
  | cons c cs ih =>
      cases bound with
      | zero => cases enough
      | succ bound =>
          have nonzero : c.addr ≠ 0 := mirrors.blocks.linked.1
          have found : s.blocks.lookup c.addr = some (c.header (Cell.layout.first cs)) :=
            mirrors.blocks.linked.2.1
          obtain ⟨counted, word⟩ := Image.Owned.committed_words owned growing
          obtain ⟨world, released, keeps, rest⟩ := owned.release conforms growing
          obtain ⟨s', ran, mirrors'⟩ :=
            releaseBlock_spec mirrors.detach (owned.fits c (.head _)) counted word released
          obtain ⟨s'', a'', all, looped, last⟩ :=
            ih mirrors' rest growing (Nat.lt_of_succ_lt_succ enough)
          refine ⟨s'', a'', ?_, ?_, last⟩
          · rw [Image.releaseAll, released]
            exact all
          · change (if c.addr = 0 then _ else s.header c.addr >>= _) = _
            rw [if_neg nonzero, State.header_of_lookup found, ok_bind]
            exact bind_eq_ok.mpr ⟨s', ran, looped⟩

/-- A block that leaves the chain is released or retired, as its kind says. -/
theorem discardBlock_spec (conforms : parent.Conforms Out) {current : Nat} {c : Cell}
    {cs rest loose : List Cell}
    (mirrors : s.Mirrors a current (Cell.layout.first a.free) (c :: cs) a.free loose)
    (owned : Image.Owned build parent Out { a with chain := c :: rest })
    (growing : a.fixed = false) :
    ∃ s' a', (if c.oversize then a.release build c else .ok (a.retire build c)) = .ok a' ∧
      (if c.oversize then releaseBlock build c.addr s else retireBlock build c.addr s) = .ok s' ∧
      s'.Mirrors a' current (Cell.layout.first a'.free) cs a'.free loose ∧
      Image.Owned build parent Out { a' with chain := rest } ∧ a'.fixed = false := by
  have fits := owned.fits c (.head _)
  cases kind : c.oversize with
  | true =>
      obtain ⟨counted, word⟩ := Image.Owned.committed_words owned growing
      obtain ⟨world, released, keeps, others⟩ := owned.release conforms growing
      obtain ⟨s', ran, mirrors'⟩ := releaseBlock_spec mirrors.detach fits counted word released
      exact ⟨s', _, released, ran, mirrors', others, growing⟩
  | false =>
      obtain ⟨s', ran, mirrors'⟩ := retireBlock_spec build mirrors.detach fits
      exact ⟨s', _, rfl, ran, mirrors', owned.retire conforms growing kind, growing⟩

theorem popLoop_spec (conforms : parent.Conforms Out) {bound current : Nat}
    {entered keep : List Cell}
    (mirrors : s.Mirrors a current (Cell.layout.first a.free) (entered ++ keep) a.free [])
    (owned : Image.Owned build parent Out { a with chain := entered ++ keep })
    (growing : entered ≠ [] → a.fixed = false)
    (later : ∀ c ∈ entered, c.addr ≠ Cell.layout.first keep) (enough : entered.length < bound) :
    ∃ s' a', a.discard build entered = .ok a' ∧
      popLoop build (Cell.layout.first keep) bound (Cell.layout.first (entered ++ keep)) s =
        .ok (Cell.layout.first keep, s') ∧
      s'.Mirrors a' current (Cell.layout.first a'.free) keep a'.free [] := by
  induction entered generalizing s a bound with
  | nil =>
      cases bound with
      | zero => cases enough
      | succ bound =>
          exact ⟨s, a, rfl, if_neg fun both => both.2 rfl, mirrors⟩
  | cons c cs ih =>
      cases bound with
      | zero => cases enough
      | succ bound =>
          have growing := growing (List.cons_ne_nil _ _)
          have nonzero : c.addr ≠ 0 := mirrors.blocks.linked.1
          have found : s.blocks.lookup c.addr = some (c.header (Cell.layout.first (cs ++ keep))) :=
            mirrors.blocks.linked.2.1
          have unfolded : popLoop build (Cell.layout.first keep) (bound + 1) c.addr s =
              (if c.oversize then releaseBlock build c.addr s else retireBlock build c.addr s) >>=
                popLoop build (Cell.layout.first keep) bound (Cell.layout.first (cs ++ keep)) := by
            rw [popLoop, if_pos ⟨nonzero, later c (.head _)⟩, State.header_of_lookup found, ok_bind]
            cases kind : c.oversize with
            | true | false =>
                change (if c.oversize then _ else _) = _
                rw [kind]
                rfl
          obtain ⟨s', a', dropped, ran, mirrors', rest, still⟩ :=
            discardBlock_spec conforms mirrors owned growing
          rw [ran, ok_bind] at unfolded
          obtain ⟨s'', a'', all, looped, last⟩ :=
            ih mirrors' rest (fun _ => still) (fun d member => later d (.tail _ member))
              (Nat.lt_of_succ_lt_succ enough)
          exact ⟨s'', a'', (Image.discard_cons dropped).trans all, unfolded.trans looped, last⟩

/-! The loops of `arena_reset`. -/

theorem oldestNormal_cons (c : Cell) (cs : List Cell) :
    oldestNormal (c :: cs) =
      (oldestNormal cs).or (if c.oversize then none else some c) := by
  unfold oldestNormal
  cases kind : c.oversize with
  | true =>
      rw [List.filter_cons_of_neg (by simp [kind])]
      exact Option.or_none.symm
  | false =>
      rw [List.filter_cons_of_pos (by simp [kind]), List.getLast?_cons]
      cases (cs.filter (!·.oversize)).getLast? <;> rfl

theorem oldestNormal_some {chain : List Cell} {c : Cell} (found : oldestNormal chain = some c) :
    c ∈ chain ∧ c.oversize = false := by
  have member := List.mem_of_getLast? found
  rw [List.mem_filter] at member
  exact ⟨member.1, by simpa using member.2⟩

theorem oldestNormalLoop_spec {bound : Nat} (oldest : Nat) {cells : List Cell}
    (linked : Cell.layout.Linked s.blocks.lookup cells) (enough : cells.length < bound) :
    oldestNormalLoop s bound (Cell.layout.first cells) oldest =
      .ok (((oldestNormal cells).map Cell.addr).getD oldest) := by
  induction cells generalizing bound oldest with
  | nil =>
      cases bound with
      | zero => cases enough
      | succ bound => rfl
  | cons c cs ih =>
      cases bound with
      | zero => cases enough
      | succ bound =>
          have nonzero : c.addr ≠ 0 := linked.1
          have found : s.blocks.lookup c.addr = some (c.header (Cell.layout.first cs)) := linked.2.1
          change oldestNormalLoop s (bound + 1) c.addr oldest = _
          rw [oldestNormalLoop, if_neg nonzero, State.header_of_lookup found, ok_bind]
          change oldestNormalLoop s bound (Cell.layout.first cs)
            (if c.oversize then oldest else c.addr) = _
          rw [ih _ linked.2.2 (Nat.lt_of_succ_lt_succ enough), oldestNormal_cons]
          cases oldestNormal cs with
          | some d => rfl
          | none => cases c.oversize <;> rfl

/-- The second loop of `arena_reset` discards every block but the one it keeps. -/
theorem resetLoop_spec (conforms : parent.Conforms Out) {bound current oldest : Nat}
    {cells keep loose : List Cell}
    (mirrors : s.Mirrors a current (Cell.layout.first a.free) cells a.free loose)
    (owned : Image.Owned build parent Out
      { a with chain := cells.filter (·.addr ≠ oldest) ++ keep })
    (growing : a.fixed = false) (enough : cells.length < bound) :
    ∃ s' a', a.discard build (cells.filter (·.addr ≠ oldest)) = .ok a' ∧
      resetLoop build oldest bound (Cell.layout.first cells) s = .ok s' ∧
      s'.Mirrors a' current (Cell.layout.first a'.free) [] a'.free
        ((cells.filter (·.addr = oldest)).reverse ++ loose) := by
  induction cells generalizing s a bound loose with
  | nil =>
      cases bound with
      | zero => cases enough
      | succ bound => exact ⟨s, a, rfl, if_pos rfl, mirrors⟩
  | cons c cs ih =>
      cases bound with
      | zero => cases enough
      | succ bound =>
          have nonzero : c.addr ≠ 0 := mirrors.blocks.linked.1
          have found : s.blocks.lookup c.addr = some (c.header (Cell.layout.first cs)) :=
            mirrors.blocks.linked.2.1
          have enough := Nat.lt_of_succ_lt_succ enough
          have unfolded : resetLoop build oldest (bound + 1) c.addr s =
              if c.addr = oldest then resetLoop build oldest bound (Cell.layout.first cs) s
              else
                (if c.oversize then releaseBlock build c.addr s else retireBlock build c.addr s) >>=
                  resetLoop build oldest bound (Cell.layout.first cs) := by
            rw [resetLoop, if_neg nonzero, State.header_of_lookup found, ok_bind]
            cases kind : c.oversize with
            | true | false =>
                change (if _ then _ else if c.oversize then _ else _) = _
                rw [kind]
                rfl
          by_cases kept : c.addr = oldest
          · rw [List.filter_cons_of_neg (by simp [kept])] at owned ⊢
            rw [List.filter_cons_of_pos (by simp [kept])]
            obtain ⟨s', a', all, looped, last⟩ := ih mirrors.detach owned growing enough
            refine ⟨s', a', all, ?_, ?_⟩
            · change resetLoop build oldest (bound + 1) c.addr s = _
              rw [unfolded, if_pos kept, looped]
            · rw [List.reverse_cons, List.append_assoc]
              exact last
          · rw [List.filter_cons_of_pos (by simp [kept])] at owned ⊢
            rw [List.filter_cons_of_neg (by simp [kept])]
            obtain ⟨s', a', dropped, ran, mirrors', rest, still⟩ :=
              discardBlock_spec conforms mirrors owned growing
            rw [if_neg kept, ran, ok_bind] at unfolded
            obtain ⟨s'', a'', all, looped, last⟩ := ih mirrors' rest still enough
            exact ⟨s'', a'', (Image.discard_cons dropped).trans all, unfolded.trans looped, last⟩

end

end AgencC.Arena
