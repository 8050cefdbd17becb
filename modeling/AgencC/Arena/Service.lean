import AgencC.Arena.Soundness

/-! How an arena finds room, and what an allocation can come to. -/

set_option autoImplicit false

namespace AgencC.Arena

open Library

variable {σ : Type} {build : Build}

/-! Alignment. -/

theorem alignValid_iff {align : Nat} (word : align ≤ sizeMax) :
    alignValid align = true ↔ align = 0 ∨ ∃ k ≤ maxAlignBits, align = 2 ^ k := by
  have mask : sizeSub (sizeMul 2 (2 ^ maxAlignBits)) 1 = 2 ^ (maxAlignBits + 1) - 1 := by decide
  rw [alignValid, beq_iff_eq, Nat.or_eq_zero_iff, mask,
    and_sizeNot_mask_eq_zero_iff word (by decide)]
  by_cases zero : align = 0
  · subst zero
    have pos := Nat.two_pow_pos (maxAlignBits + 1)
    simp [pos]
  · rw [sizeSub_of_le (by omega) word, Nat.and_sub_one_eq_zero_iff_isPowerOfTwo zero]
    constructor
    · intro ⟨⟨k, power⟩, below⟩
      refine .inr ⟨k, ?_, power⟩
      rw [power] at below
      exact Nat.le_of_lt_succ ((Nat.pow_lt_pow_iff_right (by decide)).mp below)
    · intro valid
      cases valid with
      | inl none => exact absurd none zero
      | inr power =>
          obtain ⟨k, small, power⟩ := power
          refine ⟨⟨k, power⟩, ?_⟩
          rw [power]
          exact Nat.pow_lt_pow_right (by decide) (Nat.lt_succ_of_le small)

variable (build) in
/-- A valid alignment is effectively a power of two. -/
theorem alignEffective_eq {align : Nat} (word : align ≤ sizeMax) (valid : alignValid align = true) :
    ∃ k ≤ maxAlignBits, alignEffective build align = 2 ^ k := by
  have power : ∃ k ≤ maxAlignBits, (if align = 0 then defaultAlign else align) = 2 ^ k := by
    cases (alignValid_iff word).mp valid with
    | inl none => exact ⟨4, by decide, by rw [if_pos none]; rfl⟩
    | inr power =>
        obtain ⟨k, small, power⟩ := power
        have pos := Nat.two_pow_pos k
        exact ⟨k, small, by rw [if_neg (by omega), power]⟩
  obtain ⟨k, small, power⟩ := power
  rw [alignEffective, power]
  split
  · exact ⟨3, by decide, rfl⟩
  · exact ⟨k, small, rfl⟩

/-- Where redzones are poisoned, no alignment is effectively below 8. -/
theorem alignEffective_fine {align : Nat} (word : align ≤ sizeMax) (valid : alignValid align = true)
    (asan : build.asan = true) : blockAlign ∣ alignEffective build align := by
  obtain ⟨k, _, power⟩ := alignEffective_eq build word valid
  have large : 2 ^ 3 ≤ 2 ^ k := by
    rw [← power, alignEffective, asan, Bool.true_and]
    generalize (if align = 0 then defaultAlign else align) = asked
    by_cases small : asked < 8
    · exact Nat.le_of_eq (if_pos (decide_eq_true small)).symm
    · rw [if_neg fun below => small (of_decide_eq_true below)]
      exact Nat.le_of_not_lt small
  rw [power]
  exact Nat.pow_dvd_pow 2 ((Nat.pow_le_pow_iff_right (by decide)).mp large)

theorem Build.redzone_le (build : Build) : build.redzone ≤ 16 := by
  unfold redzone
  split <;> decide

theorem two_pow_le {k : Nat} (bits : k ≤ maxAlignBits) : 2 ^ k ≤ 65536 :=
  Nat.pow_le_pow_right (by decide) bits

section
variable {parent : AllocT σ} {Out : World σ → List Region → Prop} {a : Image σ}

/-! Blocks that join the chain. -/

theorem takeFit_some {need : Nat} {free rest : List Cell} {c : Cell}
    (found : takeFit need free = some (c, rest)) :
    ∃ xs ys, free = xs ++ c :: ys ∧ rest = xs ++ ys ∧ need ≤ c.cap := by
  induction free generalizing rest with
  | nil => cases found
  | cons d ds ih =>
      rw [takeFit] at found
      split at found
      · case isTrue room =>
          cases found
          exact ⟨[], ds, rfl, rfl, room⟩
      · case isFalse full =>
          obtain ⟨⟨e, others⟩, later, same⟩ := Option.map_eq_some_iff.mp found
          cases same
          obtain ⟨xs, ys, before, after, room⟩ := ih later
          exact ⟨d :: xs, ys, by rw [before]; rfl, by rw [after]; rfl, room⟩

theorem Image.obtain_none {need : Nat} {b : Image σ}
    (refused : a.obtain build need = .ok (none, b)) :
    ∃ world, a.parent.xalloc (max a.nextBlock (blockHdr + need)) 0 a.world = .ok (0, world) ∧
      b = Image.fail .errAlloc { a with world } := by
  obtain ⟨⟨block, world⟩, answer, rest⟩ := bind_eq_ok.mp refused
  by_cases null : block = 0
  · subst null
    cases rest
    exact ⟨world, answer, rfl⟩
  · have given := (if_neg null).symm.trans rest
    cases given

theorem Image.obtain_some {need : Nat} {c : Cell} {b : Image σ}
    (given : a.obtain build need = .ok (some c, b)) :
    ∃ world,
      a.parent.xalloc (max a.nextBlock (blockHdr + need)) 0 a.world = .ok (c.addr, world) ∧
      c.addr ≠ 0 ∧
      c =
        { addr := c.addr, cap := max a.nextBlock (blockHdr + need) - blockHdr, used := 0
          oversize := max a.nextBlock (blockHdr + need) ≠ a.nextBlock } ∧
      b =
        { a with
          nextBlock := if c.oversize then a.nextBlock else min a.maxBlock (a.nextBlock * 2)
          committed := a.committed + max a.nextBlock (blockHdr + need)
          world := world.shade build c.data c.cap } := by
  obtain ⟨⟨block, world⟩, answer, rest⟩ := bind_eq_ok.mp given
  by_cases null : block = 0
  · have refused := (if_pos null).symm.trans rest
    cases refused
  · have given := (if_neg null).symm.trans rest
    cases given
    exact ⟨world, answer, null, rfl, rfl⟩

variable (Out) in
/-- A refusal leaves everything the arena holds alone. -/
structure Image.Refused (a : Image σ) (world : World σ) : Prop where
  keeps : a.world.Keeps a.regions world
  out : a.fixed = false → Out world a.regions
  calm : a.fixed = true → world.parent = a.world.parent

theorem Image.Owned.obtain (conforms : parent.Conforms Out) (owned : a.Owned build parent Out)
    (growing : a.fixed = false) {need : Nat} (bound : need ≤ ptrdiffMax - blockHdr) :
    (∃ world, a.obtain build need = .ok (none, Image.fail .errAlloc { a with world }) ∧
      a.Refused Out world) ∨
    ∃ c nextBlock committed world,
      a.obtain build need = .ok (some c, { a with nextBlock, committed, world }) ∧
      need ≤ c.cap ∧ c.used = 0 ∧ a.world.Keeps a.regions world ∧
      Image.Owned build parent Out
        { a with chain := c :: a.chain, nextBlock, committed, world } := by
  obtain ⟨floor, below, above⟩ := owned.policy growing
  have header : fixedOverhead = 64 ∧ blockHdr = 32 := ⟨rfl, rfl⟩
  have room : blockHdr ≤ ptrdiffMax := by decide
  have size : 0 < max a.nextBlock (blockHdr + need) ∧
      max a.nextBlock (blockHdr + need) ≤ ptrdiffMax := by
    generalize ptrdiffMax = limit at *
    omega
  have holder : a.parent = parent := owned.parent
  obtain ⟨ptr, world, answered, keeps, outcome⟩ := conforms.xalloc (owned.out growing) size.1 size.2
  cases outcome with
  | inl refused =>
      obtain ⟨null, out⟩ := refused
      refine .inl ⟨world, ?_, keeps, fun _ => out, fun fixed => nomatch growing.symm.trans fixed⟩
      simp only [Image.obtain, holder, answered, ok_bind, if_pos null]
  | inr given =>
      obtain ⟨nonzero, out⟩ := given
      let c : Cell :=
        { addr := ptr, cap := max a.nextBlock (blockHdr + need) - blockHdr, used := 0
          oversize := max a.nextBlock (blockHdr + need) ≠ a.nextBlock }
      have region : c.region = ⟨ptr, max a.nextBlock (blockHdr + need)⟩ := by
        have whole : blockHdr + c.cap = max a.nextBlock (blockHdr + need) :=
          Nat.add_sub_cancel' (Nat.le_trans (Nat.le_add_right _ _) (Nat.le_max_right _ _))
        rw [Cell.region, whole]
      have shaded := World.shade_touched build c.data c.cap world
      have within : Region.Within ⟨c.data, c.cap⟩ c.region :=
        Cell.data_within (Nat.le_refl _) (Nat.le_refl _)
      rw [← region] at out
      obtain ⟨separate, apart⟩ := List.pairwise_cons.mp (conforms.apart out)
      have out : Out (world.shade build c.data c.cap) (c.region :: a.regions) :=
        conforms.written out (shaded.inside (.head _) within)
      have kept : a.world.Keeps a.regions (world.shade build c.data c.cap) :=
        keeps.trans (shaded.keeps fun r member => (separate r member).mono within (.refl _))
      refine .inr ⟨c, if c.oversize then a.nextBlock else min a.maxBlock (a.nextBlock * 2),
        a.committed + max a.nextBlock (blockHdr + need), world.shade build c.data c.cap, ?_, ?_, rfl,
        kept, ?_⟩
      · simp only [Image.obtain, holder, answered, ok_bind, if_neg nonzero]
        rfl
      · change need ≤ max a.nextBlock (blockHdr + need) - blockHdr
        omega
      · exact
          { apart := conforms.apart out
            inside := List.forall_mem_cons.mpr
              ⟨conforms.inside out c.region (.head _), owned.inside⟩
            sized := List.forall_mem_cons.mpr
              ⟨Nat.le_trans (Nat.le_of_eq (congrArg Region.size region)) size.2, owned.sized⟩
            fits := List.forall_mem_cons.mpr ⟨Nat.zero_le _, owned.fits⟩
            empty := owned.empty
            parent := holder
            policy := fun _ => by
              change fixedOverhead ≤ (if _ then _ else _) ∧ (if _ then _ else _) ≤ a.maxBlock ∧ _
              split
              · exact ⟨floor, below, above⟩
              · exact ⟨Nat.le_min.mpr ⟨Nat.le_trans floor below, by omega⟩, Nat.min_le_left _ _, above⟩
            out := fun _ => out
            total := fun _ => by
              have total := owned.total growing
              change a.committed + max a.nextBlock (blockHdr + need) =
                c.region.size + (a.regions.map Region.size).sum
              rw [region, total, Nat.add_comm]
            buffer := fun fixed => Bool.noConfusion (growing.symm.trans fixed)
            dark := fun asan => List.forall_mem_cons.mpr
              ⟨fun x above below => by
                rw [World.shade_poisoned asan]
                exact if_pos ⟨above, below⟩,
              fun d member => (owned.dark asan d member).kept kept (List.mem_map_of_mem member)⟩ }

/-- Room for `need` bytes is found in `c`, newest before `cs` in what becomes of the arena. -/
inductive Image.Enters (build : Build) (need : Nat) (a : Image σ) :
    Cell → List Cell → Image σ → Prop where
  | current {c : Cell} {cs : List Cell} (chain : a.chain = c :: cs) : Enters build need a c cs a
  | reused {c : Cell} {rest : List Cell} (growing : a.fixed = false)
      (found : takeFit need a.free = some (c, rest)) :
      Enters build need a c a.chain { a with free := rest }
  | obtained {c : Cell} {nextBlock committed : Nat} {world : World σ} (growing : a.fixed = false)
      (bound : need ≤ ptrdiffMax - blockHdr) (absent : takeFit need a.free = none)
      (found : a.obtain build need = .ok (some c, { a with nextBlock, committed, world })) :
      Enters build need a c a.chain { a with nextBlock, committed, world }

variable (build Out) in
/-- What an allocation of `size` bytes at `align` can come to. -/
inductive Image.Outcome (size align : Nat) (a : Image σ) : Nat × Image σ → Prop where
  | refused {world : World σ} {status : Status} (refusal : a.Refused Out world)
      (failed : status ≠ .ok) : Outcome size align a (0, Image.fail status { a with world })
  | served {c : Cell} {cs : List Cell} {b : Image σ}
      (enters : a.Enters build (build.need size align) c cs b)
      (room : c.used + (c.pad align + build.footprint size) ≤ c.cap) :
      Outcome size align a (b.serve build size align c cs)

theorem Image.Refused.refl (owned : a.Owned build parent Out) : a.Refused Out a.world :=
  ⟨.refl _ _, owned.out, fun _ => rfl⟩

/-- The newest block with the rest of the chain is sound once it is entered. -/
theorem Image.Owned.enters (conforms : parent.Conforms Out) (owned : a.Owned build parent Out)
    {need : Nat} {c : Cell} {cs : List Cell} {b : Image σ} (enters : a.Enters build need c cs b) :
    Image.Owned build parent Out { b with chain := c :: cs } ∧ a.world.Keeps a.regions b.world := by
  cases enters with
  | current chain =>
      refine ⟨?_, .refl _ _⟩
      rw [← chain]
      exact owned
  | reused growing found =>
      refine ⟨?_, .refl _ _⟩
      obtain ⟨xs, ys, before, rfl, room⟩ := takeFit_some found
      refine owned.rearrange conforms growing ?_ fun d member => owned.empty d ?_
      · rw [Image.cells, before, ← List.append_assoc]
        refine List.perm_middle.trans ?_
        rw [List.append_assoc]
        exact .refl _
      · rw [before]
        simp only [List.mem_append, List.mem_cons] at member ⊢
        grind
  | obtained growing bound absent found =>
      cases owned.obtain conforms growing bound with
      | inl refused =>
          obtain ⟨world, answer, refusal⟩ := refused
          rw [answer] at found
          cases found
      | inr given =>
          obtain ⟨c, nextBlock, committed, world, answer, room, empty, keeps, after⟩ := given
          rw [answer] at found
          cases found
          exact ⟨after, keeps⟩

/-- Padding is less than the alignment, so a block with room for the need has room. -/
theorem Cell.room_of_need {c : Cell} {size align : Nat} (pos : 0 < align) (empty : c.used = 0)
    (room : build.need size align ≤ c.cap) :
    c.used + (c.pad align + build.footprint size) ≤ c.cap := by
  have padded : c.pad align < align := padding_lt pos
  unfold Build.need at room
  unfold Build.footprint
  omega

theorem Image.Owned.grow (conforms : parent.Conforms Out) (owned : a.Owned build parent Out)
    (size : Nat) {align : Nat} (pos : 0 < align) :
    ∃ r, a.grow build size align = .ok r ∧ a.Outcome build Out size align r := by
  unfold Image.grow
  by_cases fixed : a.fixed = true
  · exact ⟨_, if_pos fixed, .refused (.refl owned) (by decide)⟩
  · rw [if_neg fixed]
    have growing : a.fixed = false := Bool.not_eq_true _ ▸ fixed
    by_cases large : ptrdiffMax - blockHdr < build.need size align
    · exact ⟨_, if_pos large, .refused (.refl owned) (by decide)⟩
    · rw [if_neg large]
      have bound := Nat.le_of_not_lt large
      cases found : takeFit (build.need size align) a.free with
      | some taken =>
          obtain ⟨c, rest⟩ := taken
          obtain ⟨xs, ys, before, after, room⟩ := takeFit_some found
          have free := owned.empty c (before ▸ List.mem_append_right _ (.head _))
          exact ⟨_, rfl, .served (.reused growing found) (Cell.room_of_need pos free.1 room)⟩
      | none =>
          cases owned.obtain conforms growing bound with
          | inl refused =>
              obtain ⟨world, answer, refusal⟩ := refused
              refine ⟨(0, Image.fail .errAlloc { a with world }), ?_, .refused refusal (by decide)⟩
              simp only [answer, ok_bind]
          | inr given =>
              obtain ⟨c, nextBlock, committed, world, answer, room, empty, keeps, after⟩ := given
              refine ⟨Image.serve build size align c a.chain
                { a with nextBlock, committed, world }, ?_,
                .served (.obtained growing bound found answer) (Cell.room_of_need pos empty room)⟩
              simp only [answer, ok_bind]

theorem Image.Owned.allocCore (conforms : parent.Conforms Out) (owned : a.Owned build parent Out)
    (size : Nat) {align : Nat} (pos : 0 < align) :
    ∃ r, a.allocCore build size align = .ok r ∧ a.Outcome build Out size align r := by
  unfold Image.allocCore
  cases chain : a.chain with
  | nil => exact owned.grow conforms size pos
  | cons c cs =>
      by_cases full : c.cap < c.used + (c.pad align + build.footprint size)
      · obtain ⟨r, grown, outcome⟩ := owned.grow conforms size pos
        exact ⟨r, (if_pos full).trans grown, outcome⟩
      · exact ⟨_, if_neg full, .served (.current chain) (Nat.le_of_not_lt full)⟩

/-- What one call for `count` elements of `size` bytes comes to. -/
inductive Image.Reply (build : Build) (Out : World σ → List Region → Prop)
    (count size align : Nat) (a : Image σ) : Nat × Image σ → Prop where
  | latched (failed : a.status ≠ .ok) : Reply build Out count size align a (0, a)
  | invalid (ready : a.status = .ok) (invalid : alignValid align = false) :
      Reply build Out count size align a (0, a.fail .errArg)
  | nothing (ready : a.status = .ok) (valid : alignValid align = true)
      (empty : count * size = 0) : Reply build Out count size align a (0, a)
  | overflow (ready : a.status = .ok) (valid : alignValid align = true)
      (large : ptrdiffMax < count * size) :
      Reply build Out count size align a (0, a.fail .errOverflow)
  | outcome (ready : a.status = .ok) (valid : alignValid align = true)
      (some : 0 < count * size) (small : count * size ≤ ptrdiffMax) {r : Nat × Image σ}
      (outcome : a.Outcome build Out (count * size) (alignEffective build align) r) :
      Reply build Out count size align a r

theorem Image.Owned.allocImpl (conforms : parent.Conforms Out) (owned : a.Owned build parent Out)
    (count size : Nat) {align : Nat} (word : align ≤ sizeMax) :
    ∃ r, a.allocImpl build count size align = .ok r ∧ a.Reply build Out count size align r := by
  unfold Image.allocImpl
  by_cases ready : a.status = .ok
  · rw [if_neg (not_not_intro ready)]
    cases valid : alignValid align with
    | false => exact ⟨_, if_pos rfl, .invalid ready valid⟩
    | true =>
        rw [if_neg (by decide)]
        by_cases empty : count = 0 ∨ size = 0
        · exact ⟨_, if_pos empty, .nothing ready valid (Nat.mul_eq_zero.mpr empty)⟩
        · rw [if_neg empty]
          by_cases large : ptrdiffMax < count * size
          · exact ⟨_, if_pos large, .overflow ready valid large⟩
          · obtain ⟨k, bits, power⟩ := alignEffective_eq build word valid
            have pos : 0 < alignEffective build align := power ▸ Nat.two_pow_pos k
            obtain ⟨r, served, outcome⟩ := owned.allocCore conforms (count * size) pos
            have some : 0 < count * size :=
              Nat.pos_of_ne_zero fun none => empty (Nat.mul_eq_zero.mp none)
            exact ⟨r, (if_neg large).trans served,
              .outcome ready valid some (Nat.le_of_not_lt large) outcome⟩
  · exact ⟨_, if_pos ready, .latched ready⟩

/-! The arena after an allocation. -/

/-- The block after an allocation is dark again from its cursor on. -/
theorem Cell.Dark.bump (asan : build.asan = true) {c : Cell} {w : World σ} (dark : c.Dark w)
    (size align : Nat) :
    Cell.Dark (w.live build (c.cursor + c.pad align) size) (c.bump build size align) := by
  intro x above below
  have past : c.cursor + (c.pad align + (size + build.redzone)) ≤ x := by
    have above : c.addr + blockHdr + (c.used + (c.pad align + (size + build.redzone))) ≤ x := above
    unfold Cell.cursor
    omega
  rw [World.live_poisoned asan, if_neg (by omega)]
  exact dark x (by omega) below

theorem Cell.bump_within {c : Cell} {size align : Nat}
    (room : c.used + (c.pad align + build.footprint size) ≤ c.cap) :
    Region.Within ⟨c.cursor + c.pad align, size⟩ c.region := by
  unfold Build.footprint at room
  refine Cell.data_within ?_ ?_
  · change c.data ≤ c.data + c.used + c.pad align
    omega
  · change c.data + c.used + c.pad align + size ≤ c.data + c.cap
    omega

theorem Image.Sane.serve (conforms : parent.Conforms Out) {c : Cell} {cs : List Cell}
    (owned : Image.Owned build parent Out { a with chain := c :: cs })
    (counted : a.used ≤ consumed (c :: cs)) {size align : Nat}
    (room : c.used + (c.pad align + build.footprint size) ≤ c.cap) :
    Image.Sane build parent Out (a.serve build size align c cs).2 where
  toOwned := owned.setHead conforms rfl room
    (World.live_touched build (c.cursor + c.pad align) size a.world) (Cell.bump_within room)
    (fun asan => (owned.dark asan c (.head _)).bump asan size align) _ _
  counted := by
    change a.used + (c.pad align + build.footprint size) ≤
      c.used + (c.pad align + build.footprint size) + consumed cs
    rw [consumed_cons] at counted
    omega
  peak := Nat.le_max_right _ _

end

end AgencC.Arena
