import AgencC.Arena.Depth
import AgencC.Arena.Fixed

/-! What `arena_temp_end` does with a snapshot that it should not be given: of a scope that is not
the innermost one, that has ended, or that was begun before a reset. A debug build tells by its
assertions. A release build goes on, and never raises a cursor. -/

set_option autoImplicit false

namespace AgencC.Arena

open Library

variable {σ : Type} {build : Build}

section
variable {parent : AllocT σ} {Out : World σ → List Region → Prop} {a a' : Image σ} {s : State σ}

/-- No cursor is raised, and what stays below one is left as it is. A fixed arena keeps its
block. -/
structure Image.Lowers (a a' : Image σ) : Prop where
  kept : ∀ x, Below a'.chain x → Below a.chain x ∧
    a'.world.bytes x = a.world.bytes x ∧ a'.world.poisoned x = a.world.poisoned x
  pieces : a'.pieces ⊆ a.pieces
  used : a'.used ≤ a.used
  tempDepth : a'.tempDepth ≤ a.tempDepth
  highWater : a'.highWater = a.highWater
  generation : a'.generation = a.generation
  status : a'.status = a.status
  fixed : a'.fixed = a.fixed
  first : a.fixed = true → Cell.layout.first a'.chain = Cell.layout.first a.chain

theorem Image.Lowers.refl (a : Image σ) : a.Lowers a where
  kept _ below := ⟨below, rfl, rfl⟩
  pieces _ held := held
  used := Nat.le_refl _
  tempDepth := Nat.le_refl _
  highWater := rfl
  generation := rfl
  status := rfl
  fixed := rfl
  first _ := rfl

theorem Below.lower {c : Cell} {cs : List Cell} {used x : Nat} (low : used ≤ c.used)
    (below : Below ({ c with used } :: cs) x) : Below (c :: cs) x := by
  obtain ⟨d, member, past, under⟩ := below
  cases member with
  | head => exact ⟨c, .head _, past, Nat.lt_of_lt_of_le under (Nat.add_le_add_left low _)⟩
  | tail _ later => exact ⟨d, .tail _ later, past, under⟩

/-- The newest block can be cut back to any place. -/
theorem Image.Owned.cut_lower (conforms : parent.Conforms Out) {c : Cell} {cs : List Cell}
    {blockUsed : Nat} (owned : Image.Owned build parent Out { a with chain := c :: cs })
    (above : blockUsed ≤ c.used) :
    Image.Owned build parent Out (a.cut build blockUsed (c :: cs)) ∧
      Image.Lowers { a with chain := c :: cs } (a.cut build blockUsed (c :: cs)) := by
  have fits : c.used ≤ c.cap := owned.fits c (.head _)
  have touched := World.dead_touched build (c.data + blockUsed) (c.used - blockUsed) a.world
  have within : Region.Within ⟨c.data + blockUsed, c.used - blockUsed⟩ c.region :=
    Cell.data_within (Nat.le_add_right _ _) (by omega)
  have dark : build.asan = true → Cell.Dark
      (a.world.dead build (c.data + blockUsed) (c.used - blockUsed))
      { c with used := blockUsed } := by
    intro asan x past under
    rw [World.dead_poisoned asan]
    split
    · rfl
    · case isFalse outside =>
        have past : c.data + blockUsed ≤ x := past
        have beyond : c.data + c.used ≤ x := by omega
        exact owned.dark asan c (.head _) x beyond under
  have lowered := owned.setHead conforms rfl (Nat.le_trans above fits) touched within dark
    a.used a.highWater
  rw [Image.cut, Nat.min_eq_left above]
  constructor
  · exact lowered
  · refine { Image.Lowers.refl { a with chain := c :: cs } with kept := fun x below => ?_ }
    have outside : ¬ Region.Covers ⟨c.data + blockUsed, c.used - blockUsed⟩ x := by
      intro inside
      have under : x < c.data + blockUsed + (c.used - blockUsed) := inside.2
      have room : x < c.data + c.cap := by omega
      exact lowered.not_below rfl inside.1 room below
    exact ⟨below.lower above, touched.bytes x outside, touched.poisoned x outside⟩

/-- A cut above the cursor does nothing. -/
theorem Image.cut_above {c : Cell} {cs : List Cell} {blockUsed : Nat} (low : c.used ≤ blockUsed) :
    a.cut build blockUsed (c :: cs) = { a with chain := c :: cs } := by
  simp only [Image.cut, Nat.min_eq_right low, Nat.sub_eq_zero_of_le low, World.dead_zero]

theorem Image.Owned.cut (conforms : parent.Conforms Out) {rest : List Cell} (blockUsed : Nat)
    (owned : Image.Owned build parent Out { a with chain := rest }) :
    Image.Owned build parent Out (a.cut build blockUsed rest) ∧
      Image.Lowers { a with chain := rest } (a.cut build blockUsed rest) := by
  cases rest with
  | nil => exact ⟨owned, .refl _⟩
  | cons c cs =>
      cases Nat.le_total blockUsed c.used with
      | inl above => exact owned.cut_lower conforms above
      | inr low =>
          rw [Image.cut_above low]
          exact ⟨owned, .refl _⟩

/-- The blocks newer than the one a snapshot names, or all where it names none of the chain. -/
structure TempT.Parts (temp : TempT) (chain entered rest : List Cell) : Prop where
  whole : chain = entered ++ rest
  taken : chain.takeWhile (·.addr ≠ temp.block) = entered
  dropped : chain.dropWhile (·.addr ≠ temp.block) = rest
  newer : ∀ c ∈ entered, c.addr ≠ temp.block
  stop : rest = [] ∨ temp.block = Cell.layout.first rest

theorem TempT.parts (temp : TempT) (chain : List Cell) :
    ∃ entered rest, temp.Parts chain entered rest := by
  refine ⟨_, _, List.takeWhile_append_dropWhile.symm, rfl, rfl, fun c member => ?_, ?_⟩
  · exact of_decide_eq_true (List.all_eq_true.mp List.all_takeWhile c member)
  · cases rest : chain.dropWhile (·.addr ≠ temp.block) with
    | nil => exact .inl rfl
    | cons c cs =>
        have stops := List.head?_dropWhile_not (·.addr ≠ temp.block) chain
        rw [rest] at stops
        exact .inr (not_ne_iff.mp (of_decide_eq_false stops)).symm

/-- Only a growing arena discards blocks, where the token of a fixed one names its block. -/
theorem TempT.Parts.growing {temp : TempT} {entered rest : List Cell}
    (parts : temp.Parts a.chain entered rest)
    (held : a.fixed = true → temp.block = Cell.layout.first a.chain) :
    entered ≠ [] → a.fixed = false := by
  intro some
  cases fixed : a.fixed with
  | false => rfl
  | true =>
      cases entered with
      | nil => exact absurd rfl some
      | cons c cs =>
          have first := held fixed
          rw [parts.whole] at first
          exact absurd first.symm (parts.newer c (.head _))

/-- Discarding the newest blocks lowers the arena. -/
theorem Image.Owned.discard_lowers {entered rest : List Cell} {committed : Nat} {world : World σ}
    (whole : a.chain = entered ++ rest) (growing : entered ≠ [] → a.fixed = false)
    (owned : a.Owned build parent Out)
    (keeps : a.world.Keeps (rest.map Cell.region) world) :
    a.Lowers { a with chain := rest, free := retired entered ++ a.free, committed, world } where
  kept x below := by
    obtain ⟨c, member, past, under⟩ := below
    have held : c ∈ a.chain := whole ▸ List.mem_append_right _ member
    have room : x < c.data + c.cap := by
      have fits := owned.fits c (List.mem_append_left _ held)
      have under : x < c.data + c.used := under
      omega
    exact ⟨⟨c, held, past, under⟩,
      keeps c.region (List.mem_map_of_mem member) x (c.covers_of_data past room)⟩
  pieces := by
    simp only [Image.pieces, Image.cells, whole, List.map_append]
    apply List.append_subset.mpr
    constructor
    · exact List.Subset.trans (List.subset_append_right _ _) (List.subset_append_left _ _)
    · apply List.append_subset.mpr
      constructor
      · exact List.Subset.trans (retired_pieces entered)
          (List.Subset.trans (List.subset_append_left _ _) (List.subset_append_left _ _))
      · exact List.subset_append_right _ _
  used := Nat.le_refl _
  tempDepth := Nat.le_refl _
  highWater := rfl
  generation := rfl
  status := rfl
  fixed := rfl
  first fixed := by
    have none : entered = [] := by
      by_contra some
      rw [growing some] at fixed
      cases fixed
    rw [whole, none, List.nil_append]

theorem Image.Lowers.trans {a'' : Image σ} (first : a.Lowers a') (second : a'.Lowers a'') :
    a.Lowers a'' where
  kept x below := by
    obtain ⟨middle, bytes, poisoned⟩ := second.kept x below
    obtain ⟨start, bytes', poisoned'⟩ := first.kept x middle
    exact ⟨start, bytes.trans bytes', poisoned.trans poisoned'⟩
  pieces := List.Subset.trans second.pieces first.pieces
  used := Nat.le_trans second.used first.used
  tempDepth := Nat.le_trans second.tempDepth first.tempDepth
  highWater := second.highWater.trans first.highWater
  generation := second.generation.trans first.generation
  status := second.status.trans first.status
  fixed := second.fixed.trans first.fixed
  first fixed := (second.first (first.fixed.trans fixed)).trans (first.first fixed)

theorem Image.Lowers.close (lowers : a.Lowers a') (temp : TempT) : a.Lowers (a'.close temp) :=
  lowers.trans
    { Image.Lowers.refl a' with used := Nat.min_le_right _ _, tempDepth := Nat.sub_le _ _ }

/-- What any end of a scope leaves of the arena. -/
theorem Image.Owned.tempEnd (conforms : parent.Conforms Out) (owned : a.Owned build parent Out)
    (temp : TempT) (held : a.fixed = true → temp.block = Cell.layout.first a.chain) :
    ∃ a', a.tempEnd build temp = .ok a' ∧ a'.Owned build parent Out ∧ a.Lowers a' := by
  obtain ⟨entered, rest, parts⟩ := temp.parts a.chain
  have whole : Image.Owned build parent Out { a with chain := entered ++ rest } := by
    rw [← parts.whole]
    exact owned
  obtain ⟨committed, world, ran, keeps, owned'⟩ := whole.discard conforms (parts.growing held)
  have first : a.Lowers
      { a with chain := rest, free := retired entered ++ a.free, committed, world } :=
    owned.discard_lowers parts.whole (parts.growing held) keeps
  obtain ⟨cut, second⟩ := Image.Owned.cut conforms temp.blockUsed
    (a := { a with free := retired entered ++ a.free, committed, world }) owned'
  exact ⟨_, Image.tempEnd_eq parts.taken parts.dropped ran, { cut with },
    (first.trans second).close temp⟩

/-! The same of `arena_temp_end`, where its assertions are off. -/

theorem Build.check_off (off : build.ndebug = true) (condition : Prop) [Decidable condition]
    (text : String) : build.check condition text = .ok () := if_pos off

/-- The loop of `arena_pop_to_block` ends where its block is not on the chain. -/
theorem popLoop_exhausts (conforms : parent.Conforms Out) {bound current stop : Nat}
    {cells : List Cell}
    (mirrors : s.Mirrors a current (Cell.layout.first a.free) cells a.free [])
    (owned : Image.Owned build parent Out { a with chain := cells })
    (growing : cells ≠ [] → a.fixed = false) (newer : ∀ c ∈ cells, c.addr ≠ stop)
    (enough : cells.length < bound) :
    ∃ s' a', a.discard build cells = .ok a' ∧
      popLoop build stop bound (Cell.layout.first cells) s = .ok (0, s') ∧
      s'.Mirrors a' current (Cell.layout.first a'.free) [] a'.free [] := by
  induction cells generalizing s a bound with
  | nil =>
      cases bound with
      | zero => cases enough
      | succ bound => exact ⟨s, a, rfl, if_neg fun both => both.1 rfl, mirrors⟩
  | cons c cs ih =>
      cases bound with
      | zero => cases enough
      | succ bound =>
          have nonzero : c.addr ≠ 0 := mirrors.blocks.linked.1
          have found : s.blocks.lookup c.addr = some (c.header (Cell.layout.first cs)) :=
            mirrors.blocks.linked.2.1
          have unfolded : popLoop build stop (bound + 1) c.addr s =
              (if c.oversize then releaseBlock build c.addr s else retireBlock build c.addr s) >>=
                popLoop build stop bound (Cell.layout.first cs) := by
            rw [popLoop, if_pos ⟨nonzero, newer c (.head _)⟩, State.header_of_lookup found, ok_bind]
            cases kind : c.oversize with
            | true | false =>
                change (if c.oversize then _ else _) = _
                rw [kind]
                rfl
          obtain ⟨s', a', dropped, ran, mirrors', rest, still⟩ :=
            discardBlock_spec conforms mirrors owned (growing (List.cons_ne_nil _ _))
          rw [ran, ok_bind] at unfolded
          obtain ⟨s'', a'', all, looped, last⟩ :=
            ih mirrors' rest (fun _ => still) (fun d member => newer d (.tail _ member))
              (Nat.lt_of_succ_lt_succ enough)
          exact ⟨s'', a'', (Image.discard_cons dropped).trans all, unfolded.trans looped, last⟩

theorem popToBlock_parts (release : build.ndebug = true) (conforms : parent.Conforms Out)
    (shows : s.Shows a) (owned : a.Owned build parent Out) {temp : TempT}
    {entered rest : List Cell} (parts : temp.Parts a.chain entered rest)
    (growing : entered ≠ [] → a.fixed = false) :
    ∃ s' a', a.discard build entered = .ok a' ∧ popToBlock build temp.block s = .ok s' ∧
      s'.Shows { a' with chain := rest } := by
  have newer := parts.newer
  cases parts.stop with
  | inr stop =>
      rw [stop] at newer ⊢
      exact popToBlock_refines conforms shows parts.whole owned growing newer
  | inl none =>
      subst none
      have whole : a.chain = entered := parts.whole.trans (List.append_nil _)
      have mirrors := shows
      unfold State.Shows at mirrors
      rw [whole] at mirrors
      have owned' : Image.Owned build parent Out { a with chain := entered } := whole ▸ owned
      obtain ⟨s', a', ran, looped, after⟩ := popLoop_exhausts conforms mirrors owned' growing newer
        (whole ▸ shows.blocks.chain_lt_bound)
      have current : s.arena.current = Cell.layout.first entered := by rw [shows.current, whole]
      refine ⟨{ s' with arena := { s'.arena with current := 0 } }, a', ran, ?_,
        by rw [after.arena]; rfl, after.world, after.blocks⟩
      rw [popToBlock, current, looped, ok_bind]
      exact bind_eq_ok.mpr ⟨(), Build.check_off release _ _, rfl⟩

/-- The steps of `arena_temp_end` once the newer blocks are gone. -/
theorem cutTo_refines (release : build.ndebug = true) {rest : List Cell} (shows : s.Shows a)
    (chain : a.chain = rest) (owned : a.Owned build parent Out) (blockUsed : Nat) :
    ∃ s', (if s.arena.current ≠ 0 then do
        let h ← s.header s.arena.current
        build.check (blockUsed ≤ h.used) "block->used >= temp.block_used"
        if blockUsed < h.used then do
          let s' ← markDead build s.arena.current blockUsed h.used s
          s'.setHeader s.arena.current { h with used := blockUsed }
        else .ok s
      else .ok s) = .ok s' ∧ s'.Shows (a.cut build blockUsed rest) := by
  have current : s.arena.current = Cell.layout.first rest := by rw [shows.current, chain]
  rw [current]
  cases rest with
  | nil =>
      have same : a.cut build blockUsed [] = a := by rw [Image.cut, ← chain]
      rw [same]
      exact ⟨s, rfl, shows⟩
  | cons c cs =>
      have nonzero : c.addr ≠ 0 := (owned.inside c (State.Shows.mem_chain chain)).1
      cases Nat.le_total blockUsed c.used with
      | inl above =>
          obtain ⟨s', ran, shows'⟩ :=
            cut_refines (c := { c with used := blockUsed }) shows chain owned above blockUsed rfl
          exact ⟨s', (if_pos nonzero).trans ran, shows'⟩
      | inr low =>
          have found : s.blocks.lookup c.addr = some (c.header (Cell.layout.first cs)) :=
            (shows.setHead chain (d := c) rfl).1
          have same : a.cut build blockUsed (c :: cs) = a := by
            rw [Image.cut_above low, ← chain]
          rw [same]
          refine ⟨s, (if_pos nonzero).trans ?_, shows⟩
          refine bind_eq_ok.mpr ⟨_, State.header_of_lookup found, bind_eq_ok.mpr ⟨(), ?_, ?_⟩⟩
          · exact Build.check_off release _ _
          · exact if_neg (Nat.not_lt.mpr low)

theorem tempEnd_of_steps (release : build.ndebug = true) {temp : TempT} {s₁ s₂ : State σ}
    (popped : popToBlock build temp.block s = .ok s₁)
    (cut : (if s₁.arena.current ≠ 0 then do
        let h ← s₁.header s₁.arena.current
        build.check (temp.blockUsed ≤ h.used) "block->used >= temp.block_used"
        if temp.blockUsed < h.used then do
          let s' ← markDead build s₁.arena.current temp.blockUsed h.used s₁
          s'.setHeader s₁.arena.current { h with used := temp.blockUsed }
        else .ok s₁
      else .ok s₁) = .ok s₂) :
    tempEnd build temp s =
      .ok
        { s₂ with
          arena :=
            { s₂.arena with
              used := if temp.used < s₂.arena.used then temp.used else s₂.arena.used
              tempDepth :=
                if 0 < s₂.arena.tempDepth then s₂.arena.tempDepth - 1
                else s₂.arena.tempDepth } } := by
  simp only [tempEnd, Build.check_off release, ok_bind, popped]
  split at cut
  · case isTrue nonzero =>
      obtain ⟨h, found, cut⟩ := bind_eq_ok.mp cut
      obtain ⟨_, _, cut⟩ := bind_eq_ok.mp cut
      refine (if_pos nonzero).trans (bind_eq_ok.mpr ⟨h, found, ?_⟩)
      split at cut
      · case isTrue raised =>
          obtain ⟨marked, dead, lowered⟩ := bind_eq_ok.mp cut
          exact (if_pos raised).trans
            (bind_eq_ok.mpr ⟨marked, dead, bind_eq_ok.mpr ⟨s₂, lowered, rfl⟩⟩)
      · case isFalse level =>
          cases cut
          exact if_neg level
  · case isFalse null =>
      cases cut
      exact if_neg null

/-- `arena_temp_end` of a release build, given any snapshot. -/
theorem tempEnd_release (release : build.ndebug = true) (conforms : parent.Conforms Out)
    (shows : s.Shows a) (owned : a.Owned build parent Out) (temp : TempT)
    (held : a.fixed = true → temp.block = Cell.layout.first a.chain) :
    ∃ s' a', tempEnd build temp s = .ok s' ∧ s'.Shows a' ∧ a'.Owned build parent Out ∧
      a.Lowers a' := by
  obtain ⟨entered, rest, parts⟩ := temp.parts a.chain
  have growing := parts.growing held
  obtain ⟨s₁, a₁, ran, popped, shows₁⟩ :=
    popToBlock_parts release conforms shows owned parts growing
  have whole : Image.Owned build parent Out { a with chain := entered ++ rest } := by
    rw [← parts.whole]
    exact owned
  obtain ⟨committed, world, ran', _, owned₁⟩ := whole.discard conforms growing
  cases ran.symm.trans ran'
  obtain ⟨s₂, cut, shows₂⟩ := cutTo_refines release shows₁ rfl owned₁ temp.blockUsed
  obtain ⟨a', ended, owned', lowers⟩ := owned.tempEnd conforms temp held
  cases ended.symm.trans (Image.tempEnd_eq parts.taken parts.dropped ran)
  exact ⟨_, _, tempEnd_of_steps release popped cut, shows₂.close temp, owned', lowers⟩

/-! What sets the arena right again. The counter of a misused arena may be above what its blocks
have consumed, and these calls do not look at it. -/

/-- The arena with its counter at 0. -/
def Image.uncounted (a : Image σ) : Image σ := { a with used := 0 }

theorem Image.Owned.uncounted (owned : a.Owned build parent Out) :
    a.uncounted.Sane build parent Out :=
  ⟨{ owned with }, Nat.zero_le _, Nat.zero_le _⟩

theorem Image.release_uncounted {c : Cell} {b : Image σ}
    (ran : a.uncounted.release build c = .ok b) :
    ∃ a', a.release build c = .ok a' ∧ a'.uncounted = b := by
  obtain ⟨world, freed, same⟩ := bind_eq_ok.mp ran
  cases same
  exact ⟨_, bind_eq_ok.mpr ⟨world, freed, rfl⟩, rfl⟩

theorem Image.releaseAll_uncounted {cells : List Cell} {b : Image σ}
    (ran : a.uncounted.releaseAll build cells = .ok b) :
    ∃ a', a.releaseAll build cells = .ok a' ∧ a'.uncounted = b := by
  induction cells generalizing a with
  | nil =>
      cases ran
      exact ⟨a, rfl, rfl⟩
  | cons c cs ih =>
      obtain ⟨middle, released, ran⟩ := bind_eq_ok.mp ran
      obtain ⟨a', first, rfl⟩ := Image.release_uncounted released
      obtain ⟨a'', later, same⟩ := ih ran
      exact ⟨a'', bind_eq_ok.mpr ⟨a', first, later⟩, same⟩

theorem Image.discard_uncounted {cells : List Cell} {b : Image σ}
    (ran : a.uncounted.discard build cells = .ok b) :
    ∃ a', a.discard build cells = .ok a' ∧ a'.uncounted = b := by
  induction cells generalizing a with
  | nil =>
      cases ran
      exact ⟨a, rfl, rfl⟩
  | cons c cs ih =>
      cases kind : c.oversize with
      | true =>
          rw [Image.discard, if_pos kind] at ran
          obtain ⟨middle, released, ran⟩ := bind_eq_ok.mp ran
          obtain ⟨a', first, rfl⟩ := Image.release_uncounted released
          obtain ⟨a'', later, same⟩ := ih ran
          exact ⟨a'', (Image.discard_cons ((if_pos kind).trans first)).trans later, same⟩
      | false =>
          have normal : ¬ c.oversize = true := Bool.not_eq_true _ ▸ kind
          rw [Image.discard, if_neg normal] at ran
          obtain ⟨a'', later, same⟩ := ih (a := a.retire build c) ran
          exact ⟨a'', (Image.discard_cons (if_neg normal)).trans later, same⟩

/-- A fixed arena was fixed before, over the same block. -/
def Image.Stays (a a' : Image σ) : Prop :=
  a'.fixed = true → a.fixed = true ∧ Cell.layout.first a'.chain = Cell.layout.first a.chain

theorem Image.Lowers.stays (lowers : a.Lowers a') : a.Stays a' := by
  intro fixed
  have fixed := lowers.fixed.symm.trans fixed
  exact ⟨fixed, lowers.first fixed⟩

/-- These snapshots, where the arena is fixed, are of its block. -/
def Image.Names (a : Image σ) (begun : List TempT) : Prop :=
  a.fixed = true → ∀ temp ∈ begun, temp.block = Cell.layout.first a.chain

theorem Image.Stays.names (stays : a.Stays a') {begun : List TempT} (names : a.Names begun) :
    a'.Names begun := by
  intro fixed' temp member
  obtain ⟨fixed, same⟩ := stays fixed'
  exact (names fixed temp member).trans same.symm

/-- A fixed arena holds its block and no other. -/
theorem Image.Owned.alone_fixed (owned : a.Owned build parent Out) (fixed : a.fixed = true)
    {c : Cell} {cs : List Cell} (chain : a.chain = c :: cs) : cs = [] ∧ c.oversize = false := by
  obtain ⟨_, short, normal, _⟩ := owned.buffer fixed
  rw [chain] at short normal
  exact ⟨List.eq_nil_of_length_eq_zero (Nat.le_zero.mp (Nat.le_of_succ_le_succ short)),
    (normal c (.head _)).1⟩

/-- A reset keeps the block of a fixed arena. -/
theorem Image.Owned.oldest_first (owned : a.Owned build parent Out) (fixed : a.fixed = true) :
    Cell.layout.first ((oldestNormal a.chain).toList.map fun c => { c with used := 0 }) =
      Cell.layout.first a.chain := by
  cases chain : a.chain with
  | nil => rfl
  | cons c cs =>
      obtain ⟨rfl, normal⟩ := owned.alone_fixed fixed chain
      rw [oldestNormal, List.filter_singleton, normal]
      rfl

/-- A fixed arena that has a block still, and no new one, has the one it had. -/
theorem Image.Owned.first_same (owned : a.Owned build parent Out)
    (owned' : a'.Owned build parent Out) (fixed : a.fixed = true) (fixed' : a'.fixed = true)
    (length : a'.chain.length = a.chain.length) (pieces : a'.pieces ⊆ a.pieces) :
    Cell.layout.first a'.chain = Cell.layout.first a.chain := by
  cases chain : a.chain with
  | nil =>
      rw [chain] at length
      rw [List.eq_nil_of_length_eq_zero length]
  | cons c cs =>
      obtain ⟨rfl, _⟩ := owned.alone_fixed fixed chain
      cases chain' : a'.chain with
      | nil =>
          rw [chain, chain'] at length
          cases length
      | cons d ds =>
          obtain ⟨rfl, _⟩ := owned'.alone_fixed fixed' chain'
          rw [Image.pieces, Image.pieces, Image.cells, Image.cells, chain, chain',
            (owned.buffer fixed).1, (owned'.buffer fixed').1] at pieces
          have same : d.bare = c.bare := List.mem_singleton.mp (pieces (.head _))
          have addr : d.bare.addr = c.bare.addr := congrArg Cell.addr same
          exact addr

/-- A reset gives back an arena that is as good as a new one. -/
theorem Image.Owned.reset_kept (conforms : parent.Conforms Out) (owned : a.Owned build parent Out)
    (b : Books) :
    ∃ a', a.reset build = .ok a' ∧ a'.Kept build parent Out b.closed ∧ a.Stays a' := by
  obtain ⟨image, ran, sane, rewound⟩ := owned.uncounted.reset conforms
  have unused : consumed image.chain = 0 := by
    rw [rewound.chain]
    cases oldestNormal a.uncounted.chain <;> rfl
  obtain ⟨middle, dropped, same⟩ := bind_eq_ok.mp ran
  obtain ⟨a', dropped', rfl⟩ := Image.discard_uncounted dropped
  refine ⟨image, bind_eq_ok.mpr ⟨a', dropped', same⟩, .closed sane unused rewound.used b, ?_⟩
  intro fixed
  have fixed : a.fixed = true := rewound.fixed.symm.trans fixed
  rw [rewound.chain]
  exact ⟨fixed, owned.oldest_first fixed⟩

theorem Image.Owned.deinit_kept (conforms : parent.Conforms Out) (owned : a.Owned build parent Out)
    (b : Books) :
    ∃ a', a.deinit build = .ok a' ∧ a'.Kept build parent Out b.closed ∧ a.Stays a' := by
  obtain ⟨world, ran, sane⟩ := owned.uncounted.deinit conforms
  refine ⟨_, ?_, .closed sane rfl rfl b, nofun⟩
  unfold Image.deinit at ran ⊢
  cases fixed : a.fixed with
  | true =>
      have fixed' : a.uncounted.fixed = true := fixed
      rw [if_pos fixed'] at ran
      exact ran
  | false =>
      have growing : a.uncounted.fixed = false := fixed
      rw [if_neg (Bool.not_eq_true _ ▸ growing)] at ran
      obtain ⟨last, released, same⟩ := bind_eq_ok.mp ran
      obtain ⟨a', released', rfl⟩ := Image.releaseAll_uncounted released
      exact bind_eq_ok.mpr ⟨a', released', same⟩

theorem Image.Owned.trim (conforms : parent.Conforms Out) (owned : a.Owned build parent Out)
    (ran : a.trim build = .ok a') : a'.Owned build parent Out ∧ a.Stays a' := by
  obtain ⟨committed, world, again, sane, _⟩ := owned.uncounted.trim conforms
  unfold Image.trim at ran again
  cases fixed : a.fixed with
  | true =>
      rw [if_pos fixed] at ran
      cases ran
      exact ⟨owned, fun _ => ⟨fixed, rfl⟩⟩
  | false =>
      have growing : a.uncounted.fixed = false := fixed
      rw [if_neg (Bool.not_eq_true _ ▸ growing)] at again
      rw [if_neg (Bool.not_eq_true _ ▸ fixed)] at ran
      obtain ⟨last, released, same⟩ := bind_eq_ok.mp again
      obtain ⟨middle, released', rfl⟩ := Image.releaseAll_uncounted released
      obtain ⟨middle', released'', same'⟩ := bind_eq_ok.mp ran
      cases released'.symm.trans released''
      cases same'
      have same := Except.ok.inj same
      have still : middle.fixed = false := (congrArg Image.fixed same).trans fixed
      rw [← same] at sane
      refine ⟨{ sane.toOwned with }, fun fixed' => ?_⟩
      cases still.symm.trans fixed'

theorem Image.Owned.elsewhere (owned : a.Owned build parent Out) {world : World σ}
    (out : a.fixed = false → Out world a.regions)
    (poisoned : ∀ r ∈ a.regions, ∀ p, r.Covers p → world.poisoned p = a.world.poisoned p) :
    Image.Owned build parent Out { a with world } :=
  { owned with
    out := out
    dark := fun asan c member p past under => by
      have covers := c.covers_of_data (Nat.le_trans (Nat.le_add_right _ _) past) under
      exact (poisoned c.region (List.mem_map_of_mem member) p covers).trans
        (owned.dark asan c member p past under) }

/-- A legal call leaves a fixed arena its block. -/
theorem Account.Effect.stays {t t' : Account σ} {op : Op σ} (kept : t.Kept build parent Out)
    (kept' : t'.Kept build parent Out) (effect : t.Effect build parent Out op t') :
    t.image.Stays t'.image := by
  intro fixed'
  have owned : t.image.Owned build parent Out := (Image.Kept.sane kept).toOwned
  have owned' : t'.image.Owned build parent Out := (Image.Kept.sane kept').toOwned
  cases effect with
  | advanced advancing advances =>
      have fixed := advances.fixed.symm.trans fixed'
      have staying : op ≠ .deinit := fun same => by
        subst same
        exact advancing.elim
      have pieces := (Account.Effect.held kept fixed staying (.advanced advancing advances)).2
      exact ⟨fixed, owned.first_same owned' fixed fixed' (advances.steady fixed).length pieces⟩
  | trimmed trimmed => exact ⟨trimmed.fixed.symm.trans fixed', by rw [trimmed.chain]⟩
  | begun => exact ⟨fixed', rfl⟩
  | ended inner grown marks same unwound lit =>
      have fixed := unwound.fixed.symm.trans fixed'
      exact ⟨fixed, owned.first_same owned' fixed fixed' (same fixed) (unwound.pieces grown)⟩
  | reset rewound =>
      have fixed := rewound.fixed.symm.trans fixed'
      rw [rewound.chain]
      exact ⟨fixed, owned.oldest_first fixed⟩
  | deinit ran renewed =>
      obtain ⟨world, same⟩ := renewed
      rw [same] at fixed'
      cases fixed'
  | elsewhere world => exact ⟨fixed', rfl⟩

end

/-! A client of a release build that ends scopes it should not. -/

/-- A byte below a cursor, of the blocks that an arena holds. -/
def State.Exposes (s : State σ) (x : Nat) : Prop :=
  ∃ addr h, s.blocks.lookup addr = some h ∧ addr + blockHdr ≤ x ∧ x < addr + blockHdr + h.used

theorem State.Shows.exposes {s : State σ} {a : Image σ} {parent : AllocT σ}
    {Out : World σ → List Region → Prop} (shows : s.Shows a) (owned : a.Owned build parent Out)
    (x : Nat) : s.Exposes x ↔ Below a.chain x := by
  constructor
  · intro exposed
    obtain ⟨addr, h, found, past, under⟩ := exposed
    have stored : addr ∈ s.blocks := AList.lookup_isSome.mp (Option.isSome_of_eq_some found)
    obtain ⟨c, listed, rfl⟩ := shows.blocks.only addr stored
    obtain ⟨_, link, found'⟩ := shows.blocks.found listed
    cases found.symm.trans found'
    rw [List.append_nil] at listed
    cases List.mem_append.mp listed with
    | inl chained => exact ⟨c, chained, past, under⟩
    | inr free =>
        have unused := (owned.empty c free).1
        have under : x < c.addr + blockHdr + c.used := under
        omega
  · intro below
    obtain ⟨c, chained, past, under⟩ := below
    obtain ⟨_, link, found⟩ := shows.blocks.found (List.mem_append_left _ chained)
    exact ⟨c.addr, c.header link, found, past, under⟩

/-- What a misused end does: no byte comes back below a cursor, what stays there is as it was, no
counter and no status is raised, and a fixed arena keeps its block. -/
structure State.Lowers (s s' : State σ) : Prop where
  exposes : ∀ x, s'.Exposes x → s.Exposes x ∧
    s'.world.bytes x = s.world.bytes x ∧ s'.world.poisoned x = s.world.poisoned x
  pieces : s'.pieces ⊆ s.pieces
  used : s'.arena.used ≤ s.arena.used
  tempDepth : s'.arena.tempDepth ≤ s.arena.tempDepth
  highWater : s'.arena.highWater = s.arena.highWater
  generation : s'.arena.generation = s.arena.generation
  status : s'.arena.status = s.arena.status
  fixed : s'.arena.fixed = s.arena.fixed
  current : s.arena.fixed = true → s'.arena.current = s.arena.current

/-- A session, and whether it is spoilt: a scope was ended by a wrong snapshot since the arena
was last empty. `begun` has the snapshots of all scopes begun so far. -/
structure Strayed (σ : Type) where
  session : Session σ
  spoilt : Bool
  begun : List TempT

/-- The calls that set a spoilt arena right. -/
def Op.renews : Op σ → Bool
  | .reset | .deinit => true
  | _ => false

/-- The snapshot that a call handed out. -/
def Op.handed (op : Op σ) (session : Session σ) : List TempT :=
  match op with
  | .tempBegin => (session.books.outer.head?.map Prod.fst).toList
  | _ => []

/-- After a call that returned. -/
def Strayed.called (op : Op σ) (session : Session σ) (t : Strayed σ) : Strayed σ :=
  { session, spoilt := t.spoilt && !op.renews, begun := op.handed session ++ t.begun }

/-- After the end of a scope by any snapshot. -/
def Strayed.ended (state : State σ) (t : Strayed σ) : Strayed σ :=
  { session := { state, books := t.session.books.closed }, spoilt := true, begun := t.begun }

/-- The calls that need nothing of what was allocated. -/
def Op.Detached : Op σ → Prop
  | .tempBegin | .reset | .trim | .clearError | .deinit | .elsewhere _ => True
  | _ => False

/-- What is given to a fixed arena is a snapshot that was handed out, stale or not. A growing arena
may be given any other. -/
def Strayed.Offers (t : Strayed σ) (temp : TempT) : Prop :=
  t.session.state.arena.fixed = true → temp ∈ t.begun

section
variable (build : Build) (parent : AllocT σ) (Out : World σ → List Region → Prop)

/-- Legal calls, and ends of scopes by wrong snapshots. After such an end the client counts on
nothing it had, and allocates again after a reset or a deinit only. -/
inductive Strayed.Reached : Strayed σ → Prop where
  | start {session : Session σ} (started : session.Started build parent Out) :
      Reached { session, spoilt := false, begun := [] }
  | call {t : Strayed σ} {op : Op σ} {ptr : Nat} {session : Session σ} (reached : Reached t)
      (legal : op.Legal Out t.session) (plain : t.spoilt = true → op.Detached)
      (ran : t.session.step build op = .ok (ptr, session)) :
      Reached (t.called op session)
  | stray {t : Strayed σ} {temp : TempT} {state : State σ} (reached : Reached t)
      (offers : t.Offers temp) (ran : tempEnd build temp t.session.state = .ok state) :
      Reached (t.ended state)

/-- The blocks of a spoilt arena are sound, and one that is not spoilt keeps all it promises. -/
structure Strayed.Sound (t : Strayed σ) (account : Account σ) : Prop where
  shows : t.session.Shows account
  owned : account.image.Owned build parent Out
  names : account.image.Names t.begun
  nothing : t.spoilt = true → account.books.live = []
  kept : t.spoilt = false → account.Kept build parent Out

end

section
variable {parent : AllocT σ} {Out : World σ → List Region → Prop} {t : Strayed σ}

theorem Image.Lowers.state {s s' : State σ} {a a' : Image σ} (lowers : a.Lowers a')
    (shows : s.Shows a) (owned : a.Owned build parent Out) (shows' : s'.Shows a')
    (owned' : a'.Owned build parent Out) : s.Lowers s' where
  exposes x exposed := by
    obtain ⟨below, bytes, poisoned⟩ := lowers.kept x ((shows'.exposes owned' x).mp exposed)
    rw [shows.world, shows'.world]
    exact ⟨(shows.exposes owned x).mpr below, bytes, poisoned⟩
  pieces := fun _ held =>
    shows.pieces.mem_iff.mpr (lowers.pieces (shows'.pieces.mem_iff.mp held))
  used := by
    rw [shows.arena, shows'.arena]
    exact lowers.used
  tempDepth := by
    rw [shows.arena, shows'.arena]
    exact lowers.tempDepth
  highWater := by
    rw [shows.arena, shows'.arena]
    exact lowers.highWater
  generation := by
    rw [shows.arena, shows'.arena]
    exact lowers.generation
  status := by
    rw [shows.arena, shows'.arena]
    exact lowers.status
  fixed := by
    rw [shows.arena, shows'.arena]
    exact lowers.fixed
  current fixed := by
    rw [shows.arena] at fixed
    rw [shows.current, shows'.current]
    exact lowers.first fixed

/-- A snapshot is of the block that is current when it is handed out. -/
theorem Account.Effect.handed {s' : Session σ} {t t' : Account σ} {op : Op σ} (shows' : s'.Shows t')
    (effect : t.Effect build parent Out op t') :
    ∀ temp ∈ op.handed s', temp.block = Cell.layout.first t'.image.chain := by
  cases op with
  | tempBegin =>
      rw [Op.handed, shows'.2]
      cases effect with
      | advanced advancing advances => exact advancing.elim
      | begun => exact List.forall_mem_singleton.mpr rfl
  | _ => exact List.forall_mem_nil _

namespace Strayed.Sound

variable {account : Account σ}

/-- The calls of a spoilt arena. -/
theorem plain (conforms : parent.Conforms Out) (sound : t.Sound build parent Out account)
    (spoilt : t.spoilt = true) {op : Op σ} (legal : op.Legal Out t.session) (plain : op.Detached) :
    ∃ ptr session, t.session.step build op = .ok (ptr, session) ∧
      ∃ account', (t.called op session).Sound build parent Out account' := by
  obtain ⟨lists, books⟩ := sound.shows
  have nothing := sound.nothing spoilt
  have names := sound.names
  cases op with
  | allocate | realloc | xrealloc | xfree | tempEnd => exact plain.elim
  | tempBegin =>
      obtain ⟨state, ran, shows'⟩ := tempBegin_refines lists
      refine ⟨0, _, bind_eq_ok.mpr ⟨_, ran, rfl⟩,
        { image := account.image.tempBegin.2
          books := account.books.begun account.image.tempBegin.1 },
        ⟨shows', congrArg (Books.begun _) books⟩, { sound.owned with },
        fun fixed => List.forall_mem_cons.mpr ⟨rfl, names fixed⟩, fun _ => nothing, ?_⟩
      rw [Strayed.called, spoilt]
      exact nofun
  | reset =>
      obtain ⟨state, image, ran, ran', shows'⟩ := reset_refines conforms lists sound.owned
      obtain ⟨image', again, kept, stays⟩ := sound.owned.reset_kept conforms account.books
      cases ran'.symm.trans again
      exact ⟨0, _, bind_eq_ok.mpr ⟨_, ran, rfl⟩, { image, books := account.books.closed },
        ⟨shows', congrArg Books.closed books⟩, kept.sane.toOwned, stays.names names, fun _ => rfl,
        fun _ => kept⟩
  | deinit =>
      obtain ⟨state, image, ran, ran', shows'⟩ := deinit_refines conforms lists sound.owned
      obtain ⟨image', again, kept, stays⟩ := sound.owned.deinit_kept conforms account.books
      cases ran'.symm.trans again
      exact ⟨0, _, bind_eq_ok.mpr ⟨_, ran, rfl⟩, { image, books := account.books.closed },
        ⟨shows', congrArg Books.closed books⟩, kept.sane.toOwned, stays.names names, fun _ => rfl,
        fun _ => kept⟩
  | trim =>
      obtain ⟨state, image, ran, ran', shows'⟩ := trim_refines conforms lists sound.owned
      obtain ⟨owned, stays⟩ := sound.owned.trim conforms ran'
      refine ⟨0, _, bind_eq_ok.mpr ⟨_, ran, rfl⟩, { image, books := account.books },
        ⟨shows', books⟩, owned, stays.names names, fun _ => nothing, ?_⟩
      rw [Strayed.called, spoilt]
      exact nofun
  | clearError =>
      refine ⟨0, _, rfl, { account with image := account.image.clearError },
        ⟨lists.clearError, books⟩, { sound.owned with }, names, fun _ => nothing, ?_⟩
      rw [Strayed.called, spoilt]
      exact nofun
  | elsewhere world =>
      obtain ⟨out, poisoned⟩ := legal.image sound.shows conforms
      rw [nothing] at poisoned
      refine ⟨0, _, rfl,
        { image := { account.image with world }
          books := { account.books with contents := world.bytes } },
        ⟨lists.write world, congrArg (fun b : Books => { b with contents := world.bytes }) books⟩,
        sound.owned.elsewhere out fun r member p covers => poisoned r member p covers nofun,
        names, fun _ => nothing, ?_⟩
      rw [Strayed.called, spoilt]
      exact nofun

/-- A legal call returns, whether the arena is spoilt or not. -/
theorem call (release : build.ndebug = true) (conforms : parent.Conforms Out)
    (sound : t.Sound build parent Out account) {op : Op σ} (legal : op.Legal Out t.session)
    (plain : t.spoilt = true → op.Detached) :
    ∃ ptr session, t.session.step build op = .ok (ptr, session) ∧
      ∃ account', (t.called op session).Sound build parent Out account' := by
  cases spoilt : t.spoilt with
  | true => exact sound.plain conforms spoilt legal (plain spoilt)
  | false =>
      have kept := sound.kept spoilt
      have level : account.Level build op := by
        cases op with
        | tempEnd => exact .inl release
        | _ => trivial
      obtain ⟨ptr, session, _, ran, _⟩ := Session.step_refines conforms sound.shows kept legal level
      obtain ⟨account', _, shows', kept', effect⟩ :=
        Session.step_follows conforms sound.shows kept legal ran
      have names : account'.image.Names (t.called op session).begun := fun fixed =>
        List.forall_mem_append.mpr
          ⟨effect.handed shows', (effect.stays kept kept').names sound.names fixed⟩
      refine ⟨ptr, session, ran, account', shows', kept'.sane.toOwned, names, ?_, fun _ => kept'⟩
      rw [Strayed.called, spoilt]
      exact nofun

/-- So does the end of a scope by any snapshot, and it raises no cursor. -/
theorem stray (release : build.ndebug = true) (conforms : parent.Conforms Out)
    (sound : t.Sound build parent Out account) {temp : TempT} (offers : t.Offers temp) :
    ∃ state, tempEnd build temp t.session.state = .ok state ∧ t.session.state.Lowers state ∧
      ∃ account', (t.ended state).Sound build parent Out account' := by
  obtain ⟨lists, books⟩ := sound.shows
  have named : account.image.fixed = true → temp.block = Cell.layout.first account.image.chain := by
    intro fixed
    refine sound.names fixed temp (offers ?_)
    rw [lists.arena]
    exact fixed
  obtain ⟨state, image, ran, shows', owned', lowers⟩ :=
    tempEnd_release release conforms lists sound.owned temp named
  exact ⟨state, ran, lowers.state lists sound.owned shows' owned',
    { image, books := account.books.closed }, ⟨shows', congrArg Books.closed books⟩, owned',
    lowers.stays.names sound.names, fun _ => rfl, nofun⟩

end Strayed.Sound

theorem Strayed.Reached.sound (release : build.ndebug = true) (conforms : parent.Conforms Out)
    (reached : t.Reached build parent Out) : ∃ account, t.Sound build parent Out account := by
  induction reached with
  | start started =>
      obtain ⟨account, shows, kept⟩ := started.kept conforms
      exact ⟨account, shows, kept.sane.toOwned, fun _ => List.forall_mem_nil _, nofun,
        fun _ => kept⟩
  | call reached legal plain ran ih =>
      obtain ⟨account, sound⟩ := ih
      obtain ⟨_, _, ran', sound'⟩ := sound.call release conforms legal plain
      cases ran.symm.trans ran'
      exact sound'
  | stray reached offers ran ih =>
      obtain ⟨account, sound⟩ := ih
      obtain ⟨_, ran', _, sound'⟩ := sound.stray release conforms offers
      cases ran.symm.trans ran'
      exact sound'

end

end AgencC.Arena
