import AgencC.Arena.Marks

/-! What an arena keeps true of its blocks, its counters and its parent. -/

set_option autoImplicit false

namespace AgencC.Arena

open Library

variable {σ : Type} {build : Build}

/-- Nothing from the cursor to the end of the block is addressable. -/
def Cell.Dark (w : World σ) (c : Cell) : Prop :=
  ∀ x, c.cursor ≤ x → x < c.data + c.cap → w.poisoned x = true

section
variable (build : Build) (parent : AllocT σ) (Out : World σ → List Region → Prop)

/-- What holds of the blocks of an arena, whatever its counters say. -/
structure Image.Owned (a : Image σ) : Prop where
  apart : a.regions.Pairwise Region.Apart
  inside : ∀ c ∈ a.cells, c.addr ≠ 0 ∧ c.addr + (blockHdr + c.cap) ≤ sizeMax
  sized : ∀ c ∈ a.cells, blockHdr + c.cap ≤ ptrdiffMax
  fits : ∀ c ∈ a.cells, c.used ≤ c.cap
  empty : ∀ c ∈ a.free, c.used = 0 ∧ c.oversize = false
  parent : a.parent = parent
  policy : a.fixed = false →
    fixedOverhead ≤ a.nextBlock ∧ a.nextBlock ≤ a.maxBlock ∧ a.maxBlock ≤ ptrdiffMax
  out : a.fixed = false → Out a.world a.regions
  total : a.fixed = false → a.committed = (a.regions.map Region.size).sum
  /-- A fixed arena has at most the block in its buffer, and owes its parent nothing. -/
  buffer : a.fixed = true → a.free = [] ∧ a.chain.length ≤ 1 ∧
    (∀ c ∈ a.chain, c.oversize = false ∧ blockHdr + c.cap ≤ a.committed) ∧ ∀ w, Out w []
  dark : build.asan = true → ∀ c ∈ a.cells, c.Dark a.world

/-- What holds of an arena between two calls. -/
structure Image.Sane (a : Image σ) : Prop extends Image.Owned build parent Out a where
  counted : a.used ≤ consumed a.chain
  peak : a.used ≤ a.highWater

end

/-! Facts about the blocks of an arena. -/

section
variable {parent : AllocT σ} {Out : World σ → List Region → Prop} {a : Image σ}

theorem Cell.region_covers_addr (c : Cell) : c.region.Covers c.addr := by
  refine ⟨Nat.le_refl _, ?_⟩
  change c.addr < c.addr + (blockHdr + c.cap)
  unfold blockHdr
  omega

theorem Cell.covers_of_data {x : Nat} (c : Cell) (above : c.data ≤ x)
    (below : x < c.data + c.cap) : c.region.Covers x := by
  constructor
  · exact Nat.le_trans (Nat.le_add_right _ _) above
  · change x < c.addr + (blockHdr + c.cap)
    rwa [← Nat.add_assoc]

theorem Image.Owned.cells_apart (owned : a.Owned build parent Out) :
    a.cells.Pairwise fun c d => c.region.Apart d.region :=
  List.pairwise_map.mp owned.apart

/-- Two blocks that share a byte are the same. -/
theorem Image.Owned.eq_of_covers (owned : a.Owned build parent Out) {c d : Cell} {x : Nat}
    (left : c ∈ a.cells) (right : d ∈ a.cells) (coversC : c.region.Covers x)
    (coversD : d.region.Covers x) : c = d := by
  by_contra distinct
  have symmetric : Std.Symm fun c d : Cell => c.region.Apart d.region :=
    ⟨fun _ _ => Region.Apart.symm⟩
  exact Region.not_apart_of_covers coversC coversD
    (owned.cells_apart.forall left right distinct)

theorem Image.Owned.eq_of_addr (owned : a.Owned build parent Out) {c d : Cell}
    (left : c ∈ a.cells) (right : d ∈ a.cells) (same : c.addr = d.addr) : c = d :=
  owned.eq_of_covers left right c.region_covers_addr (same ▸ d.region_covers_addr)

theorem Image.Owned.distinct (owned : a.Owned build parent Out) :
    (a.cells.map Cell.addr).Nodup := by
  refine List.pairwise_map.mpr (owned.cells_apart.imp ?_)
  intro c d separate same
  refine Region.not_apart_of_covers c.region_covers_addr ?_ separate
  rw [same]
  exact d.region_covers_addr

/-- The bytes a chain has consumed fit in the address space. -/
theorem Image.Owned.consumed_le (owned : a.Owned build parent Out) :
    consumed a.chain ≤ (a.regions.map Region.size).sum := by
  have smaller : ∀ cells : List Cell, (∀ c ∈ cells, c.used ≤ c.cap) →
      consumed cells ≤ ((cells.map Cell.region).map Region.size).sum := by
    intro cells fits
    induction cells with
    | nil => exact Nat.le_refl _
    | cons c cs ih =>
        have head := fits c (.head _)
        have tail := ih fun d member => fits d (.tail _ member)
        have size : c.region.size = blockHdr + c.cap := rfl
        simp only [consumed_cons, List.map_cons, List.sum_cons, size]
        omega
  have whole := smaller a.chain fun c member => owned.fits c (List.mem_append_left _ member)
  rw [Image.regions, Image.cells, List.map_append, List.map_append, List.sum_append]
  omega

theorem Image.Owned.total_le (owned : a.Owned build parent Out) :
    (a.regions.map Region.size).sum ≤ sizeMax := by
  refine sum_sizes_le owned.apart fun r member => ?_
  obtain ⟨c, listed, rfl⟩ := List.mem_map.mp member
  exact (owned.inside c listed).2

theorem Image.cells_of_chain {c : Cell} {cs : List Cell} (chain : a.chain = c :: cs) :
    a.cells = c :: (cs ++ a.free) := by
  rw [Image.cells, chain, List.cons_append]

/-- Marking within another block leaves this one dark. -/
theorem Cell.Dark.keep {c : Cell} {w w' : World σ} {r : Region} (dark : c.Dark w)
    (touched : w.Touched r w') (apart : r.Apart c.region) : c.Dark w' := by
  intro x above below
  have covers := c.covers_of_data (Nat.le_trans (Nat.le_add_right _ _) above) below
  rw [touched.poisoned x (apart.symm.not_covers covers)]
  exact dark x above below

/-- What the parent leaves alone stays dark. -/
theorem Cell.Dark.kept {c : Cell} {w w' : World σ} {rs : List Region} (dark : c.Dark w)
    (keeps : w.Keeps rs w') (member : c.region ∈ rs) : c.Dark w' := by
  intro x above below
  have covers := c.covers_of_data (Nat.le_trans (Nat.le_add_right _ _) above) below
  rw [(keeps _ member x covers).2]
  exact dark x above below

/-- The same blocks, on other lists. -/
theorem Image.Owned.rearrange (conforms : parent.Conforms Out) (owned : a.Owned build parent Out)
    (growing : a.fixed = false) {chain free : List Cell} (same : a.cells.Perm (chain ++ free))
    (empty : ∀ c ∈ free, c.used = 0 ∧ c.oversize = false) :
    Image.Owned build parent Out { a with chain, free } :=
  have regions : a.regions.Perm ((chain ++ free).map Cell.region) := same.map _
  { apart := (regions.pairwise_iff fun apart => Region.Apart.symm apart).mp owned.apart
    inside := fun c member => owned.inside c (same.mem_iff.mpr member)
    sized := fun c member => owned.sized c (same.mem_iff.mpr member)
    fits := fun c member => owned.fits c (same.mem_iff.mpr member)
    empty := empty
    parent := owned.parent
    policy := owned.policy
    out := fun _ => conforms.perm (owned.out growing) regions
    total := fun _ => (owned.total growing).trans (regions.map _).sum_nat
    buffer := fun fixed => Bool.noConfusion (growing.symm.trans fixed)
    dark := fun asan c member => owned.dark asan c (same.mem_iff.mpr member) }

/-- The newest block's cursor moves, and bytes within the block are marked. -/
theorem Image.Owned.setHead (conforms : parent.Conforms Out) (owned : a.Owned build parent Out)
    {c : Cell} {cs : List Cell} (chain : a.chain = c :: cs) {used : Nat} (fits : used ≤ c.cap)
    {r : Region} {world : World σ} (touched : a.world.Touched r world)
    (within : r.Within c.region)
    (dark : build.asan = true → Cell.Dark world { c with used }) (live highWater : Nat) :
    Image.Owned build parent Out
      { a with chain := { c with used } :: cs, used := live, highWater, world } := by
  have cells := Image.cells_of_chain chain
  have head : c ∈ a.cells := by rw [cells]; exact .head _
  have later : ∀ {d : Cell}, d ∈ cs ++ a.free → d ∈ a.cells := by
    intro d member
    rw [cells]
    exact .tail _ member
  have separate : ∀ d ∈ cs ++ a.free, r.Apart d.region := by
    have apart := owned.cells_apart
    rw [cells, List.pairwise_cons] at apart
    exact fun d member => (apart.1 d member).mono within (.refl _)
  have regions : Image.regions
      { a with chain := { c with used } :: cs, used := live, highWater, world } = a.regions := by
    rw [Image.regions, Image.regions, cells]
    rfl
  exact
    { apart := regions ▸ owned.apart
      inside := List.forall_mem_cons.mpr
        ⟨owned.inside c head, fun d member => owned.inside d (later member)⟩
      sized := List.forall_mem_cons.mpr
        ⟨owned.sized c head, fun d member => owned.sized d (later member)⟩
      fits := List.forall_mem_cons.mpr ⟨fits, fun d member => owned.fits d (later member)⟩
      empty := owned.empty
      parent := owned.parent
      policy := owned.policy
      out := fun growing => by
        rw [regions]
        exact conforms.written (owned.out growing)
          (touched.inside (List.mem_map_of_mem head) within)
      total := fun growing => by
        rw [regions]
        exact owned.total growing
      buffer := fun fixed => by
        obtain ⟨free, single, normal, nothing⟩ := owned.buffer fixed
        rw [chain] at single normal
        exact ⟨free, single, List.forall_mem_cons.mpr
          ⟨normal c (.head _), fun d member => normal d (.tail _ member)⟩, nothing⟩
      dark := fun asan => List.forall_mem_cons.mpr
        ⟨dark asan, fun d member =>
          (owned.dark asan d (later member)).keep touched (separate d member)⟩ }

/-! Giving up blocks. -/

/-- What a chain that is discarded adds to the free list. -/
def retired : List Cell → List Cell
  | [] => []
  | c :: cs => retired cs ++ if c.oversize then [] else [{ c with used := 0 }]

theorem retired_oversize {c : Cell} (oversize : c.oversize = true) (cs : List Cell) :
    retired (c :: cs) = retired cs := by
  rw [retired, if_pos oversize, List.append_nil]

theorem retired_normal {c : Cell} (normal : c.oversize = false) (cs free : List Cell) :
    retired (c :: cs) ++ free = retired cs ++ { c with used := 0 } :: free := by
  rw [retired, if_neg (Bool.not_eq_true _ ▸ normal), List.append_assoc]
  rfl

/-- They are the normal blocks with nothing consumed, oldest first. -/
theorem retired_eq (cells : List Cell) :
    retired cells = ((cells.filter (!·.oversize)).map Cell.bare).reverse := by
  induction cells with
  | nil => rfl
  | cons c cs ih =>
      rw [retired, ih]
      cases oversize : c.oversize with
      | true => rw [List.filter_cons_of_neg (by simp [oversize]), if_pos rfl, List.append_nil]
      | false =>
          rw [List.filter_cons_of_pos (by simp [oversize]), List.map_cons, List.reverse_cons,
            if_neg Bool.false_ne_true, ← oversize]
          rfl

/-- A block that is marked dead below its cursor is dark from its start. -/
theorem Cell.Dark.dead (asan : build.asan = true) {c : Cell} {w : World σ} (dark : c.Dark w) :
    Cell.Dark (w.dead build c.data c.used) { c with used := 0 } := by
  intro x above below
  rw [World.dead_poisoned asan]
  split
  · rfl
  · case isFalse outside =>
      refine dark x ?_ below
      have above : c.addr + blockHdr + 0 ≤ x := above
      unfold Cell.data at outside
      unfold Cell.cursor
      omega

theorem Cell.data_within {c : Cell} {p len : Nat} (above : c.data ≤ p)
    (below : p + len ≤ c.data + c.cap) : Region.Within ⟨p, len⟩ c.region := by
  constructor
  · exact Nat.le_trans (Nat.le_add_right _ _) above
  · change p + len ≤ c.addr + (blockHdr + c.cap)
    rwa [← Nat.add_assoc]

theorem Cell.used_within {c : Cell} (fits : c.used ≤ c.cap) :
    Region.Within ⟨c.data, c.used⟩ c.region :=
  Cell.data_within (Nat.le_refl _) (Nat.add_le_add_left fits _)

/-- The newest block goes to the free list. -/
theorem Image.Owned.retire (conforms : parent.Conforms Out) {c : Cell} {cs : List Cell}
    (owned : Image.Owned build parent Out { a with chain := c :: cs })
    (growing : a.fixed = false) (normal : c.oversize = false) :
    Image.Owned build parent Out { a.retire build c with chain := cs } := by
  have fits := owned.fits c (.head _)
  have rewound := owned.setHead conforms rfl (Nat.zero_le _)
    (World.dead_touched build c.data c.used a.world) (Cell.used_within fits)
    (fun asan => (owned.dark asan c (.head _)).dead asan) a.used a.highWater
  refine rewound.rearrange conforms growing List.perm_middle.symm ?_
  exact List.forall_mem_cons.mpr ⟨⟨rfl, normal⟩, owned.empty⟩

/-- The newest block goes back to the parent. -/
theorem Image.Owned.release (conforms : parent.Conforms Out) {c : Cell} {cs free : List Cell}
    (owned : Image.Owned build parent Out { a with chain := c :: cs, free })
    (growing : a.fixed = false) :
    ∃ world, a.release build c =
        .ok { a with committed := a.committed - (blockHdr + c.cap), world } ∧
      a.world.Keeps ((cs ++ free).map Cell.region) world ∧
      Image.Owned build parent Out
        { a with chain := cs, free, committed := a.committed - (blockHdr + c.cap), world } := by
  obtain ⟨separate, apart⟩ := List.pairwise_cons.mp owned.apart
  have faded := World.fade_touched build c.data c.used a.world
  have within := Cell.used_within (owned.fits c (.head _))
  have out : Out (a.world.fade build c.data c.used) (c.region :: (cs ++ free).map Cell.region) :=
    conforms.written (owned.out growing) (faded.inside (.head _) within)
  obtain ⟨world, freed, keeps, out⟩ := conforms.xfree out
  have kept : a.world.Keeps ((cs ++ free).map Cell.region) world :=
    (faded.keeps fun r member => (separate r member).mono within (.refl _)).trans keeps
  have holder : a.parent = parent := owned.parent
  have freed : parent.xfree c.addr (blockHdr + c.cap) 0 (a.world.fade build c.data c.used) =
      .ok world := freed
  refine ⟨world, ?_, kept, ?_⟩
  · rw [Image.release, holder, freed]
    rfl
  · exact
      { apart := apart
        inside := fun d member => owned.inside d (.tail _ member)
        sized := fun d member => owned.sized d (.tail _ member)
        fits := fun d member => owned.fits d (.tail _ member)
        empty := owned.empty
        parent := holder
        policy := owned.policy
        out := fun _ => out
        total := fun _ => by
          have total := owned.total growing
          change a.committed = (blockHdr + c.cap) + ((cs ++ free).map Cell.region |>.map Region.size).sum at total
          change a.committed - (blockHdr + c.cap) = ((cs ++ free).map Cell.region |>.map Region.size).sum
          omega
        buffer := fun fixed => Bool.noConfusion (growing.symm.trans fixed)
        dark := fun asan d member =>
          (owned.dark asan d (.tail _ member)).kept kept (List.mem_map_of_mem member) }

theorem Image.Owned.discard (conforms : parent.Conforms Out) {cells keep : List Cell}
    (owned : Image.Owned build parent Out { a with chain := cells ++ keep })
    (growing : cells ≠ [] → a.fixed = false) :
    ∃ committed world, a.discard build cells =
        .ok { a with free := retired cells ++ a.free, committed, world } ∧
      a.world.Keeps (keep.map Cell.region) world ∧
      Image.Owned build parent Out
        { a with chain := keep, free := retired cells ++ a.free, committed, world } := by
  induction cells generalizing a with
  | nil => exact ⟨a.committed, a.world, rfl, .refl _ _, owned⟩
  | cons c cs ih =>
      have growing := growing (List.cons_ne_nil _ _)
      have shorter : ∀ r ∈ keep.map Cell.region, ∃ r' ∈ (cs ++ keep ++ a.free).map Cell.region,
          r.Within r' := by
        intro r member
        refine ⟨r, ?_, .refl r⟩
        simp only [List.map_append, List.mem_append]
        exact .inl (.inr member)
      cases kind : c.oversize with
      | true =>
          obtain ⟨world, released, keeps, rest⟩ := owned.release conforms growing
          obtain ⟨committed, world', ran, keeps', owned'⟩ :=
            ih (a := { a with committed := a.committed - (blockHdr + c.cap), world }) rest
              fun _ => growing
          rw [retired_oversize kind]
          refine ⟨committed, world', ?_, (keeps.mono shorter).trans keeps', owned'⟩
          rw [Image.discard, if_pos kind, released]
          exact ran
      | false =>
          have touched := World.dead_touched build c.data c.used a.world
          have separate := (List.pairwise_cons.mp owned.apart).1
          have keeps : a.world.Keeps (keep.map Cell.region) (a.retire build c).world :=
            touched.keeps fun r member => by
              obtain ⟨r', member', within⟩ := shorter r member
              exact (separate r' member').mono (Cell.used_within (owned.fits c (.head _))) within
          obtain ⟨committed, world, ran, keeps', owned'⟩ :=
            ih (owned.retire conforms growing kind) fun _ => growing
          rw [retired_normal kind]
          refine ⟨committed, world, ?_, keeps.trans keeps', owned'⟩
          rw [Image.discard, if_neg (Bool.not_eq_true _ ▸ kind)]
          exact ran

theorem Image.Owned.releaseAll (conforms : parent.Conforms Out) {cells keep free : List Cell}
    (owned : Image.Owned build parent Out { a with chain := cells ++ keep, free })
    (growing : a.fixed = false) :
    ∃ committed world, a.releaseAll build cells = .ok { a with committed, world } ∧
      a.world.Keeps ((keep ++ free).map Cell.region) world ∧
      Image.Owned build parent Out { a with chain := keep, free, committed, world } := by
  induction cells generalizing a with
  | nil => exact ⟨a.committed, a.world, rfl, .refl _ _, owned⟩
  | cons c cs ih =>
      obtain ⟨world, released, keeps, rest⟩ := owned.release conforms growing
      obtain ⟨committed, world', ran, keeps', owned'⟩ :=
        ih (a := { a with committed := a.committed - (blockHdr + c.cap), world }) rest growing
      have shorter : ∀ r ∈ (keep ++ free).map Cell.region,
          ∃ r' ∈ (cs ++ keep ++ free).map Cell.region, r.Within r' := by
        intro r member
        refine ⟨r, ?_, .refl r⟩
        rw [List.append_assoc, List.map_append]
        exact List.mem_append_right _ member
      refine ⟨committed, world', ?_, (keeps.mono shorter).trans keeps', owned'⟩
      rw [Image.releaseAll, released]
      exact ran

end

end AgencC.Arena
