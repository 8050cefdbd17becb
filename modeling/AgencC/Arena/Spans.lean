import AgencC.Arena.Service

/-! Where allocations lie on a chain, how a chain grows, and what an allocation adds. -/

set_option autoImplicit false

namespace AgencC.Arena

open Library

variable {σ : Type} {build : Build}

/-- `[p, p + len)` lies in the data of one block, below its cursor. -/
def Placed (chain : List Cell) (p len : Nat) : Prop :=
  ∃ c ∈ chain, c.data ≤ p ∧ p + len ≤ c.cursor

/-- The chain is `base` with the cursor of its newest block raised, under any further blocks. -/
inductive Grown (base : List Cell) : List Cell → Prop where
  | empty (bare : base = []) : Grown base []
  | raised {c : Cell} {cs : List Cell} {used : Nat} (start : base = c :: cs)
      (above : c.used ≤ used) : Grown base ({ c with used } :: cs)
  | entered {chain : List Cell} (c : Cell) (grown : Grown base chain) :
      Grown base (c :: chain)

theorem Grown.refl (chain : List Cell) : Grown chain chain := by
  cases chain with
  | nil => exact .empty rfl
  | cons c cs => exact .raised rfl (Nat.le_refl _)

theorem Grown.nil (chain : List Cell) : Grown [] chain := by
  induction chain with
  | nil => exact .empty rfl
  | cons c cs ih => exact .entered c ih

theorem Grown.trans {base middle top : List Cell} (first : Grown base middle)
    (second : Grown middle top) : Grown base top := by
  induction second with
  | empty bare => exact bare ▸ first
  | raised start above =>
      subst start
      cases first with
      | @raised d ds low start' above' =>
          exact Grown.raised (c := d) start' (Nat.le_trans above' above)
      | entered c grown' => exact .entered _ grown'
  | entered c _ ih => exact .entered c ih

/-- Every block of the base is still there, its cursor no lower. -/
theorem Grown.exists_cell {base top : List Cell} (grown : Grown base top) {c : Cell}
    (member : c ∈ base) :
    ∃ d ∈ top, d.addr = c.addr ∧ d.cap = c.cap ∧ c.used ≤ d.used := by
  induction grown with
  | empty bare =>
      subst bare
      cases member
  | raised start above =>
      subst start
      cases member with
      | head => exact ⟨_, .head _, rfl, rfl, above⟩
      | tail _ later => exact ⟨c, .tail _ later, rfl, rfl, Nat.le_refl _⟩
  | entered d _ ih =>
      obtain ⟨e, listed, same⟩ := ih
      exact ⟨e, .tail _ listed, same⟩

theorem Grown.placed {base top : List Cell} (grown : Grown base top) {p len : Nat}
    (placed : Placed base p len) : Placed top p len := by
  obtain ⟨c, member, above, below⟩ := placed
  obtain ⟨d, listed, addr, cap, used⟩ := grown.exists_cell member
  refine ⟨d, listed, ?_, ?_⟩
  · unfold Cell.data at above ⊢
    omega
  · unfold Cell.cursor at below ⊢
    omega

theorem Grown.still_below {base top : List Cell} (grown : Grown base top) {x : Nat}
    (below : Below base x) : Below top x := by
  obtain ⟨c, member, low, high⟩ := below
  obtain ⟨d, listed, addr, cap, used⟩ := grown.exists_cell member
  refine ⟨d, listed, ?_, ?_⟩
  · unfold Cell.data at low ⊢
    omega
  · unfold Cell.cursor at high ⊢
    omega

theorem Grown.consumed_le {base top : List Cell} (grown : Grown base top) :
    consumed base ≤ consumed top := by
  induction grown with
  | empty bare =>
      subst bare
      exact Nat.le_refl _
  | raised start above =>
      subst start
      exact Nat.add_le_add_right above _
  | entered c _ ih => exact Nat.le_trans ih (Nat.le_add_left _ _)

theorem Placed.below {chain : List Cell} {p len x : Nat} (placed : Placed chain p len)
    (above : p ≤ x) (below : x < p + len) : Below chain x := by
  obtain ⟨c, member, low, high⟩ := placed
  exact ⟨c, member, by omega, by omega⟩

theorem Placed.mono {chain : List Cell} {p q len len' : Nat} (placed : Placed chain p len)
    (above : p ≤ q) (below : q + len' ≤ p + len) : Placed chain q len' := by
  obtain ⟨c, member, low, high⟩ := placed
  exact ⟨c, member, by omega, by omega⟩

section
variable {parent : AllocT σ} {Out : World σ → List Region → Prop} {a : Image σ}

theorem Image.Owned.covers_of_below (owned : a.Owned build parent Out) {x : Nat}
    (below : Below a.chain x) : ∃ c ∈ a.chain, c.region.Covers x ∧ c.data ≤ x ∧ x < c.cursor := by
  obtain ⟨c, member, low, high⟩ := below
  have fits := owned.fits c (List.mem_append_left _ member)
  refine ⟨c, member, c.covers_of_data low ?_, low, high⟩
  unfold Cell.cursor at high
  unfold Cell.data
  omega

/-- What no call on a fixed arena changes: it enters no block, and its parent is not called. -/
structure Image.Steady (a a' : Image σ) : Prop where
  length : a'.chain.length = a.chain.length
  committed : a'.committed = a.committed
  parent : a'.world.parent = a.world.parent

theorem Image.Steady.refl (a : Image σ) : a.Steady a := ⟨rfl, rfl, rfl⟩

theorem Image.Steady.trans {a a' a'' : Image σ} (first : a.Steady a') (second : a'.Steady a'') :
    a.Steady a'' :=
  ⟨second.length.trans first.length, second.committed.trans first.committed,
    second.parent.trans first.parent⟩

/-- What the blocks held come to, and the block policy: at most one block was obtained, of the
policy's size, which then moves on, or larger, for a need of its own. -/
inductive Image.Supplied (a a' : Image σ) : Prop where
  | held (pieces : a'.pieces.Perm a.pieces) (sizes : a'.sizes = a.sizes) : Supplied a a'
  | normal (c : Cell) (pieces : a'.pieces.Perm (c :: a.pieces)) (size : blockHdr + c.cap = a.nextBlock)
      (kind : c.oversize = false)
      (sizes : a'.sizes = (a.minBlock, a.maxBlock, min a.maxBlock (a.nextBlock * 2))) : Supplied a a'
  | oversize (c : Cell) (pieces : a'.pieces.Perm (c :: a.pieces))
      (size : a.nextBlock < blockHdr + c.cap) (kind : c.oversize = true)
      (sizes : a'.sizes = a.sizes) : Supplied a a'

theorem Image.Supplied.refl (a : Image σ) : a.Supplied a := .held (.refl _) rfl

/-- Where nothing more was obtained. -/
theorem Image.Supplied.then_held {a a' a'' : Image σ} (first : a.Supplied a')
    (pieces : a''.pieces.Perm a'.pieces) (sizes : a''.sizes = a'.sizes) : a.Supplied a'' := by
  cases first with
  | held pieces' sizes' => exact .held (pieces.trans pieces') (sizes.trans sizes')
  | normal c pieces' size kind sizes' =>
      exact .normal c (pieces.trans pieces') size kind (sizes.trans sizes')
  | oversize c pieces' size kind sizes' =>
      exact .oversize c (pieces.trans pieces') size kind (sizes.trans sizes')

variable (build) in
/-- What taking `size` bytes at `align` does to the arena. -/
structure Image.Took (a : Image σ) (size align ptr : Nat) (a' : Image σ) : Prop where
  grown : Grown a.chain a'.chain
  placed : Placed a'.chain ptr (build.footprint size)
  fresh : ∀ x, ptr ≤ x → x < ptr + build.footprint size → ¬ Below a.chain x
  aligned : align ∣ ptr
  nonzero : ptr ≠ 0
  counted : a'.used + consumed a.chain = a.used + consumed a'.chain
  kept : ∀ x, Below a.chain x →
    a'.world.bytes x = a.world.bytes x ∧ a'.world.poisoned x = a.world.poisoned x
  lit : build.asan = true → ∀ x, Below a'.chain x → ¬ Below a.chain x →
    (a'.world.poisoned x = false ↔ ptr ≤ x ∧ x < ptr + size)
  status : a'.status = a.status
  fixed : a'.fixed = a.fixed
  tempDepth : a'.tempDepth = a.tempDepth
  generation : a'.generation = a.generation
  retains : a.pieces ⊆ a'.pieces
  supplied : a.Supplied a'
  steady : a.fixed = true → a.Steady a'

/-- The chain with the block that serves, before it does. -/
theorem Image.Enters.chain {need : Nat} {c : Cell} {cs : List Cell} {b : Image σ}
    (enters : a.Enters build need c cs b) :
    a.chain = c :: cs ∨ a.chain = cs ∧ (c ∈ a.free ∨ c.used = 0) := by
  cases enters with
  | current chain => exact .inl chain
  | reused growing found =>
      obtain ⟨xs, ys, before, after, room⟩ := takeFit_some found
      refine .inr ⟨rfl, .inl ?_⟩
      rw [before]
      exact List.mem_append_right _ (.head _)
  | obtained growing bound absent found =>
      obtain ⟨world, asked, nonzero, block, result⟩ := Image.obtain_some found
      exact .inr ⟨rfl, .inr (congrArg Cell.used block)⟩

/-- Every block is still held once one of them serves, and at most one more. -/
theorem Image.Enters.supplied {need : Nat} {c : Cell} {cs : List Cell} {b : Image σ}
    (enters : a.Enters build need c cs b) (size align : Nat) :
    a.Supplied (b.serve build size align c cs).2 := by
  have pieces : (b.serve build size align c cs).2.pieces = c.bare :: (cs ++ b.free).map Cell.bare :=
    rfl
  cases enters with
  | current chain =>
      refine .held (.of_eq ?_) rfl
      rw [pieces, Image.pieces, Image.cells_of_chain chain]
      rfl
  | reused growing found =>
      obtain ⟨xs, ys, before, rfl, room⟩ := takeFit_some found
      have same : (a.chain ++ (xs ++ c :: ys)).Perm (c :: (a.chain ++ (xs ++ ys))) := by
        rw [← List.append_assoc, ← List.append_assoc]
        exact List.perm_middle
      refine .held ?_ rfl
      rw [pieces, Image.pieces, Image.cells, before]
      exact (same.map Cell.bare).symm
  | @obtained nextBlock committed world growing bound absent found =>
      obtain ⟨world', asked, nonzero, block, result⟩ := Image.obtain_some found
      have cap : c.cap = max a.nextBlock (blockHdr + need) - blockHdr := congrArg Cell.cap block
      have kind : c.oversize = decide (max a.nextBlock (blockHdr + need) ≠ a.nextBlock) :=
        congrArg Cell.oversize block
      have next : nextBlock = if c.oversize then a.nextBlock else min a.maxBlock (a.nextBlock * 2) :=
        congrArg Image.nextBlock result
      have whole : blockHdr + c.cap = max a.nextBlock (blockHdr + need) := by
        rw [cap]
        exact Nat.add_sub_cancel' (Nat.le_trans (Nat.le_add_right _ _) (Nat.le_max_right _ _))
      cases large : c.oversize with
      | true =>
          rw [large] at kind next
          have other := of_decide_eq_true kind.symm
          refine .oversize c.bare (.refl _) ?_ large (by rw [next]; rfl)
          change a.nextBlock < blockHdr + c.cap
          omega
      | false =>
          rw [large] at kind next
          have same := not_not.mp (of_decide_eq_false kind.symm)
          exact .normal c.bare (.refl _) (whole.trans same) large (by rw [next]; rfl)

/-- Every block is still held once one of them serves. -/
theorem Image.Enters.retains {need : Nat} {c : Cell} {cs : List Cell} {b : Image σ}
    (enters : a.Enters build need c cs b) (other : Build) (size align : Nat) :
    a.pieces ⊆ (b.serve other size align c cs).2.pieces := by
  change a.pieces ⊆ c.bare :: (cs ++ b.free).map Cell.bare
  cases enters with
  | current chain =>
      rw [Image.pieces, Image.cells_of_chain chain]
      exact fun _ => id
  | reused growing found =>
      obtain ⟨xs, ys, before, rfl, room⟩ := takeFit_some found
      have same : (a.chain ++ (xs ++ c :: ys)).Perm (c :: (a.chain ++ (xs ++ ys))) := by
        rw [← List.append_assoc, ← List.append_assoc]
        exact List.perm_middle
      rw [Image.pieces, Image.cells, before]
      exact (same.map Cell.bare).subset
  | obtained growing bound absent found => exact List.subset_cons_self _ _

/-- Nothing above the cursor of the newest block is in use. -/
theorem Image.Owned.not_below (owned : a.Owned build parent Out) {c : Cell} {cs : List Cell}
    (chain : a.chain = c :: cs) {x : Nat} (above : c.cursor ≤ x) (inside : x < c.data + c.cap) :
    ¬ Below a.chain x := by
  intro below
  obtain ⟨d, member, covers, low, high⟩ := owned.covers_of_below below
  have apart := owned.cells_apart
  rw [Image.cells_of_chain chain] at apart
  rw [chain] at member
  cases member with
  | head => exact absurd high (Nat.not_lt.mpr above)
  | tail _ later =>
      have here := c.covers_of_data (Nat.le_trans (Nat.le_add_right _ _) above) inside
      exact ((List.pairwise_cons.mp apart).1 d (List.mem_append_left _ later)).not_covers here covers

theorem Image.Owned.took (conforms : parent.Conforms Out) (owned : a.Owned build parent Out)
    {size align : Nat} (pos : 0 < align) {c : Cell} {cs : List Cell} {b : Image σ}
    (enters : a.Enters build (build.need size align) c cs b)
    (room : c.used + (c.pad align + build.footprint size) ≤ c.cap) :
    Image.Took build a size align (b.serve build size align c cs).1
      (b.serve build size align c cs).2 := by
  obtain ⟨entered, keeps⟩ := owned.enters conforms enters
  have within : ∀ x, Below a.chain x → Below (c :: cs) x := by
    intro x below
    cases enters.chain with
    | inl same => exact same ▸ below
    | inr new =>
        obtain ⟨d, member, inside⟩ := new.1 ▸ below
        exact ⟨d, .tail _ member, inside⟩
  have grown : Grown a.chain (c.bump build size align :: cs) := by
    cases enters.chain with
    | inl same => exact .raised same (Nat.le_add_right _ _)
    | inr new => exact .entered _ (new.1 ▸ .refl _)
  have same : consumed a.chain = consumed (c :: cs) := by
    cases enters.chain with
    | inl same => rw [same]
    | inr new =>
        have empty : c.used = 0 := by
          cases new.2 with
          | inl free => exact (owned.empty c free).1
          | inr empty => exact empty
        rw [consumed_cons, empty, Nat.zero_add, new.1]
  have cursor : c.cursor = c.data + c.used := rfl
  have ptr : (b.serve build size align c cs).1 = c.cursor + c.pad align := rfl
  have footprint : build.footprint size = size + build.redzone := rfl
  have ends : (c.bump build size align).cursor = c.cursor + (c.pad align + build.footprint size) := by
    change c.addr + blockHdr + (c.used + _) = c.addr + blockHdr + c.used + _
    omega
  have fields : b.used = a.used ∧ b.status = a.status ∧ b.fixed = a.fixed ∧
      b.tempDepth = a.tempDepth ∧ b.generation = a.generation := by
    cases enters <;> exact ⟨rfl, rfl, rfl, rfl, rfl⟩
  exact
    { grown := grown
      placed := ⟨c.bump build size align, .head _, by rw [ptr]; change c.data ≤ _; omega,
        by rw [ptr, ends]; omega⟩
      fresh := fun x low high below => by
        rw [ptr] at low high
        exact entered.not_below rfl (by omega) (by omega) (within x below)
      aligned := dvd_add_padding pos
      nonzero := by
        have nonzero := (entered.inside c (.head _)).1
        change c.addr + blockHdr + c.used + c.pad align ≠ 0
        omega
      counted := by
        change b.used + (c.pad align + build.footprint size) + consumed a.chain =
          a.used + (c.used + (c.pad align + build.footprint size) + consumed cs)
        rw [same, fields.1, consumed_cons]
        omega
      kept := fun x below => by
        obtain ⟨d, member, covers, low, high⟩ := owned.covers_of_below below
        obtain ⟨bytes, poisoned⟩ := keeps d.region
          (List.mem_map_of_mem (List.mem_append_left _ member)) x covers
        have touched := World.live_touched build (c.cursor + c.pad align) size b.world
        have outside : ¬ Region.Covers ⟨c.cursor + c.pad align, size⟩ x := by
          intro inside
          have low : c.cursor + c.pad align ≤ x := inside.1
          have high : x < c.cursor + c.pad align + size := inside.2
          exact entered.not_below rfl (by omega) (by omega) (within x below)
        exact ⟨(touched.bytes x outside).trans bytes, (touched.poisoned x outside).trans poisoned⟩
      lit := fun asan x below above => by
        have here : c.cursor ≤ x ∧ x < c.cursor + (c.pad align + build.footprint size) := by
          obtain ⟨d, member, low, high⟩ := below
          cases member with
          | head =>
              rw [ends] at high
              refine ⟨Nat.le_of_not_lt fun under => above ?_, high⟩
              cases enters.chain with
              | inl same => exact same ▸ ⟨c, .head _, low, under⟩
              | inr new =>
                  have empty : c.used = 0 := by
                    cases new.2 with
                    | inl free => exact (owned.empty c free).1
                    | inr empty => exact empty
                  have low : c.data ≤ x := low
                  omega
          | tail _ later =>
              refine absurd ?_ above
              cases enters.chain with
              | inl same => exact same ▸ ⟨d, .tail _ later, low, high⟩
              | inr new => exact new.1 ▸ ⟨d, later, low, high⟩
        have dark : b.world.poisoned x = true :=
          entered.dark asan c (.head _) x here.1 (by omega)
        change (b.world.live build (c.cursor + c.pad align) size).poisoned x = false ↔ _
        rw [World.live_poisoned asan, ptr]
        constructor
        · intro lit
          by_contra outside
          rw [if_neg outside, dark] at lit
          cases lit
        · intro inside
          exact if_pos inside
      status := fields.2.1
      fixed := fields.2.2.1
      tempDepth := fields.2.2.2.1
      generation := fields.2.2.2.2
      retains := enters.retains build size align
      supplied := enters.supplied size align
      steady := fun fixed => by
        cases enters with
        | current chain =>
            exact ⟨by rw [chain]; rfl, rfl, (World.live_touched build _ _ _).parent⟩
        | reused growing => cases growing.symm.trans fixed
        | obtained growing => cases growing.symm.trans fixed }

variable (Out) in
/-- Nothing was taken: at most the status is new, and what the parent did elsewhere. -/
def Image.Unserved (a a' : Image σ) : Prop :=
  ∃ status world, a' = { a with status, world } ∧ a.Refused Out world

theorem Image.Unserved.refl (owned : a.Owned build parent Out) : a.Unserved Out a :=
  ⟨a.status, a.world, rfl, .refl owned⟩

theorem Image.Unserved.fail {world : World σ} (refusal : a.Refused Out world) (status : Status) :
    a.Unserved Out (Image.fail status { a with world }) := by
  unfold Image.fail
  split
  · exact ⟨status, world, rfl, refusal⟩
  · exact ⟨a.status, world, rfl, refusal⟩

theorem Image.Unserved.sane (sane : a.Sane build parent Out) {a' : Image σ}
    (unserved : a.Unserved Out a') : a'.Sane build parent Out := by
  obtain ⟨status, world, rfl, refusal⟩ := unserved
  exact
    { apart := sane.apart
      inside := sane.inside
      sized := sane.sized
      fits := sane.fits
      empty := sane.empty
      parent := sane.parent
      policy := sane.policy
      out := refusal.out
      total := sane.total
      buffer := sane.buffer
      dark := fun asan c member =>
        (sane.dark asan c member).kept refusal.keeps (List.mem_map_of_mem member)
      counted := sane.counted
      peak := sane.peak }

/-- A call either takes what was asked for or takes nothing. -/
theorem Image.Sane.reply (conforms : parent.Conforms Out) (sane : a.Sane build parent Out)
    {count size align ptr : Nat} {a' : Image σ} (word : align ≤ sizeMax)
    (reply : a.Reply build Out count size align (ptr, a')) :
    a'.Sane build parent Out ∧
      ((ptr = 0 ∧ a.Unserved Out a') ∨
        (a.status = .ok ∧ 0 < count * size ∧ alignValid align = true ∧
          a.Took build (count * size) (alignEffective build align) ptr a')) := by
  have owned := sane.toOwned
  have still : a.Refused Out a.world := .refl owned
  generalize answer : (ptr, a') = r at reply
  cases reply with
  | latched failed =>
      cases answer
      exact ⟨sane, .inl ⟨rfl, .refl owned⟩⟩
  | nothing ready valid empty =>
      cases answer
      exact ⟨sane, .inl ⟨rfl, .refl owned⟩⟩
  | invalid ready invalid =>
      cases answer
      exact ⟨(Image.Unserved.fail still .errArg).sane sane, .inl ⟨rfl, .fail still .errArg⟩⟩
  | overflow ready valid large =>
      cases answer
      exact ⟨(Image.Unserved.fail still .errOverflow).sane sane,
        .inl ⟨rfl, .fail still .errOverflow⟩⟩
  | outcome ready valid some small outcome =>
      obtain ⟨k, bits, power⟩ := alignEffective_eq build word valid
      have pos : 0 < alignEffective build align := power ▸ Nat.two_pow_pos k
      cases outcome with
      | refused refusal failed =>
          cases answer
          exact ⟨(Image.Unserved.fail refusal _).sane sane, .inl ⟨rfl, .fail refusal _⟩⟩
      | @served c cs b enters room =>
          have took := owned.took conforms pos enters room
          obtain ⟨entered, _⟩ := owned.enters conforms enters
          have same : b.used = a.used := by cases enters <;> rfl
          have counted : b.used ≤ consumed (c :: cs) := by
            rw [same]
            cases enters.chain with
            | inl chain => exact chain ▸ sane.counted
            | inr new => exact Nat.le_trans (new.1 ▸ sane.counted) (Nat.le_add_left _ _)
          have after := Image.Sane.serve conforms entered counted room
          rw [← answer] at after took
          exact ⟨after, .inr ⟨ready, some, valid, took⟩⟩

theorem Image.Sane.allocImpl (conforms : parent.Conforms Out) (sane : a.Sane build parent Out)
    (count size : Nat) {align : Nat} (word : align ≤ sizeMax) :
    ∃ ptr a', a.allocImpl build count size align = .ok (ptr, a') ∧ a'.Sane build parent Out ∧
      ((ptr = 0 ∧ a.Unserved Out a') ∨
        (a.status = .ok ∧ 0 < count * size ∧ alignValid align = true ∧
          a.Took build (count * size) (alignEffective build align) ptr a')) := by
  obtain ⟨⟨ptr, a'⟩, ran, reply⟩ := sane.toOwned.allocImpl conforms count size word
  exact ⟨ptr, a', ran, sane.reply conforms word reply⟩

end

end AgencC.Arena
