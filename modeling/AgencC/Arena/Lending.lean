import AgencC.Arena.Recall

/-! An arena as the parent of another: the functions of `arena_allocator` keep the contract of
`alloc.h`, in whatever order blocks are given back. -/

set_option autoImplicit false

namespace AgencC.Arena

open Library

variable {σ : Type}

/-- A call of a function of `arena_allocator`, and the arena behind it before and after. -/
structure Loan (σ : Type) where
  op : Op σ
  ptr : Nat
  before : Session σ
  after : Session σ

/-- An arena as the state of a parent: all of it but the bytes, the books of its clients, and the
calls made through `arena_allocator`, newest first. -/
structure Lender (σ : Type) where
  arena : ArenaT σ
  blocks : Blocks
  parent : σ
  books : Books
  loans : List (Loan σ)

def World.lender (w : World (Lender σ)) : Session σ where
  state :=
    { arena := w.parent.arena, blocks := w.parent.blocks
      world := { bytes := w.bytes, poisoned := w.poisoned, parent := w.parent.parent } }
  books := w.parent.books

def World.loans (w : World (Lender σ)) : List (Loan σ) := w.parent.loans

def Session.lend (loans : List (Loan σ)) (s : Session σ) : World (Lender σ) where
  bytes := s.state.world.bytes
  poisoned := s.state.world.poisoned
  parent :=
    { arena := s.state.arena, blocks := s.state.blocks, parent := s.state.world.parent
      books := s.books, loans }

section
variable (build : Build)

/-- A call of the arena behind, with the record of it. -/
def World.call (op : Op σ) (w : World (Lender σ)) : Except Fault (Nat × World (Lender σ)) := do
  let (ptr, after) ← w.lender.step build op
  .ok (ptr, after.lend ({ op, ptr, before := w.lender, after } :: w.loans))

/-- `arena_allocator`, of an arena that is not NULL. -/
def arenaAllocator : AllocT (Lender σ) where
  xalloc size align w := w.call build (.allocate (.xalloc size align))
  xrealloc ptr oldSize newSize align w := w.call build (.xrealloc ptr oldSize newSize align)
  xfree ptr size align w := do
    let (_, w) ← w.call build (.xfree ptr size align)
    .ok w

end

/-- A block, as the allocation it is for the arena behind. -/
def Span.block (r : Region) : Span := { addr := r.addr, size := r.size, align := 0 }

/-- All that was live before the call is live after it, but for what it was given. It lies below a
cursor, apart from the rest, with the bytes and the poison it had. -/
structure Loan.Spares (loan : Loan σ) : Prop where
  live : ∀ x ∈ loan.before.books.live, x ∈ loan.after.books.live ∨ loan.op.span = some x
  placed : ∃ chain free, loan.after.state.Lists chain free ∧
    ∀ x ∈ loan.after.books.live, ∃ c ∈ chain, c.used ≤ c.cap ∧ c.data ≤ x.addr ∧
      x.addr + x.size ≤ c.cursor
  apart : (loan.after.books.live.map Span.extent).Pairwise Region.Apart
  kept : ∀ x ∈ loan.before.books.live, loan.op.span ≠ some x → ∀ q, x.Covers q →
    loan.after.state.world.bytes q = loan.before.state.world.bytes q ∧
      loan.after.state.world.poisoned q = loan.before.state.world.poisoned q

section
variable (build : Build) (parent : AllocT σ) (Out : World σ → List Region → Prop)

/-- The blocks in `rs` are live in the arena behind. What else is live there is `own`, and has the
bytes that are on record. -/
structure Lent (own : List Span) (contents : Nat → UInt8) (w : World (Lender σ))
    (rs : List Region) : Prop where
  settled : w.lender.Settled build parent Out
  distinct : rs.Nodup
  lent : ∀ r ∈ rs, Span.block r ∈ w.lender.books.scope.live
  rest : ∀ x ∈ w.lender.books.live, x ∈ own ∨ x.extent ∈ rs
  owned : ∀ x ∈ own, x ∈ w.lender.books.live ∧ x.extent ∉ rs
  recorded : ∀ x ∈ own, w.lender.Recorded x ∧ ∀ q, x.Covers q → w.bytes q = contents q
  spares : ∀ loan ∈ w.loans, loan.Spares

end

section
variable {build : Build} {parent : AllocT σ} {Out : World σ → List Region → Prop}

theorem Image.Kept.extents_nodup {a : Image σ} {b : Books} (kept : a.Kept build parent Out b) :
    (b.live.map Span.extent).Nodup := by
  have filled : ∀ r ∈ b.live.map Span.extent, 0 < r.size := by
    intro r member
    obtain ⟨x, listed, rfl⟩ := List.mem_map.mp member
    exact kept.filled listed
  refine kept.live_apart.imp_of_mem fun member _ apart same => ?_
  subst same
  have filled := filled _ member
  unfold Region.Apart at apart
  omega

namespace Session.Settled

variable {s s' : Session σ}

/-- Two live allocations with the same bytes are one. -/
theorem eq_of_extent (settled : s.Settled build parent Out) {x y : Span} (member : x ∈ s.books.live)
    (listed : y ∈ s.books.live) (same : x.extent = y.extent) : x = y := by
  obtain ⟨a, _, kept⟩ := settled
  exact List.inj_on_of_nodup_map kept.extents_nodup member listed same

theorem live_apart (settled : s.Settled build parent Out) {x y : Span}
    (member : x ∈ s.books.live) (listed : y ∈ s.books.live) (other : x ≠ y) :
    x.extent.Apart y.extent := by
  obtain ⟨a, _, kept⟩ := settled
  exact (kept.apart_of_ne member listed other).mono x.extent_within y.extent_within

/-- What is live lies in a block. -/
theorem lies (settled : s.Settled build parent Out) {x : Span} (member : x ∈ s.books.live) :
    ∃ r ∈ s.state.regions, x.extent.Within r := by
  obtain ⟨a, shows, kept⟩ := settled
  obtain ⟨c, chained, fits, above, below⟩ := kept.live_placed member
  refine ⟨c.region, shows.regions.mem_iff.mpr
    (List.mem_map_of_mem (List.mem_append_left _ chained)), ?_⟩
  exact c.data_within above (Nat.le_trans below (Nat.add_le_add_left fits _))

/-- A call on single allocations spares what it is not given. -/
theorem spares (conforms : parent.Conforms Out) (settled : s.Settled build parent Out)
    {op : Op σ} (legal : op.Legal Out s) (plain : op.Plain) {ptr : Nat}
    (ran : s.step build op = .ok (ptr, s')) :
    Loan.Spares { op, ptr, before := s, after := s' } := by
  obtain ⟨settled', _, kept⟩ := settled.step conforms legal ran
  obtain ⟨outer, live⟩ := Session.step_live plain ran
  obtain ⟨a, shows, kept'⟩ := settled'
  refine
    { live := fun x member => ?_
      placed := ⟨a.chain, a.free, shows.lists, fun x => kept'.live_placed⟩
      apart := kept'.live_apart
      kept := fun x => kept plain x }
  by_cases given : op.span = some x
  · exact .inr given
  · refine .inl (Books.mem_live.mpr ((Books.mem_live.mp member).imp (live x · given) fun later => ?_))
    rwa [outer]

end Session.Settled

theorem alignEffective_zero (build : Build) : alignEffective build 0 = maxAlignT := by
  unfold alignEffective
  exact if_neg fun small => absurd (of_decide_eq_true (Bool.and_eq_true _ _ ▸ small).2) (by decide)

namespace Lent

variable {own : List Span} {contents : Nat → UInt8} {w w' : World (Lender σ)} {rs : List Region}

theorem live (lent : Lent build parent Out own contents w rs) {r : Region} (member : r ∈ rs) :
    Span.block r ∈ w.lender.books.live :=
  Books.mem_live.mpr (.inl (lent.lent r member))

theorem own_apart (lent : Lent build parent Out own contents w rs) {x : Span} (member : x ∈ own)
    {r : Region} (listed : r ∈ rs) : x.extent.Apart r := by
  obtain ⟨live, outside⟩ := lent.owned x member
  refine lent.settled.live_apart live (lent.live listed) fun same => outside ?_
  rw [same]
  exact listed

theorem apart (lent : Lent build parent Out own contents w rs) : rs.Pairwise Region.Apart := by
  refine lent.distinct.pairwise_of_forall_ne fun r member r' listed other => ?_
  exact lent.settled.live_apart (lent.live member) (lent.live listed)
    fun same => other (congrArg Span.extent same)

/-- What the holder of the blocks writes to them is no concern of the arena behind. -/
theorem written (conforms : parent.Conforms Out) (lent : Lent build parent Out own contents w rs)
    (inside : w.Inside rs w') : Lent build parent Out own contents w' rs := by
  obtain ⟨bytes, poisoned, state⟩ := w'
  cases inside.parent
  have away : ∀ {x : Span}, x ∈ own → ∀ {q}, x.Covers q → ∀ r ∈ rs, ¬ r.Covers q :=
    fun member _ covers r listed => (lent.own_apart member listed).not_covers covers
  refine
    { settled := ?_
      distinct := lent.distinct
      lent := lent.lent
      rest := lent.rest
      owned := lent.owned
      recorded := fun x member => ?_
      spares := lent.spares }
  · obtain ⟨a, shows, kept⟩ := lent.settled
    have before : w.lender.state.world = a.world := shows.world
    have lies : ∀ r ∈ rs, ∃ r' ∈ a.regions, r.Within r' := by
      intro r member
      obtain ⟨r', held, within⟩ := lent.settled.lies (lent.live member)
      exact ⟨r', shows.regions.mem_iff.mp held, within⟩
    refine ⟨{ a with world := { bytes, poisoned, parent := w.parent.parent } }, shows.write _,
      kept.elsewhere (fun growing => conforms.written (kept.sane.out growing) ?_) ?_⟩
    · rw [← before]
      have outside : ∀ {q}, (∀ r ∈ a.regions, ¬ r.Covers q) → ∀ r ∈ rs, ¬ r.Covers q := by
        intro q outside r member covers
        obtain ⟨r', listed, within⟩ := lies r member
        exact outside r' listed (within.covers covers)
      exact ⟨rfl, fun q apart => inside.bytes q (outside apart),
        fun q apart => inside.poisoned q (outside apart)⟩
    · intro r _ q _ none
      rw [← before]
      exact inside.poisoned q fun r' member covers => none _ (lent.live member) covers
  · obtain ⟨right, same⟩ := lent.recorded x member
    have still : ∀ q, x.Covers q → bytes q = w.bytes q := fun q covers =>
      inside.bytes q (away member covers)
    exact ⟨fun q covers => (still q covers).trans (right q covers),
      fun q covers => (still q covers).trans (same q covers)⟩

/-- A call of the arena behind, on what its holder has or on nothing. -/
theorem call (conforms : parent.Conforms Out) (lent : Lent build parent Out own contents w rs)
    {op : Op σ} (legal : op.Legal Out w.lender) (plain : op.Plain)
    (given : ∀ x ∈ own, op.span ≠ some x) {ptr : Nat} {s : Session σ}
    (ran : w.lender.step build op = .ok (ptr, s)) (nothing : ptr ≠ 0 → op.span = none) :
    s.Settled build parent Out ∧
      (∀ r ∈ rs, op.span ≠ some (Span.block r) → Span.block r ∈ s.books.scope.live ∧
        ∀ q, r.Covers q → s.state.world.bytes q = w.bytes q ∧
          s.state.world.poisoned q = w.poisoned q) ∧
      (∀ x ∈ own, x ∈ s.books.live ∧ s.Recorded x ∧
        ∀ q, x.Covers q → s.state.world.bytes q = contents q) ∧
      ∀ loan ∈ ({ op, ptr, before := w.lender, after := s } : Loan σ) :: w.loans, loan.Spares := by
  obtain ⟨settled, recorded, kept⟩ := lent.settled.step conforms legal ran
  have spares := lent.settled.spares conforms legal plain ran
  obtain ⟨_, live⟩ := Session.step_live plain ran
  refine ⟨settled, fun r member other => ?_, fun x member => ?_,
    List.forall_mem_cons.mpr ⟨spares, lent.spares⟩⟩
  · exact ⟨live _ (lent.lent r member) other, kept plain _ (lent.live member) other⟩
  · have listed := (lent.owned x member).1
    have after : x ∈ s.books.live := (spares.live x listed).resolve_right (given x member)
    refine ⟨after, recorded (fun y source some => ?_) x after fun _ => (lent.recorded x member).1,
      fun q covers => ?_⟩
    · cases (nothing some).symm.trans source
    · exact (kept plain x listed (given x member) q covers).1.trans
        ((lent.recorded x member).2 q covers)

end Lent

theorem Session.step_xalloc {s s' : Session σ} {size ptr : Nat}
    (ran : s.step build (.allocate (.xalloc size 0)) = .ok (ptr, s')) :
    (ptr = 0 → s'.books = s.books) ∧
      (ptr ≠ 0 → Span.block ⟨ptr, size⟩ ∈ s'.books.scope.live ∧
        s'.books.live = Span.block ⟨ptr, size⟩ :: s.books.live) := by
  obtain ⟨⟨_, state⟩, called, same⟩ := bind_eq_ok.mp ran
  cases same
  constructor
  · intro refused
    exact if_pos refused
  · intro served
    dsimp only
    rw [Books.allocated, if_neg served]
    exact ⟨.head _, rfl⟩

theorem Session.step_xfree {s s' : Session σ} {r : Region} (given : r.addr ≠ 0)
    (member : Span.block r ∈ s.books.scope.live) {ptr : Nat}
    (ran : s.step build (.xfree r.addr r.size 0) = .ok (ptr, s')) :
    ptr = 0 ∧ s'.books.live = s.books.live.erase (Span.block r) := by
  obtain ⟨state, called, same⟩ := bind_eq_ok.mp ran
  cases same
  refine ⟨rfl, ?_⟩
  rw [Books.live, Books.live, Books.ledgers, Books.ledgers, List.flatMap_cons, List.flatMap_cons,
    Books.freed_live _ given, List.erase_append_left _ member]
  unfold Books.freed
  rw [if_neg given]
  cases decide (state.arena.used = s.state.arena.used) <;> rfl

/-- The functions of `arena_allocator` keep the contract of `alloc.h`, whatever else is live in the
arena behind, and leave that alone. -/
theorem arenaAllocator_conforms (conforms : parent.Conforms Out) (own : List Span)
    (contents : Nat → UInt8) :
    (arenaAllocator build).Conforms (Lent build parent Out own contents) where
  perm lent same :=
    { lent with
      distinct := same.nodup_iff.mp lent.distinct
      lent := fun r member => lent.lent r (same.mem_iff.mpr member)
      rest := fun x member => (lent.rest x member).imp id same.mem_iff.mp
      owned := fun x member => ⟨(lent.owned x member).1,
        fun listed => (lent.owned x member).2 (same.mem_iff.mpr listed)⟩ }
  apart lent := lent.apart
  inside {w rs} lent r member := by
    obtain ⟨a, _, kept⟩ := lent.settled
    obtain ⟨c, chained, fits, above, below⟩ := kept.live_placed (lent.live member)
    obtain ⟨nonzero, top⟩ := kept.sane.inside c (List.mem_append_left _ chained)
    have above : c.addr + blockHdr ≤ r.addr := above
    have below : r.addr + r.size ≤ c.addr + blockHdr + c.used := below
    omega
  aligned {w rs} lent r member := by
    obtain ⟨a, _, kept⟩ := lent.settled
    have aligned := (kept.lie.aligned _ (lent.live member)).1
    rwa [show (Span.block r).align = 0 from rfl, alignEffective_zero] at aligned
  written lent inside := lent.written conforms inside
  xalloc {w rs size} lent some small := by
    have legal : Op.Legal Out w.lender (.allocate (.xalloc size 0)) := Nat.zero_le _
    obtain ⟨ptr, s, ran⟩ := lent.settled.returns conforms legal trivial
    obtain ⟨settled, held, mine, spares⟩ := lent.call conforms legal trivial
      (fun _ _ given => nomatch given) ran fun _ => rfl
    obtain ⟨refused, served⟩ := Session.step_xalloc ran
    refine ⟨ptr, s.lend _, bind_eq_ok.mpr ⟨_, ran, rfl⟩,
      fun r member => (held r member fun given => nomatch given).2, ?_⟩
    by_cases null : ptr = 0
    · refine .inl ⟨null, settled, lent.distinct,
        fun r member => (held r member fun given => nomatch given).1, ?_, ?_,
        fun x member => (mine x member).2, spares⟩
      · intro x member
        exact lent.rest x (refused null ▸ member)
      · exact fun x member => ⟨(mine x member).1, (lent.owned x member).2⟩
    · obtain ⟨new, live⟩ := served null
      have fresh : ∀ x ∈ w.lender.books.live, x.extent ≠ ⟨ptr, size⟩ := by
        intro x member same
        obtain ⟨a, _, kept⟩ := settled
        have distinct := kept.extents_nodup
        rw [show (s.books.recall s.state.world.bytes).live = _ from live, List.map_cons] at distinct
        have listed := List.mem_map_of_mem (f := Span.extent) member
        rw [same] at listed
        exact (List.nodup_cons.mp distinct).1 listed
      refine .inr ⟨null, settled, ?_, ?_, ?_, ?_, fun x member => (mine x member).2, spares⟩
      · exact List.nodup_cons.mpr ⟨fun member => fresh _ (lent.live member) rfl, lent.distinct⟩
      · exact List.forall_mem_cons.mpr
          ⟨new, fun r member => (held r member fun given => nomatch given).1⟩
      · intro x member
        have member : x ∈ s.books.live := member
        rw [live] at member
        cases member with
        | head => exact .inr (.head _)
        | tail _ earlier => exact (lent.rest x earlier).imp id (List.mem_cons_of_mem _)
      · intro x member
        obtain ⟨listed, outside⟩ := lent.owned x member
        refine ⟨(mine x member).1, fun inside => ?_⟩
        cases List.mem_cons.mp inside with
        | inl same => exact fresh x listed same
        | inr earlier => exact outside earlier
  xfree {w r rs} lent := by
    have given : r.addr ≠ 0 := by
      obtain ⟨a, _, kept⟩ := lent.settled
      exact kept.given (x := Span.block r) (lent.lent r (.head _))
    have legal : Op.Legal Out w.lender (.xfree r.addr r.size 0) := .inr (lent.lent r (.head _))
    obtain ⟨ptr, s, ran⟩ := lent.settled.returns conforms legal trivial
    obtain ⟨null, live⟩ := Session.step_xfree given (lent.lent r (.head _)) ran
    obtain ⟨new, distinct⟩ := List.nodup_cons.mp lent.distinct
    have other : ∀ r' ∈ rs, Op.span (.xfree r.addr r.size 0 : Op σ) ≠ some (Span.block r') := by
      intro r' member same
      have same : Span.block r = Span.block r' := Option.some.inj same
      have same : r = r' := congrArg Span.extent same
      exact new (same ▸ member)
    obtain ⟨settled, held, mine, spares⟩ := lent.call conforms legal trivial
      (fun x member same => (lent.owned x member).2 (Option.some.inj same ▸ .head _)) ran
      fun some => absurd null some
    have left : ∀ x ∈ s.books.live, x ∈ w.lender.books.live ∧ x ≠ Span.block r := by
      obtain ⟨a, _, kept⟩ := lent.settled
      have unique : w.lender.books.live.Nodup := List.Nodup.of_map _ kept.extents_nodup
      intro x member
      rw [live, unique.mem_erase_iff] at member
      exact member.symm
    refine ⟨s.lend _, bind_eq_ok.mpr ⟨_, bind_eq_ok.mpr ⟨_, ran, rfl⟩, rfl⟩,
      fun r' member => (held r' (.tail _ member) (other r' member)).2,
      settled, distinct, fun r' member => (held r' (.tail _ member) (other r' member)).1, ?_, ?_,
      fun x member => (mine x member).2, spares⟩
    · intro x member
      obtain ⟨listed, different⟩ := left x member
      refine (lent.rest x listed).imp id fun inside => ?_
      cases List.mem_cons.mp inside with
      | inl same =>
          exact absurd (lent.settled.eq_of_extent listed (lent.live (.head _)) same) different
      | inr later => exact later
    · exact fun x member => ⟨(mine x member).1,
        fun inside => (lent.owned x member).2 (.tail _ inside)⟩

end

end AgencC.Arena
