import AgencC.Arena.Borrowing
import AgencC.Arena.Contract
import AgencC.Arena.Lending
import AgencC.Arena.Reallocation

/-! The functions of `arena_allocator` keep the whole contract of `alloc.h`: every align, every
size, and reallocations. -/

set_option autoImplicit false

namespace AgencC.Arena

open Library

variable {σ : Type} {build : Build} {parent : AllocT σ} {Out : World σ → List Region → Prop}

namespace Session.Settled

variable {s s' : Session σ}

/-- What clients write to their live allocations is no concern of the arena. -/
theorem written (conforms : parent.Conforms Out) {w w' : World (Lender σ)} {rs : List Region}
    (settled : w.lender.Settled build parent Out) (inside : w.Inside rs w')
    (live : ∀ r ∈ rs, ∃ x ∈ w.lender.books.live, x.extent = r) :
    w'.lender.Settled build parent Out := by
  obtain ⟨bytes, poisoned, state⟩ := w'
  cases inside.parent
  obtain ⟨a, shows, kept⟩ := settled
  have before : w.lender.state.world = a.world := shows.world
  have covered : ∀ {q}, (∀ r ∈ a.regions, ¬ r.Covers q) → ∀ r ∈ rs, ¬ r.Covers q := by
    intro q outside r member covers
    obtain ⟨x, listed, rfl⟩ := live r member
    obtain ⟨r', held, within⟩ := lies ⟨a, shows, kept⟩ listed
    exact outside r' (shows.regions.mem_iff.mp held) (within.covers covers)
  refine ⟨{ a with world := { bytes, poisoned, parent := w.parent.parent } }, shows.write _,
    kept.elsewhere (fun growing => conforms.written (kept.sane.out growing) ?_) ?_⟩
  · rw [← before]
    exact ⟨rfl, fun q apart => inside.bytes q (covered apart),
      fun q apart => inside.poisoned q (covered apart)⟩
  · intro r _ q _ none
    rw [← before]
    refine inside.poisoned q fun r' member covers => ?_
    obtain ⟨x, listed, rfl⟩ := live r' member
    exact none x listed covers

theorem live_nodup (settled : s.Settled build parent Out) : s.books.live.Nodup := by
  obtain ⟨a, _, kept⟩ := settled
  exact .of_map _ kept.extents_nodup

theorem given (settled : s.Settled build parent Out) {x : Span} (member : x ∈ s.books.scope.live) :
    x.addr ≠ 0 := by
  obtain ⟨a, _, kept⟩ := settled
  exact kept.given (b := s.books.recall s.state.world.bytes) member

/-- A reallocation through the adapter keeps the bytes, and one that fails changes none. -/
theorem reallocates (conforms : parent.Conforms Out) (settled : s.Settled build parent Out)
    {x : Span} (member : x ∈ s.books.scope.live) (word : x.align ≤ sizeMax) {newSize fresh : Nat}
    (ran : s.step build (.xrealloc x.addr x.size newSize x.align) = .ok (fresh, s')) :
    (fresh ≠ 0 → s'.books.scope.live = ⟨fresh, newSize, x.align⟩ :: s.books.scope.live.erase x ∧
      ∀ i < min x.size newSize,
        s'.state.world.bytes (fresh + i) = s.state.world.bytes (x.addr + i)) ∧
      (fresh = 0 → s'.books = s.books ∧
        ∀ p, x.Covers p → s'.state.world.bytes p = s.state.world.bytes p) := by
  obtain ⟨t, shows, kept, _⟩ := settled.account
  obtain ⟨contents, ran', _⟩ := Session.step_recall s.state.world.bytes ran
  have legal : Op.Legal Out (s.recall s.state.world.bytes)
      (.xrealloc x.addr x.size newSize x.align) := ⟨word, .inr member⟩
  obtain ⟨t', followed, shows', kept', _⟩ := Session.step_follows conforms shows kept legal ran'
  have books : t'.books =
      t.books.reallocated x.addr x.size newSize x.align fresh t'.image.world.bytes := by
    obtain ⟨⟨_, image⟩, _, same⟩ := bind_eq_ok.mp followed
    cases same
    rfl
  obtain ⟨moved, unmoved⟩ := Account.Kept.reallocates shows shows' kept kept' member
    (settled.given member) books
  refine ⟨fun served => ⟨?_, (moved served).carried⟩, fun refused => ⟨?_, ?_⟩⟩
  · obtain ⟨⟨_, state⟩, _, same⟩ := bind_eq_ok.mp ran
    cases same
    exact (s.books.reallocated_live x.size newSize x.align (settled.given member) served _).1
  · obtain ⟨⟨_, state⟩, _, same⟩ := bind_eq_ok.mp ran
    cases same
    exact if_pos refused
  · exact (unmoved refused).bytes x (Books.mem_live.mpr (.inl member))

end Session.Settled

/-- The books of a session after a block was asked for, for any align. -/
theorem Session.live_of_granted {s s' : Session σ} {op : Op σ} {ptr size align : Nat}
    (asked : op = .allocate (.xalloc size align) ∨ op = .xrealloc 0 0 size align)
    (ran : s.step build op = .ok (ptr, s')) :
    (ptr = 0 → s'.books = s.books) ∧
      (ptr ≠ 0 → ⟨ptr, size, align⟩ ∈ s'.books.scope.live ∧
        s'.books.live = ⟨ptr, size, align⟩ :: s.books.live) := by
  have books : ∃ bytes, s'.books = s.books.allocated ptr size align bytes := by
    cases asked with
    | inl asked =>
        subst asked
        obtain ⟨⟨_, state⟩, _, same⟩ := bind_eq_ok.mp ran
        cases same
        exact ⟨_, rfl⟩
    | inr asked =>
        subst asked
        obtain ⟨⟨_, state⟩, _, same⟩ := bind_eq_ok.mp ran
        cases same
        refine ⟨state.world.bytes, ?_⟩
        dsimp only
        unfold Books.reallocated
        split
        · case isTrue refused => exact (if_pos refused).symm
        · rfl
  obtain ⟨bytes, books⟩ := books
  rw [books]
  exact ⟨fun refused => if_pos refused, fun served => by
    rw [Books.allocated, if_neg served]
    exact ⟨.head _, rfl⟩⟩

/-- An align that is passed on is a divisor of what the arena aligns to. -/
theorem effective_dvd {x : Span} (plain : AlignArg x.align) :
    x.effective ∣ alignEffective build x.align := by
  unfold Span.effective
  by_cases default : x.align = 0
  · rw [if_pos default, default, alignEffective_zero]
  · rw [if_neg default]
    unfold alignEffective
    dsimp only
    rw [if_neg default]
    split
    · case isTrue raised =>
        have small : x.align < 8 := of_decide_eq_true (Bool.and_eq_true _ _ ▸ raised).2
        have powers : ∀ align < 8, align &&& sizeSub align 1 = 0 → align ≠ 0 → align ∣ 8 := by
          decide
        exact powers _ small plain.power default
    · exact dvd_refl _

section
variable (build : Build) (parent : AllocT σ) (Out : World σ → List Region → Prop)

/-- The blocks of a client of the adapter are live in the arena behind. -/
structure Rented (w : World (Lender σ)) (xs : List Span) : Prop where
  settled : w.lender.Settled build parent Out
  distinct : xs.Nodup
  rented : ∀ x ∈ xs, x ∈ w.lender.books.scope.live
  plain : ∀ x ∈ xs, AlignArg x.align

end

namespace Rented

variable {w w' : World (Lender σ)} {x : Span} {xs : List Span}

theorem live (rented : Rented build parent Out w xs) (member : x ∈ xs) :
    x ∈ w.lender.books.live := Books.mem_live.mpr (.inl (rented.rented x member))

/-- A call of the adapter that is not given one of the client's blocks leaves it alone. -/
theorem call (conforms : parent.Conforms Out) (rented : Rented build parent Out w xs) {op : Op σ}
    (legal : op.Legal Out w.lender) (plain : op.Plain) :
    ∃ ptr s, w.lender.step build op = .ok (ptr, s) ∧ s.Settled build parent Out ∧
      ∀ x ∈ xs, op.span ≠ some x → x ∈ s.books.scope.live ∧
        ∀ p, x.Covers p → s.state.world.bytes p = w.bytes p ∧
          s.state.world.poisoned p = w.poisoned p := by
  obtain ⟨ptr, s, ran⟩ := rented.settled.returns conforms legal plain
  obtain ⟨settled, _, kept⟩ := rented.settled.step conforms legal ran
  obtain ⟨_, stays⟩ := Session.step_live plain ran
  exact ⟨ptr, s, ran, settled, fun x member other =>
    ⟨stays x (rented.rented x member) other, kept plain x (rented.live member) other⟩⟩

/-- What the books list after an allocation. -/
theorem granted (conforms : parent.Conforms Out) (rented : Rented build parent Out w xs) {op : Op σ}
    {size align : Nat} (fine : AlignArg align)
    (asked : op = .allocate (.xalloc size align) ∨ op = .xrealloc 0 0 size align) :
    ∃ ptr w', w.call build op = .ok (ptr, w') ∧ w.Keeps (extents xs) w' ∧
      AllocT.Grants (Rented build parent Out) xs ⟨ptr, size, align⟩ w' := by
  have legal : op.Legal Out w.lender := by
    cases asked with
    | inl asked => exact asked ▸ fine.word
    | inr asked => exact asked ▸ ⟨fine.word, .inl ⟨rfl, rfl⟩⟩
  have plain : op.Plain := by cases asked with | inl asked | inr asked => exact asked ▸ trivial
  have other : ∀ x ∈ xs, op.span ≠ some x := by
    intro x member same
    cases asked with
    | inl asked =>
        rw [asked] at same
        cases same
    | inr asked =>
        rw [asked] at same
        have given := rented.settled.given (rented.rented x member)
        exact given (congrArg Span.addr (Option.some.inj same)).symm
  obtain ⟨ptr, s, ran, settled, kept⟩ := rented.call conforms legal plain
  obtain ⟨refused, served⟩ := Session.live_of_granted asked ran
  have stays : ∀ x ∈ xs, x ∈ s.books.scope.live := fun x member =>
    (kept x member (other x member)).1
  refine ⟨ptr, s.lend _, bind_eq_ok.mpr ⟨_, ran, rfl⟩, fun r member => ?_, ?_⟩
  · obtain ⟨x, listed, rfl⟩ := List.mem_map.mp member
    exact (kept x listed (other x listed)).2
  · by_cases null : ptr = 0
    · exact .inl ⟨null, settled, rented.distinct, stays, rented.plain⟩
    · obtain ⟨new, live⟩ := served null
      have fresh : (⟨ptr, size, align⟩ : Span) ∉ xs := by
        intro listed
        have distinct := settled.live_nodup
        rw [live] at distinct
        exact (List.nodup_cons.mp distinct).1 (rented.live listed)
      exact .inr ⟨null, settled, List.nodup_cons.mpr ⟨fresh, rented.distinct⟩,
        List.forall_mem_cons.mpr ⟨new, stays⟩, List.forall_mem_cons.mpr ⟨fine, rented.plain⟩⟩

end Rented

/-- `arena_allocator` keeps the contract of `alloc.h`, over any parent that keeps what the arena
relies on. -/
theorem arenaAllocator_honours (conforms : parent.Conforms Out) :
    (arenaAllocator build).Honours (Rented build parent Out) where
  perm rented same :=
    { settled := rented.settled
      distinct := same.nodup_iff.mp rented.distinct
      rented := fun x member => rented.rented x (same.mem_iff.mpr member)
      plain := fun x member => rented.plain x (same.mem_iff.mpr member) }
  apart {w xs} rented := by
    refine List.pairwise_map.mpr (rented.distinct.pairwise_of_forall_ne ?_)
    intro x member y listed other
    exact rented.settled.live_apart (rented.live member) (rented.live listed) other
  inside {w xs} rented x member := by
    obtain ⟨a, _, kept⟩ := rented.settled
    obtain ⟨c, chained, fits, above, below⟩ := kept.live_placed (rented.live member)
    have listed : c ∈ a.cells := List.mem_append_left _ chained
    obtain ⟨nonzero, top⟩ := kept.sane.inside c listed
    have sized := kept.sane.sized c listed
    have filled := kept.filled (rented.live member)
    unfold Cell.data at above
    unfold Cell.cursor at below
    omega
  aligned {w xs} rented x member := by
    obtain ⟨a, _, kept⟩ := rented.settled
    exact (effective_dvd (rented.plain x member)).trans
      (kept.lie.aligned x (rented.live member)).1
  written {w w' xs} rented inside :=
    { settled := rented.settled.written conforms inside fun r member => by
        obtain ⟨x, listed, same⟩ := List.mem_map.mp member
        exact ⟨x, rented.live listed, same⟩
      distinct := rented.distinct
      rented := fun x member => by
        obtain ⟨bytes, poisoned, state⟩ := w'
        cases inside.parent
        exact rented.rented x member
      plain := rented.plain }
  xalloc size rented plain := rented.granted conforms plain (.inl rfl)
  xreallocNull rented plain _ := rented.granted conforms plain (.inr rfl)
  xrealloc {w x xs newSize} rented plain _ := by
    have member := rented.rented x (.head _)
    obtain ⟨new, distinct⟩ := List.nodup_cons.mp rented.distinct
    have legal : Op.Legal Out w.lender (.xrealloc x.addr x.size newSize x.align) :=
      ⟨plain.word, .inr member⟩
    have other : ∀ y ∈ xs, Op.span (.xrealloc x.addr x.size newSize x.align : Op σ) ≠ some y := by
      intro y listed same
      have same : x = y := Option.some.inj same
      exact new (same ▸ listed)
    obtain ⟨ptr, s, ran, settled, kept⟩ := rented.call conforms legal trivial
    obtain ⟨moved, unmoved⟩ := rented.settled.reallocates conforms member plain.word ran
    have stays : ∀ y ∈ xs, y ∈ s.books.scope.live := fun y listed =>
      (kept y (.tail _ listed) (other y listed)).1
    have lasting : ∀ y ∈ xs, AlignArg y.align := fun y listed => rented.plain y (.tail _ listed)
    refine ⟨ptr, s.lend _, bind_eq_ok.mpr ⟨_, ran, rfl⟩, fun r listed => ?_, ?_⟩
    · obtain ⟨y, held, rfl⟩ := List.mem_map.mp listed
      exact (kept y (.tail _ held) (other y held)).2
    by_cases null : ptr = 0
    · obtain ⟨books, same⟩ := unmoved null
      refine .inl ⟨null, ⟨settled, rented.distinct, ?_, rented.plain⟩, same⟩
      exact fun y listed => books ▸ rented.rented y listed
    · obtain ⟨live, carried⟩ := moved null
      have fresh : (⟨ptr, newSize, x.align⟩ : Span) ∉ xs := by
        intro listed
        have unique : s.books.scope.live.Nodup :=
          (List.nodup_append.mp settled.live_nodup).1
        rw [live] at unique
        refine (List.nodup_cons.mp unique).1 ((List.mem_erase_of_ne ?_).mpr ?_)
        · exact fun same => new (same ▸ listed)
        · exact rented.rented _ (.tail _ listed)
      exact .inr ⟨null, ⟨settled, List.nodup_cons.mpr ⟨fresh, distinct⟩,
        List.forall_mem_cons.mpr ⟨live ▸ .head _, stays⟩,
        List.forall_mem_cons.mpr ⟨plain, lasting⟩⟩, carried⟩
  xfreeNull {w xs} size align rented := by
    have legal : Op.Legal Out w.lender (.xfree 0 size align) := .inl rfl
    obtain ⟨ptr, s, ran, settled, kept⟩ := rented.call conforms legal trivial
    have other : ∀ x ∈ xs, Op.span (.xfree 0 size align : Op σ) ≠ some x := fun x member same =>
      rented.settled.given (rented.rented x member) (congrArg Span.addr (Option.some.inj same)).symm
    refine ⟨s.lend _, bind_eq_ok.mpr ⟨_, bind_eq_ok.mpr ⟨_, ran, rfl⟩, rfl⟩, fun r member => ?_,
      settled, rented.distinct, fun x member => (kept x member (other x member)).1, rented.plain⟩
    obtain ⟨x, listed, rfl⟩ := List.mem_map.mp member
    exact (kept x listed (other x listed)).2
  xfree {w x xs} rented := by
    have legal : Op.Legal Out w.lender (.xfree x.addr x.size x.align) :=
      .inr (rented.rented x (.head _))
    obtain ⟨new, distinct⟩ := List.nodup_cons.mp rented.distinct
    obtain ⟨ptr, s, ran, settled, kept⟩ := rented.call conforms legal trivial
    have other : ∀ y ∈ xs, Op.span (.xfree x.addr x.size x.align : Op σ) ≠ some y := by
      intro y listed same
      have same : x = y := Option.some.inj same
      exact new (same ▸ listed)
    refine ⟨s.lend _, bind_eq_ok.mpr ⟨_, bind_eq_ok.mpr ⟨_, ran, rfl⟩, rfl⟩, fun r member => ?_,
      settled, distinct, fun y listed => (kept y (.tail _ listed) (other y listed)).1,
      fun y listed => rented.plain y (.tail _ listed)⟩
    obtain ⟨y, listed, rfl⟩ := List.mem_map.mp member
    exact (kept y (.tail _ listed) (other y listed)).2

/-! Clients of the adapter. -/

/-- What a client of the adapter has: live allocations of the arena behind, below its cursors,
aligned and apart, of the sizes that `alloc.h` allows, with the bytes the client left there. -/
structure Holder.Lodged (c : Holder (Lender σ)) : Prop where
  live : ∀ x ∈ c.held, x ∈ c.world.lender.books.scope.live
  sized : ∀ x ∈ c.held, 0 < x.size ∧ x.size ≤ ptrdiffMax
  placed : ∃ chain free, c.world.lender.state.Lists chain free ∧ ∀ x ∈ c.held, ∃ d ∈ chain,
    d.used ≤ d.cap ∧ d.data ≤ x.addr ∧ x.addr + x.size ≤ d.cursor
  apart : (extents c.held).Pairwise Region.Apart
  aligned : ∀ x ∈ c.held, x.effective ∣ x.addr
  written : ∀ x ∈ c.held, ∀ p, x.Covers p → c.world.bytes p = c.contents p

theorem Holder.Served.lodged (conforms : parent.Conforms Out) {c : Holder (Lender σ)}
    (served : c.Served (Rented build parent Out)) : c.Lodged where
  live := served.out.rented
  sized x member := by
    obtain ⟨_, some, small, _⟩ := (arenaAllocator_honours conforms).inside served.out x member
    exact ⟨some, small⟩
  placed := by
    obtain ⟨a, shows, kept⟩ := served.out.settled
    exact ⟨a.chain, a.free, shows.lists, fun x member => kept.live_placed (served.out.live member)⟩
  apart := (arenaAllocator_honours conforms).apart served.out
  aligned := (arenaAllocator_honours conforms).aligned served.out
  written := served.written

/-- Every legal run of a client of `arena_allocator` returns and leaves the client its blocks,
whatever else is live in the arena behind. The client can give them back in any order, and the
arena be given up, with nothing left to its parent, whether it does or not. -/
theorem Holder.run_adapter (conforms : parent.Conforms Out) {s : Session σ}
    (settled : s.Settled build parent Out) (contents : Nat → UInt8) {deeds : List (Deed (Lender σ))}
    (allowed : Holder.Allows build (arenaAllocator build) ⟨s.lend [], [], contents⟩ deeds) :
    ∃ ptrs c, Holder.run build (arenaAllocator build) ⟨s.lend [], [], contents⟩ deeds =
        .ok (ptrs, c) ∧ c.Lodged ∧
      (∃ s', c.world.lender.step build .deinit = .ok (0, s') ∧ s'.state.regions = []) ∧
      ∀ xs, c.held.Perm xs → ∃ ptrs' c', c.run build (arenaAllocator build) (releases xs) =
        .ok (ptrs', c') ∧ c'.held = [] ∧
          ∃ s', c'.world.lender.step build .deinit = .ok (0, s') ∧ s'.state.regions = [] := by
  have honours : (arenaAllocator build).Honours (Rented build parent Out) :=
    arenaAllocator_honours conforms
  have start : Holder.Served (Rented build parent Out) ⟨s.lend [], [], contents⟩ :=
    { out := ⟨settled, .nil, List.forall_mem_nil _, List.forall_mem_nil _⟩
      plain := List.forall_mem_nil _
      written := List.forall_mem_nil _ }
  have gone : ∀ {c : Holder (Lender σ)}, c.Served (Rented build parent Out) →
      ∃ s', c.world.lender.step build .deinit = .ok (0, s') ∧ s'.state.regions = [] := by
    intro c served
    obtain ⟨t, shows, kept, _⟩ := served.out.settled.account
    obtain ⟨s', _, ran, _, _, _, empty⟩ := Session.step_deinit conforms shows kept
    obtain ⟨contents', again, _⟩ := Session.step_recall c.world.lender.books.contents ran
    exact ⟨_, again, empty⟩
  obtain ⟨ptrs, c, ran, served⟩ := Holder.run_served honours start allowed
  refine ⟨ptrs, c, ran, served.lodged conforms, gone served, fun xs all => ?_⟩
  obtain ⟨ptrs', c', returned, done, empty⟩ :=
    Holder.releases_served build honours served all
  exact ⟨ptrs', c', returned, empty, gone done⟩

theorem Session.Started.settled (conforms : parent.Conforms Out) {s : Session σ}
    (started : s.Started build parent Out) : s.Settled build parent Out := by
  obtain ⟨t, shows, kept⟩ := started.kept conforms
  have kept : t.image.Kept build parent Out t.books := kept
  refine ⟨t.image, shows.1, ?_⟩
  rw [shows.1.world, shows.2]
  exact kept.recall

/-- A block that is aligned to 64 bytes, and grown. -/
theorem Holder.run_adapter_grown :
    ∃ ptrs c, Holder.run .sanitized (arenaAllocator .sanitized)
        ⟨Session.rising.lend [], [], fun _ => 0⟩ [.zeroed 24 64, .realloc 4160 24 9000 64] =
          .ok (ptrs, c) ∧ c.Lodged := by
  have conforms := risingParent_conforms 0x100000 (by decide)
  have plain : AlignArg 64 := ⟨by decide, by decide⟩
  have allowed : Holder.Allows .sanitized (arenaAllocator .sanitized)
      ⟨Session.rising.lend [], [], fun _ => 0⟩ [.zeroed 24 64, .realloc 4160 24 9000 64] := by
    refine ⟨plain, fun ptr c' ran => ?_⟩
    cases ran
    exact ⟨⟨plain, by decide, .inr (.head _)⟩, fun _ _ _ => trivial⟩
  have settled := (Session.rising_started .sanitized).settled conforms
  obtain ⟨ptrs, c, ran, lodged, _⟩ :=
    Holder.run_adapter conforms settled (fun _ => 0) allowed
  exact ⟨ptrs, c, ran, lodged⟩

end AgencC.Arena
