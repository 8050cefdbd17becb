import AgencC.Arena.Lending
import AgencC.Arena.Traffic

/-! An arena whose parent is `arena_allocator` of another: its client, and the client of the arena
behind it, in any interleaving of their calls. -/

set_option autoImplicit false

namespace AgencC.Arena

open Library

variable {σ : Type}

/-- A call of the child, a call of the arena behind it, or whatever happens elsewhere: both clients
write to their allocations, and others use the parent of the arena behind. -/
inductive Move (σ : Type) where
  | child (op : Op (Lender σ))
  | direct (op : Op σ)
  | elsewhere (world : World σ)

namespace Session

/-- The arena behind a child. -/
def behind (s : Session (Lender σ)) : Session σ := s.state.world.lender

/-- What is live in the arena behind and is no block of the child. -/
def direct (s : Session (Lender σ)) : List Span :=
  s.behind.books.live.filter fun x => x.extent ∉ s.state.regions

/-- Another state of the arena behind. -/
def onto (s : Session (Lender σ)) (behind : Session σ) : Session (Lender σ) :=
  { s with state := { s.state with world := behind.lend s.state.world.loans } }

def move (build : Build) (s : Session (Lender σ)) : Move σ → Except Fault (Nat × Session (Lender σ))
  | .child op => s.step build op
  | .direct op => do
      let (ptr, behind) ← s.behind.step build op
      .ok (ptr, s.onto behind)
  | .elsewhere world => do
      let (ptr, behind) ← s.behind.step build (.elsewhere world)
      .ok (ptr, (s.onto behind).recall world.bytes)

end Session

/-- A call, and not what happens elsewhere. -/
def Op.Proper (op : Op σ) : Prop := ∀ world, op ≠ .elsewhere world

/-- The calls keep the contract, and neither client gives away what the other has. While the child
has blocks the arena behind is not reset, given up or put in a scope. -/
def Move.Legal (Out : World σ → List Region → Prop) (s : Session (Lender σ)) : Move σ → Prop
  | .child op => op.Proper ∧ op.Legal (fun _ _ => True) s
  | .direct op =>
      op.Proper ∧ op.Legal Out s.behind ∧ (∀ x, op.span = some x → x.extent ∉ s.state.regions) ∧
        (op.Plain ∨ s.state.regions = [])
  | .elsewhere world =>
      (s.behind.state.arena.fixed = false → Out world s.behind.state.regions) ∧
        ∀ r ∈ s.behind.state.regions, ∀ q, r.Covers q →
          (∀ x ∈ s.books.live ++ s.direct, ¬ x.Covers q) →
          world.poisoned q = s.behind.state.world.poisoned q

section
variable (build : Build) (parent : AllocT σ) (Out : World σ → List Region → Prop)

/-- A new child over a new arena, and whatever any legal interleaving leads to. -/
inductive Session.Reached : Session (Lender σ) → Prop where
  | init {behind : Session σ} (started : behind.Started build parent Out)
      (contents : Nat → UInt8) :
      Reached
        { state := Arena.init (arenaAllocator build) (behind.lend []), books := .start contents }
  | sized {behind : Session σ} (started : behind.Started build parent Out)
      (minBlock maxBlock : Nat) (contents : Nat → UInt8) :
      Reached
        { state := (initSized (arenaAllocator build) minBlock maxBlock (behind.lend [])).2
          books := .start contents }
  | move {s s' : Session (Lender σ)} {m : Move σ} {ptr : Nat} (reached : Reached s)
      (legal : m.Legal Out s) (ran : s.move build m = .ok (ptr, s')) : Reached s'

/-- An account of the child, with what the arena behind has lent to it. -/
structure Session.Tenant (s : Session (Lender σ)) (own : List Span) (contents : Nat → UInt8)
    (t : Account (Lender σ)) : Prop where
  shows : s.Shows t
  kept : t.Kept build (arenaAllocator build) (Lent build parent Out own contents)
  growing : t.image.fixed = false

end

variable {build : Build} {parent : AllocT σ} {Out : World σ → List Region → Prop}

/-- What has been given out matters to others only. -/
theorem Op.Proper.legal {s : Session σ} {op : Op σ} (proper : op.Proper)
    (legal : op.Legal (fun _ _ => True) s) (Out : World σ → List Region → Prop) :
    op.Legal Out s := by
  cases op with
  | elsewhere world => exact absurd rfl (proper world)
  | _ => exact legal

/-- An account is kept for another parent's storage that has the same regions given out. -/
theorem Image.Kept.rehoused {holder : AllocT σ} {Out' : World σ → List Region → Prop} {a : Image σ}
    {b : Books} (kept : a.Kept build holder Out b) (growing : a.fixed = false) {world : World σ}
    (keeps : a.world.Keeps a.regions world) (out : Out' world a.regions) :
    Image.Kept build holder Out' { a with world } b := by
  have owned := kept.sane.toOwned
  refine
    { sane :=
        { apart := owned.apart, inside := owned.inside, sized := owned.sized, fits := owned.fits
          empty := owned.empty, parent := owned.parent, policy := owned.policy
          out := fun _ => out
          total := owned.total
          buffer := fun fixed => Bool.noConfusion (growing.symm.trans fixed)
          dark := fun asan c member =>
            (owned.dark asan c member).kept keeps (List.mem_map_of_mem member)
          counted := kept.sane.counted
          peak := kept.sane.peak }
      lie := kept.lie
      current := kept.current
      written := fun x member p covers => ?_
      quiet := fun asan p below lit => ?_ }
  · exact (kept.below_keeps keeps (kept.lit_below (Books.mem_lit_of_live member) covers)).1.trans
      (kept.written x member p covers)
  · exact kept.quiet asan p below ((kept.below_keeps keeps below).2.symm.trans lit)

namespace Session.Tenant

variable {s s' : Session (Lender σ)} {own : List Span} {contents : Nat → UInt8}
  {t : Account (Lender σ)}

theorem lent (tenant : s.Tenant build parent Out own contents t) :
    Lent build parent Out own contents s.state.world s.state.regions := by
  have kept : t.image.Kept build (arenaAllocator build) (Lent build parent Out own contents) t.books :=
    tenant.kept
  have out := kept.sane.out tenant.growing
  rw [← tenant.shows.1.world] at out
  have same := tenant.shows.1.regions
  exact
    { out with
      distinct := same.nodup_iff.mpr out.distinct
      lent := fun r member => out.lent r (same.mem_iff.mp member)
      rest := fun x member => (out.rest x member).imp id same.mem_iff.mpr
      owned := fun x member =>
        ⟨(out.owned x member).1, fun listed => (out.owned x member).2 (same.mem_iff.mp listed)⟩ }

theorem mem_direct (tenant : s.Tenant build parent Out own contents t) {x : Span} :
    x ∈ s.direct ↔ x ∈ own := by
  rw [Session.direct, List.mem_filter, decide_eq_true_iff]
  constructor
  · rintro ⟨member, outside⟩
    exact (tenant.lent.rest x member).resolve_right outside
  · exact fun member => tenant.lent.owned x member

theorem settled (tenant : s.Tenant build parent Out own contents t) :
    s.Settled build (arenaAllocator build) (Lent build parent Out own contents) := by
  have kept : t.image.Kept build (arenaAllocator build) (Lent build parent Out own contents) t.books :=
    tenant.kept
  refine ⟨t.image, tenant.shows.1, ?_⟩
  rw [tenant.shows.1.world, tenant.shows.2]
  exact kept.recall

/-! The moves. -/

/-- The child keeps its books and the arena behind its own. -/
theorem child (conforms : parent.Conforms Out) (tenant : s.Tenant build parent Out own contents t)
    {op : Op (Lender σ)} (proper : op.Proper) (legal : op.Legal (fun _ _ => True) s) {ptr : Nat}
    (ran : s.step build op = .ok (ptr, s')) :
    ∃ t', s'.Tenant build parent Out own contents t' ∧ t.step build op = .ok (ptr, t') := by
  obtain ⟨t', followed, shows', kept', effect⟩ := Session.step_follows
    (arenaAllocator_conforms conforms own contents) tenant.shows tenant.kept
    (proper.legal legal _) ran
  exact ⟨t', ⟨shows', kept', effect.growing tenant.growing⟩, followed⟩

/-- The storage of the child after a call of the arena behind. -/
theorem direct (conforms : parent.Conforms Out) (tenant : s.Tenant build parent Out own contents t)
    {op : Op σ} (legal : Move.Legal Out s (.direct op)) {ptr : Nat} {behind : Session σ}
    (ran : s.behind.step build op = .ok (ptr, behind)) :
    s.state.world.Keeps s.state.regions (behind.lend s.state.world.loans) ∧
      Lent build parent Out (behind.books.live.filter fun x => x.extent ∉ s.state.regions)
        behind.state.world.bytes (behind.lend s.state.world.loans) s.state.regions := by
  obtain ⟨proper, legal, foreign, plain⟩ := legal
  have lent := tenant.lent
  obtain ⟨settled, recorded, kept⟩ := lent.settled.step conforms legal ran
  have other : ∀ r ∈ s.state.regions, op.span ≠ some (Span.block r) := fun r member given =>
    foreign _ given member
  have plain : ∀ r ∈ s.state.regions, op.Plain := fun r member =>
    plain.resolve_right fun none => by
      rw [none] at member
      cases member
  refine ⟨fun r member => kept (plain r member) _ (lent.live member) (other r member), ?_⟩
  refine
    { settled := settled
      distinct := lent.distinct
      lent := fun r member =>
        (Session.step_live (plain r member) ran).2 _ (lent.lent r member) (other r member)
      rest := fun x member => ?_
      owned := fun x member => ?_
      recorded := fun x member => ⟨?_, fun _ _ => rfl⟩
      spares := lent.spares }
  · by_cases mine : x.extent ∈ s.state.regions
    · exact .inr mine
    · exact .inl (List.mem_filter.mpr ⟨member, decide_eq_true mine⟩)
  · obtain ⟨listed, outside⟩ := List.mem_filter.mp member
    exact ⟨listed, of_decide_eq_true outside⟩
  · obtain ⟨listed, outside⟩ := List.mem_filter.mp member
    have known : ∀ {y : Span}, y ∈ s.behind.books.live → y.extent ∉ s.state.regions →
        s.behind.Recorded y := fun listed outside =>
      (lent.recorded _ ((lent.rest _ listed).resolve_right outside)).1
    refine recorded (fun y given served => ?_) x listed fun earlier =>
      known earlier (of_decide_eq_true outside)
    cases op with
    | realloc ptr oldSize newSize align | xrealloc ptr oldSize newSize align =>
        cases given
        cases legal.2 with
        | inl null =>
            intro q covers
            have high : q < ptr + oldSize := covers.2
            have low : ptr ≤ q := covers.1
            omega
        | inr member => exact known (Books.mem_live.mpr (.inl member)) (foreign _ rfl)
    | xfree ptr size align =>
        obtain ⟨_, _, same⟩ := bind_eq_ok.mp ran
        cases same
        exact absurd rfl served
    | _ => cases given

/-- A legal call of the arena behind is none of the child's business. -/
theorem beside (conforms : parent.Conforms Out) (tenant : s.Tenant build parent Out own contents t)
    {op : Op σ} (legal : Move.Legal Out s (.direct op)) {ptr : Nat} {behind : Session σ}
    (ran : s.behind.step build op = .ok (ptr, behind)) :
    Session.Tenant build parent Out (s.onto behind)
      (behind.books.live.filter fun x => x.extent ∉ s.state.regions) behind.state.world.bytes
      { t with image := { t.image with world := behind.lend s.state.world.loans } } := by
  obtain ⟨keeps, lent⟩ := tenant.direct conforms legal ran
  have same := tenant.shows.1.regions
  have world := tenant.shows.1.world
  have kept : t.image.Kept build (arenaAllocator build) (Lent build parent Out own contents) t.books :=
    tenant.kept
  refine ⟨⟨tenant.shows.1.write _, tenant.shows.2⟩, kept.rehoused tenant.growing ?_ ?_,
    tenant.growing⟩
  · rw [← world]
    exact fun r member => keeps r (same.mem_iff.mpr member)
  · exact (arenaAllocator_conforms conforms _ _).perm lent same

/-- What happens elsewhere leaves both with their books. -/
theorem elsewhere (conforms : parent.Conforms Out)
    (tenant : s.Tenant build parent Out own contents t) {world : World σ}
    (legal : Move.Legal Out s (.elsewhere world)) {ptr : Nat} {behind : Session σ}
    (ran : s.behind.step build (.elsewhere world) = .ok (ptr, behind)) :
    Session.Tenant build parent Out ((s.onto behind).recall world.bytes) own world.bytes
      { image := { t.image with world := behind.lend s.state.world.loans }
        books := t.books.recall world.bytes } := by
  have lent := tenant.lent
  have same := tenant.shows.1.regions
  have kept : t.image.Kept build (arenaAllocator build) (Lent build parent Out own contents) t.books :=
    tenant.kept
  obtain ⟨out, poisoned⟩ := legal
  cases ran
  -- What neither client has live is as it was.
  have calm : ∀ r ∈ s.behind.state.regions, ∀ q, r.Covers q →
      (∀ x ∈ s.behind.books.live, ¬ x.Covers q) →
      world.poisoned q = s.behind.state.world.poisoned q := by
    intro r member q covers none
    refine poisoned r member q covers fun x listed covered => ?_
    cases List.mem_append.mp listed with
    | inl mine =>
        obtain ⟨r', held, within⟩ := tenant.settled.lies mine
        exact none _ (lent.live held) (within.covers covered)
    | inr direct => exact none x (List.mem_filter.mp direct).1 covered
  have settled : Session.Settled build parent Out
      { state := { s.behind.state with world }, books := s.behind.books.recall world.bytes } :=
    (lent.settled.step conforms (show Op.Legal Out s.behind (.elsewhere world) from ⟨out, calm⟩)
      rfl).1
  have lent' : Lent build parent Out own world.bytes
      (Session.lend s.state.world.loans
        { state := { s.behind.state with world }, books := s.behind.books.recall world.bytes })
      s.state.regions :=
    { settled := settled
      distinct := lent.distinct
      lent := lent.lent
      rest := lent.rest
      owned := lent.owned
      recorded := fun x member => ⟨fun _ _ => rfl, fun _ _ => rfl⟩
      spares := lent.spares }
  refine ⟨⟨tenant.shows.1.write _, ?_⟩, ?_, tenant.growing⟩
  · exact congrArg (Books.recall world.bytes) tenant.shows.2
  · have free : t.image.Kept build (arenaAllocator build) (fun _ _ => True) t.books :=
      kept.rehoused tenant.growing (.refl _ _) trivial
    have moved : Image.Kept build (arenaAllocator build) (fun _ _ => True)
        { t.image with world := ({ s.behind with state := { s.behind.state with world } }.recall
            world.bytes).lend s.state.world.loans }
        (t.books.recall world.bytes) := by
      refine free.elsewhere (fun _ => trivial) fun r member q covers none => ?_
      have member : r ∈ s.state.regions := same.mem_iff.mpr member
      obtain ⟨r', held, within⟩ := lent.settled.lies (lent.live member)
      change world.poisoned q = t.image.world.poisoned q
      rw [← tenant.shows.1.world]
      refine poisoned r' held q (within.covers covers) fun x listed covered => ?_
      cases List.mem_append.mp listed with
      | inl mine => exact none x (tenant.shows.2 ▸ mine) covered
      | inr direct =>
          exact (lent.own_apart (tenant.mem_direct.mp direct) member).not_covers covered covers
    exact moved.rehoused tenant.growing (.refl _ _)
      ((arenaAllocator_conforms conforms _ _).perm lent' same)

end Session.Tenant

/-! Every interleaving. -/

theorem initSized_fixed (holder : AllocT σ) (minBlock maxBlock : Nat) (world : World σ) :
    (initSized holder minBlock maxBlock world).2.arena.fixed = false := by
  unfold initSized
  dsimp only
  split
  · unfold State.fail
    split <;> rfl
  · rfl

/-- Nothing is lent by a new arena. -/
theorem Session.Started.lent (conforms : parent.Conforms Out) {s : Session σ}
    (started : s.Started build parent Out) (contents : Nat → UInt8) :
    Lent build parent Out [] contents (s.lend []) [] := by
  obtain ⟨t, shows, kept⟩ := started.kept conforms
  have kept : t.image.Kept build parent Out t.books := kept
  have none : s.books.live = [] := by cases started <;> rfl
  refine
    { settled := ⟨t.image, shows.1, ?_⟩
      distinct := .nil
      lent := List.forall_mem_nil _
      rest := fun x member => ?_
      owned := List.forall_mem_nil _
      recorded := List.forall_mem_nil _
      spares := List.forall_mem_nil _ }
  · change t.image.Kept build parent Out (s.books.recall s.state.world.bytes)
    rw [shows.1.world, shows.2]
    exact kept.recall
  · have member : x ∈ s.books.live := member
    rw [none] at member
    cases member

theorem Session.Reached.tenant (conforms : parent.Conforms Out) {s : Session (Lender σ)}
    (reached : s.Reached build parent Out) :
    ∃ own contents t, s.Tenant build parent Out own contents t := by
  induction reached with
  | @init behind started contents =>
      have lent := started.lent conforms contents
      obtain ⟨t, shows, kept⟩ := Session.Started.kept
        (arenaAllocator_conforms conforms [] contents) (.init _ contents lent)
      refine ⟨[], contents, t, shows, kept, ?_⟩
      exact (congrArg ArenaT.fixed shows.1.arena).symm
  | @sized behind started minBlock maxBlock contents =>
      have lent := started.lent conforms contents
      obtain ⟨t, shows, kept⟩ := Session.Started.kept
        (arenaAllocator_conforms conforms [] contents)
        (.sized minBlock maxBlock _ contents lent)
      refine ⟨[], contents, t, shows, kept, ?_⟩
      exact (congrArg ArenaT.fixed shows.1.arena).symm.trans (initSized_fixed _ _ _ _)
  | @move s s' m ptr _ legal ran ih =>
      obtain ⟨own, contents, t, tenant⟩ := ih
      cases m with
      | child op =>
          obtain ⟨t', tenant', _⟩ := tenant.child conforms legal.1 legal.2 ran
          exact ⟨own, contents, t', tenant'⟩
      | direct op =>
          obtain ⟨⟨_, behind⟩, stepped, same⟩ := bind_eq_ok.mp ran
          cases same
          exact ⟨_, _, _, tenant.beside conforms legal stepped⟩
      | elsewhere world =>
          obtain ⟨⟨_, behind⟩, stepped, same⟩ := bind_eq_ok.mp ran
          cases same
          exact ⟨_, _, _, tenant.elsewhere conforms legal stepped⟩

/-- Each block of the child is live in the arena behind, where all that is live lies below a cursor.
The allocations of the child lie in its blocks, apart from its headers, and those of the two clients
apart from each other; all have the bytes their client last saw. -/
structure Session.Housed (build : Build) (s : Session (Lender σ)) : Prop where
  child : ∃ chain free, s.Intact build chain free
  held : ∀ r ∈ s.state.regions, Span.block r ∈ s.behind.books.live
  inside : ∀ x ∈ s.books.live, ∃ r ∈ s.state.regions, x.extent.Within r
  placed : ∃ chain free, s.behind.state.Lists chain free ∧
    ∀ x ∈ s.behind.books.live, ∃ c ∈ chain, c.used ≤ c.cap ∧ c.data ≤ x.addr ∧
      x.addr + x.size ≤ c.cursor
  apart : ((s.books.live ++ s.direct).map Span.extent).Pairwise Region.Apart
  recorded : ∀ x ∈ s.books.live, s.Recorded x
  known : ∀ x ∈ s.direct, s.behind.Recorded x

theorem Session.Tenant.housed {s : Session (Lender σ)} {own : List Span} {contents : Nat → UInt8}
    {t : Account (Lender σ)} (tenant : s.Tenant build parent Out own contents t) :
    s.Housed build := by
  have lent := tenant.lent
  have intact := tenant.kept.intact tenant.shows
  refine
    { child := ⟨_, _, intact⟩
      held := fun r => lent.live
      inside := fun x => tenant.settled.lies
      placed := ?_
      apart := ?_
      recorded := intact.written
      known := fun x member => (lent.recorded x (tenant.mem_direct.mp member)).1 }
  · obtain ⟨a, shows, kept⟩ := lent.settled
    exact ⟨a.chain, a.free, shows.lists, fun x => kept.live_placed⟩
  · rw [List.map_append, List.pairwise_append]
    refine ⟨intact.apart, ?_, fun e mine e' direct => ?_⟩
    · obtain ⟨a, _, kept⟩ := lent.settled
      exact kept.live_apart.sublist (List.filter_sublist.map _)
    · obtain ⟨x, member, rfl⟩ := List.mem_map.mp mine
      obtain ⟨y, listed, rfl⟩ := List.mem_map.mp direct
      obtain ⟨r, held, within⟩ := tenant.settled.lies member
      have away := lent.own_apart (tenant.mem_direct.mp listed) held
      exact away.symm.mono within (.refl _)

/-! What one does to the other. -/

/-- The arena behind returned NULL. -/
def Loan.Refused (loan : Loan σ) : Prop :=
  loan.ptr = 0 ∧ ∃ size align, loan.op = .allocate (.xalloc size align)

/-- Further calls of the arena behind, each of which it served. -/
def World.Served (w w' : World (Lender σ)) : Prop :=
  ∃ later, w'.loans = later ++ w.loans ∧ ∀ loan ∈ later, ¬ loan.Refused

theorem arenaAllocator_passes (build : Build) :
    (arenaAllocator build).Passes (World.Served (σ := σ)) where
  still same := ⟨[], congrArg Lender.loans same, List.forall_mem_nil _⟩
  trans first second := by
    obtain ⟨early, same, served⟩ := first
    obtain ⟨late, same', served'⟩ := second
    refine ⟨late ++ early, by rw [same', same, List.append_assoc], fun loan member => ?_⟩
    exact (List.mem_append.mp member).elim (served' loan) (served loan)
  given asked given := by
    obtain ⟨⟨_, after⟩, _, same⟩ := bind_eq_ok.mp asked
    cases same
    exact ⟨[_], rfl, List.forall_mem_singleton.mpr fun refused => given refused.1⟩
  freed gone := by
    obtain ⟨⟨_, after⟩, called, same⟩ := bind_eq_ok.mp gone
    cases same
    obtain ⟨⟨_, _⟩, _, same⟩ := bind_eq_ok.mp called
    cases same
    refine ⟨[_], rfl, List.forall_mem_singleton.mpr fun refused => ?_⟩
    obtain ⟨_, size, align, other⟩ := refused
    cases other

/-- What a call of the child does to the other client, and how the child takes a refusal. -/
structure Session.Subleases (s : Session (Lender σ)) (ptr : Nat) (s' : Session (Lender σ)) : Prop where
  direct : ∀ x ∈ s.direct, x ∈ s'.direct ∧
    ∀ q, x.Covers q → s'.state.world.bytes q = s.state.world.bytes q
  refusal : ∃ later, s'.state.world.loans = later ++ s.state.world.loans ∧
    ((∃ loan ∈ later, loan.Refused) →
      ptr = 0 ∧ s.state.Failed .errAlloc s'.state ∧ s'.books = s.books)

/-- What a call of the arena behind does to the child. -/
structure Session.Spared (s s' : Session (Lender σ)) : Prop where
  books : s'.books = s.books
  arena : s'.state.arena = s.state.arena
  blocks : s'.state.blocks = s.state.blocks
  keeps : s.state.world.Keeps s.state.regions s'.state.world

namespace Session.Tenant

variable {s s' : Session (Lender σ)} {own : List Span} {contents : Nat → UInt8}
  {t t' : Account (Lender σ)}

/-- The arena behind refused nothing, or the child failed for it and changed nothing else. -/
theorem refusal (conforms : parent.Conforms Out) (tenant : s.Tenant build parent Out own contents t)
    {op : Op (Lender σ)} (proper : op.Proper) (legal : op.Legal (fun _ _ => True) s) {ptr : Nat}
    (ran : s.step build op = .ok (ptr, s')) (tenant' : s'.Tenant build parent Out own contents t')
    (followed : t.step build op = .ok (ptr, t')) :
    s.state.world.Served s'.state.world ∨
      ptr = 0 ∧ s.state.Failed .errAlloc s'.state ∧ s'.books = s.books ∧
        ∃ later, s'.state.world.loans = later ++ s.state.world.loans := by
  have passes : (arenaAllocator build).Passes (World.Served (σ := σ)) := arenaAllocator_passes build
  have legal := proper.legal legal (Lent build parent Out own contents)
  have lawful : (arenaAllocator build).Conforms (Lent build parent Out own contents) :=
    arenaAllocator_conforms conforms own contents
  by_cases denied : op.Allocating ∧ ptr = 0 ∧ op.Demanding
  · obtain ⟨allocating, rfl, demanding⟩ := denied
    by_cases ready : s.state.arena.status = .ok
    · obtain ⟨failed, books⟩ :=
        Session.step_failed lawful tenant.shows tenant.kept ready legal demanding ran
      cases failed.asked with
      | inl same => exact .inl (passes.still (congrArg World.parent same))
      | inr asked =>
          obtain ⟨status, size, asked⟩ := asked
          refine .inr ⟨rfl, status ▸ failed, books, ?_⟩
          have owned := tenant.kept.sane.toOwned
          have holder : s.state.arena.parent = arenaAllocator build :=
            (congrArg ArenaT.parent tenant.shows.1.arena).trans owned.parent
          rw [holder] at asked
          obtain ⟨⟨_, after⟩, _, same⟩ := bind_eq_ok.mp asked
          have world := congrArg Prod.snd (Except.ok.inj same)
          exact ⟨[_], (congrArg World.loans world).symm⟩
    · cases (Session.step_latched ready allocating).symm.trans ran
      exact .inl (passes.still rfl)
  · left
    rw [tenant.shows.1.world, tenant'.shows.1.world]
    exact Account.step_passes passes lawful tenant.kept legal proper
      (fun allocating null demanding => denied ⟨allocating, null, demanding⟩) followed

theorem subleases (conforms : parent.Conforms Out) (tenant : s.Tenant build parent Out own contents t)
    {op : Op (Lender σ)} (proper : op.Proper) (legal : op.Legal (fun _ _ => True) s) {ptr : Nat}
    (ran : s.step build op = .ok (ptr, s')) : s.Subleases ptr s' := by
  obtain ⟨t', tenant', followed⟩ := tenant.child conforms proper legal ran
  refine ⟨fun x member => ?_, ?_⟩
  · have mine := tenant.mem_direct.mp member
    refine ⟨tenant'.mem_direct.mpr mine, fun q covers => ?_⟩
    exact ((tenant'.lent.recorded x mine).2 q covers).trans
      ((tenant.lent.recorded x mine).2 q covers).symm
  · cases tenant.refusal conforms proper legal ran tenant' followed with
    | inl served =>
        obtain ⟨later, same, served⟩ := served
        refine ⟨later, same, fun refused => ?_⟩
        obtain ⟨loan, member, refused⟩ := refused
        exact absurd refused (served loan member)
    | inr failed =>
        obtain ⟨null, failed, books, later, same⟩ := failed
        exact ⟨later, same, fun _ => ⟨null, failed, books⟩⟩

end Session.Tenant

/-- In any legal interleaving of calls of a child, calls of the arena behind and whatever happens
elsewhere: each block of the child is live in the arena behind, the allocations of the two clients
keep apart and keep their bytes, no release of a block by the child costs anything that is live, and
a refusal by the arena behind is a failed call of the child. -/
theorem Session.reached_housed (conforms : parent.Conforms Out) {s : Session (Lender σ)}
    (reached : s.Reached build parent Out) :
    s.Housed build ∧ (∀ loan ∈ s.state.world.loans, loan.Spares) ∧
      (∀ (op : Op (Lender σ)), Move.Legal Out s (.child op) →
        ((∃ ptr s', s.move build (.child op) = .ok (ptr, s')) ∨
          op = .tempEnd ∧ s.move build (.child op) =
            .error (.assertion "temp.depth == a->temp_depth")) ∧
        ∀ ptr s', s.move build (.child op) = .ok (ptr, s') → s.Subleases ptr s') ∧
      ∀ (op : Op σ), Move.Legal Out s (.direct op) →
        (op.Plain → ∃ ptr s', s.move build (.direct op) = .ok (ptr, s')) ∧
        ∀ ptr s', s.move build (.direct op) = .ok (ptr, s') → s.Spared s' := by
  obtain ⟨own, contents, t, tenant⟩ := reached.tenant conforms
  refine ⟨tenant.housed, tenant.lent.spares, fun op legal => ⟨?_, fun ptr s' ran => ?_⟩,
    fun op legal => ⟨fun plain => ?_, fun ptr s' ran => ?_⟩⟩
  · exact Session.step_total (arenaAllocator_conforms conforms own contents) tenant.shows
      tenant.kept (legal.1.legal legal.2 _)
  · exact tenant.subleases conforms legal.1 legal.2 ran
  · obtain ⟨ptr, behind, stepped⟩ := tenant.lent.settled.returns conforms legal.2.1 plain
    exact ⟨ptr, _, bind_eq_ok.mpr ⟨_, stepped, rfl⟩⟩
  · obtain ⟨⟨_, behind⟩, stepped, same⟩ := bind_eq_ok.mp ran
    cases same
    exact ⟨rfl, rfl, rfl, (tenant.direct conforms legal stepped).1⟩

/-- A new child over a new arena. -/
def Session.sublet : Session (Lender Nat) where
  state := Arena.init (arenaAllocator .sanitized) (Session.rising.lend [])
  books := .start risingWorld.bytes

/-- Both clients allocate, and the child gives a block back under the other's allocation. -/
theorem Session.reached_housed_sublet :
    ∃ s : Session (Lender Nat), s.Reached .sanitized (risingParent 0x100000) (RisingOut 0x100000) ∧
      s.state.world.loans.length = 2 ∧ s.Housed .sanitized ∧
      ∀ loan ∈ s.state.world.loans, loan.Spares := by
  have conforms := risingParent_conforms 0x100000 (by decide)
  have large : ∀ s : Session (Lender Nat), Move.Legal (RisingOut 0x100000) s
      (.child (.allocate (.alloc 9000))) := fun s => ⟨fun _ same => (nomatch same), Nat.zero_le _⟩
  have direct : ∀ s : Session (Lender Nat), Move.Legal (RisingOut 0x100000) s
      (.direct (.allocate (.alloc 100))) := fun s =>
    ⟨fun _ same => (nomatch same), Nat.zero_le _, fun _ given => (nomatch given), .inl trivial⟩
  have reset : ∀ s : Session (Lender Nat), Move.Legal (RisingOut 0x100000) s (.child .reset) :=
    fun s => ⟨fun _ same => (nomatch same), trivial⟩
  have start : Session.sublet.Reached .sanitized (risingParent 0x100000) (RisingOut 0x100000) :=
    .init (Session.rising_started _) _
  have third := ((start.move (large _) rfl).move (direct _) rfl).move (reset _) rfl
  have housed := Session.reached_housed conforms third
  exact ⟨_, third, rfl, housed.1, housed.2.1⟩

end AgencC.Arena
