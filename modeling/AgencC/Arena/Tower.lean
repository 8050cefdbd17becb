import AgencC.Arena.Libc
import AgencC.Arena.Tenancy

/-! Arenas on top of each other, to any height, each with a client of its own: arenas are set up
and given up while all the clients make calls. -/

set_option autoImplicit false

namespace AgencC.Arena

open Library

/-- What is behind `n` arenas, each the parent of the next. -/
@[reducible]
def Tower (σ : Type) : Nat → Type
  | 0 => σ
  | n + 1 => Lender (Tower σ n)

/-- A call of one of the arenas, or what others do with the parent of the lowest. -/
inductive TowerOp (σ : Type) : Nat → Type where
  | own {n : Nat} (op : Op (Tower σ n)) : TowerOp σ n
  | under {n : Nat} (op : TowerOp σ n) : TowerOp σ (n + 1)
  | others (world : World σ) : TowerOp σ 0

variable {σ : Type} {n : Nat}

section
variable (build : Build) (parent : AllocT σ)

/-- The parent of the highest of `n + 1` arenas. -/
def tower : (n : Nat) → AllocT (Tower σ n)
  | 0 => parent
  | n + 1 => arenaAllocator (σ := Tower σ n) build

def Session.climb : {n : Nat} → Session (Tower σ n) → TowerOp σ n →
    Except Fault (Nat × Session (Tower σ n))
  | _, s, .own op => s.step build op
  | _ + 1, s, .under op => do
      let (ptr, behind) ← s.behind.climb op
      .ok (ptr, s.onto behind)
  | 0, s, .others world => .ok (0, { s with state := { s.state with world } })

/-- `arena_deinit` of all the arenas, the highest first. -/
def Session.raze : {n : Nat} → Session (Tower σ n) → Except Fault (World σ)
  | 0, s => do
      let state ← deinit build s.state
      .ok state.world
  | _ + 1, s => do
      let state ← deinit build s.state
      state.world.lender.raze

end

/-! What the clients see to. -/

/-- What is live and is not in `taken`, the blocks of a further arena. -/
def Session.besides (taken : List Region) (s : Session σ) : List Span :=
  s.books.live.filter fun x => x.extent ∉ taken

/-- A call by a client that has what is not in `taken`, or what it writes to its allocations. While
there is something in `taken`, the arena is not reset, given up or put in a scope. -/
def Op.Mine (taken : List Region) (s : Session σ) : Op σ → Prop
  | .elsewhere world => s.state.world.Inside (extents (s.besides taken)) world
  | op => op.Legal (fun _ _ => True) s ∧ (∀ x, op.span = some x → x.extent ∉ taken) ∧
      (op.Plain ∨ taken = [])

/-- The calls keep the contract, and no client gives away what another has. -/
def TowerOp.Legal (Out : World σ → List Region → Prop) : {n : Nat} → List Region →
    Session (Tower σ n) → TowerOp σ n → Prop
  | _, taken, s, .own op => op.Mine taken s
  | _ + 1, _, s, .under op => op.Legal Out s.state.regions s.behind
  | 0, _, s, .others world => Out world s.state.regions ∧ s.state.world.Keeps s.state.regions world

/-- The lowest arena. -/
def Session.floor : {n : Nat} → Session (Tower σ n) → Session σ
  | 0, s => s
  | _ + 1, s => s.behind.floor

/-- All that the clients have. -/
def Session.holdings : {n : Nat} → List Region → Session (Tower σ n) → List Span
  | 0, taken, s => s.besides taken
  | _ + 1, taken, s => s.besides taken ++ s.behind.holdings s.state.regions

/-- What a client's call may change or give up. -/
def Op.about (taken : List Region) (s : Session σ) : Op σ → List Span
  | .tempEnd | .reset | .deinit | .elsewhere _ => s.besides taken
  | op => op.span.toList

def TowerOp.about : {n : Nat} → List Region → Session (Tower σ n) → TowerOp σ n → List Span
  | _, taken, s, .own op => op.about taken s
  | _ + 1, _, s, .under op => op.about s.state.regions s.behind
  | 0, _, _, .others _ => []

section
variable (build : Build) (parent : AllocT σ) (Out : World σ → List Region → Prop)

/-- Arenas set up one on top of the other, given up from the top, and whatever legal calls lead to
in between. -/
inductive Session.Climbed : {n : Nat} → Session (Tower σ n) → Prop where
  | init (world : World σ) (contents : Nat → UInt8) (out : Out world []) :
      Climbed (n := 0) { state := Arena.init parent world, books := .start contents }
  | sized (minBlock maxBlock : Nat) (world : World σ) (contents : Nat → UInt8)
      (out : Out world []) :
      Climbed (n := 0)
        { state := (initSized parent minBlock maxBlock world).2, books := .start contents }
  | initOver {n : Nat} {s : Session (Tower σ n)} (climbed : s.Climbed) (contents : Nat → UInt8) :
      Climbed (n := n + 1)
        { state := Arena.init (arenaAllocator build) (s.lend []), books := .start contents }
  | sizedOver {n : Nat} {s : Session (Tower σ n)} (climbed : s.Climbed) (minBlock maxBlock : Nat)
      (contents : Nat → UInt8) :
      Climbed (n := n + 1)
        { state := (initSized (arenaAllocator build) minBlock maxBlock (s.lend [])).2
          books := .start contents }
  | call {n : Nat} {s s' : Session (Tower σ n)} {op : TowerOp σ n} {ptr : Nat}
      (climbed : s.Climbed) (legal : op.Legal Out [] s) (ran : s.climb build op = .ok (ptr, s')) :
      Climbed s'
  | deinit {n : Nat} {s s' : Session (Tower σ (n + 1))} {ptr : Nat} (climbed : s.Climbed)
      (ran : s.step build .deinit = .ok (ptr, s')) : Climbed (n := n) s'.behind

/-- An arena as its client and the arena above can see it. -/
structure Session.Tidy {σ : Type} (taken : List Region) (s : Session σ) : Prop where
  placed : ∃ chain free, s.state.Lists chain free ∧
    ∀ x ∈ s.books.live, ∃ c ∈ chain, c.used ≤ c.cap ∧ c.data ≤ x.addr ∧ x.addr + x.size ≤ c.cursor
  aligned : ∀ x ∈ s.books.live, alignEffective build x.align ∣ x.addr
  recorded : ∀ x ∈ s.besides taken, s.Recorded x

/-- Each block of an arena is a live allocation of the next one down, and all are tidy. -/
def Session.Sound : {n : Nat} → List Region → Session (Tower σ n) → Prop
  | 0, taken, s => s.Tidy build taken
  | _ + 1, taken, s => s.Tidy build taken ∧
      (∀ r ∈ s.state.regions, Span.block r ∈ s.behind.books.live) ∧
      s.behind.Sound s.state.regions

end

/-! What the arenas have lent to one another. -/

section
variable (build : Build) (parent : AllocT σ) (Out : World σ → List Region → Prop)

/-- `own n` and its bytes `contents n` are what the client of arena `n` has. -/
def TowerOut (own : Nat → List Span) (contents : Nat → Nat → UInt8) :
    (n : Nat) → World (Tower σ n) → List Region → Prop
  | 0 => Out
  | n + 1 => Lent build (tower build parent n) (TowerOut own contents n) (own n) (contents n)

end

section
variable {build : Build} {parent : AllocT σ} {Out : World σ → List Region → Prop}

/-! One arena on top of others. -/

section
variable {τ : Type} {holder : AllocT τ} {Given : World τ → List Region → Prop}

/-- An arena that has given out nothing may still be in disorder. -/
theorem Lent.exists_not {own : List Span} {contents : Nat → UInt8} (w : World (Lender τ)) :
    ∃ w, ¬ Lent build holder Given own contents w [] := by
  let state := Arena.init holder w.lender.state.world
  refine ⟨Session.lend [] ⟨{ state with arena := { state.arena with used := 1 } }, .start contents⟩,
    fun lent => ?_⟩
  obtain ⟨a, shows, kept⟩ := lent.settled
  have used : 1 = a.used := congrArg ArenaT.used shows.arena
  have none : a.cells = [] := List.map_eq_nil_iff.mp (List.nil_perm.mp shows.regions)
  have empty : a.chain = [] := (List.append_eq_nil_iff.mp none).1
  have counted := kept.sane.counted
  rw [empty, ← used] at counted
  exact absurd counted (by decide)

namespace Session.Settled

variable {s : Session τ}

/-- An arena over a parent that may be in disorder grows. -/
theorem growing (settled : s.Settled build holder Given) {w : World τ} (wrong : ¬ Given w []) :
    s.state.arena.fixed = false := by
  obtain ⟨a, shows, kept⟩ := settled
  rw [shows.arena]
  cases fixed : a.fixed with
  | false => exact fixed
  | true => exact absurd ((kept.sane.buffer fixed).2.2.2 w) wrong

theorem out (conforms : holder.Conforms Given) (settled : s.Settled build holder Given)
    (growing : s.state.arena.fixed = false) : Given s.state.world s.state.regions := by
  obtain ⟨a, shows, kept⟩ := settled
  rw [shows.arena] at growing
  rw [shows.world]
  exact conforms.perm (kept.sane.out growing) shows.regions.symm

/-- The same arena over storage that has been put to other uses. -/
theorem rehoused (settled : s.Settled build holder Given) (growing : s.state.arena.fixed = false)
    {Given' : World τ → List Region → Prop} {world : World τ}
    (keeps : s.state.world.Keeps s.state.regions world)
    (out : ∀ rs, s.state.regions.Perm rs → Given' world rs) :
    Settled build holder Given' { s with state := { s.state with world } } := by
  obtain ⟨a, shows, kept⟩ := settled
  rw [shows.arena] at growing
  refine ⟨{ a with world }, shows.write world, ?_⟩
  have moved : Image.Kept build holder Given' { a with world }
      (s.books.recall s.state.world.bytes) := by
    refine kept.rehoused growing ?_ (out _ shows.regions)
    rw [← shows.world]
    exact fun r member => keeps r (shows.regions.mem_iff.mpr member)
  exact moved.recall

/-- What lies in the blocks of an arena is as it was where they are. -/
theorem keeps (settled : s.Settled build holder Given) {world : World τ}
    (keeps : s.state.world.Keeps s.state.regions world) {x : Span} (member : x ∈ s.books.live)
    {q : Nat} (covers : x.Covers q) :
    world.bytes q = s.state.world.bytes q ∧ world.poisoned q = s.state.world.poisoned q := by
  obtain ⟨r, held, within⟩ := settled.lies member
  exact keeps r held q (within.covers covers)

/-- A growing arena goes on growing. -/
theorem step_growing (conforms : holder.Conforms Given) (settled : s.Settled build holder Given)
    (growing : s.state.arena.fixed = false) {op : Op τ} (legal : op.Legal Given s) {ptr : Nat}
    {s' : Session τ} (ran : s.step build op = .ok (ptr, s')) : s'.state.arena.fixed = false := by
  obtain ⟨t, shows, kept, _⟩ := settled.account
  obtain ⟨_, again, _⟩ := Session.step_recall s.state.world.bytes ran
  obtain ⟨t', _, shows', _, effect⟩ := Session.step_follows conforms shows kept
    (legal.recall s.state.world.bytes) again
  have before : s.state.arena.fixed = t.image.fixed := congrArg ArenaT.fixed shows.1.arena
  have after : s'.state.arena.fixed = t'.image.fixed := congrArg ArenaT.fixed shows'.1.arena
  exact after.trans (effect.growing (before.symm.trans growing))

end Session.Settled

theorem Session.mem_besides {s : Session τ} {taken : List Region} {x : Span} :
    x ∈ s.besides taken ↔ x ∈ s.books.live ∧ x.extent ∉ taken := by
  rw [Session.besides, List.mem_filter, decide_eq_true_iff]

theorem Lent.mem_besides {own : List Span} {contents : Nat → UInt8} {w : World (Lender τ)}
    {rs : List Region} (lent : Lent build holder Given own contents w rs) {x : Span} :
    x ∈ w.lender.besides rs ↔ x ∈ own := by
  rw [Session.mem_besides]
  constructor
  · exact fun both => (lent.rest x both.1).resolve_right both.2
  · exact lent.owned x

/-- What is resized or freed is on record, if what the client has is. -/
theorem Op.Legal.recorded {s s' : Session τ} {op : Op τ} (legal : op.Legal Given s)
    (known : ∀ y ∈ s.books.live, op.span = some y → s.Recorded y) {ptr : Nat}
    (ran : s.step build op = .ok (ptr, s')) {x : Span} (given : op.span = some x)
    (served : ptr ≠ 0) : s.Recorded x := by
  cases op with
  | realloc ptr oldSize newSize align | xrealloc ptr oldSize newSize align =>
      cases legal.2 with
      | inl null =>
          cases given
          intro q covers
          have low : ptr ≤ q := covers.1
          have high : q < ptr + oldSize := covers.2
          omega
      | inr member =>
          cases given
          exact known _ (Books.mem_live.mpr (.inl member)) rfl
  | xfree ptr size align =>
      obtain ⟨_, _, same⟩ := bind_eq_ok.mp ran
      cases same
      exact absurd rfl served
  | _ => cases given

section
variable {s s' : Session τ} {taken : List Region} {op : Op τ}

/-- A client's call is legal, whatever the parent has given out. -/
theorem Op.Mine.legal (conforms : holder.Conforms Given) (settled : s.Settled build holder Given)
    (mine : op.Mine taken s) : op.Legal Given s := by
  cases op with
  | elsewhere world =>
      have inside : s.state.world.Inside (extents (s.besides taken)) world := mine
      refine ⟨fun growing => conforms.written (settled.out conforms growing) ?_,
        fun r _ p _ none => inside.poisoned p fun r' member => ?_⟩
      · have outside : ∀ {q}, (∀ r ∈ s.state.regions, ¬ r.Covers q) →
            ∀ r ∈ extents (s.besides taken), ¬ r.Covers q := by
          intro q outside r member covers
          obtain ⟨x, listed, rfl⟩ := List.mem_map.mp member
          obtain ⟨r', held, within⟩ := settled.lies (Session.mem_besides.mp listed).1
          exact outside r' held (within.covers covers)
        exact ⟨inside.parent, fun q apart => inside.bytes q (outside apart),
          fun q apart => inside.poisoned q (outside apart)⟩
      · obtain ⟨x, listed, rfl⟩ := List.mem_map.mp member
        exact none x (Session.mem_besides.mp listed).1
  | _ => exact mine.1

/-- A client's call leaves alone what is taken. -/
theorem Op.Mine.spares (conforms : holder.Conforms Given) (settled : s.Settled build holder Given)
    (mine : op.Mine taken s) (held : ∀ r ∈ taken, Span.block r ∈ s.books.scope.live) {ptr : Nat}
    (ran : s.step build op = .ok (ptr, s')) :
    s.state.world.Keeps taken s'.state.world ∧
      ∀ r ∈ taken, Span.block r ∈ s'.books.scope.live := by
  have live : ∀ r ∈ taken, Span.block r ∈ s.books.live := fun r member =>
    Books.mem_live.mpr (.inl (held r member))
  obtain ⟨_, _, kept⟩ := settled.step conforms (mine.legal conforms settled) ran
  by_cases written : ∃ world, op = .elsewhere world
  · obtain ⟨world, rfl⟩ := written
    have inside : s.state.world.Inside (extents (s.besides taken)) world := mine
    cases ran
    refine ⟨fun r member q covers => ?_, held⟩
    have away : ∀ r' ∈ extents (s.besides taken), ¬ r'.Covers q := by
      intro r' listed
      obtain ⟨x, mine, rfl⟩ := List.mem_map.mp listed
      obtain ⟨alive, outside⟩ := Session.mem_besides.mp mine
      refine (settled.live_apart (live r member) alive ?_).not_covers covers
      exact fun same => outside (same ▸ member)
    exact ⟨inside.bytes q away, inside.poisoned q away⟩
  · have mine : op.Legal (fun _ _ => True) s ∧ (∀ x, op.span = some x → x.extent ∉ taken) ∧
        (op.Plain ∨ taken = []) := by
      cases op with
      | elsewhere world => exact absurd ⟨world, rfl⟩ written
      | _ => exact mine
    obtain ⟨_, foreign, plain⟩ := mine
    have other : ∀ r ∈ taken, op.span ≠ some (Span.block r) := fun r member given =>
      foreign _ given member
    cases plain with
    | inl plain =>
        exact ⟨fun r member => kept plain _ (live r member) (other r member),
          fun r member => (Session.step_live plain ran).2 _ (held r member) (other r member)⟩
    | inr none =>
        subst none
        exact ⟨fun r member => (nomatch member), fun r member => nomatch member⟩

/-- What is live and not taken is on record after a client's call, if it was before. -/
theorem Op.Mine.recorded (conforms : holder.Conforms Given) (settled : s.Settled build holder Given)
    (mine : op.Mine taken s) (known : ∀ x ∈ s.besides taken, s.Recorded x) {ptr : Nat}
    (ran : s.step build op = .ok (ptr, s')) : ∀ x ∈ s'.besides taken, s'.Recorded x := by
  have legal := mine.legal conforms settled
  obtain ⟨_, recorded, _⟩ := settled.step conforms legal ran
  intro x member
  obtain ⟨listed, outside⟩ := Session.mem_besides.mp member
  refine recorded (fun y given => legal.recorded (fun y alive given => ?_) ran given) x listed
    fun earlier => known x (Session.mem_besides.mpr ⟨earlier, outside⟩)
  refine known y (Session.mem_besides.mpr ⟨alive, ?_⟩)
  cases op with
  | elsewhere world => cases given
  | _ => exact mine.2.1 y given

/-- `arena_temp_begin` changes no byte, and what is live stays live. -/
theorem Session.step_begun (conforms : holder.Conforms Given)
    (settled : s.Settled build holder Given) {ptr : Nat}
    (ran : s.step build .tempBegin = .ok (ptr, s')) :
    s'.books.live = s.books.live ∧ s'.state.world = s.state.world := by
  constructor
  · obtain ⟨⟨_, _⟩, _, same⟩ := bind_eq_ok.mp ran
    cases same
    rfl
  · obtain ⟨t, shows, kept, _⟩ := settled.account
    obtain ⟨_, again, _⟩ := Session.step_recall s.state.world.bytes ran
    have legal : Op.Legal Given (s.recall s.state.world.bytes) .tempBegin := trivial
    obtain ⟨t', _, shows', _, effect⟩ := Session.step_follows conforms shows kept legal again
    cases effect with
    | advanced advancing _ => exact advancing.elim
    | begun => exact shows'.1.world.trans shows.1.world.symm

/-- What a client's call is not about stays as it is. -/
theorem Op.Mine.keeps (conforms : holder.Conforms Given) (settled : s.Settled build holder Given)
    (mine : op.Mine taken s) {ptr : Nat} (ran : s.step build op = .ok (ptr, s')) {x : Span}
    (member : x ∈ s.besides taken) (other : x ∉ op.about taken s) :
    x ∈ s'.besides taken ∧ ∀ q, x.Covers q → s'.state.world.bytes q = s.state.world.bytes q := by
  have legal := mine.legal conforms settled
  obtain ⟨live, outside⟩ := Session.mem_besides.mp member
  have plainly : op.Plain → op.span ≠ some x →
      x ∈ s'.besides taken ∧ ∀ q, x.Covers q → s'.state.world.bytes q = s.state.world.bytes q := by
    intro plain given
    have spares := settled.spares conforms legal plain ran
    refine ⟨Session.mem_besides.mpr ⟨(spares.live x live).resolve_right given, outside⟩, ?_⟩
    exact fun q covers => (spares.kept x live given q covers).1
  have given : x ∉ op.span.toList → op.span ≠ some x := fun absent same =>
    absent (Option.mem_toList.mpr same)
  cases op with
  | tempBegin =>
      obtain ⟨same, unchanged⟩ := Session.step_begun conforms settled ran
      exact ⟨Session.mem_besides.mpr ⟨same ▸ live, outside⟩, fun q _ => by rw [unchanged]⟩
  | tempEnd | reset | deinit | elsewhere => exact absurd member other
  | allocate | realloc | xrealloc | xfree | trim | clearError => exact plainly trivial (given other)

end

/-- A legal call returns, but for the depth check of `arena_temp_end`. -/
theorem Session.Settled.total (conforms : holder.Conforms Given) {s : Session τ}
    (settled : s.Settled build holder Given) {op : Op τ} (legal : op.Legal Given s) :
    (∃ ptr s', s.step build op = .ok (ptr, s')) ∨
      s.step build op = .error (.assertion "temp.depth == a->temp_depth") := by
  obtain ⟨t, shows, kept, _⟩ := settled.account
  cases Session.step_total conforms shows kept (legal.recall s.state.world.bytes) with
  | inl returned =>
      obtain ⟨ptr, s', ran⟩ := returned
      obtain ⟨_, again, _⟩ := Session.step_recall s.books.contents ran
      exact .inl ⟨ptr, _, again⟩
  | inr stopped =>
      obtain ⟨rfl, stopped⟩ := stopped
      refine .inr ?_
      cases inner : s.books.outer with
      | nil =>
          have none : (s.recall s.state.world.bytes).books.outer = [] := inner
          cases (Session.step_tempEnd_none none).symm.trans stopped
      | cons entry rest =>
          obtain ⟨temp, outer⟩ := entry
          have some : (s.recall s.state.world.bytes).books.outer = (temp, outer) :: rest := inner
          have stopped := (Session.step_tempEnd_some some).symm.trans stopped
          rw [Session.step_tempEnd_some inner]
          change tempEnd build temp s.state >>= _ = _ at stopped
          cases ended : tempEnd build temp s.state with
          | ok state =>
              rw [ended] at stopped
              cases stopped
          | error fault =>
              rw [ended] at stopped
              cases stopped
              rfl

end

/-! The arenas below. -/

variable {own own' : Nat → List Span} {contents contents' : Nat → Nat → UInt8}

theorem tower_conforms (build : Build) (conforms : parent.Conforms Out) (own : Nat → List Span)
    (contents : Nat → Nat → UInt8) (n : Nat) :
    (tower build parent n).Conforms (TowerOut build parent Out own contents n) := by
  induction n with
  | zero => exact conforms
  | succ n ih => exact arenaAllocator_conforms ih _ _

/-- What is lent depends on the clients below only. -/
theorem towerOut_congr (same : ∀ k < n, own' k = own k ∧ contents' k = contents k) :
    TowerOut build parent Out own' contents' n = TowerOut build parent Out own contents n := by
  induction n with
  | zero => rfl
  | succ n ih =>
      obtain ⟨owns, bytes⟩ := same n (Nat.lt_succ_self n)
      rw [TowerOut, TowerOut, ih fun k less => same k (Nat.lt_succ_of_lt less), owns, bytes]

variable (build parent Out own contents) in
/-- The highest arena is in order, what is taken of it is live, and what else is live is on
record. -/
structure Session.Standing (taken : List Region) (s : Session (Tower σ n)) : Prop where
  settled : s.Settled build (tower build parent n) (TowerOut build parent Out own contents n)
  held : ∀ r ∈ taken, Span.block r ∈ s.books.scope.live
  distinct : taken.Nodup
  recorded : ∀ x ∈ s.besides taken, s.Recorded x

namespace Session.Standing

variable {taken : List Region} {s : Session (Tower σ n)}

theorem congr (standing : s.Standing build parent Out own contents taken)
    (same : ∀ k < n, own' k = own k ∧ contents' k = contents k) :
    s.Standing build parent Out own' contents' taken :=
  have same : TowerOut build parent Out own' contents' n =
      TowerOut build parent Out own contents n := towerOut_congr same
  { standing with settled := same.symm ▸ standing.settled }

/-- An arena over another one grows. -/
theorem growing {s : Session (Tower σ (n + 1))}
    (standing : s.Standing build parent Out own contents taken) :
    s.state.arena.fixed = false := by
  obtain ⟨w, wrong⟩ : ∃ w, ¬ Lent build (tower build parent n)
      (TowerOut build parent Out own contents n) (own n) (contents n) w [] :=
    Lent.exists_not s.state.world
  exact standing.settled.growing wrong

/-- What the arena below has lent to one further up. -/
theorem lent (conforms : parent.Conforms Out) {s : Session (Tower σ (n + 1))}
    (standing : s.Standing build parent Out own contents taken) :
    Lent build (tower build parent n) (TowerOut build parent Out own contents n) (own n)
      (contents n) s.state.world s.state.regions := by
  exact standing.settled.out (tower_conforms build conforms own contents (n + 1)) standing.growing

theorem behind (conforms : parent.Conforms Out) {s : Session (Tower σ (n + 1))}
    (standing : s.Standing build parent Out own contents taken) :
    s.behind.Standing build parent Out own contents s.state.regions := by
  have lent := standing.lent conforms
  exact
    { settled := lent.settled
      held := lent.lent
      distinct := lent.distinct
      recorded := fun x member => (lent.recorded x (lent.mem_besides.mp member)).1 }

/-- A call of the client of the highest arena. -/
theorem called (conforms : parent.Conforms Out)
    (standing : s.Standing build parent Out own contents taken) {op : Op (Tower σ n)}
    (mine : op.Mine taken s) {ptr : Nat} {s' : Session (Tower σ n)}
    (ran : s.step build op = .ok (ptr, s')) :
    s'.Standing build parent Out own contents taken ∧ s.state.world.Keeps taken s'.state.world := by
  have lawful := tower_conforms build conforms own contents n
  obtain ⟨keeps, held⟩ := mine.spares lawful standing.settled standing.held ran
  exact
    ⟨{ settled := (standing.settled.step lawful (mine.legal lawful standing.settled) ran).1
       held := held
       distinct := standing.distinct
       recorded := mine.recorded lawful standing.settled standing.recorded ran }, keeps⟩

/-- Where the blocks of an arena are as they were, so is the arena. -/
theorem rehoused (standing : s.Standing build parent Out own contents taken)
    {world : World (Tower σ n)} (keeps : s.state.world.Keeps s.state.regions world)
    (settled : Session.Settled build (tower build parent n)
      (TowerOut build parent Out own' contents' n) { s with state := { s.state with world } }) :
    Session.Standing build parent Out own' contents' taken
        { s with state := { s.state with world } } ∧
      s.state.world.Keeps taken world := by
  refine ⟨⟨settled, standing.held, standing.distinct, fun x member q covers => ?_⟩,
    fun r member q covers => ?_⟩
  · have live := (Session.mem_besides.mp member).1
    exact (standing.settled.keeps keeps live covers).1.trans (standing.recorded x member q covers)
  · have live := Books.mem_live.mpr (.inl (standing.held r member))
    exact standing.settled.keeps keeps live covers

/-- An arena goes on over another state of those below, in which its blocks are as they were. -/
theorem onto (conforms : parent.Conforms Out) {s : Session (Tower σ (n + 1))}
    {behind : Session (Tower σ n)} (standing : s.Standing build parent Out own contents taken)
    (after : behind.Standing build parent Out own' contents' s.state.regions)
    (keeps : s.behind.state.world.Keeps s.state.regions behind.state.world) :
    ∃ own' contents',
      Session.Standing (n := n + 1) build parent Out own' contents' taken (s.onto behind) ∧
      s.state.world.Keeps taken (s.onto behind).state.world := by
  let owns := Function.update own' n (behind.besides s.state.regions)
  let bytes := Function.update contents' n behind.state.world.bytes
  have below : ∀ k < n, owns k = own' k ∧ bytes k = contents' k := fun k less =>
    ⟨Function.update_of_ne (Nat.ne_of_lt less) _ _, Function.update_of_ne (Nat.ne_of_lt less) _ _⟩
  have here : owns n = behind.besides s.state.regions ∧ bytes n = behind.state.world.bytes :=
    ⟨Function.update_self _ _ _, Function.update_self _ _ _⟩
  have lent := standing.lent conforms
  have still : s.state.world.Keeps s.state.regions (behind.lend s.state.world.loans) := keeps
  have out : TowerOut build parent Out owns bytes (n + 1) (behind.lend s.state.world.loans)
      s.state.regions := by
    rw [TowerOut, here.1, here.2]
    exact
      { settled := (after.congr below).settled
        distinct := after.distinct
        lent := after.held
        rest := fun x member => by
          by_cases child : x.extent ∈ s.state.regions
          · exact .inr child
          · exact .inl (Session.mem_besides.mpr ⟨member, child⟩)
        owned := fun x member => Session.mem_besides.mp member
        recorded := fun x member => ⟨after.recorded x member, fun _ _ => rfl⟩
        spares := lent.spares }
  refine ⟨owns, bytes, standing.rehoused still ?_⟩
  exact standing.settled.rehoused standing.growing still
    fun rs same => (tower_conforms build conforms owns bytes (n + 1)).perm out same

end Session.Standing

/-- Every legal call keeps the arenas in order, and what a further arena has as it was. -/
theorem Session.climb_standing (conforms : parent.Conforms Out) {taken : List Region}
    {s s' : Session (Tower σ n)} (standing : s.Standing build parent Out own contents taken)
    {op : TowerOp σ n} (legal : op.Legal Out taken s) {ptr : Nat}
    (ran : s.climb build op = .ok (ptr, s')) :
    ∃ own' contents', s'.Standing build parent Out own' contents' taken ∧
      s.state.world.Keeps taken s'.state.world := by
  induction op generalizing own contents taken ptr with
  | @own n op =>
      rw [Session.climb] at ran
      rw [TowerOp.Legal] at legal
      exact ⟨own, contents, standing.called conforms legal ran⟩
  | under op ih =>
      obtain ⟨⟨_, behind⟩, climbed, same⟩ := bind_eq_ok.mp ran
      cases same
      obtain ⟨_, _, after, keeps⟩ := ih (standing.behind conforms) legal climbed
      exact standing.onto conforms after keeps
  | others world =>
      obtain ⟨out, keeps⟩ := legal
      cases ran
      have legal : Op.Legal Out s (.elsewhere world) :=
        ⟨fun _ => out, fun r member q covers _ => (keeps r member q covers).2⟩
      have settled := (standing.settled.step conforms legal rfl).1
      exact ⟨own, contents, standing.rehoused keeps settled⟩

/-- A new arena over one that is in use. -/
theorem Session.Standing.lend {s : Session (Tower σ n)}
    (standing : s.Standing build parent Out own contents []) : ∃ own contents,
      TowerOut build parent Out own contents (n + 1) (s.lend []) [] := by
  let owns := Function.update own n s.books.live
  let bytes := Function.update contents n s.state.world.bytes
  have below : ∀ k < n, owns k = own k ∧ bytes k = contents k := fun k less =>
    ⟨Function.update_of_ne (Nat.ne_of_lt less) _ _, Function.update_of_ne (Nat.ne_of_lt less) _ _⟩
  have here : owns n = s.books.live ∧ bytes n = s.state.world.bytes :=
    ⟨Function.update_self _ _ _, Function.update_self _ _ _⟩
  refine ⟨owns, bytes, ?_⟩
  rw [TowerOut, here.1, here.2]
  exact
    { settled := (standing.congr below).settled
      distinct := .nil
      lent := List.forall_mem_nil _
      rest := fun x member => .inl member
      owned := fun x member => ⟨member, List.not_mem_nil⟩
      recorded := fun x member =>
        ⟨standing.recorded x (Session.mem_besides.mpr ⟨member, List.not_mem_nil⟩), fun _ _ => rfl⟩
      spares := List.forall_mem_nil _ }

theorem Session.Started.standing (conforms : parent.Conforms Out) {s : Session (Tower σ n)}
    (started : s.Started build (tower build parent n) (TowerOut build parent Out own contents n)) :
    s.Standing build parent Out own contents [] := by
  obtain ⟨t, shows, kept⟩ := started.kept (tower_conforms build conforms own contents n)
  have kept : t.image.Kept build (tower build parent n) (TowerOut build parent Out own contents n)
    t.books := kept
  have none : s.books.live = [] := by cases started <;> rfl
  refine
    { settled := ⟨t.image, shows.1, ?_⟩
      held := List.forall_mem_nil _
      distinct := .nil
      recorded := fun x member => ?_ }
  · rw [shows.1.world, shows.2]
    exact kept.recall
  · have live := (Session.mem_besides.mp member).1
    rw [none] at live
    cases live

/-- An arena that is given up has no blocks. -/
theorem Session.Standing.deinit (conforms : parent.Conforms Out) {s : Session (Tower σ n)}
    (standing : s.Standing build parent Out own contents []) :
    ∃ s', s.step build .deinit = .ok (0, s') ∧ s'.Standing build parent Out own contents [] ∧
      s'.state.regions = [] := by
  have lawful := tower_conforms build conforms own contents n
  obtain ⟨t, shows, kept, _⟩ := standing.settled.account
  obtain ⟨again, _, ran, _, _, _, empty⟩ := Session.step_deinit lawful shows kept
  obtain ⟨state, gone, same⟩ := bind_eq_ok.mp ran
  cases same
  have ran : s.step build .deinit = .ok (0, { state, books := s.books.closed }) :=
    bind_eq_ok.mpr ⟨_, gone, rfl⟩
  have mine : Op.Mine [] s .deinit := ⟨trivial, fun _ given => (nomatch given), .inr rfl⟩
  exact ⟨_, ran, (standing.called conforms mine ran).1, empty⟩

/-- However the arenas were set up and used, they are in order. -/
theorem Session.Climbed.standing (conforms : parent.Conforms Out) {s : Session (Tower σ n)}
    (climbed : s.Climbed build parent Out) :
    ∃ own contents, s.Standing build parent Out own contents [] := by
  induction climbed with
  | init world contents out =>
      exact ⟨fun _ => [], fun _ => contents,
        Session.Started.standing conforms (.init world contents out)⟩
  | sized minBlock maxBlock world contents out =>
      exact ⟨fun _ => [], fun _ => contents,
        Session.Started.standing conforms (.sized minBlock maxBlock world contents out)⟩
  | initOver climbed contents ih =>
      obtain ⟨_, _, standing⟩ := ih
      obtain ⟨own, bytes, out⟩ := standing.lend
      exact ⟨own, bytes, Session.Started.standing conforms (.init _ contents out)⟩
  | sizedOver climbed minBlock maxBlock contents ih =>
      obtain ⟨_, _, standing⟩ := ih
      obtain ⟨own, bytes, out⟩ := standing.lend
      exact ⟨own, bytes,
        Session.Started.standing conforms (.sized minBlock maxBlock _ contents out)⟩
  | call climbed legal ran ih =>
      obtain ⟨_, _, standing⟩ := ih
      obtain ⟨own, contents, after, _⟩ := Session.climb_standing conforms standing legal ran
      exact ⟨own, contents, after⟩
  | deinit climbed ran ih =>
      obtain ⟨own, contents, standing⟩ := ih
      obtain ⟨s', again, after, empty⟩ := standing.deinit conforms
      cases ran.symm.trans again
      have below := after.behind conforms
      rw [empty] at below
      exact ⟨own, contents, below⟩

/-! What holds while the arenas stand. -/

namespace Session.Standing

variable {taken : List Region} {s : Session (Tower σ n)}

theorem tidy (standing : s.Standing build parent Out own contents taken) : s.Tidy build taken := by
  obtain ⟨a, shows, kept⟩ := standing.settled
  exact
    { placed := ⟨a.chain, a.free, shows.lists, fun x => kept.live_placed⟩
      aligned := fun x member => (kept.lie.aligned x member).1
      recorded := standing.recorded }

theorem sound (conforms : parent.Conforms Out)
    (standing : s.Standing build parent Out own contents taken) : s.Sound build taken := by
  induction n generalizing taken with
  | zero => exact standing.tidy
  | succ n ih =>
      have below := standing.behind conforms
      refine ⟨standing.tidy, fun r member => ?_, ih below⟩
      exact Books.mem_live.mpr (.inl (below.held r member))

/-- What a client has does not meet what is taken. -/
theorem besides_apart (standing : s.Standing build parent Out own contents taken) {x : Span}
    (member : x ∈ s.besides taken) {r : Region} (listed : r ∈ taken) : x.extent.Apart r := by
  obtain ⟨live, outside⟩ := Session.mem_besides.mp member
  have held := Books.mem_live.mpr (.inl (standing.held r listed))
  refine standing.settled.live_apart live held fun same => outside ?_
  rw [same]
  exact listed

theorem holdings_taken (conforms : parent.Conforms Out)
    (standing : s.Standing build parent Out own contents taken) {x : Span}
    (member : x ∈ s.holdings taken) {r : Region} (listed : r ∈ taken) : x.extent.Apart r := by
  induction n generalizing taken r with
  | zero => exact standing.besides_apart member listed
  | succ n ih =>
      cases List.mem_append.mp member with
      | inl here => exact standing.besides_apart here listed
      | inr deeper =>
          have live := Books.mem_live.mpr (.inl (standing.held r listed))
          obtain ⟨r', held, within⟩ := standing.settled.lies live
          exact (ih (standing.behind conforms) deeper held).mono (.refl _) within

/-- No two clients meet. -/
theorem holdings_apart (conforms : parent.Conforms Out)
    (standing : s.Standing build parent Out own contents taken) :
    ((s.holdings taken).map Span.extent).Pairwise Region.Apart := by
  have here : ((s.besides taken).map Span.extent).Pairwise Region.Apart := by
    obtain ⟨a, _, kept⟩ := standing.settled
    exact kept.live_apart.sublist (List.filter_sublist.map _)
  induction n generalizing taken with
  | zero => exact here
  | succ n ih =>
      have below := standing.behind conforms
      have deeper :
          ((s.behind.holdings s.state.regions).map Span.extent).Pairwise Region.Apart := by
        refine ih below ?_
        obtain ⟨a, _, kept⟩ := below.settled
        exact kept.live_apart.sublist (List.filter_sublist.map _)
      rw [Session.holdings, List.map_append, List.pairwise_append]
      refine ⟨here, deeper, fun e mine e' other => ?_⟩
      obtain ⟨x, member, rfl⟩ := List.mem_map.mp mine
      obtain ⟨y, listed, rfl⟩ := List.mem_map.mp other
      obtain ⟨r, held, within⟩ := standing.settled.lies (Session.mem_besides.mp member).1
      exact (below.holdings_taken conforms listed held).symm.mono within (.refl _)

/-- What the clients of the arenas below have, and the bytes there. -/
theorem mem_holdings (conforms : parent.Conforms Out)
    (standing : s.Standing build parent Out own contents taken) {x : Span} :
    (x ∈ s.holdings taken ↔ x ∈ s.besides taken ∨ ∃ k < n, x ∈ own k) ∧
      ∀ k < n, x ∈ own k → ∀ q, x.Covers q → s.state.world.bytes q = contents k q := by
  induction n generalizing taken with
  | zero =>
      exact ⟨⟨.inl, fun either => either.resolve_right fun ⟨_, less, _⟩ => Nat.not_lt_zero _ less⟩,
        fun _ less => absurd less (Nat.not_lt_zero _)⟩
  | succ n ih =>
      have lent := standing.lent conforms
      obtain ⟨members, right⟩ := ih (standing.behind conforms)
      constructor
      · rw [Session.holdings, List.mem_append, members]
        refine or_congr_right ⟨?_, ?_⟩
        · rintro (here | ⟨k, less, mine⟩)
          · exact ⟨n, Nat.lt_succ_self n, lent.mem_besides.mp here⟩
          · exact ⟨k, Nat.lt_succ_of_lt less, mine⟩
        · rintro ⟨k, less, mine⟩
          cases Nat.lt_succ_iff_lt_or_eq.mp less with
          | inl lower => exact .inr ⟨k, lower, mine⟩
          | inr same => exact .inl (lent.mem_besides.mpr (same ▸ mine))
      · intro k less mine q covers
        cases Nat.lt_succ_iff_lt_or_eq.mp less with
        | inl lower => exact right k lower mine q covers
        | inr same =>
            subst same
            exact (lent.recorded x mine).2 q covers

/-- All that is live lies in the blocks of the lowest arena. -/
theorem floor_lies (conforms : parent.Conforms Out)
    (standing : s.Standing build parent Out own contents taken) {x : Span}
    (member : x ∈ s.books.live) : ∃ r ∈ s.floor.state.regions, x.extent.Within r := by
  induction n generalizing taken x with
  | zero => exact standing.settled.lies member
  | succ n ih =>
      have below := standing.behind conforms
      obtain ⟨r, held, within⟩ := standing.settled.lies member
      obtain ⟨r', lowest, further⟩ := ih below (Books.mem_live.mpr (.inl (below.held r held)))
      exact ⟨r', lowest, Region.Within.trans within further⟩

theorem holdings_lie (conforms : parent.Conforms Out)
    (standing : s.Standing build parent Out own contents taken) {x : Span}
    (member : x ∈ s.holdings taken) : ∃ r ∈ s.floor.state.regions, x.extent.Within r := by
  induction n generalizing taken with
  | zero => exact standing.floor_lies conforms (Session.mem_besides.mp member).1
  | succ n ih =>
      cases List.mem_append.mp member with
      | inl here => exact standing.floor_lies conforms (Session.mem_besides.mp here).1
      | inr deeper => exact ih (standing.behind conforms) deeper

/-- The parent has given out the blocks of the lowest arena. -/
theorem floor_out (conforms : parent.Conforms Out) {w : World σ} (wrong : ¬ Out w [])
    (standing : s.Standing build parent Out own contents taken) :
    Out s.floor.state.world s.floor.state.regions := by
  induction n generalizing taken with
  | zero => exact standing.settled.out conforms (standing.settled.growing wrong)
  | succ n ih => exact ih (standing.behind conforms)

/-- Given up from the top, the arenas leave their parent with nothing of theirs. -/
theorem razes (conforms : parent.Conforms Out)
    (standing : s.Standing build parent Out own contents []) :
    ∃ w, s.raze build = .ok w ∧ Out w [] := by
  induction n with
  | zero =>
      obtain ⟨s', ran, after, empty⟩ := standing.deinit conforms
      obtain ⟨state, gone, same⟩ := bind_eq_ok.mp ran
      cases same
      refine ⟨state.world, bind_eq_ok.mpr ⟨state, gone, rfl⟩, ?_⟩
      obtain ⟨a, shows, kept⟩ := after.settled
      rw [shows.world]
      cases fixed : a.fixed with
      | true => exact (kept.sane.buffer fixed).2.2.2 _
      | false =>
          have none : a.regions = [] := List.nil_perm.mp (empty ▸ shows.regions)
          exact none ▸ kept.sane.out fixed
  | succ n ih =>
      obtain ⟨s', ran, after, empty⟩ := standing.deinit conforms
      obtain ⟨state, gone, same⟩ := bind_eq_ok.mp ran
      cases same
      have below := after.behind conforms
      rw [empty] at below
      obtain ⟨w, razed, out⟩ := ih below
      exact ⟨w, bind_eq_ok.mpr ⟨state, gone, razed⟩, out⟩

end Session.Standing

/-- What a legal call is not about stays as it is. -/
theorem Session.climb_keeps (conforms : parent.Conforms Out) {taken : List Region}
    {s s' : Session (Tower σ n)} (standing : s.Standing build parent Out own contents taken)
    {op : TowerOp σ n} (legal : op.Legal Out taken s) {ptr : Nat}
    (ran : s.climb build op = .ok (ptr, s')) {x : Span} (member : x ∈ s.holdings taken)
    (other : x ∉ op.about taken s) :
    x ∈ s'.holdings taken ∧ ∀ q, x.Covers q → s'.state.world.bytes q = s.state.world.bytes q := by
  induction op generalizing own contents taken ptr with
  | @own n op =>
      rw [TowerOp.Legal] at legal
      rw [Session.climb] at ran
      rw [TowerOp.about] at other
      have lawful := tower_conforms build conforms own contents n
      obtain ⟨members, right⟩ := standing.mem_holdings conforms (x := x)
      obtain ⟨after, _⟩ := standing.called conforms legal ran
      obtain ⟨members', right'⟩ := after.mem_holdings conforms (x := x)
      cases members.mp member with
      | inl here =>
          obtain ⟨still, same⟩ := legal.keeps lawful standing.settled ran here other
          exact ⟨members'.mpr (.inl still), same⟩
      | inr deeper =>
          obtain ⟨k, less, mine⟩ := deeper
          refine ⟨members'.mpr (.inr ⟨k, less, mine⟩), fun q covers => ?_⟩
          exact (right' k less mine q covers).trans (right k less mine q covers).symm
  | under op ih =>
      obtain ⟨⟨_, behind⟩, climbed, same⟩ := bind_eq_ok.mp ran
      cases same
      have below := standing.behind conforms
      cases List.mem_append.mp member with
      | inl here =>
          obtain ⟨_, _, _, keeps⟩ := Session.climb_standing conforms below legal climbed
          have keeps : s.state.world.Keeps s.state.regions (s.onto behind).state.world := keeps
          refine ⟨List.mem_append_left _ here, fun q covers => ?_⟩
          exact (standing.settled.keeps keeps (Session.mem_besides.mp here).1 covers).1
      | inr deeper =>
          obtain ⟨still, same⟩ := ih below legal climbed deeper other
          exact ⟨List.mem_append_right _ still, same⟩
  | others world =>
      cases ran
      exact ⟨member, fun q covers =>
        (standing.settled.keeps legal.2 (Session.mem_besides.mp member).1 covers).1⟩

/-- A legal call returns, but for the depth check of `arena_temp_end`. -/
theorem Session.climb_total (conforms : parent.Conforms Out) {taken : List Region}
    {s : Session (Tower σ n)} (standing : s.Standing build parent Out own contents taken)
    {op : TowerOp σ n} (legal : op.Legal Out taken s) :
    (∃ ptr s', s.climb build op = .ok (ptr, s')) ∨
      s.climb build op = .error (.assertion "temp.depth == a->temp_depth") := by
  induction op generalizing own contents taken with
  | @own n op =>
      rw [TowerOp.Legal] at legal
      rw [Session.climb]
      have lawful := tower_conforms build conforms own contents n
      exact standing.settled.total lawful (legal.legal lawful standing.settled)
  | under op ih =>
      cases ih (standing.behind conforms) legal with
      | inl returned =>
          obtain ⟨ptr, behind, climbed⟩ := returned
          exact .inl ⟨ptr, _, bind_eq_ok.mpr ⟨_, climbed, rfl⟩⟩
      | inr stopped => exact .inr (congrArg (· >>= _) stopped)
  | others world => exact .inl ⟨0, _, rfl⟩

/-- Arenas that are in order: no two clients meet, each has what it last saw, and a legal call
returns and leaves alone what it is not about. -/
structure Session.Orderly (build : Build) (Out : World σ → List Region → Prop)
    (s : Session (Tower σ n)) : Prop where
  sound : s.Sound build []
  apart : ((s.holdings []).map Span.extent).Pairwise Region.Apart
  total : ∀ op : TowerOp σ n, op.Legal Out [] s → (∃ ptr s', s.climb build op = .ok (ptr, s')) ∨
    s.climb build op = .error (.assertion "temp.depth == a->temp_depth")
  keeps : ∀ (op : TowerOp σ n), op.Legal Out [] s → ∀ ptr s', s.climb build op = .ok (ptr, s') →
    ∀ x ∈ s.holdings [], x ∉ op.about [] s → x ∈ s'.holdings [] ∧
      ∀ q, x.Covers q → s'.state.world.bytes q = s.state.world.bytes q

theorem Session.Climbed.orderly (conforms : parent.Conforms Out) {s : Session (Tower σ n)}
    (climbed : s.Climbed build parent Out) : s.Orderly build Out := by
  obtain ⟨own, contents, standing⟩ := climbed.standing conforms
  exact
    { sound := standing.sound conforms
      apart := standing.holdings_apart conforms
      total := fun op legal => Session.climb_total conforms standing legal
      keeps := fun op legal ptr s' ran x => Session.climb_keeps conforms standing legal ran }

end

/-! Over the C library. -/

/-- The C library may have more blocks out than it had at first. -/
theorem LibcOut.exists_not (base : World Malloc) : ∃ w, ¬ LibcOut base w [] := by
  refine ⟨{ base with parent := { base.parent with live := ⟨0, 0⟩ :: base.parent.live } },
    fun out => ?_⟩
  have same := out.none_left.length_eq
  exact absurd same (Nat.succ_ne_self _)

/-- Arenas on top of each other over `alloc_libc`, set up, used by all their clients and given up in
any order that is legal, whatever the C library answers: they are in order, apart from the blocks
of others, and given up from the top they leave the C library with those blocks as they were. -/
theorem Session.climbed_libc (build : Build) {base : World Malloc} {s : Session (Tower Malloc n)}
    (climbed : s.Climbed build allocLibc (LibcLent base)) :
    s.Orderly build (LibcLent base) ∧
      (∀ x ∈ s.holdings [], ∀ r ∈ base.parent.live, x.extent.Apart r) ∧
      ∃ w, s.raze build = .ok w ∧ w.parent.live.Perm base.parent.live ∧
        w.Keeps base.parent.live base := by
  have conforms := allocLibc_conforms base
  obtain ⟨own, contents, standing⟩ := climbed.standing conforms
  refine ⟨climbed.orderly conforms, fun x member r listed => ?_, ?_⟩
  · obtain ⟨w, wrong⟩ := LibcOut.exists_not base
    have out := standing.floor_out conforms wrong
    obtain ⟨r', held, within⟩ := standing.holdings_lie conforms member
    exact (out.base_apart (List.mem_map_of_mem held) listed).mono within (.refl _)
  · obtain ⟨w, razed, out⟩ := standing.razes conforms
    exact ⟨w, razed, out.none_left, out.frozen⟩

/-- A C library with one block of others, that places each further one 64 KiB on. -/
def Malloc.wide : World Malloc where
  bytes _ := 7
  poisoned _ := false
  parent :=
    { live := [⟨4096, 64⟩], calls := 0
      answers := fun n =>
        { addr := some (0x100000 + 0x10000 * n), bytes := fun _ => 0, poisoned := fun _ => false } }

theorem Malloc.wide_sound : Malloc.wide.parent.Sound where
  apart := List.pairwise_singleton _ _
  placed := by decide

/-- Two arenas, of which both clients make use, and a third that comes and goes. -/
theorem Session.climbed_libc_three :
    ∃ s : Session (Tower Malloc 1), s.books.live.length = 1 ∧ s.behind.books.live.length = 3 ∧
      s.Orderly .sanitized (LibcLent Malloc.wide) := by
  have start : Session.Climbed (n := 0) .sanitized allocLibc
      (LibcLent Malloc.wide) _ :=
    .init Malloc.wide (fun _ => 0) (.start Malloc.wide_sound)
  have small : ∀ s : Session (Tower Malloc 0),
      TowerOp.Legal (LibcLent Malloc.wide) [] s (.own (.allocate (.alloc 100))) :=
    fun s => ⟨Nat.zero_le _, fun _ given => (nomatch given), .inl trivial⟩
  have upper : ∀ s : Session (Tower Malloc 1),
      TowerOp.Legal (LibcLent Malloc.wide) [] s (.own (.allocate (.alloc 9000))) :=
    fun s => ⟨Nat.zero_le _, fun _ given => (nomatch given), .inl trivial⟩
  have lower : ∀ s : Session (Tower Malloc 1),
      TowerOp.Legal (LibcLent Malloc.wide) [] s (.under (.own (.allocate (.alloc 50)))) :=
    fun s => ⟨Nat.zero_le _, fun _ given => (nomatch given), .inl trivial⟩
  have first := start.call (small _) rfl
  have second := (first.initOver fun _ => 0).call (upper _) rfl
  have third := second.call (lower _) rfl
  have fourth := (third.initOver fun _ => 0).deinit rfl
  exact ⟨_, rfl, rfl, (Session.climbed_libc .sanitized fourth).1⟩

end AgencC.Arena
