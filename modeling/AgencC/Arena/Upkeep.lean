import AgencC.Arena.Adapter
import AgencC.Arena.Depth
import AgencC.Arena.Failure

/-! An arena between the calls of a client that keeps the contract, and the bytes that client may
touch. -/

set_option autoImplicit false

namespace AgencC.Arena

open Library

variable {σ : Type}

/-- A public call, short of a deinit. -/
def Op.Call : Op σ → Prop
  | .deinit | .elsewhere _ => False
  | _ => True

/-- An allocating call that was served, or asked for nothing. -/
def Op.Met (ptr : Nat) : Op σ → Prop
  | .allocate request => ptr ≠ 0 ∨ request.total = 0 ∧ alignValid request.align = true
  | .realloc _ _ _ _ | .xrealloc _ _ _ _ => ptr ≠ 0
  | _ => True

/-- A byte that may be touched: it lies in the data of a held block, and is not poisoned. -/
def State.Reaches (build : Build) (s : State σ) (p : Nat) : Prop :=
  s.InData p 1 ∧ (build.asan = true → s.world.poisoned p = false)

section
variable (build : Build) (parent : AllocT σ) (Out : World σ → List Region → Prop) (origin : σ)

/-- The books are kept, every scope can be ended, and what is live is addressable. The parent of a
fixed arena is as it was. -/
structure Account.Prepared (t : Account σ) : Prop where
  kept : t.Kept build parent Out
  deep : t.Deep
  lit : build.asan = true → t.image.Lit t.books
  calm : t.image.fixed = true → t.image.world.parent = origin

def Session.Prepared (s : Session σ) : Prop :=
  ∃ t, s.Shows t ∧ t.Prepared build parent Out origin

end

section
variable {build : Build} {parent : AllocT σ} {Out : World σ → List Region → Prop} {origin : σ}

theorem Image.resizeLast_status {a a' : Image σ} {ptr oldSize newSize : Nat}
    (resized : a.resizeLast build ptr oldSize newSize = some a') : a'.status = a.status := by
  unfold Image.resizeLast at resized
  cases last : a.lastAt build ptr oldSize with
  | none =>
      rw [last] at resized
      cases resized
  | some found =>
      rw [last] at resized
      dsimp only at resized
      split at resized
      · cases resized
        rfl
      · split at resized <;> cases resized
        rfl

theorem Image.Sane.allocImpl_status (conforms : parent.Conforms Out) {a a' : Image σ}
    (sane : a.Sane build parent Out) {count size align ptr : Nat} (word : align ≤ sizeMax)
    (ran : a.allocImpl build count size align = .ok (ptr, a')) (served : ptr ≠ 0) :
    a'.status = a.status := by
  obtain ⟨ptr', a'', again, _, outcome⟩ := sane.allocImpl conforms count size word
  cases ran.symm.trans again
  cases outcome with
  | inl refused => exact absurd refused.1 served
  | inr taken => exact taken.2.2.2.status

/-- A request for nothing is no error. -/
theorem Image.allocImpl_nothing {a a' : Image σ} {count size align ptr : Nat}
    (nothing : count * size = 0) (valid : alignValid align = true)
    (ran : a.allocImpl build count size align = .ok (ptr, a')) : a' = a := by
  unfold Image.allocImpl at ran
  by_cases ready : a.status ≠ .ok
  · cases (if_pos ready).symm.trans ran
    rfl
  · rw [if_neg ready, valid, Bool.not_true, if_neg Bool.false_ne_true,
      if_pos (Nat.mul_eq_zero.mp nothing)] at ran
    cases ran
    rfl

theorem Image.Sane.request_ready (conforms : parent.Conforms Out) {a a' : Image σ}
    (sane : a.Sane build parent Out) (ready : a.status = .ok) {request : Request} {ptr : Nat}
    (word : request.align ≤ sizeMax) (ran : request.image build a = .ok (ptr, a'))
    (met : ptr ≠ 0 ∨ request.total = 0 ∧ alignValid request.align = true) : a'.status = .ok := by
  cases Request.image_goes ran with
  | refused product served null =>
      obtain ⟨nothing, valid⟩ := met.resolve_left fun given => given null
      rw [Image.allocImpl_nothing (product.trans nothing) valid served, ready]
  | written product served given touched poisoned =>
      exact (sane.allocImpl_status conforms word served given).trans ready
  | rejected _ some null =>
      obtain ⟨nothing, _⟩ := met.resolve_left fun given => given null
      exact absurd nothing (Nat.ne_of_gt some)

theorem Image.Sane.realloc_ready (conforms : parent.Conforms Out) {a a' : Image σ}
    (sane : a.Sane build parent Out) (ready : a.status = .ok)
    {ptr oldSize newSize align fresh : Nat} (word : align ≤ sizeMax)
    (ran : a.realloc build ptr oldSize newSize align = .ok (fresh, a')) (served : fresh ≠ 0) :
    a'.status = .ok := by
  cases Image.realloc_reallocates ran with
  | resized _ done => exact (Image.resizeLast_status done).trans ready
  | moved _ taken _ after =>
      have same := (sane.allocImpl_status conforms word taken served).trans ready
      cases after with
      | inl still => exact still ▸ same
      | inr moved => exact moved ▸ same
  | rejected _ _ => exact absurd rfl served

/-- A call that finds no error and is met leaves none. -/
theorem Account.Effect.ready (conforms : parent.Conforms Out) {s : Session σ} {t t' : Account σ}
    {op : Op σ} {ptr : Nat} (kept : t.Kept build parent Out) (legal : op.Legal Out s)
    (call : op.Call) (followed : t.step build op = .ok (ptr, t')) (ready : t.image.status = .ok)
    (met : op.Met ptr) (effect : t.Effect build parent Out op t') : t'.image.status = .ok := by
  have kept : t.image.Kept build parent Out t.books := kept
  cases effect with
  | advanced advancing advances =>
      cases op with
      | allocate request =>
          obtain ⟨⟨_, image⟩, called, same⟩ := bind_eq_ok.mp followed
          cases same
          exact kept.sane.request_ready conforms ready legal called met
      | realloc given oldSize newSize align | xrealloc given oldSize newSize align =>
          obtain ⟨⟨_, image⟩, called, same⟩ := bind_eq_ok.mp followed
          cases same
          exact kept.sane.realloc_ready conforms ready legal.1 called met
      | xfree given size align =>
          cases followed
          dsimp only
          split
          · exact ready
          · unfold Image.xfree
            split <;> exact ready
      | clearError =>
          cases followed
          rfl
      | _ => exact advancing.elim
  | trimmed trimmed => exact trimmed.status.trans ready
  | begun => exact ready
  | ended inner grown marks same unwound lit => exact unwound.status.trans ready
  | reset rewound => exact rewound.status
  | deinit ran renewed => exact call.elim
  | elsewhere world => exact call.elim

/-- A call on a fixed arena makes none on its parent. -/
theorem Account.Effect.still {t t' : Account σ} {op : Op σ} (call : op.Call)
    (effect : t.Effect build parent Out op t') :
    t'.image.fixed = t.image.fixed ∧
      (t.image.fixed = true → t'.image.world.parent = t.image.world.parent) := by
  cases effect with
  | advanced advancing advances =>
      exact ⟨advances.fixed, fun fixed => (advances.steady fixed).parent⟩
  | trimmed trimmed => exact ⟨trimmed.fixed, trimmed.calm⟩
  | begun => exact ⟨rfl, fun _ => rfl⟩
  | ended inner grown marks same unwound lit => exact ⟨unwound.fixed, unwound.calm⟩
  | reset rewound => exact ⟨rewound.fixed, rewound.calm⟩
  | deinit ran renewed => exact call.elim
  | elsewhere world => exact call.elim

theorem Session.Shows.fixed {s : Session σ} {t : Account σ} (shows : s.Shows t) :
    s.state.arena.fixed = t.image.fixed := by
  rw [shows.1.arena]
  rfl

theorem World.light_all_parent (build : Build) (cs : List Cell) (w : World σ) :
    (cs.foldl (fun w c => w.light build c.data c.cap) w).parent = w.parent := by
  induction cs generalizing w with
  | nil => rfl
  | cons c cs ih =>
      refine (ih _).trans ?_
      unfold World.light
      split <;> rfl

namespace Session.Prepared

variable {s s' : Session σ}

/-- A legal call returns, and leaves the arena prepared for the next one. -/
theorem call (conforms : parent.Conforms Out) (prepared : s.Prepared build parent Out origin)
    {op : Op σ} (legal : op.Legal Out s) (shallow : op.Shallow s) (call : op.Call) :
    ∃ ptr s', s.step build op = .ok (ptr, s') ∧ s'.Prepared build parent Out origin ∧
      s'.state.arena.fixed = s.state.arena.fixed ∧
      (s.state.arena.status = .ok → op.Met ptr → s'.state.arena.status = .ok) := by
  obtain ⟨t, shows, kept, deep, lit, calm⟩ := prepared
  obtain ⟨ptr, s', _, ran, _⟩ := Session.step_refines conforms shows kept legal (deep.level op)
  obtain ⟨t', followed, shows', kept', effect⟩ :=
    Session.step_follows conforms shows kept legal ran
  obtain ⟨fixed, still⟩ := effect.still call
  have may : op.Unpoisoned Out s := by
    refine ⟨legal, fun world same => ?_⟩
    subst same
    exact call.elim
  refine ⟨ptr, s', ran, ⟨t', shows', kept', effect.deep shows deep shallow,
    fun asan => effect.lit shows kept asan (lit asan) may, fun held => ?_⟩, ?_, fun ready met => ?_⟩
  · have before := fixed.symm.trans held
    exact (still before).trans (calm before)
  · rw [shows'.fixed, shows.fixed, fixed]
  · rw [shows'.status]
    exact effect.ready conforms kept legal call followed (shows.status ▸ ready) met

/-- What is live has bytes, is aligned as its client relies on, and is not NULL. -/
theorem live (prepared : s.Prepared build parent Out origin) {x : Span}
    (member : x ∈ s.books.live) :
    0 < x.size ∧ x.addr ≠ 0 ∧ (AlignArg x.align → x.effective ∣ x.addr) ∧
      ∀ p, x.Covers p → s.state.world.bytes p = s.books.contents p := by
  obtain ⟨t, shows, kept, _⟩ := prepared
  have kept : t.image.Kept build parent Out t.books := kept
  rw [shows.1.world, shows.2]
  rw [shows.2] at member
  have above := kept.past_header member
  refine ⟨kept.filled member, fun null => ?_, fun plain => ?_, kept.written x member⟩
  · rw [null] at above
    exact absurd above (by decide)
  · exact (effective_dvd plain).trans (kept.lie.aligned x member).1

theorem live_apart (prepared : s.Prepared build parent Out origin) :
    (s.books.live.map Span.extent).Pairwise Region.Apart := by
  obtain ⟨t, shows, kept, _⟩ := prepared
  have kept : t.image.Kept build parent Out t.books := kept
  exact shows.2 ▸ kept.live_apart

/-- The counters a client can read cover each other. -/
theorem counters (prepared : s.Prepared build parent Out origin) :
    s.state.arena.used ≤ s.state.arena.committed ∧
      s.state.arena.used ≤ s.state.arena.highWater := by
  obtain ⟨t, shows, kept, _⟩ := prepared
  have accounted := kept.accounted shows
  exact ⟨accounted.within, accounted.peak⟩

/-- The bytes of what is live may be touched. -/
theorem reaches (prepared : s.Prepared build parent Out origin) {x : Span}
    (member : x ∈ s.books.live) {p : Nat} (covers : x.Covers p) :
    s.state.Reaches build p := by
  obtain ⟨t, shows, kept, _, lit, _⟩ := prepared
  have kept : t.image.Kept build parent Out t.books := kept
  rw [shows.2] at member
  refine ⟨?_, fun asan => ?_⟩
  · obtain ⟨c, chained, fits, above, below⟩ := kept.live_placed member
    obtain ⟨_, link, found⟩ := shows.1.blocks.found (List.mem_append_left _ chained)
    refine State.inData_of_lookup found (Nat.le_trans above covers.1) ?_
    have inside := covers.2
    have top : c.cursor = c.addr + blockHdr + c.used := rfl
    change p + 1 ≤ c.addr + blockHdr + c.cap
    omega
  · rw [shows.1.world]
    exact lit asan x (Books.mem_lit_of_live member) p covers

/-- The client writes to what is live. -/
theorem written (conforms : parent.Conforms Out) (prepared : s.Prepared build parent Out origin)
    {x : Span} (member : x ∈ s.books.live) {world : World σ}
    (touched : s.state.world.Touched x.extent world)
    (poisoned : world.poisoned = s.state.world.poisoned) :
    Session.Prepared build parent Out origin
      { state := { s.state with world }, books := s.books.recall world.bytes } := by
  obtain ⟨t, shows, kept, deep, lit, calm⟩ := prepared
  have kept : t.image.Kept build parent Out t.books := kept
  have before : s.state.world = t.image.world := shows.1.world
  rw [shows.2] at member
  rw [before] at touched poisoned
  have elsewhere : Image.Kept build parent Out { t.image with world }
      (t.books.recall world.bytes) := by
    refine kept.elsewhere (fun growing => conforms.written (kept.sane.out growing) ?_)
      fun r _ p _ _ => by rw [poisoned]
    obtain ⟨c, chained, fits, above, below⟩ := kept.live_placed member
    refine touched.inside (List.mem_map_of_mem (List.mem_append_left _ chained)) ?_
    exact c.data_within above (Nat.le_trans below (Nat.add_le_add_left fits _))
  refine ⟨{ image := { t.image with world }, books := t.books.recall world.bytes },
    ⟨shows.1.write world, by rw [shows.2]⟩, elsewhere, ⟨deep.bound, deep.depth, deep.numbered⟩,
    fun asan y listed p covers => ?_, fun fixed => touched.parent.trans (calm fixed)⟩
  change world.poisoned p = false
  rw [poisoned]
  exact lit asan y listed p covers

/-- An arena that is given up. -/
theorem deinit (conforms : parent.Conforms Out) (prepared : s.Prepared build parent Out origin) :
    ∃ state, Arena.deinit build s.state = .ok state ∧
      (s.state.arena.fixed = false → Out state.world []) ∧
      (s.state.arena.fixed = true → state.world.parent = origin) := by
  obtain ⟨t, shows, kept, _, _, calm⟩ := prepared
  obtain ⟨s', t', ran, shows', kept', growing, empty⟩ := Session.step_deinit conforms shows kept
  obtain ⟨state, called, same⟩ := bind_eq_ok.mp ran
  cases same
  refine ⟨state, called, fun _ => ?_, fun fixed => ?_⟩
  · have kept' : t'.image.Kept build parent Out t'.books := kept'
    have out := kept'.sane.out growing
    have regions : t'.image.regions = [] := (empty ▸ shows'.1.regions).nil_eq.symm
    rw [regions] at out
    exact shows'.1.world ▸ out
  · obtain ⟨_, image, again, given, shown⟩ := deinit_refines conforms shows.1 kept.sane.toOwned
    cases called.symm.trans again
    rw [shows.fixed] at fixed
    rw [Image.deinit, if_pos fixed] at given
    cases given
    rw [shown.world]
    exact (World.light_all_parent build t.image.chain t.image.world).trans (calm fixed)

end Session.Prepared

end

end AgencC.Arena
