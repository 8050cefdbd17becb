import AgencC.Arena.Shadow
import AgencC.Arena.Upkeep

/-! The operations of the fuzz driver on an arena that is prepared: each returns, and the arena and
the model stay in step. -/

set_option autoImplicit false

namespace AgencC.Arena

open Library

variable {σ : Type} {build : Build} {parent : AllocT σ} {Out : World σ → List Region → Prop}
  {origin : σ}

theorem forM_ok {α : Type} {xs : List α} {check : α → Except Fault Unit}
    (passes : ∀ x ∈ xs, check x = .ok ()) : xs.forM check = .ok () := by
  induction xs with
  | nil => rfl
  | cons x xs ih =>
      refine bind_eq_ok.mpr ⟨(), passes x (.head _), ih fun y member => ?_⟩
      exact passes y (.tail _ member)

theorem Books.live_allocated (b : Books) {ptr : Nat} (given : ptr ≠ 0) (size align : Nat)
    (bytes : Nat → UInt8) :
    (b.allocated ptr size align bytes).live = ⟨ptr, size, align⟩ :: b.live := by
  rw [Books.allocated, if_neg given]
  rfl

/-- A free leaves the other scopes alone. -/
theorem Books.freed_same (b : Books) (ptr size align : Nat) (ignored : Bool) :
    (b.freed ptr size align ignored).outer = b.outer ∧
      (b.freed ptr size align ignored).contents = b.contents := by
  unfold freed
  split
  · exact ⟨rfl, rfl⟩
  · cases ignored <;> exact ⟨rfl, rfl⟩

/-! Accesses. -/

section
variable {s : State σ} {p q : Nat}

theorem State.Reaches.touch (reaches : s.Reaches build p) : s.touch build p = .ok () := by
  unfold State.touch
  rw [State.dataAccess_of reaches.1, ok_bind]
  refine if_neg fun both => ?_
  cases (reaches.2 both.1).symm.trans both.2

theorem State.Reaches.load (reaches : s.Reaches build p) :
    s.load build p = .ok (s.world.bytes p) := by
  rw [State.load, reaches.touch, ok_bind]

theorem State.Reaches.store (reaches : s.Reaches build p) (value : UInt8) :
    s.store build p value = .ok { s with world := s.world.memset p value 1 } := by
  rw [State.store, reaches.touch, ok_bind]

theorem State.Reaches.assertByte (reaches : s.Reaches build p) {value : UInt8}
    (same : s.world.bytes p = value) (text : String) :
    s.assertByte build p value text = .ok () := by
  unfold State.assertByte
  split
  · rfl
  · rw [reaches.load, ok_bind, ensure_of same]

theorem State.memcmp_same {len : Nat}
    (reaches : ∀ idx < len, s.Reaches build (p + idx) ∧ s.Reaches build (q + idx))
    (same : ∀ idx < len, s.world.bytes (p + idx) = s.world.bytes (q + idx)) :
    s.memcmp build p q len = .ok true := by
  induction len with
  | zero => rfl
  | succ len ih =>
      have before := ih (fun idx small => reaches idx (Nat.lt_succ_of_lt small))
        fun idx small => same idx (Nat.lt_succ_of_lt small)
      obtain ⟨left, right⟩ := reaches len (Nat.lt_succ_self len)
      rw [State.memcmp, before, ok_bind, left.load, ok_bind, right.load, ok_bind,
        same len (Nat.lt_succ_self len)]
      simp

/-- The pattern is written, and nothing else changes. -/
theorem fuzzFillTo_spec {entry : FuzzEntry} {len : Nat}
    (reaches : ∀ idx < len, s.Reaches build (entry.ptr + idx)) :
    ∃ world, fuzzFillTo build entry len s = .ok { s with world } ∧
      s.world.Touched ⟨entry.ptr, len⟩ world ∧ world.poisoned = s.world.poisoned ∧
      ∀ idx < len, world.bytes (entry.ptr + idx) = entry.pattern idx := by
  induction len with
  | zero => exact ⟨s.world, rfl, .refl _ _, rfl, fun _ none => absurd none (Nat.not_lt_zero _)⟩
  | succ len ih =>
      obtain ⟨world, filled, touched, poisoned, pattern⟩ :=
        ih fun idx small => reaches idx (Nat.lt_succ_of_lt small)
      obtain ⟨inside, light⟩ := reaches len (Nat.lt_succ_self len)
      have next : State.Reaches build { s with world } (entry.ptr + len) :=
        ⟨inside, fun asan => (congrFun poisoned _).trans (light asan)⟩
      refine ⟨world.memset (entry.ptr + len) (entry.pattern len) 1, ?_, ?_, poisoned, ?_⟩
      · rw [fuzzFillTo, filled, ok_bind, next.store]
      · have shorter : Region.Within ⟨entry.ptr, len⟩ ⟨entry.ptr, len + 1⟩ :=
          ⟨Nat.le_refl _, Nat.le_succ _⟩
        refine (touched.mono shorter).trans ?_
        refine (World.memset_touched _ _ _ _).mono ⟨Nat.le_add_right _ _, ?_⟩
        exact Nat.le_of_eq (Nat.add_assoc _ _ _)
      · intro idx small
        change (if entry.ptr + len ≤ entry.ptr + idx ∧ entry.ptr + idx < entry.ptr + len + 1
          then entry.pattern len else world.bytes (entry.ptr + idx)) = entry.pattern idx
        by_cases last : idx = len
        · subst last
          exact if_pos ⟨Nat.le_refl _, Nat.lt_succ_self _⟩
        · rw [if_neg (by omega)]
          exact pattern idx (by omega)

end

/-! What an allocating call comes to in an arena with no error. -/

theorem State.canServe_failed {s : State σ} (failed : s.arena.status ≠ .ok) :
    (!s.canServe) = true := by
  rw [State.canServe, decide_eq_false failed]
  rfl

namespace Session.Prepared

variable {s : Session σ}

theorem reach (prepared : s.Prepared build parent Out origin) {x : Span}
    (member : x ∈ s.books.live) {idx : Nat} (small : idx < x.size) :
    s.state.Reaches build (x.addr + idx) :=
  prepared.reaches member ⟨Nat.le_add_right _ _, Nat.add_lt_add_left small _⟩

/-- `fuzz_fill` writes to a live allocation only. -/
theorem fill (conforms : parent.Conforms Out) (prepared : s.Prepared build parent Out origin)
    {entry : FuzzEntry} (member : entry.span ∈ s.books.live) :
    ∃ world, fuzzFill build entry s.state = .ok { s.state with world } ∧
      Session.Prepared build parent Out origin
        { state := { s.state with world }, books := s.books.recall world.bytes } ∧
      (∀ idx < entry.size, world.bytes (entry.ptr + idx) = entry.pattern idx) ∧
      ∀ x ∈ s.books.live, entry.span.extent.Apart x.extent → ∀ p, x.Covers p →
        world.bytes p = s.books.contents p := by
  obtain ⟨world, filled, touched, poisoned, pattern⟩ :=
    fuzzFillTo_spec fun idx small => prepared.reach member small
  refine ⟨world, filled, prepared.written conforms member touched poisoned, pattern,
    fun x listed apart p covers => ?_⟩
  exact (touched.bytes p (apart.symm.not_covers covers)).trans
    ((prepared.live listed).2.2.2 p covers)

/-- An allocating call returns. It tells whether it failed. -/
theorem allocate (conforms : parent.Conforms Out) (prepared : s.Prepared build parent Out origin)
    (ready : s.state.arena.status = .ok) (request : Request) (word : request.align ≤ sizeMax)
    (valid : alignValid request.align = true) :
    ∃ ptr state, request.run build s.state = .ok (ptr, state) ∧
      Session.Prepared build parent Out origin
        { state, books := s.books.allocated ptr request.total request.align state.world.bytes } ∧
      state.arena.fixed = s.state.arena.fixed ∧
      (state.arena.status = .ok ↔ ptr ≠ 0 ∨ request.total = 0) := by
  have legal : Op.Legal Out s (.allocate request) := word
  obtain ⟨ptr, s', ran, prepared', fixed, kept⟩ := prepared.call conforms legal trivial trivial
  obtain ⟨⟨_, state⟩, called, same⟩ := bind_eq_ok.mp ran
  cases same
  refine ⟨ptr, state, called, prepared', fixed, fun fine => ?_, fun met => ?_⟩
  · by_contra refused
    obtain ⟨null, some⟩ := not_or.mp refused
    have null : ptr = 0 := not_not.mp null
    subst null
    obtain ⟨t, shows, prepared, _⟩ := prepared
    obtain ⟨failed, _⟩ := Session.step_failed conforms shows prepared ready legal some ran
    have status : state.arena.status = Op.failure build s.state (.allocate request) :=
      congrArg ArenaT.status failed.arena
    exact failed.failure (status.symm.trans fine)
  · exact kept ready (met.imp id fun nothing => ⟨nothing, valid⟩)

/-- A reallocation returns. It tells whether it failed. -/
theorem reallocate (conforms : parent.Conforms Out) (prepared : s.Prepared build parent Out origin)
    (ready : s.state.arena.status = .ok) {x : Span} (member : x ∈ s.books.scope.live)
    (word : x.align ≤ sizeMax) (newSize : Nat) :
    ∃ fresh state, Arena.realloc build x.addr x.size newSize x.align s.state = .ok (fresh, state) ∧
      Session.Prepared build parent Out origin
        { state
          books := s.books.reallocated x.addr x.size newSize x.align fresh state.world.bytes } ∧
      state.arena.fixed = s.state.arena.fixed ∧ (state.arena.status = .ok ↔ fresh ≠ 0) := by
  have legal : Op.Legal Out s (.realloc x.addr x.size newSize x.align) := ⟨word, .inr member⟩
  obtain ⟨fresh, s', ran, prepared', fixed, kept⟩ := prepared.call conforms legal trivial trivial
  obtain ⟨⟨_, state⟩, called, same⟩ := bind_eq_ok.mp ran
  cases same
  refine ⟨fresh, state, called, prepared', fixed, fun fine null => ?_, kept ready⟩
  subst null
  obtain ⟨t, shows, prepared, _⟩ := prepared
  obtain ⟨failed, _⟩ := Session.step_failed conforms shows prepared ready legal trivial ran
  exact failed.failure ((congrArg ArenaT.status failed.arena).symm.trans fine)

/-- A new entry is filled, for what the books have beside those that the entries were in. -/
theorem fills (conforms : parent.Conforms Out) (prepared : s.Prepared build parent Out origin)
    (entry : FuzzEntry) {b : Books} {entries : List FuzzEntry} (has : b.Has entries)
    (outer : s.books.outer = b.outer) (scope : s.books.scope.live = entry.span :: b.scope.live)
    (kept : ∀ p, ¬ entry.span.Covers p → s.books.contents p = b.contents p)
    (here : entry.level = b.outer.length) (plain : AlignArg entry.align) :
    ∃ world, fuzzFill build entry s.state = .ok { s.state with world } ∧
      Session.Prepared build parent Out origin
        { state := { s.state with world }, books := s.books.recall world.bytes } ∧
      (s.books.recall world.bytes).Has (entry :: entries) := by
  have live : s.books.live = entry.span :: b.live := by
    rw [Books.live, Books.live, Books.ledgers, Books.ledgers, List.flatMap_cons, scope, outer]
    rfl
  have member : entry.span ∈ s.books.live := live ▸ .head _
  have older : ∀ {x}, x ∈ b.live → x ∈ s.books.live := fun listed => live ▸ .tail _ listed
  have apart : ∀ x ∈ b.live, entry.span.extent.Apart x.extent := by
    intro x listed
    have all := prepared.live_apart
    rw [live, List.map_cons] at all
    exact (List.pairwise_cons.mp all).1 _ (List.mem_map_of_mem listed)
  obtain ⟨world, filled, prepared', pattern, others⟩ := prepared.fill conforms member
  refine ⟨world, filled, prepared', has.add outer scope (fun x listed same => ?_) here
    (fun x listed p covers => ?_) pattern plain⟩
  · have left : 0 < entry.size := (prepared.live member).1
    have right := (prepared.live (older listed)).1
    have separate : entry.ptr + entry.size ≤ x.addr ∨ x.addr + x.size ≤ entry.ptr := apart x listed
    omega
  · refine (others x (older listed) (apart x listed) p covers).trans (kept p ?_)
    exact (apart x listed).symm.not_covers covers

end Session.Prepared

/-! The input. -/

theorem alignArg_zero : AlignArg 0 := ⟨Nat.zero_le _, by decide⟩

theorem alignValid_zero : alignValid 0 = true := by decide

/-- An alignment that is picked may be passed. -/
theorem fuzzPickAlign_valid (input : FuzzInput) :
    AlignArg (fuzzPickAlign input).1 ∧ alignValid (fuzzPickAlign input).1 = true := by
  have powers : ∀ k < 14, 1 <<< k ≤ sizeMax ∧ (1 <<< k) &&& sizeSub (1 <<< k) 1 = 0 ∧
      alignValid (1 <<< k) = true := by decide
  unfold fuzzPickAlign
  obtain ⟨shift, input⟩ := fuzzByte input
  dsimp only
  split
  · exact ⟨alignArg_zero, alignValid_zero⟩
  · obtain ⟨word, power, valid⟩ := powers (shift.toNat % 14) (Nat.mod_lt _ (by decide))
    exact ⟨⟨word, power⟩, valid⟩

/-! The driver's variables and the books of the session they stand for. -/

section
variable (build : Build) (parent : AllocT σ) (Out : World σ → List Region → Prop) (origin : σ)
  (fixed : Bool)

/-- Between two operations the arena is prepared and has no error, and the model is that of the
books. -/
structure FuzzRun.Stands (r : FuzzRun σ) (b : Books) : Prop where
  prepared : Session.Prepared build parent Out origin { state := r.state, books := b }
  fixed : r.state.arena.fixed = fixed
  ready : r.state.arena.status = .ok
  temps : b.outer.map Prod.fst = r.model.temps
  has : b.Has r.model.live
  few : r.model.temps.length ≤ fuzzMaxTemps

/-- It returns, and the driver can go on. -/
def FuzzRun.Goes (result : Except Fault (FuzzRun σ)) : Prop :=
  ∃ r b, result = .ok r ∧ r.Stands build parent Out origin fixed b

end

/-- What `arena_alloc_zeroed` returns is zero. -/
theorem allocZeroed_bytes {size ptr idx : Nat} {s s' : State σ}
    (called : allocZeroed build size s = .ok (ptr, s')) (given : ptr ≠ 0) (small : idx < size) :
    s'.world.bytes (ptr + idx) = 0 := by
  obtain ⟨⟨fresh, middle⟩, _, rest⟩ := bind_eq_ok.mp called
  dsimp only at rest
  split at rest
  · obtain ⟨last, cleared, same⟩ := bind_eq_ok.mp rest
    cases same
    obtain ⟨_, _, same⟩ := bind_eq_ok.mp cleared
    cases same
    exact if_pos ⟨Nat.le_add_right _ _, Nat.add_lt_add_left small _⟩
  · case isFalse null =>
      cases rest
      exact absurd given null

/-- What `arena_memdup` returns has the bytes of its source. -/
theorem memdup_bytes {src size ptr idx : Nat} {s s' : State σ}
    (called : memdup build src size s = .ok (ptr, s')) (given : ptr ≠ 0) (small : idx < size)
    (apart : Region.Apart ⟨ptr, size⟩ ⟨src, size⟩) :
    s'.world.bytes (ptr + idx) = s'.world.bytes (src + idx) := by
  have target : ptr ≤ ptr + idx ∧ ptr + idx < ptr + size :=
    ⟨Nat.le_add_right _ _, Nat.add_lt_add_left small _⟩
  have source : ¬ (ptr ≤ src + idx ∧ src + idx < ptr + size) :=
    apart.symm.not_covers ⟨Nat.le_add_right _ _, Nat.add_lt_add_left small _⟩
  unfold memdup at called
  split at called
  · cases called
    exact absurd rfl given
  · split at called
    · cases called
      exact absurd rfl given
    · obtain ⟨⟨fresh, middle⟩, _, rest⟩ := bind_eq_ok.mp called
      dsimp only at rest
      split at rest
      · obtain ⟨last, copied, same⟩ := bind_eq_ok.mp rest
        cases same
        obtain ⟨_, _, same⟩ := bind_eq_ok.mp copied
        cases same
        refine (if_pos target).trans (Eq.trans ?_ (if_neg source).symm)
        rw [Nat.add_sub_cancel_left]
      · case isFalse null =>
          cases rest
          exact absurd given null

namespace FuzzRun.Stands

variable {fixed : Bool} {r : FuzzRun σ} {b : Books}

theorem depth (stands : r.Stands build parent Out origin fixed b) :
    b.outer.length = r.model.temps.length := by
  rw [← stands.temps, List.length_map]

theorem goes (stands : r.Stands build parent Out origin fixed b) :
    FuzzRun.Goes build parent Out origin fixed (.ok r) :=
  ⟨r, b, rfl, stands⟩

/-- An error is cleared. -/
theorem cleared (conforms : parent.Conforms Out)
    (stands : r.Stands build parent Out origin fixed b) {state : State σ} (input : FuzzInput)
    (prepared : Session.Prepared build parent Out origin { state, books := b })
    (same : state.arena.fixed = r.state.arena.fixed) :
    FuzzRun.Stands build parent Out origin fixed
      { input, model := r.model, state := clearError state } b := by
  have legal : Op.Legal Out { state, books := b } .clearError := trivial
  obtain ⟨_, _, ran, prepared', _⟩ := prepared.call conforms legal trivial trivial
  cases ran
  exact ⟨prepared', same.trans stands.fixed, rfl, stands.temps, stands.has, stands.few⟩

/-- Only a request for something can fail. -/
theorem handles (conforms : parent.Conforms Out)
    (stands : r.Stands build parent Out origin fixed b) {size : Nat} {state : State σ}
    (input : FuzzInput) (prepared : Session.Prepared build parent Out origin { state, books := b })
    (same : state.arena.fixed = r.state.arena.fixed) (told : state.arena.status = .ok ↔ size = 0) :
    FuzzRun.Goes build parent Out origin fixed
      (fuzzHandleFailure build size state >>= fun state =>
        .ok { input, model := r.model, state }) := by
  unfold fuzzHandleFailure
  by_cases none : size = 0
  · have ready : state.arena.status = .ok := told.mpr none
    have able : state.canServe = true := decide_eq_true ready
    rw [if_neg (not_not_intro none), Build.check_of build able, ok_bind, ok_bind]
    exact ⟨_, b, rfl, prepared, same.trans stands.fixed, ready, stands.temps, stands.has,
      stands.few⟩
  · have failed : state.arena.status ≠ .ok := fun ready => none (told.mp ready)
    rw [if_pos none, Build.check_of build (State.canServe_failed failed), ok_bind, ok_bind]
    exact (stands.cleared conforms input prepared same).goes

/-- An allocating operation ends as its call tells. -/
theorem finishes (conforms : parent.Conforms Out)
    (stands : r.Stands build parent Out origin fixed b)
    (room : r.model.live.length < fuzzMaxLive) {ptr size align : Nat} {state : State σ}
    (input : FuzzInput) (plain : AlignArg align)
    (prepared : Session.Prepared build parent Out origin
      { state, books := b.allocated ptr size align state.world.bytes })
    (same : state.arena.fixed = r.state.arena.fixed)
    (told : state.arena.status = .ok ↔ ptr ≠ 0 ∨ size = 0) :
    FuzzRun.Goes build parent Out origin fixed
      (fuzzFinish build ptr size align input r.model state) := by
  unfold fuzzFinish
  by_cases null : ptr = 0
  · subst null
    rw [if_pos rfl]
    rw [Books.allocated, if_pos rfl] at prepared
    exact stands.handles conforms input prepared same
      (told.trans (or_iff_right fun given => given rfl))
  · rw [if_neg null]
    obtain ⟨world, filled, prepared', has⟩ := prepared.fills conforms
      ⟨ptr, size, align, r.model.nextSeed, r.model.temps.length⟩ stands.has
      (by rw [Books.allocated, if_neg null]; rfl) (by rw [Books.allocated, if_neg null]; rfl)
      (fun p outside => by rw [Books.allocated, if_neg null]; exact carry_outside outside)
      stands.depth.symm plain
    have recorded : fuzzRecord build ptr size align r.model state = .ok (_, _) :=
      (if_pos room).trans (bind_eq_ok.mpr ⟨_, filled, rfl⟩)
    refine ⟨_, _, bind_eq_ok.mpr ⟨_, recorded, rfl⟩, prepared', same.trans stands.fixed,
      told.mpr (.inl null), ?_, ?_, stands.few⟩
    · rw [Books.allocated, if_neg null]
      exact stands.temps
    · exact has.some_of (List.perm_append_singleton _ _).subperm

/-- A byte picks an entry. -/
theorem picks {entries : List FuzzEntry} (byte : UInt8) (some : entries.length ≠ 0) :
    ∃ entry, entries[byte.toNat % entries.length]? = .some entry :=
  ⟨_, List.getElem?_eq_getElem (Nat.mod_lt _ (Nat.pos_of_ne_zero some))⟩

theorem alloc (conforms : parent.Conforms Out)
    (stands : r.Stands build parent Out origin fixed b) :
    FuzzRun.Goes build parent Out origin fixed (fuzzAlloc build r) := by
  unfold fuzzAlloc
  by_cases full : fuzzMaxLive ≤ r.model.live.length
  · rw [if_pos full]
    exact stands.goes
  · rw [if_neg full]
    obtain ⟨size, input⟩ := fuzzPickSize r.input
    have picked := fuzzPickAlign_valid input
    dsimp only
    generalize fuzzPickAlign input = choice at picked ⊢
    obtain ⟨align, input⟩ := choice
    obtain ⟨plain, valid⟩ := picked
    obtain ⟨ptr, state, called, prepared, same, told⟩ := stands.prepared.allocate conforms
      stands.ready (.allocN 1 size align) plain.word valid
    have whole : Request.total (.allocN 1 size align) = size := Nat.one_mul size
    rw [whole] at prepared told
    rw [show allocN build 1 size align r.state = .ok (ptr, state) from called, ok_bind]
    exact stands.finishes conforms (Nat.lt_of_not_le full) input plain prepared same told

theorem allocZeroed (conforms : parent.Conforms Out)
    (stands : r.Stands build parent Out origin fixed b) :
    FuzzRun.Goes build parent Out origin fixed (fuzzAllocZeroed build r) := by
  unfold fuzzAllocZeroed
  by_cases full : fuzzMaxLive ≤ r.model.live.length
  · rw [if_pos full]
    exact stands.goes
  · rw [if_neg full]
    obtain ⟨value, input⟩ := fuzzPickSize r.input
    dsimp only
    generalize value % 4096 = size
    obtain ⟨ptr, state, called, prepared, same, told⟩ := stands.prepared.allocate conforms
      stands.ready (.allocZeroed size) (Nat.zero_le _) alignValid_zero
    have called : Arena.allocZeroed build size r.state = .ok (ptr, state) := called
    rw [called, ok_bind]
    have finished :=
      stands.finishes conforms (Nat.lt_of_not_le full) input alignArg_zero prepared same told
    by_cases null : ptr = 0
    · exact (if_neg (not_not_intro null)).symm ▸ finished
    · dsimp only
      rw [if_pos null]
      have given : Span.mk ptr size 0 ∈ (b.allocated ptr size 0 state.world.bytes).live := by
        rw [b.live_allocated null]
        exact .head _
      rw [forM_ok fun idx listed => ?_]
      · exact finished
      · have small := List.mem_range.mp listed
        refine State.Reaches.assertByte ?_ (allocZeroed_bytes called null small) _
        exact prepared.reach given small

theorem memdup (conforms : parent.Conforms Out)
    (stands : r.Stands build parent Out origin fixed b) :
    FuzzRun.Goes build parent Out origin fixed (fuzzMemdup build r) := by
  unfold fuzzMemdup
  by_cases idle : r.model.live.length = 0 ∨ fuzzMaxLive ≤ r.model.live.length
  · rw [if_pos idle]
    exact stands.goes
  · rw [if_neg idle]
    obtain ⟨some, room⟩ := not_or.mp idle
    obtain ⟨byte, input⟩ := fuzzByte r.input
    dsimp only
    obtain ⟨entry, found⟩ := picks byte some
    have member := List.mem_of_getElem? found
    rw [found]
    dsimp only
    obtain ⟨ptr, state, called, prepared, same, told⟩ := stands.prepared.allocate conforms
      stands.ready (.memdup entry.ptr entry.size) (Nat.zero_le _) alignValid_zero
    have called : Arena.memdup build entry.ptr entry.size r.state = .ok (ptr, state) := called
    rw [called, ok_bind]
    have finished :=
      stands.finishes conforms (Nat.lt_of_not_le room) input alignArg_zero prepared same told
    dsimp only
    by_cases compared : ptr ≠ 0 ∧ build.ndebug = false ∧ entry.size ≠ 0
    · rw [if_pos compared]
      have live := b.live_allocated compared.1 entry.size 0 state.world.bytes
      have all : ((b.allocated ptr entry.size 0 state.world.bytes).live.map
          Span.extent).Pairwise Region.Apart := prepared.live_apart
      rw [live, List.map_cons] at all
      have older := stands.has.live member
      have apart := (List.pairwise_cons.mp all).1 _ (List.mem_map_of_mem older)
      have held : ∀ x ∈ Span.mk ptr entry.size 0 :: b.live,
          x ∈ (b.allocated ptr entry.size 0 state.world.bytes).live := fun x listed => live ▸ listed
      rw [State.memcmp_same (fun idx small => ⟨?_, ?_⟩) fun idx small =>
        memdup_bytes called compared.1 small apart, ok_bind, ensure_of rfl, ok_bind]
      · exact finished
      · exact prepared.reach (held _ (.head _)) small
      · exact prepared.reach (held _ (.tail _ older)) small
    · rw [if_neg compared]
      exact finished

theorem verifyEntry (stands : r.Stands build parent Out origin fixed b) {entry : FuzzEntry}
    (member : entry ∈ r.model.live) : fuzzVerifyEntry build entry r.state = .ok () := by
  have listed := stands.has.live member
  obtain ⟨_, _, aligned, written⟩ := stands.prepared.live listed
  have remainder : entry.ptr % (if entry.align = 0 then defaultAlign else entry.align) = 0 :=
    Nat.mod_eq_zero_of_dvd (aligned (stands.has.plain entry member))
  unfold fuzzVerifyEntry
  dsimp only
  rw [Build.check_of build remainder, ok_bind]
  refine forM_ok fun idx below => ?_
  have small := List.mem_range.mp below
  refine (stands.prepared.reach listed small).assertByte ?_ _
  refine (written _ ⟨Nat.le_add_right _ _, Nat.add_lt_add_left small _⟩).trans ?_
  exact stands.has.filled entry member idx small

/-- `fuzz_verify_all` finds nothing wrong. -/
theorem verifyAll (stands : r.Stands build parent Out origin fixed b) :
    fuzzVerifyAll build r.model r.state = .ok () := by
  obtain ⟨within, peak⟩ := stands.prepared.counters
  unfold fuzzVerifyAll
  rw [forM_ok fun entry member => stands.verifyEntry member, ok_bind,
    Build.check_of build (.inl within), ok_bind, Build.check_of build peak]

theorem realloc (conforms : parent.Conforms Out)
    (stands : r.Stands build parent Out origin fixed b) :
    FuzzRun.Goes build parent Out origin fixed (fuzzRealloc build r) := by
  unfold fuzzRealloc
  by_cases idle : r.model.live.length = 0
  · rw [if_pos idle]
    exact stands.goes
  · rw [if_neg idle]
    obtain ⟨byte, input⟩ := fuzzByte r.input
    dsimp only
    obtain ⟨entry, found⟩ := picks byte idle
    generalize byte.toNat % r.model.live.length = idx at found ⊢
    have member := List.mem_of_getElem? found
    rw [found]
    dsimp only
    by_cases older : entry.level ≠ r.model.temps.length
    · rw [if_pos older]
      exact ⟨{ r with input }, b, rfl, { stands with }⟩
    · rw [if_neg older]
      have here : entry.level = b.outer.length := (not_not.mp older).trans stands.depth.symm
      obtain ⟨size, input⟩ := fuzzPickSize input
      dsimp only
      generalize (if size = 0 then 1 else size) = newSize
      obtain ⟨fresh, state, called, prepared, same, told⟩ := stands.prepared.reallocate conforms
        stands.ready (stands.has.innermost member here) (stands.has.plain entry member).word newSize
      have called : Arena.realloc build entry.ptr entry.size newSize entry.align r.state =
          .ok (fresh, state) := called
      rw [called, ok_bind]
      dsimp only
      by_cases null : fresh = 0
      · rw [if_pos null]
        have failed : state.arena.status ≠ .ok := fun ready => told.mp ready null
        have refused : b.reallocated entry.ptr entry.size newSize entry.align fresh
            state.world.bytes = b := if_pos null
        have prepared : Session.Prepared build parent Out origin { state, books := b } :=
          refused ▸ prepared
        have after := stands.cleared conforms input prepared same
        rw [Build.check_of build (State.canServe_failed failed), ok_bind, after.verifyEntry member,
          ok_bind]
        exact after.goes
      · rw [if_neg null]
        obtain ⟨below, same'⟩ := List.getElem?_eq_some_iff.mp found
        have others : (entry :: r.model.live.eraseIdx idx).Perm r.model.live :=
          same' ▸ List.getElem_cons_eraseIdx_perm below
        have left : (b.put (b.scope.drop entry.span) b.contents).Has (r.model.live.eraseIdx idx) :=
          (stands.has.some_of others.subperm).drop rfl rfl rfl
        have given := (stands.prepared.live (stands.has.live member)).2.1
        obtain ⟨scope, outer, contents⟩ := b.reallocated_live entry.size newSize entry.align given
          null state.world.bytes
        obtain ⟨world, filled, prepared', has⟩ := prepared.fills conforms
          ⟨fresh, newSize, entry.align, r.model.nextSeed, r.model.temps.length⟩ left outer scope
          (fun p outside => (congrFun contents p).trans (carry_outside outside))
          stands.depth.symm (stands.has.plain entry member)
        refine ⟨_, _, bind_eq_ok.mpr ⟨_, filled, rfl⟩, prepared', same.trans stands.fixed,
          told.mpr null, ?_, ?_, stands.few⟩
        · exact (congrArg (List.map Prod.fst) outer).trans stands.temps
        · exact has.some_of (List.set_perm_cons_eraseIdx below _).subperm

theorem tempBegin (conforms : parent.Conforms Out)
    (stands : r.Stands build parent Out origin fixed b) :
    FuzzRun.Goes build parent Out origin fixed (fuzzTempBegin r) := by
  unfold fuzzTempBegin
  by_cases full : fuzzMaxTemps ≤ r.model.temps.length
  · rw [if_pos full]
    exact stands.goes
  · rw [if_neg full]
    have few := Nat.lt_of_not_le full
    have legal : Op.Legal Out { state := r.state, books := b } .tempBegin := trivial
    have shallow : Op.Shallow { state := r.state, books := b } (.tempBegin : Op σ) := by
      change b.outer.length + 1 < 2 ^ 32
      rw [stands.depth]
      exact Nat.lt_of_le_of_lt few (by decide)
    obtain ⟨_, s', ran, prepared, same, kept⟩ := stands.prepared.call conforms legal shallow trivial
    obtain ⟨⟨temp, state⟩, called, equal⟩ := bind_eq_ok.mp ran
    cases equal
    refine ⟨_, b.begun temp, bind_eq_ok.mpr ⟨_, called, rfl⟩, prepared, same.trans stands.fixed,
      kept stands.ready trivial, ?_, stands.has.begun temp, few⟩
    exact congrArg (temp :: ·) stands.temps

theorem tempEnd (conforms : parent.Conforms Out)
    (stands : r.Stands build parent Out origin fixed b) :
    ∃ r' b', fuzzTempEnd build r = .ok r' ∧ r'.Stands build parent Out origin fixed b' ∧
      r'.model.temps = r.model.temps.tail := by
  unfold fuzzTempEnd
  cases model : r.model.temps with
  | nil => exact ⟨r, b, rfl, stands, model⟩
  | cons temp temps =>
      have depth := stands.depth
      have few := stands.few
      have snapshots := stands.temps
      rw [model] at depth few snapshots
      obtain ⟨live, dropped, less, low⟩ :=
        fuzzDropLevel_spec (temps.length + 1) { r.model with temps }
      cases inner : b.outer with
      | nil =>
          rw [inner] at depth
          cases depth
      | cons entry rest =>
          obtain ⟨snapshot, outer⟩ := entry
          rw [inner, List.map_cons] at snapshots
          cases snapshots
          have legal : Op.Legal Out { state := r.state, books := b } .tempEnd := by
            change b.outer ≠ []
            rw [inner]
            exact List.cons_ne_nil _ _
          obtain ⟨_, s', ran, prepared, same, kept⟩ :=
            stands.prepared.call conforms legal trivial trivial
          rw [Session.step_tempEnd_some inner] at ran
          obtain ⟨state, called, equal⟩ := bind_eq_ok.mp ran
          cases equal
          refine ⟨_, b.ended outer rest,
            bind_eq_ok.mpr ⟨_, dropped, bind_eq_ok.mpr ⟨_, called, rfl⟩⟩, ?_, rfl⟩
          refine ⟨prepared, same.trans stands.fixed, kept stands.ready trivial, rfl, ?_,
            Nat.le_of_succ_le few⟩
          exact (stands.has.some_of less).ended inner fun entry member => depth ▸ low entry member

theorem reset (conforms : parent.Conforms Out)
    (stands : r.Stands build parent Out origin fixed b) :
    FuzzRun.Goes build parent Out origin fixed (fuzzReset build r) := by
  have legal : Op.Legal Out { state := r.state, books := b } .reset := trivial
  obtain ⟨_, s', ran, prepared, same, kept⟩ := stands.prepared.call conforms legal trivial trivial
  obtain ⟨state, called, equal⟩ := bind_eq_ok.mp ran
  cases equal
  exact ⟨_, b.closed, bind_eq_ok.mpr ⟨_, called, rfl⟩, prepared, same.trans stands.fixed,
    kept stands.ready trivial, rfl, .none _, Nat.zero_le _⟩

theorem trim (conforms : parent.Conforms Out)
    (stands : r.Stands build parent Out origin fixed b) :
    FuzzRun.Goes build parent Out origin fixed (fuzzTrim build r) := by
  have legal : Op.Legal Out { state := r.state, books := b } .trim := trivial
  obtain ⟨_, s', ran, prepared, same, kept⟩ := stands.prepared.call conforms legal trivial trivial
  obtain ⟨state, called, equal⟩ := bind_eq_ok.mp ran
  cases equal
  have trimmed : FuzzRun.Stands build parent Out origin fixed { r with state } b :=
    ⟨prepared, same.trans stands.fixed, kept stands.ready trivial, stands.temps, stands.has,
      stands.few⟩
  unfold fuzzTrim
  rw [show Arena.trim build r.state = .ok state from called, ok_bind]
  by_cases full : fuzzMaxLive ≤ r.model.live.length
  · rw [if_pos full]
    exact trimmed.goes
  · rw [if_neg full]
    obtain ⟨byte, input⟩ := fuzzByte r.input
    dsimp only
    obtain ⟨ptr, later, served, prepared, same, told⟩ := trimmed.prepared.allocate conforms
      trimmed.ready (.xalloc byte.toNat 0) (Nat.zero_le _) alignValid_zero
    rw [Build.check_of build alignArg_zero.power, ok_bind,
      show adapterXalloc build byte.toNat 0 state = .ok (ptr, later) from served, ok_bind]
    exact trimmed.finishes conforms (Nat.lt_of_not_le full) input alignArg_zero prepared same told

theorem free (conforms : parent.Conforms Out)
    (stands : r.Stands build parent Out origin fixed b) :
    FuzzRun.Goes build parent Out origin fixed (fuzzFree build r) := by
  unfold fuzzFree
  cases ends : r.model.live.getLast? with
  | none => exact stands.goes
  | some entry =>
      dsimp only
      by_cases older : entry.level ≠ r.model.temps.length
      · rw [if_pos older]
        exact stands.goes
      · rw [if_neg older]
        have here : entry.level = b.outer.length := (not_not.mp older).trans stands.depth.symm
        have found : r.model.live[r.model.live.length - 1]? = some entry := by
          rw [← List.getLast?_eq_getElem?, ends]
        have member := List.mem_of_getElem? found
        have given := (stands.prepared.live (stands.has.live member)).2.1
        have legal : Op.Legal Out { state := r.state, books := b }
            (.xfree entry.ptr entry.size entry.align) :=
          .inr (stands.has.innermost member here)
        obtain ⟨_, s', ran, prepared, same, kept⟩ :=
          stands.prepared.call conforms legal trivial trivial
        obtain ⟨state, called, equal⟩ := bind_eq_ok.mp ran
        cases equal
        obtain ⟨live, removed, split, _⟩ := fuzzRemove_spec found
        rw [Build.check_of build (stands.has.plain entry member).power, ok_bind,
          show adapterXfree build entry.ptr entry.size r.state = .ok state from called, ok_bind,
          removed, ok_bind]
        obtain ⟨outer, contents⟩ := b.freed_same entry.ptr entry.size entry.align
          (state.arena.used = r.state.arena.used)
        refine ⟨_, _, rfl, prepared, same.trans stands.fixed, kept stands.ready trivial, ?_, ?_,
          stands.few⟩
        · exact (congrArg (List.map Prod.fst) outer).trans stands.temps
        · exact (stands.has.some_of split.subperm).drop outer (b.freed_live given _ _ _) contents

/-- Every operation returns. -/
theorem op (conforms : parent.Conforms Out)
    (stands : r.Stands build parent Out origin fixed b) (op : UInt8) :
    FuzzRun.Goes build parent Out origin fixed (fuzzOp build op r) := by
  unfold fuzzOp
  split
  · exact stands.alloc conforms
  · exact stands.alloc conforms
  · exact stands.allocZeroed conforms
  · exact stands.memdup conforms
  · exact stands.realloc conforms
  · exact stands.tempBegin conforms
  · obtain ⟨r', b', ran, stands', _⟩ := stands.tempEnd conforms
    exact ⟨r', b', ran, stands'⟩
  · exact stands.reset conforms
  · exact stands.trim conforms
  · exact stands.free conforms

theorem loop (conforms : parent.Conforms Out) {ops : Nat}
    (stands : r.Stands build parent Out origin fixed b) :
    FuzzRun.Goes build parent Out origin fixed (fuzzLoop build ops r) := by
  induction ops generalizing r b with
  | zero => exact stands.goes
  | succ ops ih =>
      unfold fuzzLoop
      by_cases more : r.input.pos < r.input.data.length
      · rw [if_pos more]
        obtain ⟨byte, input⟩ := fuzzByte r.input
        have read : FuzzRun.Stands build parent Out origin fixed { r with input } b :=
          { stands with }
        obtain ⟨r', b', ran, stands'⟩ := read.op conforms byte
        dsimp only
        rw [ran, ok_bind, stands'.verifyAll, ok_bind]
        exact ih stands'
      · rw [if_neg more]
        exact stands.goes

/-- The scopes that are open can be ended. -/
theorem close (conforms : parent.Conforms Out) {bound : Nat}
    (stands : r.Stands build parent Out origin fixed b) (steps : r.model.temps.length < bound) :
    FuzzRun.Goes build parent Out origin fixed (fuzzClose build bound r) := by
  induction bound generalizing r b with
  | zero => exact absurd steps (Nat.not_lt_zero _)
  | succ bound ih =>
      unfold fuzzClose
      by_cases none : r.model.temps = []
      · rw [if_pos none]
        exact stands.goes
      · rw [if_neg none]
        obtain ⟨r', b', ran, stands', fewer⟩ := stands.tempEnd conforms
        rw [ran, ok_bind, stands'.verifyAll, ok_bind]
        refine ih stands' ?_
        have some := List.length_pos_iff.mpr none
        rw [fewer, List.length_tail]
        omega

end FuzzRun.Stands

end AgencC.Arena
