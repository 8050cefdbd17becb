import AgencC.Arena.Start

/-! The counters of an arena and the sums they stand for, after any legal run. -/

set_option autoImplicit false

namespace AgencC.Arena

open Library

variable {σ : Type} {build : Build} {parent : AllocT σ} {Out : World σ → List Region → Prop}

/-- Every session that a legal run leaves has an account that keeps the books. -/
theorem Session.run_kept (conforms : parent.Conforms Out) {s s' : Session σ}
    (started : s.Started build parent Out) {ops : List (Op σ)} {ptrs : List Nat}
    (allowed : s.Allows build (fun s op => op.Legal Out s) ops)
    (ran : s.run build ops = .ok (ptrs, s')) :
    ∃ t, s'.Shows t ∧ t.Kept build parent Out := by
  obtain ⟨t, shows, kept⟩ := started.kept conforms
  obtain ⟨t', shows', kept', _⟩ := Session.run_account (fun _ => True) conforms id
    (fun _ _ _ _ _ => trivial) shows kept trivial allowed ran
  exact ⟨t', shows', kept'⟩

/-- A legal call returns, unless `arena_temp_end` stops at its depth check. -/
theorem Session.step_total (conforms : parent.Conforms Out) {s : Session σ} {t : Account σ}
    (shows : s.Shows t) (kept : t.Kept build parent Out) {op : Op σ} (legal : op.Legal Out s) :
    (∃ ptr s', s.step build op = .ok (ptr, s')) ∨
      op = .tempEnd ∧ s.step build op = .error (.assertion "temp.depth == a->temp_depth") := by
  by_cases level : t.Level build op
  · obtain ⟨ptr, s', _, ran, _⟩ := Session.step_refines conforms shows kept legal level
    exact .inl ⟨ptr, s', ran⟩
  · cases op with
    | tempEnd =>
        refine .inr ⟨rfl, ?_⟩
        have debug : ¬ build.ndebug = true := fun off => level (.inl off)
        cases inner : t.books.outer with
        | nil => exact absurd (.inr fun entry member => by rw [inner] at member; cases member) level
        | cons entry rest =>
            have wrong : ¬ entry.1.depth = s.state.arena.tempDepth := by
              intro same
              refine level (.inr fun other member => ?_)
              rw [inner] at member
              cases member
              rw [same, shows.level]
            have generation : entry.1.generation = s.state.arena.generation := by
              rw [shows.1.arena]
              exact Image.Kept.current kept entry (inner ▸ .head _)
            rw [Session.step, shows.2, inner]
            dsimp only
            rw [Arena.tempEnd, Build.check_of build generation, ok_bind, Build.check, if_neg debug,
              ensure, if_neg wrong]
            rfl
    | _ => exact absurd trivial level

/-- A legal run stops at the depth check of `arena_temp_end` or not at all. -/
theorem Session.run_stops {May : Session σ → Op σ → Prop} (conforms : parent.Conforms Out)
    (legal : ∀ {s op}, May s op → op.Legal Out s) {ops : List (Op σ)} {s : Session σ}
    {t : Account σ} (shows : s.Shows t) (kept : t.Kept build parent Out)
    (allowed : s.Allows build May ops) {fault : Fault} (stopped : s.run build ops = .error fault) :
    fault = .assertion "temp.depth == a->temp_depth" := by
  induction ops generalizing s t with
  | nil => cases stopped
  | cons op ops ih =>
      cases Session.step_total conforms shows kept (legal allowed.1) with
      | inr halted =>
          rw [Session.run, halted.2] at stopped
          cases stopped
          rfl
      | inl returned =>
          obtain ⟨ptr, s', ran⟩ := returned
          obtain ⟨t', _, shows', kept', _⟩ :=
            Session.step_follows conforms shows kept (legal allowed.1) ran
          rw [Session.run, ran, ok_bind] at stopped
          dsimp only at stopped
          cases later : s'.run build ops with
          | ok rest =>
              rw [later] at stopped
              cases stopped
          | error other =>
              rw [later] at stopped
              cases stopped
              exact ih shows' kept' (allowed.2 ptr s' ran) later

/-! The lists. -/

/-- The two lists of an arena, as its pointers and the stored links have them: each ends in
NULL, and every block the arena holds is on one of them. -/
structure State.Lists (s : State σ) (chain free : List Cell) : Prop where
  current : s.arena.current = Cell.layout.first chain
  freeBlocks : s.arena.freeBlocks = Cell.layout.first free
  linked : Cell.layout.Linked s.blocks.lookup chain
  linkedFree : Cell.layout.Linked s.blocks.lookup free
  all : ∀ addr ∈ s.blocks, addr ∈ (chain ++ free).map Cell.addr

instance State.listsDecidable (s : State σ) (chain free : List Cell) :
    Decidable (s.Lists chain free) :=
  decidable_of_iff
    (s.arena.current = Cell.layout.first chain ∧ s.arena.freeBlocks = Cell.layout.first free ∧
      Cell.layout.Linked s.blocks.lookup chain ∧ Cell.layout.Linked s.blocks.lookup free ∧
      ∀ addr ∈ s.blocks, addr ∈ (chain ++ free).map Cell.addr)
    ⟨fun ⟨current, freeBlocks, linked, linkedFree, all⟩ =>
      ⟨current, freeBlocks, linked, linkedFree, all⟩,
    fun lists =>
      ⟨lists.current, lists.freeBlocks, lists.linked, lists.linkedFree, lists.all⟩⟩

theorem State.Shows.lists {s : State σ} {a : Image σ} (shows : s.Shows a) :
    s.Lists a.chain a.free where
  current := shows.current
  freeBlocks := by rw [shows.arena]
  linked := shows.blocks.linked
  linkedFree := shows.blocks.linkedFree
  all addr stored := by
    obtain ⟨c, member, same⟩ := shows.blocks.only addr stored
    rw [List.append_nil] at member
    exact List.mem_map.mpr ⟨c, member, same⟩

/-- The pointers and the stored links determine the lists. -/
theorem State.Lists.unique {s : State σ} {chain free chain' free' : List Cell}
    (lists : s.Lists chain free) (lists' : s.Lists chain' free') : chain = chain' ∧ free = free' := by
  have determines : ∀ {c d : Cell} {link link' : Nat}, Cell.layout.addr c = Cell.layout.addr d →
      Cell.layout.node link c = Cell.layout.node link' d → c = d ∧ link = link' := by
    intro c d link link' addr node
    cases c
    cases d
    cases addr
    cases node
    exact ⟨rfl, rfl⟩
  exact ⟨lists.linked.unique determines lists'.linked (lists.current.symm.trans lists'.current),
    lists.linkedFree.unique determines lists'.linkedFree
      (lists.freeBlocks.symm.trans lists'.freeBlocks)⟩

/-- A state is that of one image only. -/
theorem State.Shows.unique {s : State σ} {a a' : Image σ} (shows : s.Shows a) (shows' : s.Shows a') :
    a = a' := by
  obtain ⟨chain, free⟩ := shows.lists.unique shows'.lists
  have arena := shows.arena.symm.trans shows'.arena
  have world := shows.world.symm.trans shows'.world
  cases a
  cases a'
  cases chain
  cases free
  cases world
  cases arena
  rfl

/-- What the counters of an arena say, of its two lists and of its client's books. -/
structure Session.Accounted (s : Session σ) (chain free : List Cell) : Prop where
  lists : s.state.Lists chain free
  distinct : ((chain ++ free).map Cell.addr).Nodup
  fits : ∀ c ∈ chain ++ free, c.used ≤ c.cap
  empty : ∀ c ∈ free, c.oversize = false ∧ c.used = 0
  committed : s.state.arena.fixed = false →
    s.state.arena.committed = ((chain ++ free).map fun c => blockHdr + c.cap).sum
  counted : s.state.arena.used + s.books.uncounted = consumed chain
  live : (s.books.live.map Span.size).sum ≤ s.state.arena.used
  within : s.state.arena.used ≤ s.state.arena.committed
  peak : s.state.arena.used ≤ s.state.arena.highWater

theorem sum_live_le (ledgers : List Ledger) :
    ((ledgers.flatMap Ledger.live).map Span.size).sum ≤
      ((ledgers.flatMap Ledger.lit).map Span.size).sum := by
  induction ledgers with
  | nil => exact Nat.le_refl _
  | cons l ls ih =>
      have lit : (l.lit.map Span.size).sum =
          (l.live.map Span.size).sum + (l.ignored.map Span.size).sum := by
        rw [Ledger.lit, List.map_append, List.sum_append]
      simp only [List.flatMap_cons, List.map_append, List.sum_append]
      omega

theorem Image.Sane.used_le_committed {a : Image σ} (sane : a.Sane build parent Out) :
    a.used ≤ a.committed := by
  refine Nat.le_trans sane.counted ?_
  cases fixed : a.fixed with
  | false =>
      rw [sane.total fixed]
      exact sane.consumed_le
  | true =>
      obtain ⟨_, single, inside, _⟩ := sane.buffer fixed
      cases chain : a.chain with
      | nil => exact Nat.zero_le _
      | cons c cs =>
          rw [chain] at single inside
          have alone : cs = [] :=
            List.length_eq_zero_iff.mp (Nat.le_zero.mp (Nat.le_of_succ_le_succ single))
          subst alone
          have fits := sane.fits c (State.Shows.mem_chain chain)
          have whole := (inside c (.head _)).2
          change c.used + 0 ≤ a.committed
          omega

theorem Account.Kept.accounted {s : Session σ} {t : Account σ} (shows : s.Shows t)
    (kept : t.Kept build parent Out) : s.Accounted t.image.chain t.image.free := by
  have kept : t.image.Kept build parent Out t.books := kept
  have arena := shows.1.arena
  have used := shows.used
  have committed : s.state.arena.committed = t.image.committed := by rw [arena]; rfl
  have highWater : s.state.arena.highWater = t.image.highWater := by rw [arena]; rfl
  have fixed : s.state.arena.fixed = t.image.fixed := by rw [arena]; rfl
  refine
    { lists := shows.1.lists
      distinct := kept.sane.distinct
      fits := kept.sane.fits
      empty := fun c member => (kept.sane.empty c member).symm
      committed := fun growing => ?_
      counted := ?_
      live := ?_
      within := by rw [used, committed]; exact kept.sane.used_le_committed
      peak := by rw [used, highWater]; exact kept.sane.peak }
  · rw [committed, kept.sane.total (fixed.symm.trans growing), Image.regions, List.map_map]
    rfl
  · rw [used, shows.2]
    exact kept.lie.counted
  · rw [used, shows.2]
    refine Nat.le_trans (sum_live_le t.books.ledgers) ?_
    exact Nat.le_trans (sum_sizes_le_spread _) (kept.lie.room kept.sane.laid)

/-! The size of a fixed arena's buffer. -/

theorem Account.Effect.committed {t t' : Account σ} {op : Op σ}
    (effect : t.Effect build parent Out op t') (fixed : t'.image.fixed = true) :
    t.image.fixed = true ∧ t'.image.committed = t.image.committed := by
  cases effect with
  | advanced advancing advances =>
      have before : t.image.fixed = true := advances.fixed.symm.trans fixed
      exact ⟨before, (advances.steady before).committed⟩
  | trimmed trimmed =>
      have before : t.image.fixed = true := trimmed.fixed.symm.trans fixed
      exact ⟨before, trimmed.committed before⟩
  | begun => exact ⟨fixed, rfl⟩
  | ended inner grown marks same unwound lit =>
      have before : t.image.fixed = true := unwound.fixed.symm.trans fixed
      exact ⟨before, unwound.committed before⟩
  | reset rewound =>
      have before : t.image.fixed = true := rewound.fixed.symm.trans fixed
      exact ⟨before, rewound.committed before⟩
  | deinit ran renewed =>
      obtain ⟨world, same⟩ := renewed
      subst same
      cases fixed
  | elsewhere world => exact ⟨fixed, rfl⟩

/-- An arena that is still fixed has committed what it had at first. -/
theorem Session.run_committed (conforms : parent.Conforms Out) {s s' : Session σ}
    (started : s.Started build parent Out) {ops : List (Op σ)} {ptrs : List Nat}
    (allowed : s.Allows build (fun s op => op.Legal Out s) ops)
    (ran : s.run build ops = .ok (ptrs, s')) (fixed : s'.state.arena.fixed = true) :
    s'.state.arena.committed = s.state.arena.committed := by
  obtain ⟨t, shows, kept⟩ := started.kept conforms
  have before : s.state.arena.committed = t.image.committed := by rw [shows.1.arena]; rfl
  have later := Session.run_account
    (fun t => t.image.fixed = true → t.image.committed = s.state.arena.committed) conforms id ?_
    shows kept (fun _ => before.symm) allowed ran
  · obtain ⟨t', shows', _, owed⟩ := later
    have after := shows'.1.arena
    rw [after] at fixed ⊢
    exact owed fixed
  · intro _ t op t' _ _ owed _ effect fixed
    obtain ⟨fixed, same⟩ := effect.committed fixed
    exact same.trans (owed fixed)

/-- After any legal run from a new arena, its lists end, share no block and have none twice, and
its counters are the sums they stand for. No legal call makes a counter wrap. -/
theorem Session.run_accounted (conforms : parent.Conforms Out) {s s' : Session σ}
    (started : s.Started build parent Out) {ops : List (Op σ)} {ptrs : List Nat}
    (allowed : s.Allows build (fun s op => op.Legal Out s) ops)
    (ran : s.run build ops = .ok (ptrs, s')) :
    (∃ chain free, s'.Accounted chain free) ∧
      (∀ buffer size world, buffer + size ≤ sizeMax →
        initFixed build buffer size world = .ok s.state → s'.state.arena.fixed = true →
        s'.state.arena.committed =
          if buffer = 0 ∨ size = 0 ∨ ptrdiffMax < size then 0 else size) ∧
      ∀ op : Op σ, op.Legal Out s' → s'.step build op ≠ .error .wrapped := by
  obtain ⟨t, shows, kept⟩ := Session.run_kept conforms started allowed ran
  refine ⟨⟨_, _, kept.accounted shows⟩, ?_, ?_⟩
  · intro buffer size world fits done fixed
    obtain ⟨a, shown, _, _, _, committed, _⟩ := initFixed_shows fits done
    rw [Session.run_committed conforms started allowed ran fixed, ← committed, shown.arena]
    rfl
  · intro op legal wrapped
    cases Session.step_total conforms shows kept legal with
    | inl returned =>
        obtain ⟨ptr, s'', stepped⟩ := returned
        cases wrapped.symm.trans stepped
    | inr stopped => cases wrapped.symm.trans stopped.2

theorem Session.run_accounted_scope :
    ∃ ptrs s', Session.rising.run .sanitized scopeCalls = .ok (ptrs, s') ∧
      ∃ chain free, s'.Accounted chain free := by
  have conforms := risingParent_conforms 0x100000 (by decide)
  have ran : Session.rising.run .sanitized scopeCalls = .ok _ := rfl
  exact ⟨_, _, ran,
    (Session.run_accounted conforms (Session.rising_started _) scopeCalls_allowed ran).1⟩

end AgencC.Arena
