import AgencC.Arena.Accounting
import AgencC.Arena.Logging

/-! What an arena asks of its parent in a run, and that it gives everything back. -/

set_option autoImplicit false

namespace AgencC.Arena

open Library

variable {σ : Type} {build : Build} {parent : AllocT σ} {Out : World σ → List Region → Prop}

/-- Calls that others make of the parent are not on the record. -/
def Op.Unrecorded (s : Session (Recorded σ)) : Op (Recorded σ) → Prop
  | .elsewhere world => world.calls = s.state.world.calls
  | _ => True

/-- The calls on record are in order, and what they leave to be given back is what the arena
holds, each block once. -/
structure Session.Borrows (s : Session (Recorded σ)) : Prop where
  owes : Owes s.state.world.calls s.state.regions
  permitted : ∀ call ∈ s.state.world.calls, call.Permitted
  distinct : s.state.regions.Nodup
  paired : ∀ r : Region, r.addr ≠ 0 →
    s.state.world.calls.count (.xalloc r.size 0 r.addr) =
      s.state.world.calls.count (.xfree r.addr r.size 0) + s.state.regions.count r

theorem State.regions_distinct (s : State σ) : s.regions.Nodup := by
  refine List.Nodup.of_map Region.addr ?_
  rw [State.regions, List.map_map]
  exact s.blocks.nodupKeys

theorem Account.Kept.borrows {s : Session (Recorded σ)} {t : Account (Recorded σ)}
    (shows : s.Shows t) (kept : t.Kept build parent.logged (LogOut Out))
    (growing : t.image.fixed = false) : s.Borrows := by
  have kept : t.image.Kept build parent.logged (LogOut Out) t.books := kept
  have owes : Owes s.state.world.calls s.state.regions := by
    rw [shows.1.world]
    exact (kept.sane.out growing).2.perm shows.1.regions.symm
  exact ⟨owes, owes.permitted, s.state.regions_distinct, fun r => owes.count r⟩

/-- A growing arena stays one. -/
theorem Account.Effect.growing {t t' : Account σ} {op : Op σ}
    (effect : t.Effect build parent Out op t') (growing : t.image.fixed = false) :
    t'.image.fixed = false := by
  cases effect with
  | advanced advancing advances => exact advances.fixed.trans growing
  | trimmed trimmed => exact trimmed.fixed.trans growing
  | begun => exact growing
  | ended inner grown marks same unwound lit => exact unwound.fixed.trans growing
  | reset rewound => exact rewound.fixed.trans growing
  | deinit ran renewed =>
      obtain ⟨world, same⟩ := renewed
      exact congrArg Image.fixed same
  | elsewhere world => exact growing

theorem Session.run_growing (conforms : parent.Conforms Out) {s s' : Session σ}
    {t : Account σ} (shows : s.Shows t) (kept : t.Kept build parent Out)
    (growing : t.image.fixed = false) {May : Session σ → Op σ → Prop}
    (legal : ∀ {s op}, May s op → op.Legal Out s) {ops : List (Op σ)} {ptrs : List Nat}
    (allowed : s.Allows build May ops) (ran : s.run build ops = .ok (ptrs, s')) :
    ∃ t', s'.Shows t' ∧ t'.Kept build parent Out ∧ t'.image.fixed = false := by
  exact Session.run_account (fun t => t.image.fixed = false) conforms legal
    (fun _ _ growing _ effect => effect.growing growing) shows kept growing allowed ran

/-- `arena_deinit` returns, and nothing is held after it. -/
theorem Session.step_deinit (conforms : parent.Conforms Out) {s : Session σ} {t : Account σ}
    (shows : s.Shows t) (kept : t.Kept build parent Out) :
    ∃ s' t', s.step build .deinit = .ok (0, s') ∧ s'.Shows t' ∧ t'.Kept build parent Out ∧
      t'.image.fixed = false ∧ s'.state.regions = [] := by
  have legal : Op.Legal Out s .deinit := trivial
  have level : t.Level build .deinit := trivial
  obtain ⟨ptr, s', t', ran, ran', shows'⟩ := Session.step_refines conforms shows kept legal level
  obtain ⟨t'', followed, _, kept', effect⟩ := Session.step_follows conforms shows kept legal ran
  cases ran'.symm.trans followed
  obtain ⟨image, _, same⟩ := bind_eq_ok.mp followed
  cases same
  refine ⟨s', _, ran, shows', kept', ?_⟩
  cases effect with
  | advanced advancing advances => exact advancing.elim
  | deinit ran renewed =>
      obtain ⟨world, rfl⟩ := renewed
      exact ⟨rfl, shows'.1.regions.eq_nil⟩

/-! Fixed arenas. -/

/-- The same arena over another parent. -/
def State.under (parent : AllocT σ) (s : State σ) : State σ :=
  { s with arena := { s.arena with parent } }

theorem State.Shows.under {s : State σ} {a : Image σ} (shows : s.Shows a) (parent : AllocT σ) :
    (s.under parent).Shows { a with parent } where
  arena := by rw [State.under, shows.arena]; rfl
  world := shows.world
  blocks := shows.blocks

/-- A call on a fixed arena, short of a deinit, makes none on its parent. -/
theorem Account.Effect.calm {s : Session (Recorded σ)} {t t' : Account (Recorded σ)}
    {parent : AllocT (Recorded σ)} {Out : World (Recorded σ) → List Region → Prop}
    {op : Op (Recorded σ)} (shows : s.Shows t) (fixed : t.image.fixed = true)
    (staying : op ≠ .deinit) (unrecorded : op.Unrecorded s)
    (effect : t.Effect build parent Out op t') :
    t'.image.fixed = true ∧ t'.image.world.calls = t.image.world.calls := by
  cases effect with
  | advanced advancing advances =>
      exact ⟨advances.fixed.trans fixed, congrArg Prod.snd (advances.steady fixed).parent⟩
  | trimmed trimmed => exact ⟨trimmed.fixed.trans fixed, congrArg Prod.snd (trimmed.calm fixed)⟩
  | begun => exact ⟨fixed, rfl⟩
  | ended inner grown marks same unwound lit =>
      exact ⟨unwound.fixed.trans fixed, congrArg Prod.snd (unwound.calm fixed)⟩
  | reset rewound => exact ⟨rewound.fixed.trans fixed, congrArg Prod.snd (rewound.calm fixed)⟩
  | deinit ran renewed => exact absurd rfl staying
  | elsewhere world => exact ⟨fixed, shows.1.world ▸ unrecorded⟩

/-- A new arena in a buffer, over a recorded `alloc_null`. -/
theorem initFixed_under {buffer size : Nat} {world : World (Recorded σ)} {state : State (Recorded σ)}
    (fits : buffer + size ≤ sizeMax) (done : initFixed build buffer size world = .ok state)
    (contents : Nat → UInt8) (Out : World (Recorded σ) → List Region → Prop)
    (nothing : ∀ w, Out w []) :
    ∃ t, Session.Shows { state := state.under (allocNull σ).logged, books := .start contents } t ∧
      t.Kept build (allocNull σ).logged Out ∧ t.image.fixed = true ∧
      t.image.world.calls = world.calls := by
  obtain ⟨a, shows, unused, none, _, _, sane, fixed, parent, _⟩ := initFixed_shows fits done
  have sane : Image.Sane build (allocNull σ).logged Out { a with parent := (allocNull σ).logged } :=
    ⟨{ (sane Out nothing).toOwned with parent := rfl }, (sane Out nothing).counted,
      (sane Out nothing).peak⟩
  exact ⟨{ image := { a with parent := (allocNull σ).logged }, books := .start contents },
    ⟨shows.under _, rfl⟩, sane.started unused none contents, fixed, congrArg Prod.snd parent⟩

/-- Nothing is given out. -/
def NoneOut (_ : World σ) (rs : List Region) : Prop := rs = []

theorem allocNull_logged_conforms : (allocNull σ).logged.Conforms NoneOut :=
  AllocT.conforms_of_refuses fun size w => ⟨w.inner.record (.xalloc size 0 0 :: w.calls), rfl⟩

/-- A legal call on a fixed arena short of a deinit; what others ask is not recorded. -/
structure Op.Buffered (s : Session (Recorded σ)) (op : Op (Recorded σ)) : Prop where
  legal : op.Legal NoneOut s
  unrecorded : op.Unrecorded s
  staying : op ≠ .deinit

theorem Session.run_buffered {s s' : Session (Recorded σ)} {t : Account (Recorded σ)}
    (shows : s.Shows t) (kept : t.Kept build (allocNull σ).logged NoneOut)
    (fixed : t.image.fixed = true) {ops : List (Op (Recorded σ))} {ptrs : List Nat}
    (allowed : s.Allows build Op.Buffered ops) (ran : s.run build ops = .ok (ptrs, s')) :
    s'.state.world.calls = s.state.world.calls := by
  have later := Session.run_account
    (fun now => now.image.fixed = true ∧ now.image.world.calls = t.image.world.calls)
    allocNull_logged_conforms Op.Buffered.legal ?_ shows kept ⟨fixed, rfl⟩ allowed ran
  · obtain ⟨t', shows', _, _, same⟩ := later
    rw [shows'.1.world, shows.1.world]
    exact same
  · intro s now op next shown _ holds may effect
    obtain ⟨fixed, same⟩ := effect.calm shown holds.1 may.staying may.unrecorded
    exact ⟨fixed, same.trans holds.2⟩

/-- A legal call on a growing arena; what others ask of the parent is not recorded. -/
def Op.Borrowing (Out : World σ → List Region → Prop) (s : Session (Recorded σ))
    (op : Op (Recorded σ)) : Prop :=
  op.Legal (LogOut Out) s ∧ op.Unrecorded s

/-- In every legal run of a growing arena from its init on, the calls of its parent are in order and
pair up, the arena touches no storage but that of blocks it holds, and a deinit gives back every
block that is held. A fixed arena makes no call before its deinit. -/
theorem Session.run_borrows (build : Build) (conforms : parent.Conforms Out) :
    (∀ (s : Session (Recorded σ)) (ops : List (Op (Recorded σ))),
      s.Started build parent.logged (LogOut Out) → s.state.arena.fixed = false →
      s.state.world.calls = [] → s.Allows build (Op.Borrowing Out) ops →
      (∀ fault, s.run build ops = .error fault →
        fault = .assertion "temp.depth == a->temp_depth") ∧
      ∀ ptrs s', s.run build ops = .ok (ptrs, s') →
        s'.Borrows ∧ ∃ s'', s'.step build .deinit = .ok (0, s'') ∧ s''.state.regions = [] ∧
          s''.Borrows) ∧
    ∀ (buffer size : Nat) (world : World (Recorded σ)) (contents : Nat → UInt8)
      (state : State (Recorded σ)) (ops : List (Op (Recorded σ))) (ptrs : List Nat)
      (s' : Session (Recorded σ)),
      buffer + size ≤ sizeMax → initFixed build buffer size world = .ok state →
      Session.Allows build Op.Buffered
        { state := state.under (allocNull σ).logged, books := .start contents } ops →
      Session.run build { state := state.under (allocNull σ).logged, books := .start contents } ops =
        .ok (ptrs, s') → world.calls = [] → s'.state.world.calls = [] := by
  constructor
  · intro s ops started growing _ allowed
    obtain ⟨t, shows, kept⟩ := started.kept conforms.logged
    have fixed : t.image.fixed = false := by
      rw [shows.1.arena] at growing
      exact growing
    refine ⟨fun fault stopped =>
      Session.run_stops conforms.logged And.left shows kept allowed stopped, fun ptrs s' ran => ?_⟩
    obtain ⟨t', shows', kept', growing'⟩ :=
      Session.run_growing conforms.logged shows kept fixed And.left allowed ran
    obtain ⟨s'', t'', ended, shows'', kept'', growing'', empty⟩ :=
      Session.step_deinit conforms.logged shows' kept'
    exact ⟨kept'.borrows shows' growing', s'', ended, empty, kept''.borrows shows'' growing''⟩
  · intro buffer size world contents state ops ptrs s' fits done allowed ran new
    obtain ⟨t, shows, kept, fixed, calls⟩ := initFixed_under fits done contents NoneOut
      fun _ => rfl
    have calls : (state.under (allocNull σ).logged).world.calls = world.calls :=
      (congrArg World.calls shows.1.world).trans calls
    rw [Session.run_buffered shows kept fixed allowed ran]
    exact calls.trans new

/-- A new arena over a rising parent whose calls are recorded. -/
def Session.recorded : Session (Recorded Nat) where
  state := Arena.init (risingParent 0x100000).logged (risingWorld.record [])
  books := .start risingWorld.bytes

theorem Session.recorded_started (build : Build) :
    Session.recorded.Started build (risingParent 0x100000).logged (LogOut (RisingOut 0x100000)) :=
  .init _ _ ⟨risingWorld_out, [], rfl, .refl _⟩

theorem Session.run_borrows_oversize :
    ∃ ptrs s', Session.recorded.run .sanitized [.allocate (.alloc 100), .allocate (.alloc 9000)] =
        .ok (ptrs, s') ∧ s'.Borrows ∧
      ∃ s'', s'.step .sanitized .deinit = .ok (0, s'') ∧ s''.state.regions = [] ∧ s''.Borrows := by
  have conforms := risingParent_conforms 0x100000 (by decide)
  have ran : Session.recorded.run .sanitized [.allocate (.alloc 100), .allocate (.alloc 9000)] =
    .ok _ := rfl
  have allowed : Session.recorded.Allows .sanitized (Op.Borrowing (RisingOut 0x100000))
      [.allocate (.alloc 100), .allocate (.alloc 9000)] :=
    .cons rfl ⟨Nat.zero_le _, trivial⟩ (.cons rfl ⟨Nat.zero_le _, trivial⟩ trivial)
  exact ⟨_, _, ran, ((Session.run_borrows .sanitized conforms).1 _ _ (Session.recorded_started _) rfl
    rfl allowed).2 _ _ ran⟩

end AgencC.Arena
