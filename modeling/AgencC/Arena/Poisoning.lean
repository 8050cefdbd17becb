import AgencC.Arena.Integrity

/-! What is addressable in a build that poisons, after any legal run. -/

set_option autoImplicit false

namespace AgencC.Arena

open Library

variable {σ : Type} {build : Build} {parent : AllocT σ} {Out : World σ → List Region → Prop}

/-- A legal call, where nobody but the arena changes the poison of the blocks it holds. -/
def Op.Unpoisoned (Out : World σ → List Region → Prop) (s : Session σ) (op : Op σ) : Prop :=
  op.Legal Out s ∧ ∀ world, op = .elsewhere world → ∀ r ∈ s.state.regions, ∀ p, r.Covers p →
    world.poisoned p = s.state.world.poisoned p

/-- Of the data of the held blocks, what belongs to a live allocation or to one whose free was
ignored is addressable, and nothing else: not the redzones, and nothing from a cursor on. -/
structure Session.Shaded (s : Session σ) (chain free : List Cell) : Prop where
  lists : s.state.Lists chain free
  addressable : ∀ c ∈ chain ++ free, ∀ p, c.data ≤ p → p < c.data + c.cap →
    (s.state.world.poisoned p = false ↔ ∃ x ∈ s.books.lit, x.Covers p)
  aligned : ∀ x ∈ s.books.live, 8 ∣ x.addr
  guarded : ∀ x ∈ s.books.live, ∃ c ∈ chain, c.data ≤ x.addr ∧
    x.addr + x.size + 16 ≤ c.data + c.cap ∧
    ∀ p, x.addr + x.size ≤ p → p < x.addr + x.size + 16 → s.state.world.poisoned p = true
  beyond : ∀ c ∈ chain ++ free, ∀ p, c.cursor ≤ p → p < c.data + c.cap →
    s.state.world.poisoned p = true

namespace Image.Kept

variable {a : Image σ} {b : Books}

theorem addressable (kept : a.Kept build parent Out b) (asan : build.asan = true) (lit : a.Lit b)
    {c : Cell} (listed : c ∈ a.cells) {p : Nat} (above : c.data ≤ p) (inside : p < c.data + c.cap) :
    a.world.poisoned p = false ↔ ∃ x ∈ b.lit, x.Covers p := by
  constructor
  · intro light
    have under : p < c.cursor := by
      by_contra beyond
      have dark := kept.sane.dark asan c listed p (Nat.le_of_not_lt beyond) inside
      cases light.symm.trans dark
    cases List.mem_append.mp listed with
    | inl chained => exact kept.quiet asan p ⟨c, chained, above, under⟩ light
    | inr spare =>
        -- A block on the free list has its cursor at the start.
        have bare : c.cursor = c.data := by rw [Cell.cursor, (kept.sane.empty c spare).1]; rfl
        exact absurd under (Nat.not_lt.mpr (bare ▸ above))
  · rintro ⟨x, member, covers⟩
    exact lit x member p covers

theorem guarded (kept : a.Kept build parent Out b) (asan : build.asan = true) {x : Span}
    (member : x ∈ b.live) :
    ∃ c ∈ a.chain, c.data ≤ x.addr ∧ x.addr + x.size + 16 ≤ c.data + c.cap ∧
      ∀ p, x.addr + x.size ≤ p → p < x.addr + x.size + 16 → a.world.poisoned p = true := by
  obtain ⟨c, chained, above, below⟩ :=
    (kept.lie.placed x (Books.mem_spans_of_lit (Books.mem_lit_of_live member))).1
  have zone : build.footprint x.size = x.size + 16 := by
    rw [Build.footprint, Build.redzone, if_pos asan]
  rw [zone, ← Nat.add_assoc] at below
  have fits := kept.sane.fits c (List.mem_append_left _ chained)
  refine ⟨c, chained, above, Nat.le_trans below (Nat.add_le_add_left fits _), ?_⟩
  intro p start stop
  refine kept.redzone_dark asan member start ?_
  rw [zone, ← Nat.add_assoc]
  exact stop

end Image.Kept

theorem Account.Kept.shaded {s : Session σ} {t : Account σ} (shows : s.Shows t)
    (kept : t.Kept build parent Out) (asan : build.asan = true) (lit : t.image.Lit t.books) :
    s.Shaded t.image.chain t.image.free := by
  have kept : t.image.Kept build parent Out t.books := kept
  obtain ⟨lists, books⟩ := shows
  refine
    { lists := lists.lists
      addressable := fun c listed p above inside => ?_
      aligned := fun x member => (kept.lie.aligned x (books ▸ member)).2 asan
      guarded := fun x member => ?_
      beyond := fun c listed p above inside => ?_ }
  · rw [lists.world, books]
    exact kept.addressable asan lit listed above inside
  · rw [lists.world]
    exact kept.guarded asan (books ▸ member)
  · rw [lists.world]
    exact kept.sane.dark asan c listed p above inside

/-- Each call leaves what the client may touch addressable. -/
theorem Account.Effect.lit {s : Session σ} {t t' : Account σ} {op : Op σ} (shows : s.Shows t)
    (kept : t.Kept build parent Out) (asan : build.asan = true) (lit : t.image.Lit t.books)
    (may : op.Unpoisoned Out s) (effect : t.Effect build parent Out op t') :
    t'.image.Lit t'.books := by
  have kept : t.image.Kept build parent Out t.books := kept
  cases effect with
  | advanced advancing advances => exact advances.lit asan lit
  | trimmed trimmed =>
      intro x member p covers
      exact (trimmed.kept p (kept.lit_below member covers)).2.trans (lit x member p covers)
  | begun => exact lit
  | ended inner grown marks same unwound lit' => exact lit' asan lit
  | reset rewound => exact Books.closed_lit _
  | deinit ran renewed => exact Books.closed_lit _
  | elsewhere world =>
      intro x member p covers
      obtain ⟨c, chained, inside, _⟩ := kept.sane.covers_of_below (kept.lit_below member covers)
      have held : c.region ∈ s.state.regions :=
        shows.1.regions.mem_iff.mpr (List.mem_map_of_mem (List.mem_append_left _ chained))
      have same := may.2 world rfl c.region held p inside
      rw [shows.1.world] at same
      exact same.trans (lit x member p covers)

/-- A fixed arena leaves its buffer addressable. -/
theorem Image.Kept.deinit_light {a a' : Image σ} {b : Books} (kept : a.Kept build parent Out b)
    (asan : build.asan = true) (fixed : a.fixed = true) (ran : a.deinit build = .ok a') {c : Cell}
    (listed : c ∈ a.cells) {p : Nat} (above : c.data ≤ p) (inside : p < c.data + c.cap) :
    a'.world.poisoned p = false := by
  obtain ⟨bare, single, _⟩ := kept.sane.buffer fixed
  rw [Image.cells, bare, List.append_nil] at listed
  rw [Image.deinit, if_pos fixed] at ran
  cases ran
  cases chain : a.chain with
  | nil =>
      rw [chain] at listed
      cases listed
  | cons d ds =>
      rw [chain] at listed single
      have alone : ds = [] :=
        List.length_eq_zero_iff.mp (Nat.le_zero.mp (Nat.le_of_succ_le_succ single))
      subst alone
      cases List.mem_singleton.mp listed
      exact (World.light_poisoned asan _ _ _ _).trans (if_pos ⟨above, inside⟩)

/-- After any run in which only the arena poisons, what is addressable in its blocks is what its
client may touch; and a fixed arena that is given up leaves all of its data addressable. -/
theorem Session.run_shaded (conforms : parent.Conforms Out) (asan : build.asan = true)
    {s s' : Session σ} (started : s.Started build parent Out) {ops : List (Op σ)} {ptrs : List Nat}
    (allowed : s.Allows build (Op.Unpoisoned Out) ops) (ran : s.run build ops = .ok (ptrs, s')) :
    ∃ chain free, s'.Shaded chain free ∧
      (s'.state.arena.fixed = true → ∃ ptr s'', s'.step build .deinit = .ok (ptr, s'') ∧
        ∀ c ∈ chain ++ free, ∀ p, c.data ≤ p → p < c.data + c.cap →
          s''.state.world.poisoned p = false) := by
  obtain ⟨t₀, shows₀, kept₀⟩ := started.kept conforms
  have start : t₀.image.Lit t₀.books := by
    have none : s.books.lit = [] := by cases started <;> rfl
    intro x member
    rw [← shows₀.2, none] at member
    cases member
  obtain ⟨t, shows, kept, lit⟩ := Session.run_account (fun t => t.image.Lit t.books) conforms
    (fun may => And.left may)
    (fun shows kept lit may effect => effect.lit shows kept asan lit may) shows₀ kept₀ start
    allowed ran
  refine ⟨_, _, kept.shaded shows asan lit, fun fixed => ?_⟩
  have legal : Op.Legal Out s' .deinit := trivial
  have level : t.Level build (.deinit : Op σ) := trivial
  obtain ⟨ptr, s'', t'', stepped, followed, shows''⟩ :=
    Session.step_refines conforms shows kept legal level
  refine ⟨ptr, s'', stepped, fun c listed p above inside => ?_⟩
  rw [shows.1.arena] at fixed
  obtain ⟨image, given, same⟩ := bind_eq_ok.mp followed
  cases same
  rw [shows''.1.world]
  exact Image.Kept.deinit_light kept asan fixed given listed above inside

theorem Session.run_shaded_scope :
    ∃ ptrs s', Session.rising.run .sanitized scopeCalls = .ok (ptrs, s') ∧
      ∃ chain free, s'.Shaded chain free := by
  have conforms := risingParent_conforms 0x100000 (by decide)
  have ran : Session.rising.run .sanitized scopeCalls = .ok _ := rfl
  have allowed : Session.rising.Allows .sanitized (Op.Unpoisoned (RisingOut 0x100000)) scopeCalls := by
    refine scopeCalls_allowed.imp fun s op member legal => ⟨legal, fun world same => ?_⟩
    subst same
    simp [scopeCalls] at member
  obtain ⟨chain, free, shaded, _⟩ :=
    Session.run_shaded conforms rfl (Session.rising_started _) allowed ran
  exact ⟨_, _, ran, chain, free, shaded⟩

end AgencC.Arena
