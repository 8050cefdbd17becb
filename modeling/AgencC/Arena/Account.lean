import AgencC.Arena.Conduct

/-! A session over the image of an arena, and how a session over an arena follows it. -/

set_option autoImplicit false

namespace AgencC.Arena

open Library

variable {σ : Type}

structure Account (σ : Type) where
  image : Image σ
  books : Books

section
variable (build : Build)

def Account.step (t : Account σ) : Op σ → Except Fault (Nat × Account σ)
  | .allocate request => do
      let (ptr, image) ← request.image build t.image
      .ok (ptr,
        { image
          books := t.books.allocated ptr request.total request.align image.world.bytes })
  | .realloc ptr oldSize newSize align | .xrealloc ptr oldSize newSize align => do
      let (fresh, image) ← t.image.realloc build ptr oldSize newSize align
      .ok (fresh,
        { image
          books := t.books.reallocated ptr oldSize newSize align fresh image.world.bytes })
  | .xfree ptr size align =>
      let image := if ptr = 0 then t.image else t.image.xfree build ptr size
      .ok (0, { image, books := t.books.freed ptr size align (image.used = t.image.used) })
  | .tempBegin =>
      .ok (0, { image := t.image.tempBegin.2, books := t.books.begun t.image.tempBegin.1 })
  | .tempEnd =>
      match t.books.outer with
      | [] => .ok (0, t)
      | (temp, outer) :: rest => do
          let image ← t.image.tempEnd build temp
          .ok (0, { image, books := t.books.ended outer rest })
  | .reset => do
      let image ← t.image.reset build
      .ok (0, { image, books := t.books.closed })
  | .trim => do
      let image ← t.image.trim build
      .ok (0, { t with image })
  | .clearError => .ok (0, { t with image := t.image.clearError })
  | .deinit => do
      let image ← t.image.deinit build
      .ok (0, { image, books := t.books.closed })
  | .elsewhere world =>
      .ok (0, { image := { t.image with world }, books := { t.books with contents := world.bytes } })

end

def Session.Shows (s : Session σ) (t : Account σ) : Prop :=
  s.state.Shows t.image ∧ s.books = t.books

section
variable (build : Build) (parent : AllocT σ) (Out : World σ → List Region → Prop)

def Account.Kept (t : Account σ) : Prop := t.image.Kept build parent Out t.books

/-- The depth check of `arena_temp_end` passes where it is made. -/
def Account.Level (t : Account σ) : Op σ → Prop
  | .tempEnd => build.ndebug = true ∨ ∀ entry ∈ t.books.outer.head?, entry.1.depth = t.image.tempDepth
  | _ => True

end

/-- The calls that deal with the innermost scope only. -/
def Op.Advancing : Op σ → Prop
  | .allocate _ | .realloc _ _ _ _ | .xrealloc _ _ _ _ | .xfree _ _ _ | .clearError => True
  | _ => False

section
variable (build : Build) (parent : AllocT σ) (Out : World σ → List Region → Prop)

/-- What a legal call can do to an account. -/
inductive Account.Effect (t : Account σ) : Op σ → Account σ → Prop where
  | advanced {op : Op σ} {t' : Account σ} (advancing : op.Advancing)
      (advances : t.image.Advances build parent Out t.books t'.image t'.books) : Effect t op t'
  | trimmed {image : Image σ} (trimmed : t.image.Trimmed image) :
      Effect t .trim { image, books := t.books }
  | begun : Effect t .tempBegin
      { image := t.image.tempBegin.2, books := t.books.begun t.image.tempBegin.1 }
  | ended {temp : TempT} {outer : Ledger} {rest : Suspended} {image : Image σ}
      (inner : t.books.outer = (temp, outer) :: rest)
      (grown : Grown image.chain t.image.chain) (marks : temp.Marks image.chain)
      (same : t.image.fixed = true → image.chain.length = t.image.chain.length)
      (unwound : t.image.Unwound temp image.chain image)
      (lit : build.asan = true → t.image.Lit t.books → image.Lit (t.books.ended outer rest)) :
      Effect t .tempEnd { image, books := t.books.ended outer rest }
  | reset {image : Image σ} (rewound : t.image.Rewound image) :
      Effect t .reset { image, books := t.books.closed }
  | deinit {image : Image σ} (ran : t.image.deinit build = .ok image)
      (renewed : ∃ world, image =
        { Image.init parent world with generation := (t.image.generation + 1) % 2 ^ 32 }) :
      Effect t .deinit { image, books := t.books.closed }
  | elsewhere (world : World σ) : Effect t (.elsewhere world)
      { image := { t.image with world }, books := { t.books with contents := world.bytes } }

end

variable {build : Build} {parent : AllocT σ} {Out : World σ → List Region → Prop} {a : Image σ}
  {s : State σ}

theorem State.pieces_distinct (s : State σ) : s.pieces.Nodup := by
  refine List.Nodup.of_map Cell.addr ?_
  rw [State.pieces, List.map_map]
  exact s.blocks.nodupKeys

/-- The stored blocks are those on the two lists. -/
theorem State.Shows.pieces (shows : s.Shows a) : s.pieces.Perm a.pieces := by
  have held := shows.blocks
  have distinct : (a.cells.map Cell.addr).Nodup := by
    have all := shows.blocks.distinct
    rwa [List.append_nil] at all
  have right : a.pieces.Nodup := by
    refine List.Nodup.of_map Cell.addr ?_
    rw [Image.pieces, List.map_map]
    exact distinct
  refine (List.perm_ext_iff_of_nodup s.pieces_distinct right).mpr fun piece => ?_
  constructor
  · intro member
    obtain ⟨e, listed, rfl⟩ := List.mem_map.mp member
    have stored : e.1 ∈ s.blocks := AList.mem_keys.mpr (List.mem_map_of_mem listed)
    obtain ⟨c, chained, same⟩ := shows.blocks.only e.1 stored
    obtain ⟨_, link, found⟩ := shows.blocks.found chained
    have entry : s.blocks.lookup e.1 = some e.2 := AList.mem_lookup_iff.mpr listed
    rw [same, entry] at found
    injection found with found
    refine List.mem_map.mpr ⟨c, by simpa [Image.cells] using chained, ?_⟩
    rw [Cell.bare, same, found]
    rfl
  · intro member
    obtain ⟨c, listed, rfl⟩ := List.mem_map.mp member
    obtain ⟨_, link, found⟩ := shows.blocks.found (by simpa [Image.cells] using listed)
    exact List.mem_map.mpr ⟨⟨c.addr, c.header link⟩, AList.mem_lookup_iff.mp found, rfl⟩

theorem State.Shows.regions (shows : s.Shows a) : s.regions.Perm a.regions := by
  have same : a.regions = a.pieces.map Cell.region := by
    rw [Image.pieces, List.map_map]
    rfl
  rw [State.regions_eq, same]
  exact shows.pieces.map Cell.region

/-! Every legal call keeps the books. -/

section
variable {t : Account σ} {s : Session σ}

theorem Session.Elsewhere.image (shows : s.Shows t) {world : World σ}
    (conforms : parent.Conforms Out) (elsewhere : s.Elsewhere Out world) :
    (t.image.fixed = false → Out world t.image.regions) ∧
      ∀ r ∈ t.image.regions, ∀ p, r.Covers p → (∀ x ∈ t.books.live, ¬ x.Covers p) →
        world.poisoned p = t.image.world.poisoned p := by
  have same := shows.1.regions
  have fixed : s.state.arena.fixed = t.image.fixed := by rw [shows.1.arena]; rfl
  constructor
  · intro growing
    exact conforms.perm (elsewhere.out (fixed.trans growing)) same
  · intro r member p covers apart
    rw [← shows.1.world]
    refine elsewhere.poisoned r (same.mem_iff.mpr member) p covers ?_
    rw [shows.2]
    exact apart

/-- A legal call returns, keeps the books, and does one of a few things. -/
theorem Account.Kept.step (conforms : parent.Conforms Out) (kept : t.Kept build parent Out)
    (shows : s.Shows t) {op : Op σ} (legal : op.Legal Out s) :
    ∃ ptr t', t.step build op = .ok (ptr, t') ∧ t'.Kept build parent Out ∧
      t.Effect build parent Out op t' := by
  have kept : t.image.Kept build parent Out t.books := kept
  cases op with
  | allocate request =>
      obtain ⟨ptr, _, a', _, ran, _⟩ := request.run_refines conforms shows.1 kept.sane legal
      have advances := kept.request conforms legal ran
      exact ⟨ptr, _, bind_eq_ok.mpr ⟨_, ran, rfl⟩, advances.kept, .advanced trivial advances⟩
  | realloc ptr oldSize newSize align | xrealloc ptr oldSize newSize align =>
      obtain ⟨word, owned⟩ := legal
      rw [shows.2] at owned
      obtain ⟨fresh, _, a', _, ran, _⟩ := realloc_refines conforms shows.1 kept.sane
        newSize word (kept.resizable owned).1 (kept.resizable owned).2
      have advances := kept.realloc conforms word owned ran
      exact ⟨fresh, _, bind_eq_ok.mpr ⟨_, ran, rfl⟩, advances.kept, .advanced trivial advances⟩
  | xfree ptr size align =>
      rw [Op.Legal, shows.2] at legal
      have advances : t.image.Advances build parent Out t.books
          (if ptr = 0 then t.image else t.image.xfree build ptr size)
          (t.books.freed ptr size align
            ((if ptr = 0 then t.image else t.image.xfree build ptr size).used = t.image.used)) := by
        by_cases null : ptr = 0
        · rw [if_pos null, Books.freed, if_pos null]
          exact kept.unserved (.refl kept.sane.toOwned)
        · rw [if_neg null]
          exact kept.xfree conforms null (legal.resolve_left null)
      exact ⟨0, _, rfl, advances.kept, .advanced trivial advances⟩
  | tempBegin => exact ⟨0, _, rfl, kept.begun, .begun⟩
  | tempEnd =>
      rw [Op.Legal, shows.2] at legal
      cases inner : t.books.outer with
      | nil => exact absurd inner legal
      | cons entry rest =>
          obtain ⟨floor, a', ran, rfl, grown, marks, same, _, unwound, after, lit⟩ :=
            kept.ended conforms inner
          refine ⟨0, { image := a', books := t.books.ended entry.2 rest }, ?_, after,
            .ended inner grown marks same unwound lit⟩
          rw [Account.step, inner]
          exact bind_eq_ok.mpr ⟨_, ran, rfl⟩
  | reset =>
      obtain ⟨a', ran, rewound, after⟩ := kept.reset conforms
      exact ⟨0, _, bind_eq_ok.mpr ⟨_, ran, rfl⟩, after, .reset rewound⟩
  | trim =>
      obtain ⟨a', ran, trimmed, after⟩ := kept.trim conforms
      exact ⟨0, _, bind_eq_ok.mpr ⟨_, ran, rfl⟩, after, .trimmed trimmed⟩
  | clearError => exact ⟨0, _, rfl, kept.clearError.kept, .advanced trivial kept.clearError⟩
  | deinit =>
      obtain ⟨world, ran, sane⟩ := kept.sane.deinit conforms
      exact ⟨0, _, bind_eq_ok.mpr ⟨_, ran, rfl⟩, Image.Kept.closed sane rfl rfl t.books,
        .deinit ran ⟨world, rfl⟩⟩
  | elsewhere world =>
      obtain ⟨out, poisoned⟩ := legal.image shows conforms
      exact ⟨0, _, rfl, kept.elsewhere out poisoned, .elsewhere world⟩

theorem Session.Shows.level (shows : s.Shows t) : s.state.arena.tempDepth = t.image.tempDepth := by
  rw [shows.1.arena]
  rfl

theorem Session.Shows.used (shows : s.Shows t) : s.state.arena.used = t.image.used := by
  rw [shows.1.arena]
  rfl

/-- An arena does what its image does. -/
theorem Session.step_refines (conforms : parent.Conforms Out) (shows : s.Shows t)
    (kept : t.Kept build parent Out) {op : Op σ} (legal : op.Legal Out s)
    (level : t.Level build op) :
    ∃ ptr s' t', s.step build op = .ok (ptr, s') ∧ t.step build op = .ok (ptr, t') ∧
      s'.Shows t' := by
  have kept : t.image.Kept build parent Out t.books := kept
  obtain ⟨lists, books⟩ := shows
  cases op with
  | allocate request =>
      obtain ⟨ptr, s', a', ran, ran', shows'⟩ :=
        request.run_refines conforms lists kept.sane legal
      refine ⟨ptr, _, _, bind_eq_ok.mpr ⟨_, ran, rfl⟩, bind_eq_ok.mpr ⟨_, ran', rfl⟩, shows', ?_⟩
      rw [books, shows'.world]
  | realloc ptr oldSize newSize align | xrealloc ptr oldSize newSize align =>
      obtain ⟨word, owned⟩ := legal
      rw [books] at owned
      obtain ⟨fresh, s', a', ran, ran', shows'⟩ := realloc_refines conforms lists
        kept.sane newSize word (kept.resizable owned).1 (kept.resizable owned).2
      refine ⟨fresh, _, _, bind_eq_ok.mpr ⟨_, ran, rfl⟩, bind_eq_ok.mpr ⟨_, ran', rfl⟩, shows', ?_⟩
      rw [books, shows'.world]
  | xfree ptr size align =>
      rw [Op.Legal, books] at legal
      have held : ptr ≠ 0 → build.footprint size ≤ t.image.used := by
        intro given
        obtain ⟨floor, level⟩ := kept.lie.innermost
        exact level.held kept.sane.laid (legal.resolve_left given)
      obtain ⟨s', ran, shows'⟩ := adapterXfree_refines lists kept.sane held
      refine ⟨0, _, _, bind_eq_ok.mpr ⟨_, ran, rfl⟩, rfl, shows', ?_⟩
      have after : s'.arena.used =
          (if ptr = 0 then t.image else t.image.xfree build ptr size).used := by
        rw [shows'.arena]
        rfl
      have before : s.state.arena.used = t.image.used := by
        rw [lists.arena]
        rfl
      rw [books, after, before]
  | tempBegin =>
      obtain ⟨s', ran, shows'⟩ := tempBegin_refines lists
      refine ⟨0, _, _, bind_eq_ok.mpr ⟨_, ran, rfl⟩, rfl, shows', ?_⟩
      rw [books]
  | tempEnd =>
      rw [Op.Legal, books] at legal
      cases inner : t.books.outer with
      | nil => exact absurd inner legal
      | cons entry rest =>
          obtain ⟨floor, a', ran', mark, grown, marks, same, used, _, _, _⟩ :=
            kept.ended conforms inner
          have generation := kept.current entry (inner ▸ .head _)
          have depth : build.ndebug = true ∨ entry.1.depth = t.image.tempDepth := by
            refine level.imp id fun checked => checked entry ?_
            rw [inner]
            rfl
          obtain ⟨s', a'', ran, again, shows'⟩ :=
            tempEnd_refines conforms lists kept.sane grown marks same used generation depth
          cases ran'.symm.trans again
          refine ⟨0, { state := s', books := s.books.ended entry.2 rest },
            { image := a', books := t.books.ended entry.2 rest }, ?_, ?_, shows', ?_⟩
          · rw [Session.step, books, inner]
            exact bind_eq_ok.mpr ⟨_, ran, rfl⟩
          · rw [Account.step, inner]
            exact bind_eq_ok.mpr ⟨_, ran', rfl⟩
          · rw [books]
  | reset =>
      obtain ⟨s', a', ran, ran', shows'⟩ := reset_refines conforms lists kept.sane.toOwned
      refine ⟨0, _, _, bind_eq_ok.mpr ⟨_, ran, rfl⟩, bind_eq_ok.mpr ⟨_, ran', rfl⟩, shows', ?_⟩
      rw [books]
  | trim =>
      obtain ⟨s', a', ran, ran', shows'⟩ := trim_refines conforms lists kept.sane.toOwned
      exact ⟨0, _, _, bind_eq_ok.mpr ⟨_, ran, rfl⟩, bind_eq_ok.mpr ⟨_, ran', rfl⟩, shows', books⟩
  | clearError => exact ⟨0, _, _, rfl, rfl, lists.clearError, books⟩
  | deinit =>
      obtain ⟨s', a', ran, ran', shows'⟩ := deinit_refines conforms lists kept.sane.toOwned
      refine ⟨0, _, _, bind_eq_ok.mpr ⟨_, ran, rfl⟩, bind_eq_ok.mpr ⟨_, ran', rfl⟩, shows', ?_⟩
      rw [books]
  | elsewhere world => exact ⟨0, _, _, rfl, rfl, lists.write world, by rw [books]⟩

theorem Build.check_ok {condition : Prop} [decidable : Decidable condition] {text : String}
    (passed : build.check condition text = .ok ()) : build.ndebug = true ∨ condition := by
  unfold Build.check ensure at passed
  split at passed
  · case isTrue off => exact .inl off
  · split at passed
    · case isTrue holds => exact .inr holds
    · cases passed

/-- A step that was taken had its depth check pass. -/
theorem Session.level_of_step (shows : s.Shows t) {op : Op σ} {ptr : Nat} {s' : Session σ}
    (ran : s.step build op = .ok (ptr, s')) : t.Level build op := by
  cases op with
  | tempEnd =>
      cases inner : t.books.outer with
      | nil => exact .inr fun entry member => by rw [inner] at member; cases member
      | cons entry rest =>
          rw [Session.step, shows.2, inner] at ran
          obtain ⟨state, ran, _⟩ := bind_eq_ok.mp ran
          obtain ⟨_, _, ran⟩ := bind_eq_ok.mp ran
          obtain ⟨_, checked, _⟩ := bind_eq_ok.mp ran
          refine (Build.check_ok checked).imp id fun same other member => ?_
          rw [inner] at member
          cases member
          rw [same, shows.level]
  | _ => trivial

/-- Each step that is taken keeps the books. -/
theorem Session.step_follows (conforms : parent.Conforms Out) (shows : s.Shows t)
    (kept : t.Kept build parent Out) {op : Op σ} (legal : op.Legal Out s) {ptr : Nat}
    {s' : Session σ} (ran : s.step build op = .ok (ptr, s')) :
    ∃ t', t.step build op = .ok (ptr, t') ∧ s'.Shows t' ∧ t'.Kept build parent Out ∧
      t.Effect build parent Out op t' := by
  obtain ⟨ptr', s'', t', ran', followed, shows'⟩ :=
    Session.step_refines conforms shows kept legal (Session.level_of_step shows ran)
  cases ran.symm.trans ran'
  obtain ⟨_, t'', again, kept', effect⟩ := kept.step conforms shows legal
  cases followed.symm.trans again
  exact ⟨t', followed, shows', kept', effect⟩

end

end AgencC.Arena
