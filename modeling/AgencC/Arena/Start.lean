import AgencC.Arena.Account

/-! The arenas that `arena_init`, `arena_init_sized` and `arena_init_fixed` set up. -/

set_option autoImplicit false

namespace AgencC.Arena

open Library

variable {σ : Type}

def Books.start (contents : Nat → UInt8) : Books := { scope := .empty, outer := [], contents }

/-- A session with a new arena: a growing one over a parent that has given it nothing yet, or one
in a buffer, whose parent never gives anything. -/
inductive Session.Started (build : Build) (parent : AllocT σ)
    (Out : World σ → List Region → Prop) : Session σ → Prop where
  | init (world : World σ) (contents : Nat → UInt8) (out : Out world []) :
      Started build parent Out { state := Arena.init parent world, books := .start contents }
  | sized (minBlock maxBlock : Nat) (world : World σ) (contents : Nat → UInt8)
      (out : Out world []) :
      Started build parent Out
        { state := (initSized parent minBlock maxBlock world).2, books := .start contents }
  | fixed (buffer size : Nat) (world : World σ) (contents : Nat → UInt8) {state : State σ}
      (null : parent = allocNull σ) (nothing : ∀ w, Out w []) (fits : buffer + size ≤ sizeMax)
      (done : initFixed build buffer size world = .ok state) :
      Started build parent Out { state, books := .start contents }

section
variable {build : Build} {parent : AllocT σ} {Out : World σ → List Region → Prop}

theorem Image.Sane.started {a : Image σ} (sane : a.Sane build parent Out)
    (unused : consumed a.chain = 0) (none : a.used = 0) (contents : Nat → UInt8) :
    a.Kept build parent Out (.start contents) :=
  Image.Kept.closed sane unused none { scope := .empty, outer := [], contents }

/-- The image of an arena in a buffer with no room for a header. -/
def Image.bare (size : Nat) (status : Status) (world : World σ) : Image σ :=
  { Image.init (allocNull σ) world with
    fixed := true, minBlock := 0, maxBlock := 0, nextBlock := 0, committed := size, status }

theorem Image.bare_sane (nothing : ∀ w : World σ, Out w []) (size : Nat) (status : Status)
    (world : World σ) : (Image.bare size status world).Sane build (allocNull σ) Out where
  apart := .nil
  inside _ member := nomatch member
  sized _ member := nomatch member
  fits _ member := nomatch member
  empty _ member := nomatch member
  parent := rfl
  policy growing := nomatch growing
  out growing := nomatch growing
  total growing := nomatch growing
  buffer _ := ⟨rfl, Nat.zero_le _, fun _ member => (nomatch member), nothing⟩
  dark _ _ member := nomatch member
  counted := Nat.le_refl _
  peak := Nat.le_refl _

theorem State.bare_shows (size : Nat) (status : Status) (world : World σ) :
    State.Shows
      { Arena.init (allocNull σ) world with
        arena :=
          { (Arena.init (allocNull σ) world).arena with
            fixed := true, minBlock := 0, maxBlock := 0, nextBlock := 0, committed := size, status } }
      (Image.bare size status world) :=
  ⟨rfl, rfl, (State.init_shows (allocNull σ) world).blocks⟩

/-- The block in a buffer. -/
def bufferCell (buffer size : Nat) : Cell where
  addr := buffer + padding buffer blockAlign
  cap := size - padding buffer blockAlign - blockHdr
  used := 0
  oversize := false

variable (build) in
/-- The image of an arena in a buffer. -/
def Image.buffered (buffer size : Nat) (world : World σ) : Image σ :=
  { Image.bare size .ok world with
    chain := [bufferCell buffer size]
    world := world.shade build (bufferCell buffer size).data (bufferCell buffer size).cap }

theorem Image.buffered_sane (nothing : ∀ w : World σ, Out w []) {buffer size : Nat}
    (given : buffer ≠ 0) (small : size ≤ ptrdiffMax) (fits : buffer + size ≤ sizeMax)
    (room : padding buffer blockAlign + blockHdr ≤ size) (world : World σ) :
    (Image.buffered build buffer size world).Sane build (allocNull σ) Out := by
  have whole : blockHdr + (bufferCell buffer size).cap = size - padding buffer blockAlign := by
    change blockHdr + (size - padding buffer blockAlign - blockHdr) = _
    omega
  refine
    { apart := List.pairwise_singleton _ _
      inside := List.forall_mem_singleton.mpr ⟨?_, ?_⟩
      sized := List.forall_mem_singleton.mpr (by omega)
      fits := List.forall_mem_singleton.mpr (Nat.zero_le _)
      empty := fun _ member => nomatch member
      parent := rfl
      policy := fun growing => nomatch growing
      out := fun growing => nomatch growing
      total := fun growing => nomatch growing
      buffer := fun _ => ⟨rfl, Nat.le_refl _, List.forall_mem_singleton.mpr ⟨rfl, ?_⟩, nothing⟩
      dark := fun asan => List.forall_mem_singleton.mpr fun p above below => ?_
      counted := Nat.le_refl _
      peak := Nat.le_refl _ }
  · change buffer + padding buffer blockAlign ≠ 0
    omega
  · change buffer + padding buffer blockAlign + (blockHdr + (bufferCell buffer size).cap) ≤ sizeMax
    omega
  · change blockHdr + (bufferCell buffer size).cap ≤ size
    omega
  · exact (World.shade_poisoned asan _ _ _ _).trans (if_pos ⟨above, below⟩)

variable (build) in
/-- The image of an arena in a buffer of a legal size. -/
def Image.inBuffer (buffer size : Nat) (world : World σ) : Image σ :=
  if padding buffer blockAlign + blockHdr ≤ size then .buffered build buffer size world
  else .bare size .ok world

/-- A buffer of a legal size is taken, wherever it starts. -/
theorem initFixed_returns (build : Build) {buffer size : Nat} (given : buffer ≠ 0) (some : size ≠ 0)
    (small : size ≤ ptrdiffMax) (fits : buffer + size ≤ sizeMax) (world : World σ) :
    ∃ state, initFixed build buffer size world = .ok state ∧
      state.Shows (.inBuffer build buffer size world) := by
  have pad : sizeNeg buffer &&& (blockAlign - 1) = padding buffer blockAlign :=
    sizeNeg_and (k := 3) (Nat.le_trans (Nat.le_add_right _ _) fits) (by decide)
  unfold initFixed Image.inBuffer
  rw [if_neg (not_or.mpr ⟨given, some⟩), if_neg (Nat.not_lt.mpr small), pad]
  by_cases room : padding buffer blockAlign + blockHdr ≤ size
  · have roomy : ¬ (size < padding buffer blockAlign ∨ size - padding buffer blockAlign < blockHdr) := by
      omega
    have nonzero : buffer + padding buffer blockAlign ≠ 0 := by omega
    rw [if_neg roomy, if_pos room]
    dsimp only
    rw [blockData_of build nonzero, ok_bind]
    have stored := (State.init_shows (allocNull σ) world).blocks.add (c := bufferCell buffer size)
      nonzero (fun d member => nomatch member) 0
    have held := stored.attach (AList.lookup_insert _)
    refine ⟨_, poison_of build (State.inData_of_lookup (AList.lookup_insert _) (Nat.le_refl _)
      (Nat.le_refl _)), rfl, rfl, held⟩
  · have cramped : size < padding buffer blockAlign ∨ size - padding buffer blockAlign < blockHdr := by
      omega
    rw [if_pos cramped, if_neg room]
    exact ⟨_, rfl, State.bare_shows size .ok world⟩

theorem Image.inBuffer_sane (nothing : ∀ w : World σ, Out w []) {buffer size : Nat}
    (given : buffer ≠ 0) (small : size ≤ ptrdiffMax) (fits : buffer + size ≤ sizeMax)
    (world : World σ) :
    (Image.inBuffer build buffer size world).Sane build (allocNull σ) Out := by
  unfold Image.inBuffer
  split
  · case isTrue room => exact Image.buffered_sane nothing given small fits room world
  · case isFalse cramped => exact Image.bare_sane nothing size .ok world

variable (build) in
theorem Image.inBuffer_new (buffer size : Nat) (world : World σ) :
    consumed (Image.inBuffer build buffer size world).chain = 0 ∧
      (Image.inBuffer build buffer size world).used = 0 ∧
      (Image.inBuffer build buffer size world).tempDepth = 0 ∧
      (Image.inBuffer build buffer size world).committed = size ∧
      (Image.inBuffer build buffer size world).status = .ok ∧
      (Image.inBuffer build buffer size world).fixed = true ∧
      (Image.inBuffer build buffer size world).world.parent = world.parent ∧
      (Image.inBuffer build buffer size world).generation = 0 := by
  unfold Image.inBuffer
  split
  · exact ⟨rfl, rfl, rfl, rfl, rfl, rfl, (World.shade_touched build _ _ world).parent, rfl⟩
  · exact ⟨rfl, rfl, rfl, rfl, rfl, rfl, rfl, rfl⟩

theorem initFixed_shows {buffer size : Nat} {world : World σ} {state : State σ}
    (fits : buffer + size ≤ sizeMax) (done : initFixed build buffer size world = .ok state) :
    ∃ a : Image σ, state.Shows a ∧ consumed a.chain = 0 ∧ a.used = 0 ∧ a.tempDepth = 0 ∧
      a.committed = (if buffer = 0 ∨ size = 0 ∨ ptrdiffMax < size then 0 else size) ∧
      (∀ Out : World σ → List Region → Prop, (∀ w, Out w []) → a.Sane build (allocNull σ) Out) ∧
      a.fixed = true ∧ a.world.parent = world.parent ∧ a.generation = 0 := by
  by_cases refused : buffer = 0 ∨ size = 0 ∨ ptrdiffMax < size
  · rw [if_pos refused]
    unfold initFixed at done
    by_cases absent : buffer = 0 ∨ size = 0
    · cases (if_pos absent).symm.trans done
      exact ⟨.bare 0 .errArg world, State.bare_shows 0 .errArg world, rfl, rfl, rfl, rfl,
        fun Out nothing => Image.bare_sane nothing 0 .errArg world, rfl, rfl, rfl⟩
    · have large : ptrdiffMax < size :=
        (refused.resolve_left fun null => absent (.inl null)).resolve_left
          fun none => absent (.inr none)
      cases (if_pos large).symm.trans ((if_neg absent).symm.trans done)
      exact ⟨.bare 0 .errOverflow world, State.bare_shows 0 .errOverflow world, rfl, rfl, rfl, rfl,
        fun Out nothing => Image.bare_sane nothing 0 .errOverflow world, rfl, rfl, rfl⟩
  · rw [if_neg refused]
    obtain ⟨given, accepted⟩ := not_or.mp refused
    obtain ⟨some, small⟩ := not_or.mp accepted
    have small := Nat.le_of_not_lt small
    obtain ⟨state', returned, shows⟩ := initFixed_returns build given some small fits world
    cases done.symm.trans returned
    obtain ⟨empty, unused, depth, committed, _, fixed, same⟩ :=
      Image.inBuffer_new build buffer size world
    exact ⟨_, shows, empty, unused, depth, committed,
      fun Out nothing => Image.inBuffer_sane nothing given small fits world, fixed, same⟩

/-- A new arena keeps its client's empty books. -/
theorem Session.Started.kept (conforms : parent.Conforms Out) {s : Session σ}
    (started : s.Started build parent Out) : ∃ t, s.Shows t ∧ t.Kept build parent Out := by
  cases started with
  | init world contents out =>
      exact ⟨{ image := .init parent world, books := .start contents },
        ⟨State.init_shows parent world, rfl⟩, (Image.init_sane out).started rfl rfl contents⟩
  | sized minBlock maxBlock world contents out =>
      have shows := State.init_shows parent world
      have sane : Image.Sane build parent Out (.init parent world) := Image.init_sane out
      unfold initSized
      by_cases wrong : minBlock < fixedOverhead ∨ maxBlock < minBlock ∨ ptrdiffMax < maxBlock
      · rw [if_pos wrong]
        refine ⟨{ image := Image.fail .errArg (.init parent world), books := .start contents },
          ⟨shows.fail .errArg, rfl⟩, Image.Sane.started ?_ rfl rfl contents⟩
        exact (Image.Unserved.fail (.refl sane.toOwned) .errArg).sane sane
      · rw [if_neg wrong]
        have policy : fixedOverhead ≤ minBlock ∧ minBlock ≤ maxBlock ∧ maxBlock ≤ ptrdiffMax := by
          omega
        refine ⟨
          { image :=
              { Image.init parent world with minBlock, maxBlock, nextBlock := minBlock }
            books := .start contents }, ⟨⟨rfl, rfl, shows.blocks⟩, rfl⟩,
          Image.Sane.started ?_ rfl rfl contents⟩
        have owned := sane.toOwned
        exact ⟨{ owned with policy := fun _ => policy }, Nat.le_refl _, Nat.le_refl _⟩
  | fixed buffer size world contents null nothing fits done =>
      subst null
      obtain ⟨a, shows, unused, none, _, _, sane, _⟩ := initFixed_shows fits done
      exact ⟨{ image := a, books := .start contents }, ⟨shows, rfl⟩,
        (sane Out nothing).started unused none contents⟩

/-- What holds of a new arena's account, and is kept by whatever a call allowed by `May` can do,
holds of an account of every session that an allowed run leaves. -/
theorem Session.run_account {May : Session σ → Op σ → Prop} (Holds : Account σ → Prop)
    (conforms : parent.Conforms Out) (legal : ∀ {s op}, May s op → op.Legal Out s)
    (step : ∀ {s t op t'}, s.Shows t → t.Kept build parent Out → Holds t → May s op →
      t.Effect build parent Out op t' → Holds t')
    {s : Session σ} {t : Account σ} (shows : s.Shows t) (kept : t.Kept build parent Out)
    (start : Holds t) {ops : List (Op σ)} {ptrs : List Nat} {s' : Session σ}
    (allowed : s.Allows build May ops) (ran : s.run build ops = .ok (ptrs, s')) :
    ∃ t', s'.Shows t' ∧ t'.Kept build parent Out ∧ Holds t' := by
  refine Session.run_induction
    (fun s => ∃ t, s.Shows t ∧ t.Kept build parent Out ∧ Holds t) ?_ ⟨t, shows, kept, start⟩
    allowed ran
  intro s op ptr s' holds may stepped
  obtain ⟨t, shows, kept, held⟩ := holds
  obtain ⟨t', _, shows', kept', effect⟩ := Session.step_follows conforms shows kept (legal may) stepped
  exact ⟨t', shows', kept', step shows kept held may effect⟩

end

/-- A debug build with poisoning and with its counters watched. -/
def Build.sanitized : Build where
  ndebug := false
  asan := true
  msan := false
  valgrind := false
  watched := true

/-- A new arena over a rising parent. -/
def Session.rising : Session Nat where
  state := Arena.init (risingParent 0x100000) risingWorld
  books := .start risingWorld.bytes

theorem Session.rising_started (build : Build) :
    Session.rising.Started build (risingParent 0x100000) (RisingOut 0x100000) :=
  .init risingWorld risingWorld.bytes risingWorld_out

/-- A scope in which an allocation is resized and moved to a block of its own. -/
def scopeCalls : List (Op Nat) :=
  [.allocate (.alloc 100), .tempBegin, .allocate (.xalloc 24 64), .realloc 4288 24 9000 64, .tempEnd]

theorem scopeCalls_allowed : Session.rising.Allows .sanitized
    (fun s op => op.Legal (RisingOut 0x100000) s) scopeCalls := by
  have word : 64 ≤ sizeMax := by decide
  refine .cons rfl (Nat.zero_le _) (.cons rfl trivial (.cons rfl word (.cons rfl ?_ ?_)))
  · exact ⟨word, .inr (.head _)⟩
  · exact .cons rfl (List.cons_ne_nil _ _) trivial

end AgencC.Arena
