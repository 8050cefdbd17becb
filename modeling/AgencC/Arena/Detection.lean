import AgencC.Arena.Misuse

/-! What a debug build tells of scopes that are ended by a wrong snapshot: which assertion of
`arena_temp_end` fails, after any run of legal calls since the scope was begun. -/

set_option autoImplicit false

namespace AgencC.Arena

open Library

variable {σ : Type} {build : Build}

/-! Only a reset and a deinit make snapshots stale. -/

section
variable {a a' : Image σ}

@[simp] theorem Image.fail_generation (status : Status) (a : Image σ) :
    (a.fail status).generation = a.generation := by
  unfold Image.fail
  split <;> rfl

theorem Image.obtain_generation {need : Nat} {found : Option Cell}
    (ran : a.obtain build need = .ok (found, a')) : a'.generation = a.generation := by
  obtain ⟨⟨block, world⟩, _, ran⟩ := bind_eq_ok.mp ran
  dsimp only at ran
  split at ran <;> cases ran
  · exact Image.fail_generation _ _
  · rfl

theorem Image.grow_generation {size align ptr : Nat}
    (ran : a.grow build size align = .ok (ptr, a')) : a'.generation = a.generation := by
  unfold Image.grow at ran
  split at ran
  · cases ran
    exact Image.fail_generation _ _
  · split at ran
    · cases ran
      exact Image.fail_generation _ _
    · split at ran
      · cases ran
        rfl
      · obtain ⟨⟨found, b⟩, obtained, ran⟩ := bind_eq_ok.mp ran
        have same := Image.obtain_generation obtained
        cases found <;> cases ran <;> exact same

theorem Image.allocImpl_generation {count size align ptr : Nat}
    (ran : a.allocImpl build count size align = .ok (ptr, a')) : a'.generation = a.generation := by
  unfold Image.allocImpl Image.allocCore at ran
  split at ran
  · cases ran
    rfl
  · split at ran
    · cases ran
      exact Image.fail_generation _ _
    · split at ran
      · cases ran
        rfl
      · split at ran
        · cases ran
          exact Image.fail_generation _ _
        · split at ran
          · exact Image.grow_generation ran
          · split at ran
            · exact Image.grow_generation ran
            · cases ran
              rfl

theorem Request.image_generation {request : Request} {ptr : Nat}
    (ran : request.image build a = .ok (ptr, a')) : a'.generation = a.generation := by
  have zeroed {count size align : Nat}
      (ran : a.allocNZeroed build count size align = .ok (ptr, a')) :
      a'.generation = a.generation := by
    obtain ⟨⟨fresh, b⟩, served, ran⟩ := bind_eq_ok.mp ran
    have same := Image.allocImpl_generation served
    dsimp only at ran
    split at ran <;> cases ran <;> exact same
  cases request with
  | alloc | allocN | xalloc => exact Image.allocImpl_generation ran
  | allocZeroed | allocNZeroed => exact zeroed ran
  | memdup src size =>
      change a.memdup build src size = _ at ran
      unfold Image.memdup at ran
      split at ran
      · cases ran
        rfl
      · split at ran
        · cases ran
          exact Image.fail_generation _ _
        · obtain ⟨⟨fresh, b⟩, served, ran⟩ := bind_eq_ok.mp ran
          have same := Image.allocImpl_generation served
          dsimp only at ran
          split at ran <;> cases ran <;> exact same

theorem Image.resizeLast_generation {ptr oldSize newSize : Nat}
    (resized : a.resizeLast build ptr oldSize newSize = some a') :
    a'.generation = a.generation := by
  unfold Image.resizeLast at resized
  cases last : a.lastAt build ptr oldSize with
  | none =>
      rw [last] at resized
      cases resized
  | some found =>
      rw [last] at resized
      dsimp only at resized
      split at resized
      · cases resized
        rfl
      · split at resized <;> cases resized
        rfl

theorem Image.realloc_generation {ptr oldSize newSize align fresh : Nat}
    (ran : a.realloc build ptr oldSize newSize align = .ok (fresh, a')) :
    a'.generation = a.generation := by
  unfold Image.realloc at ran
  split at ran
  · cases ran
    rfl
  · split at ran
    · cases ran
      exact Image.fail_generation _ _
    · split at ran
      · cases ran
        exact Image.fail_generation _ _
      · split at ran
        · exact Image.allocImpl_generation ran
        · split at ran
          · cases ran
            exact Image.fail_generation _ _
          · split at ran
            · case h_1 resized =>
                cases ran
                exact Image.resizeLast_generation resized
            · obtain ⟨⟨moved, b⟩, served, ran⟩ := bind_eq_ok.mp ran
              have same := Image.allocImpl_generation served
              dsimp only at ran
              split at ran <;> cases ran <;> exact same

theorem Image.xfree_generation (ptr size : Nat) (a : Image σ) :
    (a.xfree build ptr size).generation = a.generation := by
  unfold Image.xfree
  split <;> rfl

theorem Image.xfree_tempDepth (ptr size : Nat) (a : Image σ) :
    (a.xfree build ptr size).tempDepth = a.tempDepth := by
  unfold Image.xfree
  split <;> rfl

end

/-- How old the snapshots of a scope are made by a call. -/
def Op.renewed (op : Op σ) (generation : Nat) : Nat :=
  if op.renews then (generation + 1) % 2 ^ 32 else generation

section
variable {parent : AllocT σ} {Out : World σ → List Region → Prop}

theorem Account.Effect.generation {t t' : Account σ} {op : Op σ} {ptr : Nat}
    (effect : t.Effect build parent Out op t') (ran : t.step build op = .ok (ptr, t')) :
    t'.image.generation = op.renewed t.image.generation := by
  cases effect with
  | advanced advancing advances =>
      cases op with
      | tempBegin | tempEnd | reset | trim | deinit | elsewhere => exact advancing.elim
      | allocate request =>
          obtain ⟨_, served, same⟩ := bind_eq_ok.mp ran
          cases same
          exact Request.image_generation served
      | realloc ptr oldSize newSize align | xrealloc ptr oldSize newSize align =>
          obtain ⟨_, moved, same⟩ := bind_eq_ok.mp ran
          cases same
          exact Image.realloc_generation moved
      | xfree ptr size align =>
          cases ran
          dsimp only
          split
          · rfl
          · exact Image.xfree_generation ptr size t.image
      | clearError =>
          cases ran
          rfl
  | trimmed trimmed => exact trimmed.generation
  | begun => rfl
  | ended inner grown marks same unwound lit => exact unwound.generation
  | reset rewound => exact rewound.generation
  | deinit ran renewed =>
      obtain ⟨world, same⟩ := renewed
      rw [same]
      rfl
  | elsewhere world => rfl

/-- How the generation of an arena has aged. -/
structure Ages (renewals before after : Nat) : Prop where
  counts : after % 2 ^ 32 = (before + renewals) % 2 ^ 32
  bounded : before < 2 ^ 32 → after < 2 ^ 32

theorem Ages.first (op : Op σ) (generation : Nat) {ops : List (Op σ)} {after : Nat}
    (later : Ages (ops.countP Op.renews) (op.renewed generation) after) :
    Ages ((op :: ops).countP Op.renews) generation after := by
  have counts := later.counts
  have bounded := later.bounded
  unfold Op.renewed at later counts bounded
  rw [List.countP_cons]
  cases renews : op.renews with
  | false =>
      rw [if_neg (Bool.not_eq_true _ ▸ renews)] at later
      exact later
  | true =>
      rw [if_pos renews] at counts bounded
      constructor
      · rw [counts, if_pos rfl]
        omega
      · exact fun _ => bounded (Nat.mod_lt _ (Nat.two_pow_pos 32))

/-- The same generation as before, where renewals have brought it round to that. -/
theorem Ages.same_iff {renewals before after : Nat} (ages : Ages renewals before after)
    (bound : before < 2 ^ 32) : before = after ↔ renewals % 2 ^ 32 = 0 := by
  have counts := ages.counts
  have bounded := ages.bounded bound
  omega

/-- A new arena is of generation 0. -/
theorem Session.Started.generation {s : Session σ} (started : s.Started build parent Out) :
    s.state.arena.generation = 0 := by
  cases started with
  | init => rfl
  | sized minBlock maxBlock world contents out =>
      unfold initSized
      split <;> rfl
  | fixed buffer size world contents null nothing fits done =>
      obtain ⟨a, shown, _, _, _, _, _, _, _, new⟩ := initFixed_shows fits done
      rw [shown.arena]
      exact new

/-- A legal run that returns keeps the books and the depths, and ages the generation. -/
theorem Session.run_ages (conforms : parent.Conforms Out) {s s' : Session σ} {t : Account σ}
    {ops : List (Op σ)} {ptrs : List Nat} (shows : s.Shows t) (kept : t.Kept build parent Out)
    (deep : t.Deep) (allowed : s.Allows build (fun s op => op.Legal Out s ∧ op.Shallow s) ops)
    (ran : s.run build ops = .ok (ptrs, s')) :
    ∃ t', s'.Shows t' ∧ t'.Kept build parent Out ∧ t'.Deep ∧
      Ages (ops.countP Op.renews) t.image.generation t'.image.generation := by
  induction ops generalizing s t ptrs with
  | nil =>
      cases ran
      exact ⟨t, shows, kept, deep, rfl, id⟩
  | cons op ops ih =>
      obtain ⟨⟨ptr, middle⟩, first, rest⟩ := bind_eq_ok.mp ran
      obtain ⟨⟨later, last⟩, looped, same⟩ := bind_eq_ok.mp rest
      cases same
      obtain ⟨t₁, stepped, shows₁, kept₁, effect⟩ :=
        Session.step_follows conforms shows kept allowed.1.1 first
      obtain ⟨t', shows', kept', deep', ages⟩ :=
        ih shows₁ kept₁ (effect.deep shows deep allowed.1.2) (allowed.2 ptr middle first) looped
      rw [effect.generation stepped] at ages
      exact ⟨t', shows', kept', deep', ages.first op t.image.generation⟩

theorem Session.Shows.generation {s : Session σ} {t : Account σ} (shows : s.Shows t) :
    s.state.arena.generation = t.image.generation := by
  rw [shows.1.arena]
  rfl

theorem Build.check_fails (debug : build.ndebug = false) {condition : Prop} [Decidable condition]
    (fails : ¬ condition) (text : String) :
    build.check condition text = .error (.assertion text) := by
  rw [Build.check, if_neg (Bool.not_eq_true _ ▸ debug), ensure, if_neg fails]

/-- What `arena_temp_end` tells of a snapshot that is of another generation. -/
theorem tempEnd_stale (debug : build.ndebug = false) {temp : TempT} {state : State σ}
    (stale : temp.generation ≠ state.arena.generation) :
    tempEnd build temp state = .error (.assertion "temp.generation == a->generation") := by
  rw [tempEnd, Build.check_fails debug stale]
  rfl

/-- And of one of another depth. -/
theorem tempEnd_crossed (debug : build.ndebug = false) {temp : TempT} {state : State σ}
    (current : temp.generation = state.arena.generation)
    (crossed : temp.depth ≠ state.arena.tempDepth) :
    tempEnd build temp state = .error (.assertion "temp.depth == a->temp_depth") := by
  rw [tempEnd, Build.check_of build current, ok_bind, Build.check_fails debug crossed]
  rfl

/-- Each scope is deeper than those it is open in. -/
theorem Numbered.shallower {outer : Suspended} (numbered : Numbered outer) {entry : TempT × Ledger}
    (member : entry ∈ outer) : entry.1.depth ≤ outer.length := by
  induction outer with
  | nil => cases member
  | cons top rest ih =>
      cases member with
      | head => exact Nat.le_of_eq numbered.1
      | tail _ later => exact Nat.le_succ_of_le (ih numbered.2 later)

/-- An open scope that is not the innermost one cannot be ended. -/
theorem Account.Deep.crossed (debug : build.ndebug = false) {s : Session σ} {t : Account σ}
    (shows : s.Shows t) (kept : t.Kept build parent Out) (deep : t.Deep) {entry : TempT × Ledger}
    (outer : entry ∈ s.books.outer.tail) :
    tempEnd build entry.1 s.state = .error (.assertion "temp.depth == a->temp_depth") := by
  have kept : t.image.Kept build parent Out t.books := kept
  have numbered := deep.numbered
  have depth := deep.depth
  rw [shows.2] at outer
  apply tempEnd_crossed debug
  · rw [shows.generation]
    exact kept.current entry (List.mem_of_mem_tail outer)
  · rw [shows.level, depth]
    cases books : t.books.outer with
    | nil =>
        rw [books] at outer
        cases outer
    | cons top rest =>
        rw [books] at outer numbered
        have lower : entry.1.depth ≤ rest.length := numbered.2.shallower outer
        exact Nat.ne_of_lt (Nat.lt_succ_of_le lower)

/-- A debug build tells of a snapshot that is older than a reset or a deinit, as long as these were
not 2 ^ 32, and of one with another number of scopes open than when it was begun. Of others the two
assertions do not tell. Of the open scopes they let the innermost one be ended only. -/
theorem Session.run_detects (debug : build.ndebug = false) (conforms : parent.Conforms Out)
    {s s₁ s₂ : Session σ} (started : s.Started build parent Out) {before after : List (Op σ)}
    {ptrs ptrs' : List Nat} {temp : TempT} {state : State σ}
    (allowed : s.Allows build (fun s op => op.Legal Out s ∧ op.Shallow s) before)
    (reached : s.run build before = .ok (ptrs, s₁)) (room : s₁.books.outer.length + 1 < 2 ^ 32)
    (begun : tempBegin s₁.state = .ok (temp, state))
    (allowed' : Session.Allows build (fun s op => op.Legal Out s ∧ op.Shallow s)
      { state, books := s₁.books.begun temp } after)
    (later : Session.run build { state, books := s₁.books.begun temp } after = .ok (ptrs', s₂)) :
    (after.countP Op.renews % 2 ^ 32 ≠ 0 →
      tempEnd build temp s₂.state = .error (.assertion "temp.generation == a->generation")) ∧
    (after.countP Op.renews % 2 ^ 32 = 0 →
      s₂.books.outer.length ≠ s₁.books.outer.length + 1 →
      tempEnd build temp s₂.state = .error (.assertion "temp.depth == a->temp_depth")) ∧
    (after.countP Op.renews % 2 ^ 32 = 0 →
      s₂.books.outer.length = s₁.books.outer.length + 1 →
      temp.generation = s₂.state.arena.generation ∧ temp.depth = s₂.state.arena.tempDepth) ∧
    ∀ entry ∈ s₂.books.outer.tail,
      tempEnd build entry.1 s₂.state = .error (.assertion "temp.depth == a->temp_depth") := by
  obtain ⟨t, shows, kept⟩ := started.kept conforms
  have new : t.image.generation < 2 ^ 32 := by
    rw [← shows.generation, started.generation]
    exact Nat.two_pow_pos 32
  obtain ⟨t₁, shows₁, kept₁, deep₁, ages₁⟩ :=
    Session.run_ages conforms shows kept (started.deep shows) allowed reached
  have bound := ages₁.bounded new
  have stepped : s₁.step build .tempBegin = .ok (0, { state, books := s₁.books.begun temp }) :=
    bind_eq_ok.mpr ⟨_, begun, rfl⟩
  have legal : Op.Legal Out s₁ .tempBegin := trivial
  have shallow : Op.Shallow s₁ .tempBegin := room
  obtain ⟨t', followed, shows', kept', effect⟩ :=
    Session.step_follows conforms shows₁ kept₁ legal stepped
  have deep' := effect.deep shows₁ deep₁ shallow
  obtain ⟨t₂, shows₂, kept₂, deep₂, ages⟩ :=
    Session.run_ages conforms shows' kept' deep' allowed' later
  obtain ⟨_, again, _⟩ := tempBegin_refines shows₁.1
  cases begun.symm.trans again
  cases followed
  have generation : t₁.image.tempBegin.1.generation = s₂.state.arena.generation ↔
      after.countP Op.renews % 2 ^ 32 = 0 := by
    rw [shows₂.generation]
    exact ages.same_iff bound
  have depth : t₁.image.tempBegin.1.depth = s₁.books.outer.length + 1 := by
    rw [shows₁.2]
    exact deep'.depth
  have level : s₂.state.arena.tempDepth = s₂.books.outer.length := by
    rw [shows₂.level, deep₂.depth, ← shows₂.2]
  refine ⟨fun renewed => ?_, fun same other => ?_, fun same matching => ?_, fun entry outer => ?_⟩
  · exact tempEnd_stale debug fun current => renewed (generation.mp current)
  · apply tempEnd_crossed debug (generation.mpr same)
    rw [depth, level]
    exact other.symm
  · exact ⟨generation.mpr same, by rw [depth, level, matching]⟩
  · exact deep₂.crossed debug shows₂ kept₂ outer

/-- A scope is ended while another one is open in it. -/
theorem Session.run_detects_nested :
    ∃ temp s', Session.run .sanitized (Session.scoped 1 1) [.tempBegin] = .ok ([0], s') ∧
      s'.books.outer.tail.map Prod.fst = [temp] ∧
      tempEnd .sanitized temp s'.state = .error (.assertion "temp.depth == a->temp_depth") := by
  have conforms := risingParent_conforms 0x100000 (by decide)
  have room : 0 + 1 < 2 ^ 32 := by decide
  have deeper : 1 + 1 < 2 ^ 32 := by decide
  have begun : tempBegin Session.rising.state =
      .ok ({ block := 0, blockUsed := 0, used := 0, generation := 0, depth := 1 },
        (Session.scoped 1 1).state) := rfl
  have later : Session.run .sanitized (Session.scoped 1 1) [.tempBegin] =
      .ok ([0], Session.scoped 2 2) := rfl
  have allowed : Session.Allows .sanitized
      (fun s op => op.Legal (RisingOut 0x100000) s ∧ op.Shallow s) (Session.scoped 1 1)
      [.tempBegin] := .cons rfl ⟨trivial, deeper⟩ trivial
  have initial : Session.rising.run .sanitized [] = .ok ([], Session.rising) := rfl
  have nothing : Session.rising.Allows .sanitized
      (fun s op => op.Legal (RisingOut 0x100000) s ∧ op.Shallow s) [] := trivial
  obtain ⟨_, told, _⟩ := Session.run_detects rfl conforms (Session.rising_started _) nothing initial
    room begun allowed later
  exact ⟨_, _, later, rfl, told rfl (by decide)⟩

/-- A scope is ended twice, the second time while another one is open at its depth. -/
example :
    let ended : TempT := { block := 0, blockUsed := 0, used := 0, generation := 0, depth := 1 }
    ((Session.rising.run .sanitized [.tempBegin, .tempEnd, .allocate (.alloc 100), .tempBegin] >>=
      fun after => tempEnd .sanitized ended after.2.state).toOption.isSome) = true := by
  decide +kernel

/-! The counter check. -/

/-- The last allocation on a chain that is placed in an older chain ends at the older cursor. -/
theorem Grown.level_of_last {floor top : List Cell} (grown : Grown floor top) {c : Cell}
    {cs : List Cell} {p len : Nat} (chain : top = c :: cs) (placed : Placed floor p len)
    (ends : p + len = c.cursor) (alone : ¬ Placed cs p len) : consumed floor = consumed top := by
  cases grown with
  | empty bare => cases chain
  | @raised d ds used start raised =>
      cases chain
      subst start
      obtain ⟨e, member, low, high⟩ := placed
      cases member with
      | tail _ later => exact absurd ⟨e, later, low, high⟩ alone
      | head =>
          have ends : p + len = d.data + used := ends
          have high : p + len ≤ d.data + d.used := high
          have same : used = d.used := by omega
          rw [same]
  | entered d grown =>
      cases chain
      exact absurd (grown.placed placed) alone

/-- No allocation of the newest block lies in an older one. -/
theorem Image.Owned.alone {a : Image σ} (owned : a.Owned build parent Out) {c : Cell}
    {cs : List Cell} (chain : a.chain = c :: cs) {p len : Nat} (some : 0 < len)
    (above : c.data ≤ p) (ends : p + len = c.cursor) : ¬ Placed cs p len := by
  intro placed
  obtain ⟨d, later, low, high⟩ := placed
  have fits := owned.fits
  have apart := owned.cells_apart
  rw [Image.cells_of_chain chain] at apart fits
  have separate := (List.pairwise_cons.mp apart).1 d (List.mem_append_left _ later)
  have here := fits c (.head _)
  have there := fits d (.tail _ (List.mem_append_left _ later))
  have ends : p + len = c.data + c.used := ends
  have high : p + len ≤ d.data + d.used := high
  exact separate.not_covers (c.covers_of_data above (by omega)) (d.covers_of_data low (by omega))

/-- An allocation made before the innermost scope began is ignored where it is freed, or the counter
goes below that of the snapshot. -/
theorem Image.Kept.free_older {a : Image σ} {b : Books} (kept : a.Kept build parent Out b)
    {temp : TempT} {outer : Ledger} {rest : Suspended} (inner : b.outer = (temp, outer) :: rest)
    {x : Span} (member : x ∈ b.suspended) :
    x.addr ≠ 0 ∧ build.footprint x.size ≤ a.used ∧
      (a.lastAt build x.addr x.size = none ∨ (a.xfree build x.addr x.size).used < temp.used) := by
  have laid := kept.sane.laid
  have live : x ∈ b.live := Books.mem_live_of_suspended member
  have held : build.footprint x.size ≤ a.used :=
    Nat.le_trans (footprint_le_spread (Books.mem_lit_of_live live)) (kept.lie.room laid)
  obtain ⟨placed, filled⟩ := kept.lie.placed x (Books.mem_spans_of_lit (Books.mem_lit_of_live live))
  have some : 0 < build.footprint x.size := Build.footprint_pos filled
  have given : x.addr ≠ 0 := by
    obtain ⟨c, listed, low, _⟩ := placed
    have nonzero := (kept.sane.inside c (List.mem_append_left _ listed)).1
    have low : c.addr + blockHdr ≤ x.addr := low
    omega
  refine ⟨given, held, ?_⟩
  cases last : a.lastAt build x.addr x.size with
  | none => exact .inl rfl
  | some found =>
      obtain ⟨c, cs⟩ := found
      obtain ⟨chain, above, ends⟩ := Image.lastAt_some last
      have lie := kept.lie
      rw [Books.Lie, inner] at lie
      cases lie with
      | @scope floor top l outer temp rest level marks used same nested =>
          rw [Books.suspended, inner] at member
          obtain ⟨ledger, listed, inside⟩ := List.mem_flatMap.mp member
          have older := (nested.placed x
            (List.mem_flatMap.mpr ⟨ledger, listed, Ledger.mem_spans_of_live inside⟩)).1
          have equal := level.grown.level_of_last chain older ends
            (kept.sane.alone chain some above ends)
          have counted := level.counted
          refine .inr ?_
          rw [Image.xfree, last]
          change a.used - build.footprint x.size < temp.used
          change a.used + b.scope.uncounted + consumed floor.chain =
            floor.used + consumed a.chain at counted
          change consumed floor.chain = consumed a.chain at equal
          omega

/-- In an open scope, a debug build ignores the free of an older allocation, or tells of it where
the scope is ended next. -/
theorem Session.run_detects_free (debug : build.ndebug = false) (conforms : parent.Conforms Out)
    {s s' : Session σ} (started : s.Started build parent Out) {ops : List (Op σ)} {ptrs : List Nat}
    (allowed : s.Allows build (fun s op => op.Legal Out s ∧ op.Shallow s) ops)
    (ran : s.run build ops = .ok (ptrs, s')) {temp : TempT} {outer : Ledger} {rest : Suspended}
    (inner : s'.books.outer = (temp, outer) :: rest) {x : Span} (older : x ∈ s'.books.suspended) :
    ∃ state, adapterXfree build x.addr x.size s'.state = .ok state ∧
      (state = s'.state ∨
        tempEnd build temp state = .error (.assertion "a->used >= temp.used")) := by
  obtain ⟨t, shows, kept⟩ := started.kept conforms
  obtain ⟨t', shows', kept', deep', _⟩ :=
    Session.run_ages conforms shows kept (started.deep shows) allowed ran
  rw [shows'.2] at inner older
  have kept' : t'.image.Kept build parent Out t'.books := kept'
  obtain ⟨given, held, outcome⟩ := kept'.free_older inner older
  cases last : t'.image.lastAt build x.addr x.size with
  | none =>
      have asked := isLastAlloc_spec shows'.1 kept'.sane.toOwned given x.size
      rw [last] at asked
      refine ⟨s'.state, ?_, .inl rfl⟩
      rw [adapterXfree, if_neg given, asked]
      rfl
  | some found =>
      have counted : x.addr ≠ 0 → build.footprint x.size ≤ t'.image.used := fun _ => held
      obtain ⟨state, freed, shown⟩ := adapterXfree_refines shows'.1 kept'.sane counted
      rw [if_neg given] at shown
      have lower := outcome.resolve_left (by rw [last]; exact Option.some_ne_none _)
      refine ⟨state, freed, .inr ?_⟩
      have first : temp.generation = state.arena.generation := by
        rw [shown.arena]
        exact (kept'.current (temp, outer) (inner ▸ .head _)).trans
          (Image.xfree_generation x.addr x.size t'.image).symm
      have second : temp.depth = state.arena.tempDepth := by
        have level : t'.Level build .tempEnd := deep'.level .tempEnd
        have same := level.resolve_left (Bool.not_eq_true _ ▸ debug) (temp, outer)
          (by rw [inner]; rfl)
        rw [shown.arena]
        exact same.trans (Image.xfree_tempDepth x.addr x.size t'.image).symm
      have third : ¬ temp.used ≤ state.arena.used := by
        rw [shown.arena]
        exact Nat.not_le.mpr lower
      rw [tempEnd, Build.check_of build first, ok_bind, Build.check_of build second, ok_bind,
        Build.check_fails debug third]
      rfl

end

/-- Twenty-four bytes are allocated, and freed in a scope begun since. -/
theorem Session.run_detects_free_older :
    ∃ s' temp outer state,
      Session.rising.run .sanitized [.allocate (.alloc 24), .tempBegin] = .ok ([4128, 0], s') ∧
      s'.books.outer = [(temp, outer)] ∧ s'.state.arena.used = 40 ∧
      adapterXfree .sanitized 4128 24 s'.state = .ok state ∧ state.arena.used = 0 ∧
      tempEnd .sanitized temp state = .error (.assertion "a->used >= temp.used") := by
  have conforms := risingParent_conforms 0x100000 (by decide)
  have room : 0 + 1 < 2 ^ 32 := by decide
  have ran : Session.rising.run .sanitized [.allocate (.alloc 24), .tempBegin] = .ok _ := rfl
  have allowed : Session.rising.Allows .sanitized
      (fun s op => op.Legal (RisingOut 0x100000) s ∧ op.Shallow s)
      [.allocate (.alloc 24), .tempBegin] :=
    .cons rfl ⟨Nat.zero_le _, trivial⟩ (.cons rfl ⟨trivial, room⟩ trivial)
  obtain ⟨state, freed, outcome⟩ := Session.run_detects_free (x := ⟨4128, 24, 0⟩) rfl conforms
    (Session.rising_started _) allowed ran rfl (.head _)
  have lowered := congrArg (·.toOption.map (·.arena.used)) freed
  have used : state.arena.used = 0 :=
    Option.some.inj (lowered.symm.trans (by decide +kernel))
  refine ⟨_, _, _, state, ran, rfl, by decide +kernel, freed, used, outcome.resolve_left ?_⟩
  intro same
  rw [same] at used
  revert used
  decide +kernel

/-- An allocation made after such a free hides it. -/
example :
    (Session.rising.run .sanitized [.allocate (.alloc 24), .tempBegin, .xfree 4128 24 0,
      .allocate (.alloc 24), .tempEnd]).toOption.isSome = true := by
  decide +kernel

end AgencC.Arena
