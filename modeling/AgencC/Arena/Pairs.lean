import AgencC.Arena.Placing
import AgencC.Arena.Reallocation

/-! Properly nested pairs of `xalloc` and `xfree`. A free rolls the cursor back exactly when
nothing of what came between its allocation and itself left padding behind or entered a block. -/

set_option autoImplicit false

namespace AgencC.Arena

open Library

variable {σ : Type} {build : Build} {parent : AllocT σ} {Out : World σ → List Region → Prop}

/-! The order of chains. -/

theorem Grown.length_le {base top : List Cell} (grown : Grown base top) :
    base.length ≤ top.length := by
  induction grown with
  | empty bare =>
      subst bare
      exact Nat.le_refl _
  | raised start above =>
      subst start
      exact Nat.le_refl _
  | entered c _ ih => exact Nat.le_succ_of_le ih

theorem Grown.of_cons {c : Cell} {cs top : List Cell} (grown : Grown (c :: cs) top) :
    (∃ used, c.used ≤ used ∧ top = { c with used } :: cs) ∨
      ∃ d ds, top = d :: ds ∧ Grown (c :: cs) ds := by
  cases grown with
  | empty bare => cases bare
  | @raised d ds used start above =>
      cases start
      exact .inl ⟨used, above, rfl⟩
  | @entered ds d grown => exact .inr ⟨d, ds, rfl, grown⟩

theorem Grown.antisymm {base top : List Cell} (up : Grown base top) (down : Grown top base) :
    base = top := by
  cases up with
  | empty bare => exact bare
  | @raised c cs used start above =>
      subst start
      cases down.of_cons with
      | inl lowered =>
          obtain ⟨used', above', same⟩ := lowered
          have level : c.used = used' := congrArg Cell.used (List.cons.inj same).1
          have level : c.used = used := Nat.le_antisymm above (level ▸ above')
          rw [← level]
      | inr entered =>
          obtain ⟨d, ds, same, grown⟩ := entered
          cases same
          exact absurd grown.length_le (Nat.not_succ_le_self _)
  | entered c grown =>
      have longer := grown.length_le
      have shorter := down.length_le
      exact absurd (Nat.le_trans shorter longer) (Nat.not_succ_le_self _)

/-- An allocation that ends at the cursor of two chains, one grown from the other, is the last one of
both only if they are one chain. -/
theorem Grown.ends {c d : Cell} {cs ds : List Cell} (grown : Grown (c :: cs) (d :: ds))
    (laid : Laid (d :: ds)) {p len : Nat} (some : 0 < len) (above : c.data ≤ p)
    (last : p + len = c.cursor) (above' : d.data ≤ p) (last' : p + len = d.cursor) :
    d :: ds = c :: cs := by
  cases grown.of_cons with
  | inl raised =>
      obtain ⟨used, _, same⟩ := raised
      cases same
      have level : used = c.used := Nat.add_left_cancel (last'.symm.trans last)
      rw [level]
  | inr entered =>
      obtain ⟨_, _, same, grown⟩ := entered
      cases same
      obtain ⟨e, member, addr, _, used⟩ := grown.exists_cell (.head _)
      have apart := (List.pairwise_cons.mp laid.apart).1 e member
      have fits : d.used ≤ d.cap := laid.fits d (.head _)
      have fits' : e.used ≤ e.cap := laid.fits e (.tail _ member)
      have data : e.data = c.data := congrArg (· + blockHdr) addr
      have cursor : c.cursor = c.data + c.used := rfl
      have cursor' : d.cursor = d.data + d.used := rfl
      have here : d.region.Covers p := d.covers_of_data above' (by omega)
      have there : e.region.Covers p := e.covers_of_data (by omega) (by omega)
      exact absurd there (apart.not_covers here)

/-! Pairs. -/

/-- A properly nested sequence of pairs: an allocation and the session after it, the session after
its free, the pairs in between and those that follow. -/
inductive Pairs (σ : Type) where
  | done
  | pair (x : Span) (opened closed : Session σ) (inner rest : Pairs σ)

/-- The session after some pairs. -/
def Pairs.last (s : Session σ) : Pairs σ → Session σ
  | .done => s
  | .pair _ _ closed _ rest => rest.last closed

section
variable (build : Build)

/-- These are pairs of successful calls, made one after the other. -/
def Session.Makes (s : Session σ) : Pairs σ → Prop
  | .done => True
  | .pair x opened closed inner rest =>
      x.align ≤ sizeMax ∧ x.addr ≠ 0 ∧
        s.step build (.allocate (.xalloc x.size x.align)) = .ok (x.addr, opened) ∧
        opened.Makes inner ∧
        (inner.last opened).step build (.xfree x.addr x.size x.align) = .ok (0, closed) ∧
        closed.Makes rest

/-- A free of the most recent live allocation lowers the cursor to it, and the counter by what it is
passed, and a redzone. -/
structure Session.RollsBack (s : Session σ) (x : Span) (s' : Session σ) : Prop where
  latest : s.books.scope.live.head? = some x
  cursor : s'.state.room.map Prod.fst = some x.addr
  used : s'.state.arena.used + build.footprint x.size = s.state.arena.used

/-- Every free rolls back. -/
def Pairs.RollBack : Pairs σ → Prop
  | .done => True
  | .pair x opened closed inner rest =>
      (inner.last opened).RollsBack build x closed ∧ inner.RollBack ∧ rest.RollBack

/-- Where the cursor of the block that served a call stood before. -/
def State.start (s s' : State σ) : Nat :=
  if s'.arena.current = s.arena.current then (s.room.map Prod.fst).getD 0
  else s'.arena.current + blockHdr

/-- The bytes all these allocations skip for their alignment. -/
def Pairs.padding (s : Session σ) : Pairs σ → Nat
  | .done => 0
  | .pair x opened closed inner rest =>
      Library.padding (s.state.start opened.state) (alignEffective build x.align) +
        inner.padding opened + rest.padding closed

/-- The current block has room for `x` right at its cursor. -/
def Session.Snug (s : Session σ) (x : Span) : Prop :=
  ∃ place ∈ s.state.room, alignEffective build x.align ∣ place.1 ∧ build.footprint x.size ≤ place.2

/-- Every allocation has room at the cursor. -/
def Pairs.Tight (s : Session σ) : Pairs σ → Prop
  | .done => True
  | .pair x opened closed inner rest =>
      s.Snug build x ∧ inner.Tight opened ∧ rest.Tight closed

/-- Every allocation made while another one is outstanding has room at the cursor. -/
def Pairs.Flush : Pairs σ → Prop
  | .done => True
  | .pair _ opened _ inner rest => inner.Tight build opened ∧ rest.Flush

end

/-! One allocation and one free. -/

section
variable {a a' : Image σ} {x : Span} {s s' : State σ} {c : Cell} {cs : List Cell} {b : Image σ}

/-- Where the chain is as the allocation left it, its free rolls back. -/
theorem Image.Stacks.rolls (stacked : a.Stacks build x c cs a') (same : b.chain = a'.chain) :
    b.xfree build x.addr x.size =
      b.rollBack build x.addr x.size (c.bump build x.size (alignEffective build x.align)) cs := by
  rw [Image.xfree, Image.lastAt_of (same.trans stacked.chain) stacked.above stacked.ends]

/-- Where it is not, the free is ignored. -/
theorem Image.Stacks.stuck (stacked : a.Stacks build x c cs a') (some : 0 < x.size)
    (grown : Grown a'.chain b.chain) (laid : Laid b.chain) (other : b.chain ≠ a'.chain) :
    b.xfree build x.addr x.size = b := by
  rw [Image.xfree]
  cases last : b.lastAt build x.addr x.size with
  | none => rfl
  | some found =>
      obtain ⟨d, ds⟩ := found
      obtain ⟨chain, above, ends⟩ := Image.lastAt_some last
      rw [chain, stacked.chain] at grown other
      rw [chain] at laid
      exact absurd
        (grown.ends laid (Build.footprint_pos some) stacked.above stacked.ends above ends) other

/-- After a free that rolls back, only padding and an entered block tell the chain from the one
before the allocation. -/
theorem Image.Stacks.lowered (stacked : a.Stacks build x c cs a') :
    (b.rollBack build x.addr x.size (c.bump build x.size (alignEffective build x.align)) cs).chain =
      { c with used := c.used + c.pad (alignEffective build x.align) } :: cs := by
  have used : x.addr - c.data = c.used + c.pad (alignEffective build x.align) := by
    rw [stacked.place, Cell.cursor, Nat.add_assoc]
    exact Nat.add_sub_cancel_left _ _
  rw [← used]
  rfl

theorem Image.Stacks.snug (shows : s.Shows a) (pos : 0 < alignEffective build x.align)
    (some : 0 < x.size) (stacked : a.Stacks build x c cs a') :
    (∃ place ∈ s.room, alignEffective build x.align ∣ place.1 ∧ build.footprint x.size ≤ place.2) ↔
      a.chain = c :: cs ∧ c.pad (alignEffective build x.align) = 0 := by
  rw [shows.room]
  constructor
  · intro snug
    obtain ⟨place, member, aligned, fits⟩ := snug
    obtain ⟨d, head, rfl⟩ := Option.map_eq_some_iff.mp member
    have exact : d.pad (alignEffective build x.align) = 0 := (padding_eq_zero_iff pos).mpr aligned
    cases stacked.before with
    | inl same =>
        rw [same] at head
        cases head
        exact ⟨same, exact⟩
    | inr new =>
        have full := new.2.full d head
        have filled : 0 < build.footprint x.size := Build.footprint_pos some
        dsimp only at fits
        omega
  · intro snug
    obtain ⟨chain, exact⟩ := snug
    have room := stacked.room
    rw [exact, Nat.zero_add] at room
    rw [chain]
    exact ⟨_, rfl, (padding_eq_zero_iff pos).mp exact, Nat.le_sub_of_add_le' room⟩

theorem Image.Stacks.start (shows : s.Shows a) (shows' : s'.Shows a')
    (stacked : a.Stacks build x c cs a') : s.start s' = c.cursor := by
  have after : s'.arena.current = c.addr := by
    rw [shows'.current, stacked.chain]
    rfl
  cases stacked.before with
  | inl same =>
      have before : s.arena.current = c.addr := by
        rw [shows.current, same]
        rfl
      rw [State.start, if_pos (after.trans before.symm), shows.room, same]
      rfl
  | inr new =>
      have moved : c.addr ≠ s.arena.current :=
        (shows.entered shows' (stacked.chain.trans (congrArg _ new.1.symm))).2
      rw [State.start, after, if_neg moved, Cell.cursor, new.2.empty]
      rfl

end

/-! Whole sequences. -/

theorem Grown.eq_iff {low middle top : List Cell} (first : Grown low middle)
    (second : Grown middle top) : top = low ↔ middle = low ∧ top = middle := by
  constructor
  · intro same
    subst same
    have level := first.antisymm second
    exact ⟨level.symm, level⟩
  · exact fun both => both.2.trans both.1

theorem Session.xalloc_stacks (conforms : parent.Conforms Out) {s opened : Session σ}
    {t : Account σ} (shows : s.Shows t) (kept : t.Kept build parent Out) {x : Span}
    (word : x.align ≤ sizeMax) (given : x.addr ≠ 0)
    (served : s.step build (.allocate (.xalloc x.size x.align)) = .ok (x.addr, opened)) :
    ∃ t₁ c cs, opened.Shows t₁ ∧ t₁.Kept build parent Out ∧
      t.image.Stacks build x c cs t₁.image ∧ 0 < alignEffective build x.align ∧ 0 < x.size ∧
      t₁.books.scope.live = x :: t.books.scope.live := by
  have legal : Op.Legal Out s (.allocate (.xalloc x.size x.align)) := word
  obtain ⟨t₁, followed, shows₁, kept₁, _⟩ :=
    Session.step_follows conforms shows kept legal served
  obtain ⟨⟨ptr, image⟩, ran, same⟩ := bind_eq_ok.mp followed
  cases same
  have kept : t.image.Kept build parent Out t.books := kept
  obtain ⟨c, cs, stacked⟩ := kept.sane.toOwned.stacked conforms word given ran
  obtain ⟨_, valid, some, _⟩ := Image.allocImpl_core given ran
  rw [Nat.one_mul] at stacked some
  obtain ⟨k, _, power⟩ := alignEffective_eq build word valid
  refine ⟨_, c, cs, shows₁, kept₁, stacked, power ▸ Nat.two_pow_pos k, some, ?_⟩
  dsimp only
  rw [Books.allocated, if_neg given]
  rfl

theorem Session.xfree_rolls (conforms : parent.Conforms Out) {s closed : Session σ}
    {t : Account σ} (shows : s.Shows t) (kept : t.Kept build parent Out) {x : Span}
    (given : x.addr ≠ 0) {live : List Span} (latest : t.books.scope.live = x :: live)
    (freed : s.step build (.xfree x.addr x.size x.align) = .ok (0, closed)) :
    ∃ t', closed.Shows t' ∧ t'.Kept build parent Out ∧
      t'.image = t.image.xfree build x.addr x.size ∧ t'.books.scope.live = live := by
  have member : x ∈ s.books.scope.live := by
    rw [shows.2, latest]
    exact .head _
  have legal : Op.Legal Out s (.xfree x.addr x.size x.align) := .inr member
  obtain ⟨t', followed, shows', kept', _⟩ := Session.step_follows conforms shows kept legal freed
  cases followed
  refine ⟨_, shows', kept', if_neg given, ?_⟩
  dsimp only
  rw [Books.freed_live _ given, latest]
  exact List.erase_cons_head ..

variable (build parent Out) in
/-- What some pairs leave: the chain is no lower, and the one it was exactly when all were tight. -/
structure Pairs.Leaves (pairs : Pairs σ) (s : Session σ) (t t' : Account σ) : Prop where
  shows : (pairs.last s).Shows t'
  kept : t'.Kept build parent Out
  grown : Grown t.image.chain t'.image.chain
  tight : pairs.Tight build s ↔ t'.image.chain = t.image.chain
  live : t'.books.scope.live = t.books.scope.live

/-- One pair: its free rolls back exactly when the pairs in between were tight. -/
theorem Session.makes_pair (conforms : parent.Conforms Out) {s opened closed : Session σ}
    {t : Account σ} (shows : s.Shows t) (kept : t.Kept build parent Out) {x : Span}
    {inner : Pairs σ} (word : x.align ≤ sizeMax) (given : x.addr ≠ 0)
    (served : s.step build (.allocate (.xalloc x.size x.align)) = .ok (x.addr, opened))
    (freed : (inner.last opened).step build (.xfree x.addr x.size x.align) = .ok (0, closed))
    (between : ∀ t₁ : Account σ, opened.Shows t₁ → t₁.Kept build parent Out →
      ∃ t₂, inner.Leaves build parent Out opened t₁ t₂) :
    (∃ t₁, opened.Shows t₁ ∧ t₁.Kept build parent Out) ∧
      (∃ t₃, closed.Shows t₃ ∧ t₃.Kept build parent Out ∧ Grown t.image.chain t₃.image.chain ∧
        (s.Snug build x ∧ inner.Tight build opened ↔ t₃.image.chain = t.image.chain) ∧
        t₃.books.scope.live = t.books.scope.live) ∧
      ((inner.last opened).RollsBack build x closed ↔ inner.Tight build opened) ∧
      opened.state.arena.used = s.state.arena.used +
        (padding (s.state.start opened.state) (alignEffective build x.align) +
          build.footprint x.size) := by
  obtain ⟨t₁, c, cs, shows₁, kept₁, stacked, pos, some, latest⟩ :=
    Session.xalloc_stacks conforms shows kept word given served
  obtain ⟨t₂, leaves⟩ := between t₁ shows₁ kept₁
  have latest₂ := leaves.live.trans latest
  obtain ⟨t₃, shows₃, kept₃, image, live⟩ :=
    Session.xfree_rolls conforms leaves.shows leaves.kept given latest₂ freed
  have kept₂ : t₂.image.Kept build parent Out t₂.books := leaves.kept
  have filled : 0 < build.footprint x.size := Build.footprint_pos some
  have counted : opened.state.arena.used = s.state.arena.used +
      (padding (s.state.start opened.state) (alignEffective build x.align) +
        build.footprint x.size) := by
    rw [shows₁.used, shows.used, stacked.used, stacked.start shows.1 shows₁.1]
    rfl
  by_cases same : t₂.image.chain = t₁.image.chain
  · have tight : inner.Tight build opened := leaves.tight.mpr same
    have lowered := image.trans (stacked.rolls same)
    have chain : t₃.image.chain =
        { c with used := c.used + c.pad (alignEffective build x.align) } :: cs := by
      rw [lowered]
      exact stacked.lowered
    refine ⟨⟨t₁, shows₁, kept₁⟩, ⟨t₃, shows₃, kept₃, ?_, ?_, live⟩, ⟨fun _ => tight, fun _ => ?_⟩,
      counted⟩
    · rw [chain]
      cases stacked.before with
      | inl same => exact .raised same (Nat.le_add_right _ _)
      | inr new => exact .entered _ (new.1 ▸ .refl _)
    · rw [and_iff_left tight]
      refine (stacked.snug shows.1 pos some).trans ?_
      rw [chain]
      constructor
      · intro snug
        rw [snug.1, snug.2]
        rfl
      · intro level
        cases stacked.before with
        | inl same =>
            have used := congrArg Cell.used (List.cons.inj (level.trans same)).1
            exact ⟨same, Nat.add_left_cancel (used.trans (Nat.add_zero _).symm)⟩
        | inr new =>
            rw [new.1] at level
            exact absurd (congrArg List.length level) (Nat.succ_ne_self _)
    · obtain ⟨floor, level⟩ := kept₂.lie.innermost
      have member : x ∈ t₂.books.scope.live := latest₂ ▸ .head _
      have held : build.footprint x.size ≤ t₂.image.used := level.held kept₂.sane.laid member
      refine ⟨?_, ?_, ?_⟩
      · rw [leaves.shows.2, latest₂]
        rfl
      · rw [shows₃.1.room, chain, stacked.place]
        exact congrArg _ (Nat.add_assoc c.data c.used _).symm
      · rw [shows₃.used, leaves.shows.used, lowered]
        exact Nat.sub_add_cancel held
  · have loose : ¬ inner.Tight build opened := fun tight => same (leaves.tight.mp tight)
    have ignored := image.trans (stacked.stuck some leaves.grown kept₂.sane.laid same)
    have grown : Grown t.image.chain t₁.image.chain := stacked.grown
    have grown₃ : Grown t₁.image.chain t₃.image.chain := ignored ▸ leaves.grown
    refine ⟨⟨t₁, shows₁, kept₁⟩, ⟨t₃, shows₃, kept₃, grown.trans grown₃, ?_, live⟩,
      ⟨fun rolls => ?_, fun tight => absurd tight loose⟩, counted⟩
    · refine ⟨fun tight => absurd tight.2 loose, fun level => absurd ?_ same⟩
      rw [← ignored]
      exact ((grown.eq_iff grown₃).mp level).2
    · have used := rolls.used
      rw [shows₃.used, leaves.shows.used, ignored] at used
      omega

theorem Pairs.leaves (conforms : parent.Conforms Out) (pairs : Pairs σ) {s : Session σ}
    {t : Account σ} (shows : s.Shows t) (kept : t.Kept build parent Out)
    (makes : s.Makes build pairs) : ∃ t', pairs.Leaves build parent Out s t t' := by
  induction pairs generalizing s t with
  | done => exact ⟨t, shows, kept, .refl _, iff_of_true trivial rfl, rfl⟩
  | pair x opened closed inner rest ihInner ihRest =>
      obtain ⟨word, given, served, within, freed, after⟩ := makes
      obtain ⟨_, ⟨t₃, shows₃, kept₃, grown, tight, live⟩, _, _⟩ :=
        Session.makes_pair conforms shows kept word given served freed
          fun _ shows₁ kept₁ => ihInner shows₁ kept₁ within
      obtain ⟨t₄, leaves⟩ := ihRest shows₃ kept₃ after
      refine ⟨t₄, leaves.shows, leaves.kept, grown.trans leaves.grown, ?_, leaves.live.trans live⟩
      rw [grown.eq_iff leaves.grown, ← tight, ← leaves.tight, Pairs.Tight, and_assoc]

theorem Pairs.Tight.flush {pairs : Pairs σ} {s : Session σ} (tight : pairs.Tight build s) :
    pairs.Flush build := by
  induction pairs generalizing s with
  | done => trivial
  | pair x opened closed inner rest ihInner ihRest => exact ⟨tight.2.1, ihRest tight.2.2⟩

theorem Pairs.rolls_iff_flush (conforms : parent.Conforms Out) (pairs : Pairs σ) {s : Session σ}
    {t : Account σ} (shows : s.Shows t) (kept : t.Kept build parent Out)
    (makes : s.Makes build pairs) : pairs.RollBack build ↔ pairs.Flush build := by
  induction pairs generalizing s t with
  | done => exact Iff.rfl
  | pair x opened closed inner rest ihInner ihRest =>
      obtain ⟨word, given, served, within, freed, after⟩ := makes
      obtain ⟨⟨t₁, shows₁, kept₁⟩, ⟨t₃, shows₃, kept₃, _⟩, rolls, _⟩ :=
        Session.makes_pair conforms shows kept word given served freed
          fun _ shows₁ kept₁ => inner.leaves conforms shows₁ kept₁ within
      rw [Pairs.RollBack, Pairs.Flush, rolls, ihRest shows₃ kept₃ after, ihInner shows₁ kept₁ within]
      exact and_congr_right fun tight => and_iff_right tight.flush

/-- Where every free rolls back, what remains is padding. -/
theorem Pairs.RollBack.used (conforms : parent.Conforms Out) {pairs : Pairs σ} {s : Session σ}
    {t : Account σ} (shows : s.Shows t) (kept : t.Kept build parent Out)
    (makes : s.Makes build pairs) (rolls : pairs.RollBack build) :
    (pairs.last s).state.arena.used = s.state.arena.used + pairs.padding build s := by
  induction pairs generalizing s t with
  | done => rfl
  | pair x opened closed inner rest ihInner ihRest =>
      obtain ⟨word, given, served, within, freed, after⟩ := makes
      obtain ⟨⟨t₁, shows₁, kept₁⟩, ⟨t₃, shows₃, kept₃, _⟩, _, counted⟩ :=
        Session.makes_pair conforms shows kept word given served freed
          fun _ shows₁ kept₁ => inner.leaves conforms shows₁ kept₁ within
      have between := ihInner shows₁ kept₁ within rolls.2.1
      have later := ihRest shows₃ kept₃ after rolls.2.2
      have lowered := rolls.1.used
      rw [Pairs.last, Pairs.padding, later]
      omega

/-- After any legal run, in a properly nested sequence of pairs every free rolls back, and nothing
but padding remains, exactly when every allocation made while another one is outstanding has room at
the cursor. -/
theorem Session.pairs_cost (conforms : parent.Conforms Out) {s₀ s : Session σ}
    (started : s₀.Started build parent Out) {ops : List (Op σ)} {ptrs : List Nat}
    (allowed : s₀.Allows build (fun s op => op.Legal Out s) ops)
    (reached : s₀.run build ops = .ok (ptrs, s)) {pairs : Pairs σ} (makes : s.Makes build pairs) :
    (pairs.RollBack build ∧
      (pairs.last s).state.arena.used = s.state.arena.used + pairs.padding build s) ↔
      pairs.Flush build := by
  obtain ⟨t, shows, kept⟩ := Session.run_kept conforms started allowed reached
  have rolls := pairs.rolls_iff_flush conforms shows kept makes
  exact ⟨fun both => rolls.mp both.1,
    fun flush => ⟨rolls.mpr flush, (rolls.mpr flush).used conforms shows kept makes⟩⟩

theorem Session.pairs_cost_even :
    ∃ pairs : Pairs Nat, Session.rising.Makes .sanitized pairs ∧ pairs.RollBack .sanitized ∧
      (pairs.last Session.rising).state.arena.used =
        Session.rising.state.arena.used + pairs.padding .sanitized Session.rising := by
  have conforms := risingParent_conforms 0x100000 (by decide)
  have outer : Session.rising.step .sanitized (.allocate (.xalloc 32 0)) = .ok (4128, _) := rfl
  have reached : Session.rising.run .sanitized [] = .ok ([], Session.rising) := rfl
  have allowed : Session.rising.Allows .sanitized (fun s op => op.Legal (RisingOut 0x100000) s) [] :=
    trivial
  have even : ∃ pairs : Pairs Nat, Session.rising.Makes .sanitized pairs ∧
      pairs.Flush .sanitized := by
    refine ⟨.pair { addr := 4128, size := 32, align := 0 } _ _
      (.pair { addr := 4176, size := 16, align := 0 } _ _ .done .done) .done,
      ⟨by decide, by decide, outer, ⟨by decide, by decide, rfl, trivial, rfl, trivial⟩, rfl,
        trivial⟩, ?_⟩
    exact ⟨⟨⟨_, rfl, by decide, by decide⟩, trivial, trivial⟩, trivial⟩
  obtain ⟨pairs, makes, flush⟩ := even
  exact ⟨pairs, makes, (Session.pairs_cost conforms (Session.rising_started _) allowed reached
    makes).mpr flush⟩

/-- A pair of 24 bytes around one at an alignment of 64: the outer free is ignored. -/
theorem Session.pairs_padded :
    ∃ pairs : Pairs Nat, Session.rising.Makes .sanitized pairs ∧
      ¬ (pairs.RollBack .sanitized ∧ (pairs.last Session.rising).state.arena.used =
        Session.rising.state.arena.used + pairs.padding .sanitized Session.rising) := by
  have outer : Session.rising.step .sanitized (.allocate (.xalloc 24 8)) = .ok (4128, _) := rfl
  refine ⟨.pair { addr := 4128, size := 24, align := 8 } _ _
    (.pair { addr := 4224, size := 8, align := 64 } _ _ .done .done) .done,
    ⟨by decide, by decide, outer, ⟨by decide, by decide, rfl, trivial, rfl, trivial⟩, rfl, trivial⟩, ?_⟩
  intro both
  exact absurd both.1.1.used (by decide)

end AgencC.Arena
