import AgencC.Arena.Books

/-! Each call of an arena keeps its client's books. -/

set_option autoImplicit false

namespace AgencC.Arena

open Library

variable {σ : Type} {build : Build} {parent : AllocT σ} {Out : World σ → List Region → Prop}
  {a a' : Image σ} {b : Books}

/-! Bytes written to what is held, and bytes that may no longer be addressed. -/

theorem Image.Sane.write (conforms : parent.Conforms Out) (sane : a.Sane build parent Out)
    {world : World σ} (written : a.world.Inside a.regions world)
    (poisoned : world.poisoned = a.world.poisoned) :
    Image.Sane build parent Out { a with world } := by
  refine ⟨sane.toOwned.mark conforms written (fun asan c member => ?_) a.used, sane.counted, sane.peak⟩
  intro p above below
  rw [poisoned]
  exact sane.dark asan c member p above below

theorem Placed.inside (sane : a.Sane build parent Out) {p len : Nat}
    (placed : Placed a.chain p len) : ∃ r ∈ a.regions, Region.Within ⟨p, len⟩ r := by
  obtain ⟨c, member, above, below⟩ := placed
  have held := List.mem_append_left a.free member
  have fits := sane.fits c held
  refine ⟨c.region, List.mem_map_of_mem held, Cell.data_within above ?_⟩
  exact Nat.le_trans below (Nat.add_le_add_left fits _)

theorem Image.Sane.bury (conforms : parent.Conforms Out) (sane : a.Sane build parent Out)
    {p len used : Nat} (placed : Placed a.chain p len) (lower : used ≤ a.used) :
    Image.Sane build parent Out { a with used, world := a.world.dead build p len } := by
  obtain ⟨r, member, within⟩ := placed.inside sane
  have touched := World.dead_touched build p len a.world
  refine ⟨sane.toOwned.mark conforms (touched.inside member within) (fun asan c held => ?_) used,
    Nat.le_trans lower sane.counted, Nat.le_trans lower sane.peak⟩
  intro x above below
  rw [World.dead_poisoned asan]
  split
  · rfl
  · exact sane.dark asan c held x above below

/-! Calls that take nothing. -/

theorem Image.Kept.unserved (kept : a.Kept build parent Out b) (unserved : a.Unserved Out a') :
    a.Advances build parent Out b a' b := by
  have sane := unserved.sane kept.sane
  obtain ⟨status, world, rfl, refusal⟩ := unserved
  have same : ∀ {p}, Below a.chain p →
      world.bytes p = a.world.bytes p ∧ world.poisoned p = a.world.poisoned p :=
    kept.below_keeps refusal.keeps
  refine ⟨⟨sane, kept.lie, kept.current, ?_, ?_⟩, ?_, rfl, rfl, fun fixed => ⟨rfl, rfl, refusal.calm fixed⟩,
    rfl, fun _ => id, .held (.refl _) rfl, fun _ _ _ _ => rfl, fun _ level => level⟩
  · intro x member p covers
    exact (same (kept.lit_below (Books.mem_lit_of_live member) covers)).1.trans
      (kept.written x member p covers)
  · intro asan p below lit
    exact kept.quiet asan p below ((same below).2.symm.trans lit)
  · intro _ lit x member p covers
    exact (same (kept.lit_below member covers)).2.trans (lit x member p covers)

/-! Calls that take room. -/

theorem Image.Kept.took (conforms : parent.Conforms Out) (kept : a.Kept build parent Out b)
    (sane : a'.Sane build parent Out) {x : Span} (world : World σ) (contents : Nat → UInt8)
    (took : a.Took build x.size (alignEffective build x.align) x.addr a') (some : 0 < x.size)
    (fine : build.asan = true → blockAlign ∣ alignEffective build x.align)
    (written : a'.world.Touched ⟨x.addr, x.size⟩ world)
    (poisoned : world.poisoned = a'.world.poisoned)
    (inside : ∀ p, x.Covers p → contents p = world.bytes p)
    (outside : ∀ p, ¬ x.Covers p → contents p = b.contents p) :
    a.Advances build parent Out b { a' with world } (b.put (b.scope.add x) contents) := by
  have level : ∀ floor, Level build floor a.mark b.scope →
      Level build floor a'.mark (b.scope.add x) := fun floor level =>
    level.add took.grown took.placed (fun p covers => took.fresh p covers.1 covers.2) some
      ⟨took.aligned, fun asan => (fine asan).trans took.aligned⟩ took.counted
  have placed : Placed a'.chain x.addr x.size :=
    took.placed.mono (Nat.le_refl _) (Nat.add_le_add_left (Nat.le_add_right _ _) _)
  have old : ∀ {y p}, y ∈ b.live → y.Covers p → world.bytes p = contents p := by
    intro y p member covers
    have below := kept.lit_below (Books.mem_lit_of_live member) covers
    have other : ¬ x.Covers p := fun here =>
      have region : (x.region build).Covers p := here.region
      took.fresh p region.1 region.2 below
    calc world.bytes p = a'.world.bytes p := written.bytes p other
      _ = a.world.bytes p := (took.kept p below).1
      _ = b.contents p := kept.written y member p covers
      _ = contents p := (outside p other).symm
  obtain ⟨r, member, within⟩ := placed.inside sane
  refine
    { kept :=
        { sane := sane.write conforms (written.inside member within) poisoned
          lie := by
            change Nested build a'.fixed _ _ _ _ _
            rw [took.fixed]
            exact kept.lie.replace (fun fixed => (took.steady fixed).length) level
          current := fun entry listed => (kept.current entry listed).trans took.generation.symm
          written := ?_
          quiet := ?_ }
      lit := ?_
      outer := rfl
      fixed := took.fixed
      steady := fun fixed => (took.steady fixed).trans ⟨rfl, rfl, written.parent⟩
      tempDepth := took.tempDepth
      retains := took.retains
      supplied := took.supplied.then_held (.refl _) rfl
      carried := ?_
      level := level }
  · intro y member p covers
    cases Books.mem_live_add.mp member with
    | inr earlier => exact old earlier covers
    | inl same =>
        subst same
        exact (inside p covers).symm
  · intro asan p below lit
    have lit : a'.world.poisoned p = false := poisoned ▸ lit
    by_cases under : Below a.chain p
    · obtain ⟨y, member, covers⟩ := kept.quiet asan p under ((took.kept p under).2.symm.trans lit)
      exact ⟨y, Books.mem_lit_add.mpr (.inr member), covers⟩
    · exact ⟨x, Books.mem_lit_add.mpr (.inl rfl), (took.lit asan p below under).mp lit⟩
  · intro asan lit y member p covers
    change world.poisoned p = false
    rw [poisoned]
    cases Books.mem_lit_add.mp member with
    | inr earlier => exact (took.kept p (kept.lit_below earlier covers)).2.trans (lit y earlier p covers)
    | inl same =>
        subst same
        have region : (y.region build).Covers p := covers.region
        have placed := took.placed.below region.1 region.2
        exact (took.lit asan p placed (took.fresh p region.1 region.2)).mpr covers
  · intro y member p covers
    refine outside p fun here => ?_
    have region : (x.region build).Covers p := here.region
    exact took.fresh p region.1 region.2
      (kept.lit_below (Books.mem_lit_of_live (Books.mem_live_of_suspended member)) covers)

/-! Calls on the last allocation. -/

/-- Where an allocation of the current scope is the last on the chain. -/
structure Image.Last (build : Build) (a : Image σ) (x : Span) (c : Cell) (cs : List Cell) : Prop where
  chain : a.chain = c :: cs
  above : c.data ≤ x.addr
  ends : x.addr + build.footprint x.size = c.cursor

theorem Image.Last.of_lastAt {x : Span} {c : Cell} {cs : List Cell}
    (last : a.lastAt build x.addr x.size = some (c, cs)) : a.Last build x c cs := by
  obtain ⟨chain, above, ends⟩ := Image.lastAt_some last
  exact ⟨chain, above, ends⟩

namespace Image.Kept

/-- Bytes beside the last allocation are not in its redzone or above. -/
theorem beside_last (kept : a.Kept build parent Out b) {x y : Span} {c : Cell} {cs : List Cell}
    (last : a.Last build x c cs) (member : x ∈ b.scope.live) {contents : Nat → UInt8}
    (other : y ∈ (b.put (b.scope.drop x) contents).spans) {p : Nat}
    (covers : (y.region build).Covers p) : p < x.addr ∨ c.data + c.cap ≤ p := by
  by_contra inside
  have low : ¬ p < x.addr := fun before => inside (.inl before)
  have high : ¬ c.data + c.cap ≤ p := fun past => inside (.inr past)
  have ends := last.ends
  by_cases under : p < c.cursor
  · refine kept.apart_beside member other ⟨Nat.le_of_not_lt low, ?_⟩ covers
    change p < x.addr + build.footprint x.size
    omega
  · have listed := (Books.beside member contents).mem_iff.mpr (.tail _ other)
    have laid := kept.sane.laid
    have below := kept.below listed covers
    rw [last.chain] at laid below
    exact laid.not_below (Nat.le_of_not_lt under) (Nat.lt_of_not_le high) below

theorem resized (kept : a.Kept build parent Out b) {x : Span} {c : Cell} {cs : List Cell}
    (last : a.Last build x c cs) (member : x ∈ b.scope.live) {size used highWater : Nat}
    (some : 0 < size) (room : x.addr + build.footprint size ≤ c.data + c.cap)
    {world : World σ} {contents : Nat → UInt8}
    (sane : Image.Sane build parent Out
      { a with
        chain := { c with used := x.addr - c.data + build.footprint size } :: cs, used, highWater
        world })
    (counted : used = a.used - build.footprint x.size + build.footprint size)
    (touched : a.world.Touched
      ⟨x.addr + min x.size size, max x.size size - min x.size size⟩ world)
    (marked : build.asan = true → ∀ p, x.addr + min x.size size ≤ p → p < x.addr + max x.size size →
      (world.poisoned p = false ↔ p < x.addr + size))
    (inside : ∀ p, Span.Covers { x with size } p → contents p = world.bytes p)
    (outside : ∀ p, ¬ Span.Covers { x with size } p → contents p = b.contents p) :
    a.Advances build parent Out b
      { a with
        chain := { c with used := x.addr - c.data + build.footprint size } :: cs, used, highWater
        world }
      (b.put ((b.scope.drop x).add { x with size }) contents) := by
  have chain := last.chain
  have above := last.above
  have ends := last.ends
  have laid := kept.sane.laid
  have mark : a.mark = ⟨c :: cs, a.used⟩ := by rw [Image.mark, chain]
  rw [chain] at laid
  have level : ∀ floor, Level build floor a.mark b.scope →
      Level build floor
        ⟨{ c with used := x.addr - c.data + build.footprint size } :: cs, used⟩
        ((b.scope.drop x).add { x with size }) := by
    intro floor level
    rw [mark] at level
    rw [counted]
    exact level.resize laid member above ends some room
  have steady : (c :: cs).length = a.chain.length := by rw [chain]
  have sizes : build.footprint x.size = x.size + build.redzone ∧
      build.footprint size = size + build.redzone := ⟨rfl, rfl⟩
  have cursor : c.cursor = c.data + c.used := rfl
  have fits := laid.fits c (.head _)
  -- Everything but `x` is out of the range that was marked.
  have others : ∀ {y p}, y ∈ (b.put (b.scope.drop x) contents).spans → y.Covers p →
      ¬ Region.Covers ⟨x.addr + min x.size size, max x.size size - min x.size size⟩ p ∧
        ¬ Span.Covers { x with size } p := by
    intro y p other covers
    have away := kept.beside_last last member other covers.region
    constructor
    · intro marked
      have low : x.addr + min x.size size ≤ p := marked.1
      have high : p < x.addr + min x.size size + (max x.size size - min x.size size) := marked.2
      omega
    · intro here
      have low : x.addr ≤ p := here.1
      have high : p < x.addr + size := here.2
      omega
  refine
    { kept :=
        { sane := sane
          lie := kept.lie.replace (fun _ => steady) level
          current := kept.current
          written := ?_
          quiet := ?_ }
      lit := ?_
      outer := rfl
      fixed := rfl
      steady := fun _ => ⟨steady, rfl, touched.parent⟩
      tempDepth := rfl
      retains := fun _ => by rw [Image.pieces, Image.cells, chain]; exact id
      supplied := .held (.of_eq (by rw [Image.pieces, Image.pieces, Image.cells, Image.cells, chain]; rfl)) rfl
      carried := fun y suspended p covers => ?_
      level := level }
  rotate_right
  · have listed : y ∈ (b.put (b.scope.drop x) contents).lit :=
      Books.mem_lit_of_live (Books.mem_live_of_suspended suspended)
    exact outside p (others (Books.mem_spans_of_lit listed) covers).2
  · intro y live p covers
    have unchanged : y ∈ (b.put (b.scope.drop x) contents).live → world.bytes p = contents p := by
      intro live
      obtain ⟨away, other⟩ := others (Books.mem_spans_of_lit (Books.mem_lit_of_live live)) covers
      rw [touched.bytes p away, outside p other]
      exact kept.written y (Books.mem_live_of_drop _ live) p covers
    cases Books.mem_live_add.mp live with
    | inr other => exact unchanged other
    | inl same =>
        subst same
        exact (inside p covers).symm
  · intro asan p below lit
    have lit : world.poisoned p = false := lit
    have here : x.addr ≤ p → p < x.addr + size →
        ∃ y ∈ (b.put ((b.scope.drop x).add { x with size }) contents).lit, y.Covers p :=
      fun low high => ⟨{ x with size }, Books.mem_lit_add.mpr (.inl rfl), low, high⟩
    by_cases within : x.addr + min x.size size ≤ p ∧ p < x.addr + max x.size size
    · exact here (by omega) ((marked asan p within.1 within.2).mp lit)
    · have away : ¬ Region.Covers
          ⟨x.addr + min x.size size, max x.size size - min x.size size⟩ p := by
        intro covers
        have low : x.addr + min x.size size ≤ p := covers.1
        have high : p < x.addr + min x.size size + (max x.size size - min x.size size) := covers.2
        omega
      rw [touched.poisoned p away] at lit
      by_cases under : Below a.chain p
      · obtain ⟨y, listed, covers⟩ := kept.quiet asan p under lit
        cases (Books.mem_lit_drop contents member).mp listed with
        | inr other => exact ⟨y, Books.mem_lit_add.mpr (.inr other), covers⟩
        | inl same =>
            subst same
            have low : y.addr ≤ p := covers.1
            have high : p < y.addr + y.size := covers.2
            exact here low (by omega)
      · obtain ⟨d, held, low, high⟩ := below
        rw [chain] at under
        cases held with
        | tail _ later => exact absurd ⟨d, .tail _ later, low, high⟩ under
        | head =>
            have low : c.data ≤ p := low
            have high : p < c.data + (x.addr - c.data + build.footprint size) := high
            have dark := kept.sane.dark asan c (State.Shows.mem_chain chain) p
              (Nat.le_of_not_lt fun before => under ⟨c, .head _, low, before⟩) (by omega)
            rw [dark] at lit
            cases lit
  · intro asan lit y shown p covers
    change world.poisoned p = false
    cases Books.mem_lit_add.mp shown with
    | inr other =>
        obtain ⟨away, _⟩ := others (Books.mem_spans_of_lit other) covers
        rw [touched.poisoned p away]
        exact lit y ((Books.mem_lit_drop contents member).mpr (.inr other)) p covers
    | inl same =>
        subst same
        have low : x.addr ≤ p := covers.1
        have high : p < x.addr + size := covers.2
        by_cases within : x.addr + min x.size size ≤ p
        · exact (marked asan p within (by omega)).mpr high
        · rw [touched.poisoned p fun region => within region.1]
          exact lit x ((Books.mem_lit_drop contents member).mpr (.inl rfl)) p
            ⟨low, by omega⟩

/-- The redzone of a live allocation is poisoned. -/
theorem redzone_dark (kept : a.Kept build parent Out b) (asan : build.asan = true) {x : Span}
    (member : x ∈ b.live) {p : Nat} (above : x.addr + x.size ≤ p)
    (below : p < x.addr + build.footprint x.size) : a.world.poisoned p = true := by
  have listed := Books.mem_spans_of_lit (Books.mem_lit_of_live member)
  have region : (x.region build).Covers p := ⟨Nat.le_trans (Nat.le_add_right _ _) above, below⟩
  cases poisoned : a.world.poisoned p with
  | true => rfl
  | false =>
      obtain ⟨y, lit, covers⟩ := kept.quiet asan p (kept.below listed region) poisoned
      have same : x = y := by
        by_contra other
        have symmetric : Std.Symm fun x y : Span => (x.region build).Apart (y.region build) :=
          ⟨fun _ _ => Region.Apart.symm⟩
        have apart := (List.pairwise_map.mp kept.lie.apart).forall listed
          (Books.mem_spans_of_lit lit) other
        exact apart.not_covers region covers.region
      subst same
      exact absurd covers.2 (Nat.not_lt.mpr above)

/-- The last allocation shrinks or grows in place. -/
theorem resizeLast (conforms : parent.Conforms Out) (kept : a.Kept build parent Out b) {x : Span}
    (member : x ∈ b.scope.live) {size : Nat} (filled : 0 < size)
    (done : a.resizeLast build x.addr x.size size = some a') {contents : Nat → UInt8}
    (inside : ∀ p, Span.Covers { x with size } p → contents p = a'.world.bytes p)
    (outside : ∀ p, ¬ Span.Covers { x with size } p → contents p = b.contents p) :
    a.Advances build parent Out b a' (b.put ((b.scope.drop x).add { x with size }) contents) := by
  have laid := kept.sane.laid
  obtain ⟨floor, level⟩ := kept.lie.innermost
  have held := level.held laid member
  unfold Image.resizeLast at done
  split at done
  · cases done
  · case h_2 c cs found =>
      have last := Image.Last.of_lastAt found
      have ends := last.ends
      have above := last.above
      have cursor : c.cursor = c.data + c.used := rfl
      have sizes : build.footprint x.size = x.size + build.redzone ∧
          build.footprint size = size + build.redzone := ⟨rfl, rfl⟩
      have fits := kept.sane.fits c (State.Shows.mem_chain last.chain)
      have used : a.mark.used = a.used := rfl
      split at done
      · case isTrue smaller =>
          cases done
          have sane := Image.Sane.shrinkLast conforms kept.sane found smaller ?_
          · have moved : c.used - (x.size - size) = x.addr - c.data + build.footprint size := by
              omega
            unfold Image.shrinkLast at sane inside ⊢
            rw [moved] at sane ⊢
            have low : min x.size size = size := Nat.min_eq_right smaller
            have high : max x.size size = x.size := Nat.max_eq_left smaller
            refine kept.resized last member filled (by omega) sane (by omega) ?_ ?_ inside outside
            · rw [low, high]
              exact World.dead_touched build _ _ _
            · rw [low, high]
              intro asan p start stop
              rw [World.dead_poisoned asan, if_pos (by omega)]
              constructor
              · intro absurd
                cases absurd
              · omega
          · intro asan p start stop
            exact kept.redzone_dark asan (Books.mem_live.mpr (.inl member)) start (by omega)
      · case isFalse larger =>
          split at done
          · cases done
          · case isFalse room =>
              cases done
              have larger := Nat.le_of_lt (Nat.lt_of_not_le larger)
              have room := Nat.le_of_not_lt room
              have sane := Image.Sane.growLast conforms kept.sane found larger room
              have moved : c.used + (size - x.size) = x.addr - c.data + build.footprint size := by
                omega
              unfold Image.growLast at sane inside ⊢
              rw [moved] at sane ⊢
              have low : min x.size size = x.size := Nat.min_eq_left larger
              have high : max x.size size = size := Nat.max_eq_right larger
              refine kept.resized last member filled (by omega) sane (by omega) ?_ ?_ inside outside
              · rw [low, high]
                exact World.live_touched build _ _ _
              · rw [low, high]
                intro asan p start stop
                rw [World.live_poisoned asan, if_pos (by omega)]
                exact ⟨fun _ => stop, fun _ => rfl⟩

/-- The last allocation is freed. -/
theorem rollBack (conforms : parent.Conforms Out) (kept : a.Kept build parent Out b) {x : Span}
    {c : Cell} {cs : List Cell} (member : x ∈ b.scope.live)
    (found : a.lastAt build x.addr x.size = some (c, cs)) :
    a.Advances build parent Out b (a.rollBack build x.addr x.size c cs)
      (b.put (b.scope.drop x) b.contents) := by
  have last := Image.Last.of_lastAt found
  have chain := last.chain
  have ends := last.ends
  have above := last.above
  have laid := kept.sane.laid
  obtain ⟨floor, level⟩ := kept.lie.innermost
  have held : build.footprint x.size ≤ a.used := level.held laid member
  have cursor : c.cursor = c.data + c.used := rfl
  have fits := kept.sane.fits c (State.Shows.mem_chain chain)
  have mark : a.mark = ⟨c :: cs, a.used⟩ := by rw [Image.mark, chain]
  have level : ∀ floor, Level build floor a.mark b.scope →
      Level build floor (a.rollBack build x.addr x.size c cs).mark (b.scope.drop x) := by
    intro floor level
    rw [mark] at level
    exact level.drop member above ends held
  have steady : (c :: cs).length = a.chain.length := by rw [chain]
  have touched := World.dead_touched build x.addr (build.footprint x.size) a.world
  have away : ∀ {y p}, y ∈ (b.put (b.scope.drop x) b.contents).lit → y.Covers p →
      ¬ Region.Covers ⟨x.addr, build.footprint x.size⟩ p := fun other covers inside =>
    kept.apart_beside member (Books.mem_spans_of_lit other) inside covers.region
  refine
    { kept :=
        { sane := Image.Sane.rollBack conforms kept.sane found ?_
          lie := kept.lie.replace (fun _ => steady) level
          current := kept.current
          written := ?_
          quiet := ?_ }
      lit := ?_
      outer := rfl
      fixed := rfl
      steady := fun _ => ⟨steady, rfl, touched.parent⟩
      tempDepth := rfl
      retains := fun _ => by rw [Image.pieces, Image.cells, chain]; exact id
      supplied := .held (.of_eq (by rw [Image.pieces, Image.pieces, Image.cells, Image.cells, chain]; rfl)) rfl
      carried := fun _ _ _ _ => rfl
      level := level }
  · have counted := kept.sane.counted
    rw [chain, consumed_cons] at counted
    rw [consumed_cons]
    change a.used ≤ x.addr - c.data + consumed cs + build.footprint x.size
    omega
  · intro y live p covers
    rw [Image.rollBack, touched.bytes p (away (Books.mem_lit_of_live live) covers)]
    exact kept.written y (Books.mem_live_of_drop _ live) p covers
  · intro asan p below lit
    change (a.world.dead build x.addr (build.footprint x.size)).poisoned p = false at lit
    rw [World.dead_poisoned asan] at lit
    split at lit
    · cases lit
    · case isFalse outside =>
        have under : Below a.chain p := by
          obtain ⟨d, held, low, high⟩ := below
          rw [chain]
          cases held with
          | tail _ later => exact ⟨d, .tail _ later, low, high⟩
          | head =>
              have high : p < c.data + (x.addr - c.data) := high
              exact ⟨c, .head _, low, by omega⟩
        obtain ⟨y, listed, covers⟩ := kept.quiet asan p under lit
        cases (Books.mem_lit_drop b.contents member).mp listed with
        | inr other => exact ⟨y, other, covers⟩
        | inl same =>
            subst same
            exact absurd covers.region outside
  · intro asan lit y shown p covers
    change (a.world.dead build x.addr (build.footprint x.size)).poisoned p = false
    rw [touched.poisoned p (away shown covers)]
    exact lit y ((Books.mem_lit_drop b.contents member).mpr (.inr shown)) p covers

/-- A free of an allocation that is not the last. -/
theorem ignored (kept : a.Kept build parent Out b) {x : Span} (member : x ∈ b.scope.live) :
    a.Advances build parent Out b a (b.put (b.scope.ignore x) b.contents) := by
  have level : ∀ floor, Level build floor a.mark b.scope →
      Level build floor a.mark (b.scope.ignore x) := fun floor level => level.ignore member
  have same : ∀ {y}, y ∈ (b.put (b.scope.ignore x) b.contents).lit ↔ y ∈ b.lit := by
    intro y
    rw [Books.mem_lit_put, Books.mem_lit]
    exact or_congr_left (Ledger.lit_perm_ignore member).mem_iff.symm
  refine
    { kept :=
        { sane := kept.sane
          lie := kept.lie.replace (fun _ => rfl) level
          current := kept.current
          written := fun y live => kept.written y (Books.mem_live_of_drop b.contents live)
          quiet := fun asan p below lit => ?_ }
      lit := fun asan lit y shown => lit y (same.mp shown)
      outer := rfl
      fixed := rfl
      steady := fun _ => .refl a
      tempDepth := rfl
      retains := fun _ => id
      supplied := .refl a
      carried := fun _ _ _ _ => rfl
      level := level }
  obtain ⟨y, listed, covers⟩ := kept.quiet asan p below lit
  exact ⟨y, same.mpr listed, covers⟩

/-- A reallocation leaves its source behind. -/
theorem abandoned (conforms : parent.Conforms Out) (kept : a.Kept build parent Out b) {x : Span}
    (member : x ∈ b.scope.live) :
    a.Advances build parent Out b
      { a with used := a.used - x.size, world := a.world.dead build x.addr x.size }
      (b.put (b.scope.abandon x) b.contents) := by
  have laid := kept.sane.laid
  obtain ⟨floor, level⟩ := kept.lie.innermost
  have held : x.size ≤ a.used := Nat.le_trans (Nat.le_add_right _ _) (level.held laid member)
  have placed := (level.placed x (Ledger.mem_spans_of_live member)).mono (Nat.le_refl _)
    (Nat.add_le_add_left (Nat.le_add_right x.size build.redzone) _)
  have level : ∀ floor, Level build floor a.mark b.scope →
      Level build floor { a.mark with used := a.used - x.size } (b.scope.abandon x) :=
    fun floor level => level.abandon member held
  have touched := World.dead_touched build x.addr x.size a.world
  have same : ∀ {y}, y ∈ (b.put (b.scope.abandon x) b.contents).lit ↔
      y ∈ (b.put (b.scope.drop x) b.contents).lit := Iff.rfl
  have away : ∀ {y p}, y ∈ (b.put (b.scope.drop x) b.contents).lit → y.Covers p →
      ¬ Region.Covers ⟨x.addr, x.size⟩ p := fun other covers inside =>
    kept.apart_beside member (Books.mem_spans_of_lit other) (Span.Covers.region inside)
      covers.region
  refine
    { kept :=
        { sane := kept.sane.bury conforms placed (Nat.sub_le _ _)
          lie := kept.lie.replace (fun _ => rfl) level
          current := kept.current
          written := ?_
          quiet := ?_ }
      lit := ?_
      outer := rfl
      fixed := rfl
      steady := fun _ => ⟨rfl, rfl, touched.parent⟩
      tempDepth := rfl
      retains := fun _ => id
      supplied := .held (.refl _) rfl
      carried := fun _ _ _ _ => rfl
      level := level }
  · intro y live p covers
    have live : y ∈ (b.put (b.scope.drop x) b.contents).live := live
    rw [touched.bytes p (away (Books.mem_lit_of_live live) covers)]
    exact kept.written y (Books.mem_live_of_drop _ live) p covers
  · intro asan p below lit
    change (a.world.dead build x.addr x.size).poisoned p = false at lit
    rw [World.dead_poisoned asan] at lit
    split at lit
    · cases lit
    · case isFalse outside =>
        obtain ⟨y, listed, covers⟩ := kept.quiet asan p below lit
        cases (Books.mem_lit_drop b.contents member).mp listed with
        | inr other => exact ⟨y, same.mpr other, covers⟩
        | inl same =>
            subst same
            exact absurd covers outside
  · intro asan lit y shown p covers
    change (a.world.dead build x.addr x.size).poisoned p = false
    rw [touched.poisoned p (away (same.mp shown) covers)]
    exact lit y ((Books.mem_lit_drop b.contents member).mpr (.inr (same.mp shown))) p covers

end Image.Kept

end AgencC.Arena
