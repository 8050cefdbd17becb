import AgencC.Arena.Custody
import AgencC.Arena.Refinement
import AgencC.Arena.Session

/-! Each public call does to an arena and its client's books what its image does. -/

set_option autoImplicit false

namespace AgencC.Arena

open Library

variable {σ : Type} {build : Build} {parent : AllocT σ} {Out : World σ → List Region → Prop}
  {a a' a'' : Image σ} {b b' b'' : Books} {s : State σ}

/-- A call, and then one that obtains no block. -/
theorem Image.Advances.then_held (first : a.Advances build parent Out b a' b')
    (second : a'.Advances build parent Out b' a'' b'') (pieces : a''.pieces.Perm a'.pieces)
    (sizes : a''.sizes = a'.sizes) : a.Advances build parent Out b a'' b'' where
  kept := second.kept
  lit asan shown := second.lit asan (first.lit asan shown)
  outer := second.outer.trans first.outer
  fixed := second.fixed.trans first.fixed
  steady fixed := (first.steady fixed).trans (second.steady (first.fixed.trans fixed))
  tempDepth := second.tempDepth.trans first.tempDepth
  retains _ held := second.retains (first.retains held)
  supplied := first.supplied.then_held pieces sizes
  carried x member p covers := by
    have later : x ∈ b'.suspended := by
      rw [Books.suspended, first.outer]
      exact member
    exact (second.carried x later p covers).trans (first.carried x member p covers)
  level floor level := second.level floor (first.level floor level)

/-! Allocation. -/

theorem carry_outside {contents bytes : Nat → UInt8} {source keep : Nat} {x : Span} {p : Nat}
    (outside : ¬ x.Covers p) : carry contents bytes source keep x p = contents p :=
  if_neg outside

theorem carry_fresh {contents bytes : Nat → UInt8} {source keep : Nat} {x : Span} {p : Nat}
    (inside : x.Covers p) (past : x.addr + keep ≤ p) :
    carry contents bytes source keep x p = bytes p :=
  (if_pos inside).trans (if_neg (Nat.not_lt.mpr past))

theorem carry_kept {contents bytes : Nat → UInt8} {source keep : Nat} {x : Span} {p : Nat}
    (inside : x.Covers p) (before : p < x.addr + keep) :
    carry contents bytes source keep x p = contents (source + (p - x.addr)) :=
  (if_pos inside).trans (if_pos before)

theorem Image.Kept.allocated (conforms : parent.Conforms Out) (kept : a.Kept build parent Out b)
    (sane : a'.Sane build parent Out) {ptr size align : Nat} {world : World σ}
    (took : a.Took build size (alignEffective build align) ptr a') (some : 0 < size)
    (fine : build.asan = true → blockAlign ∣ alignEffective build align)
    (written : a'.world.Touched ⟨ptr, size⟩ world) (poisoned : world.poisoned = a'.world.poisoned) :
    a.Advances build parent Out b { a' with world }
      (b.allocated ptr size align world.bytes) := by
  rw [Books.allocated, if_neg took.nonzero]
  refine kept.took conforms sane (x := { addr := ptr, size, align }) _ _ took some fine written poisoned ?_ ?_
  · exact fun p covers => carry_fresh covers covers.1
  · exact fun p outside => carry_outside outside

/-- What the image of an allocating call does. -/
def Request.image (build : Build) : Request → Image σ → Except Fault (Nat × Image σ)
  | .alloc size => Image.allocImpl build 1 size 0
  | .allocZeroed size => Image.allocNZeroed build 1 size 0
  | .allocN count size align => Image.allocImpl build count size align
  | .allocNZeroed count size align => Image.allocNZeroed build count size align
  | .memdup src size => Image.memdup build src size
  | .xalloc size align => Image.allocImpl build 1 size align

theorem Request.run_refines (conforms : parent.Conforms Out) (shows : s.Shows a)
    (sane : a.Sane build parent Out) (request : Request) (word : request.align ≤ sizeMax) :
    Refines (request.run build s) (request.image build a) := by
  cases request with
  | alloc size => exact allocDefault_refines conforms shows sane size
  | allocZeroed size => exact allocZeroed_refines conforms shows sane size
  | allocN count size align => exact allocImpl_refines conforms shows sane count size word
  | allocNZeroed count size align => exact allocNZeroed_refines conforms shows sane word
  | memdup src size => exact memdup_refines conforms shows sane src size
  | xalloc size align => exact allocImpl_refines conforms shows sane 1 size word

/-- A call with nothing to show for it. -/
theorem Image.Kept.refused (kept : a.Kept build parent Out b) (unserved : a.Unserved Out a')
    (size align : Nat) : a.Advances build parent Out b a' (b.allocated 0 size align a'.world.bytes) :=
  kept.unserved unserved

theorem Image.Kept.allocImpl (conforms : parent.Conforms Out) (kept : a.Kept build parent Out b)
    (count size : Nat) {align ptr : Nat} (word : align ≤ sizeMax)
    (ran : a.allocImpl build count size align = .ok (ptr, a')) :
    a.Advances build parent Out b a' (b.allocated ptr (count * size) align a'.world.bytes) := by
  obtain ⟨ptr', a'', ran', sane, outcome⟩ := kept.sane.allocImpl conforms count size word
  cases ran.symm.trans ran'
  cases outcome with
  | inl refused =>
      obtain ⟨rfl, unserved⟩ := refused
      exact kept.refused unserved _ _
  | inr served =>
      obtain ⟨_, some, valid, took⟩ := served
      exact kept.allocated conforms sane took some (alignEffective_fine word valid) (.refl _ _) rfl

/-- How an allocating call goes: as `arena_alloc_n`, and then other bytes in the block it
got; a copy of no source is rejected before. -/
inductive Request.Goes (build : Build) (request : Request) (a : Image σ) (ptr : Nat) :
    Image σ → Prop where
  | refused {count size : Nat} {a' : Image σ} (product : count * size = request.total)
      (ran : a.allocImpl build count size request.align = .ok (ptr, a')) (none : ptr = 0) :
      Goes build request a ptr a'
  | written {count size : Nat} {b : Image σ} {world : World σ}
      (product : count * size = request.total)
      (ran : a.allocImpl build count size request.align = .ok (ptr, b)) (given : ptr ≠ 0)
      (touched : b.world.Touched ⟨ptr, request.total⟩ world)
      (poisoned : world.poisoned = b.world.poisoned) : Goes build request a ptr { b with world }
  | rejected (ready : a.status = .ok) (some : 0 < request.total) (none : ptr = 0) :
      Goes build request a ptr (a.fail .errArg)

theorem Request.Goes.plain {request : Request} {count size ptr : Nat}
    (product : count * size = request.total)
    (ran : a.allocImpl build count size request.align = .ok (ptr, a')) :
    request.Goes build a ptr a' := by
  by_cases null : ptr = 0
  · exact .refused product ran null
  · exact .written product ran null (.refl _ _) rfl

theorem Request.Goes.zeroed {request : Request} {count size ptr : Nat}
    (product : count * size = request.total)
    (ran : a.allocNZeroed build count size request.align = .ok (ptr, a')) :
    request.Goes build a ptr a' := by
  obtain ⟨⟨fresh, b⟩, served, rest⟩ := bind_eq_ok.mp ran
  by_cases null : fresh = 0
  · cases (if_pos null).symm.trans rest
    subst null
    exact .refused product served rfl
  · cases (if_neg null).symm.trans rest
    exact .written product served null (product ▸ World.memset_touched _ _ _ _) rfl

theorem Request.Goes.memdup {src size ptr : Nat}
    (ran : a.memdup build src size = .ok (ptr, a')) :
    (Request.memdup src size).Goes build a ptr a' := by
  unfold Image.memdup at ran
  by_cases ready : a.status = .ok
  · rw [if_neg (not_not_intro ready)] at ran
    by_cases missing : src = 0 ∧ size ≠ 0
    · cases (if_pos missing).symm.trans ran
      exact .rejected ready (Nat.pos_of_ne_zero missing.2) rfl
    · obtain ⟨⟨fresh, b⟩, served, rest⟩ := bind_eq_ok.mp ((if_neg missing).symm.trans ran)
      by_cases null : fresh = 0
      · cases (if_pos null).symm.trans rest
        subst null
        exact .refused (Nat.one_mul size) served rfl
      · cases (if_neg null).symm.trans rest
        exact .written (Nat.one_mul size) served null (World.memcpy_touched _ _ _ _) rfl
  · cases (if_pos ready).symm.trans ran
    exact .refused (Nat.one_mul size) (if_pos ready) rfl

theorem Request.image_goes {request : Request} {ptr : Nat}
    (ran : request.image build a = .ok (ptr, a')) : request.Goes build a ptr a' := by
  cases request with
  | alloc size => exact .plain (Nat.one_mul size) ran
  | allocZeroed size => exact .zeroed (Nat.one_mul size) ran
  | allocN count size align => exact .plain rfl ran
  | allocNZeroed count size align => exact .zeroed rfl ran
  | memdup src size => exact .memdup ran
  | xalloc size align => exact .plain (Nat.one_mul size) ran

theorem Image.Kept.request (conforms : parent.Conforms Out) (kept : a.Kept build parent Out b)
    {request : Request} (word : request.align ≤ sizeMax) {ptr : Nat}
    (ran : request.image build a = .ok (ptr, a')) :
    a.Advances build parent Out b a'
      (b.allocated ptr request.total request.align a'.world.bytes) := by
  cases Request.image_goes ran with
  | refused product served none => exact product ▸ kept.allocImpl conforms _ _ word served
  | @written count size c world product served given touched poisoned =>
      obtain ⟨ptr', a'', again, sane, outcome⟩ := kept.sane.allocImpl conforms count size word
      cases served.symm.trans again
      cases outcome with
      | inl refused => exact absurd refused.1 given
      | inr taken =>
          obtain ⟨_, some, valid, took⟩ := taken
          rw [product] at some took
          exact kept.allocated conforms sane took some (alignEffective_fine word valid) touched
            poisoned
  | rejected _ _ none =>
      subst none
      exact kept.refused (.fail (.refl kept.sane.toOwned) .errArg) _ _

/-! Reallocation. -/

theorem Image.resizeLast_bytes {ptr oldSize newSize p : Nat}
    (done : a.resizeLast build ptr oldSize newSize = some a')
    (before : p < ptr + min oldSize newSize) : a'.world.bytes p = a.world.bytes p := by
  unfold Image.resizeLast at done
  split at done
  · cases done
  · split at done
    · case isTrue smaller =>
        cases done
        refine (World.dead_touched build _ _ a.world).bytes p fun covers => ?_
        have low : ptr + newSize ≤ p := covers.1
        omega
    · case isFalse larger =>
        split at done
        · cases done
        · cases done
          refine (World.live_touched build _ _ a.world).bytes p fun covers => ?_
          have low : ptr + oldSize ≤ p := covers.1
          omega

theorem Image.Kept.reallocMove (conforms : parent.Conforms Out) (kept : a.Kept build parent Out b)
    {ptr oldSize newSize align fresh : Nat} (given : ptr ≠ 0) (word : align ≤ sizeMax)
    (member : { addr := ptr, size := oldSize, align } ∈ b.scope.live)
    (ran : a.reallocMove build ptr oldSize newSize align = .ok (fresh, a')) :
    a.Advances build parent Out b a'
      (b.reallocated ptr oldSize newSize align fresh a'.world.bytes) := by
  obtain ⟨fresh', a₁, ran', sane, outcome⟩ := kept.sane.allocImpl conforms 1 newSize word
  rw [Image.reallocMove, ran', ok_bind] at ran
  cases outcome with
  | inl refused =>
      obtain ⟨rfl, unserved⟩ := refused
      cases ran
      exact kept.unserved unserved
  | inr served =>
      obtain ⟨_, some, valid, took⟩ := served
      rw [Nat.one_mul] at some took
      cases (if_neg took.nonzero).symm.trans ran
      have listed : (⟨ptr, oldSize, align⟩ : Span) ∈ b.live := Books.mem_live.mpr (.inl member)
      have filled := (kept.lie.placed _ (Books.mem_spans_of_lit (Books.mem_lit_of_live listed))).2
      have old : ∀ {p}, ptr ≤ p → p < ptr + oldSize → Below a.chain p := fun low high =>
        kept.lit_below (Books.mem_lit_of_live listed) ⟨low, high⟩
      have away : ∀ {p}, fresh ≤ p → p < fresh + newSize → ¬ (ptr ≤ p ∧ p < ptr + oldSize) :=
        fun low high inside =>
          took.fresh _ low (Nat.lt_of_lt_of_le high (Nat.add_le_add_left (Nat.le_add_right _ _) _))
            (old inside.1 inside.2)
      have other : fresh ≠ ptr := by
        intro same
        subst same
        exact away (Nat.le_refl _) (Nat.lt_add_of_pos_right some)
          ⟨Nat.le_refl _, Nat.lt_add_of_pos_right filled⟩
      have moved : ∀ {p}, fresh ≤ p → p < fresh + newSize →
          (((a₁.world.memcpy fresh ptr (min oldSize newSize)).dead build ptr oldSize).bytes p =
            (a₁.world.memcpy fresh ptr (min oldSize newSize)).bytes p) := fun low high =>
        (World.dead_touched build ptr oldSize _).bytes _ (away low high)
      rw [Books.reallocated, if_neg took.nonzero, if_neg given, if_neg other]
      have carried := kept.took conforms sane (x := { addr := fresh, size := newSize, align })
        (a₁.world.memcpy fresh ptr (min oldSize newSize))
        (carry b.contents (a₁.abandon build ptr oldSize fresh newSize).world.bytes ptr
          (min oldSize newSize) { addr := fresh, size := newSize, align }) took some
        (alignEffective_fine word valid)
        ((World.memcpy_touched _ _ _ _).mono ⟨Nat.le_refl _, by dsimp only; omega⟩) rfl ?_ ?_
      · exact carried.then_held (carried.kept.abandoned conforms (List.mem_cons_of_mem _ member))
          (.refl _) rfl
      · intro p covers
        have low : fresh ≤ p := covers.1
        have high : p < fresh + newSize := covers.2
        by_cases before : p < fresh + min oldSize newSize
        · have source : ptr + (p - fresh) < ptr + oldSize := by omega
          have start : ptr ≤ ptr + (p - fresh) := Nat.le_add_right _ _
          rw [carry_kept covers before]
          calc b.contents (ptr + (p - fresh)) = a.world.bytes (ptr + (p - fresh)) :=
                (kept.written _ listed _ ⟨start, source⟩).symm
            _ = a₁.world.bytes (ptr + (p - fresh)) := (took.kept _ (old start source)).1.symm
            _ = (a₁.world.memcpy fresh ptr (min oldSize newSize)).bytes p :=
                (if_pos ⟨low, before⟩).symm
        · rw [carry_fresh covers (Nat.le_of_not_lt before)]
          exact moved low high
      · exact fun p outside => carry_outside outside

theorem Image.Kept.realloc (conforms : parent.Conforms Out) (kept : a.Kept build parent Out b)
    {ptr oldSize newSize align fresh : Nat} (word : align ≤ sizeMax)
    (owned : ptr = 0 ∧ oldSize = 0 ∨ { addr := ptr, size := oldSize, align } ∈ b.scope.live)
    (ran : a.realloc build ptr oldSize newSize align = .ok (fresh, a')) :
    a.Advances build parent Out b a'
      (b.reallocated ptr oldSize newSize align fresh a'.world.bytes) := by
  have still := Image.Refused.refl kept.sane.toOwned
  unfold Image.realloc at ran
  by_cases ready : a.status = .ok
  · rw [if_neg (not_not_intro ready)] at ran
    by_cases invalid : (!alignValid align) = true
    · cases (if_pos invalid).symm.trans ran
      exact kept.unserved (.fail still .errArg)
    · rw [if_neg invalid] at ran
      by_cases empty : newSize = 0
      · cases (if_pos empty).symm.trans ran
        exact kept.unserved (.fail still .errArg)
      · rw [if_neg empty] at ran
        by_cases null : ptr = 0
        · rw [if_pos null] at ran
          have advanced := kept.allocImpl conforms 1 newSize word ran
          rw [Nat.one_mul] at advanced
          rw [Books.reallocated, if_pos null]
          by_cases refused : fresh = 0
          · rw [if_pos refused]
            rw [Books.allocated, if_pos refused] at advanced
            exact advanced
          · rw [if_neg refused]
            exact advanced
        · rw [if_neg null] at ran
          have member : (⟨ptr, oldSize, align⟩ : Span) ∈ b.scope.live :=
            owned.resolve_left fun absent => null absent.1
          by_cases large : ptrdiffMax < newSize
          · cases (if_pos large).symm.trans ran
            exact kept.unserved (.fail still .errOverflow)
          · rw [if_neg large] at ran
            cases done : a.resizeLast build ptr oldSize newSize with
            | none =>
                rw [done] at ran
                exact kept.reallocMove conforms null word member ran
            | some resized =>
                rw [done] at ran
                cases ran
                rw [Books.reallocated, if_neg null, if_neg null, if_pos rfl]
                refine kept.resizeLast conforms member (Nat.pos_of_ne_zero empty) done ?_ ?_
                · intro p covers
                  have low : ptr ≤ p := covers.1
                  by_cases before : p < ptr + min oldSize newSize
                  · have listed : (⟨ptr, oldSize, align⟩ : Span) ∈ b.live :=
                      Books.mem_live.mpr (.inl member)
                    have same : ptr + (p - ptr) = p := Nat.add_sub_cancel' low
                    have start : p < ptr + oldSize := by omega
                    rw [carry_kept covers before, Image.resizeLast_bytes done before, same]
                    exact (kept.written _ listed p ⟨low, start⟩).symm
                  · exact carry_fresh covers (Nat.le_of_not_lt before)
                · exact fun p outside => carry_outside outside
  · cases (if_pos ready).symm.trans ran
    exact kept.unserved (.refl kept.sane.toOwned)

/-- What `arena_realloc` needs to know of the pointer it is given. -/
theorem Image.Kept.resizable (kept : a.Kept build parent Out b) {ptr oldSize align : Nat}
    (owned : ptr = 0 ∧ oldSize = 0 ∨ { addr := ptr, size := oldSize, align } ∈ b.scope.live) :
    (ptr = 0 → oldSize = 0) ∧ (ptr ≠ 0 → Placed a.chain ptr oldSize ∧ oldSize ≤ a.used) := by
  cases owned with
  | inl null => exact ⟨fun _ => null.2, fun given => absurd null.1 given⟩
  | inr member =>
      obtain ⟨floor, level⟩ := kept.lie.innermost
      have placed : Placed a.chain ptr (build.footprint oldSize) :=
        level.placed _ (Ledger.mem_spans_of_live member)
      have held : build.footprint oldSize ≤ a.used := level.held kept.sane.laid member
      refine ⟨fun null => ?_, fun _ => ⟨?_, Nat.le_trans (Nat.le_add_right _ _) held⟩⟩
      · obtain ⟨c, listed, above, _⟩ := placed
        have nonzero := (kept.sane.inside c (List.mem_append_left _ listed)).1
        unfold Cell.data at above
        omega
      · exact placed.mono (Nat.le_refl _) (Nat.add_le_add_left (Nat.le_add_right _ _) _)

/-! Freeing. -/

theorem Image.Kept.xfree (conforms : parent.Conforms Out) (kept : a.Kept build parent Out b)
    {ptr size align : Nat} (given : ptr ≠ 0)
    (member : { addr := ptr, size, align } ∈ b.scope.live) :
    a.Advances build parent Out b (a.xfree build ptr size)
      (b.freed ptr size align ((a.xfree build ptr size).used = a.used)) := by
  rw [Books.freed, if_neg given]
  cases found : a.lastAt build ptr size with
  | none =>
      have done : a.xfree build ptr size = a := by rw [Image.xfree, found]
      rw [done, decide_eq_true rfl]
      exact kept.ignored member
  | some last =>
      obtain ⟨c, cs⟩ := last
      have done : a.xfree build ptr size = a.rollBack build ptr size c cs := by
        rw [Image.xfree, found]
      obtain ⟨floor, level⟩ := kept.lie.innermost
      have held : build.footprint size ≤ a.used := level.held kept.sane.laid member
      have filled : 0 < build.footprint size :=
        Build.footprint_pos (level.filled _ (Ledger.mem_spans_of_live member))
      have lowered : ¬ (a.rollBack build ptr size c cs).used = a.used := by
        change ¬ a.used - build.footprint size = a.used
        omega
      rw [done, decide_eq_false lowered]
      exact kept.rollBack conforms (x := { addr := ptr, size, align }) member found

/-! Scopes. -/

theorem Image.Kept.begun (kept : a.Kept build parent Out b) :
    a.tempBegin.2.Kept build parent Out (b.begun a.tempBegin.1) where
  sane := { { kept.sane with } with counted := kept.sane.counted, peak := kept.sane.peak }
  lie := .scope (.start a.mark) ⟨rfl, rfl⟩ rfl (fun _ => rfl) kept.lie
  current := List.forall_mem_cons.mpr ⟨rfl, kept.current⟩
  written := kept.written
  quiet := kept.quiet

/-- The innermost scope ends: the arena is as it was when the scope began. -/
theorem Image.Kept.ended (conforms : parent.Conforms Out) (kept : a.Kept build parent Out b)
    {temp : TempT} {outer : Ledger} {rest : Suspended} (inner : b.outer = (temp, outer) :: rest) :
    ∃ floor a', a.tempEnd build temp = .ok a' ∧ a'.mark = floor ∧
      Grown floor.chain a.chain ∧ temp.Marks floor.chain ∧
      (a.fixed = true → floor.chain.length = a.chain.length) ∧ temp.used ≤ a.used ∧
      a.Unwound temp floor.chain a' ∧ a'.Kept build parent Out (b.ended outer rest) ∧
      (build.asan = true → a.Lit b → a'.Lit (b.ended outer rest)) := by
  have lie := kept.lie
  rw [Books.Lie, inner] at lie
  obtain ⟨floor, grown, marks, used, same, lower, under⟩ :=
    lie.unwind kept.sane.laid (Nat.succ_pos _)
  have counted := under.counted
  obtain ⟨a', ran, sane, unwound⟩ := kept.sane.tempEnd conforms grown marks same
    (used ▸ lower) (by omega)
  have mark : a'.mark = floor := by
    rw [Image.mark, unwound.chain, unwound.used, used]
  have books : ∀ {x}, x ∈ (b.ended outer rest).lit → x ∈ b.lit := by
    intro x member
    rw [Books.mem_lit, inner]
    exact .inr member
  have live : ∀ {x}, x ∈ (b.ended outer rest).live → x ∈ b.live := by
    intro x member
    rw [Books.mem_live, inner]
    exact .inr member
  have below : ∀ {x p}, x ∈ (b.ended outer rest).lit → x.Covers p → Below floor.chain p :=
    fun member covers =>
      (under.placed _ (Books.mem_spans_of_lit member)).1.below_region covers.region
  refine ⟨floor, a', ran, mark, grown, marks, same, used ▸ lower, unwound,
    ⟨sane, ?_, ?_, ?_, ?_⟩, ?_⟩
  · rw [Books.Lie, mark, unwound.fixed]
    exact under
  · intro entry member
    rw [unwound.generation]
    exact kept.current entry (inner ▸ .tail _ member)
  · intro x member p covers
    rw [(unwound.kept p (below (Books.mem_lit_of_live member) covers)).1]
    exact kept.written x (live member) p covers
  · intro asan p under' lit
    rw [unwound.chain] at under'
    rw [(unwound.kept p under').2] at lit
    obtain ⟨x, member, covers⟩ := kept.quiet asan p (grown.still_below under') lit
    refine ⟨x, ?_, covers⟩
    rw [Books.mem_lit, inner] at member
    cases member with
    | inr outside => exact outside
    | inl here =>
        -- What the scope allocated lies above where it began.
        cases lie with
        | scope level marks' used' same' under'' =>
            refine absurd ?_ (level.fresh x (List.mem_append_left _ here) p covers.region)
            rw [marks'.unique marks kept.sane.toOwned level.grown grown]
            exact under'
  · intro _ shown x member p covers
    rw [(unwound.kept p (below member covers)).2]
    exact shown x (books member) p covers

/-! The end of everything. -/

theorem used_le_consumed {chain : List Cell} {c : Cell} (member : c ∈ chain) :
    c.used ≤ consumed chain := by
  induction chain with
  | nil => cases member
  | cons d ds ih =>
      rw [consumed_cons]
      cases member with
      | head => exact Nat.le_add_right _ _
      | tail _ later => exact Nat.le_trans (ih later) (Nat.le_add_left _ _)

/-- An arena with nothing below its cursors keeps empty books. -/
theorem Image.Kept.closed (sane : a.Sane build parent Out) (unused : consumed a.chain = 0)
    (none : a.used = 0) (b : Books) : a.Kept build parent Out b.closed where
  sane := sane
  lie := by
    refine .bottom ?_
    rw [Image.mark, none]
    exact .bottom a.chain unused
  current _ member := nomatch member
  written _ member := nomatch member
  quiet _ p below := by
    obtain ⟨c, member, low, high⟩ := below
    have part : c.used ≤ consumed a.chain := used_le_consumed member
    change p < c.data + c.used at high
    omega

theorem Books.closed_lit (b : Books) : a.Lit b.closed := fun _ member => nomatch member

theorem Image.Kept.reset (conforms : parent.Conforms Out) (kept : a.Kept build parent Out b) :
    ∃ a', a.reset build = .ok a' ∧ a.Rewound a' ∧ a'.Kept build parent Out b.closed := by
  obtain ⟨a', ran, sane, rewound⟩ := kept.sane.reset conforms
  refine ⟨a', ran, rewound, Image.Kept.closed sane ?_ rewound.used b⟩
  rw [rewound.chain]
  cases oldestNormal a.chain <;> rfl

/-! Calls that leave the books alone. -/

/-- What a trim leaves of the arena. -/
structure Image.Trimmed (a a' : Image σ) : Prop where
  chain : a'.chain = a.chain
  spare : a'.free ⊆ a.free
  used : a'.used = a.used
  tempDepth : a'.tempDepth = a.tempDepth
  generation : a'.generation = a.generation
  status : a'.status = a.status
  fixed : a'.fixed = a.fixed
  sizes : a'.sizes = a.sizes
  committed : a.fixed = true → a'.committed = a.committed
  calm : a.fixed = true → a'.world.parent = a.world.parent
  kept : ∀ x, Below a.chain x →
    a'.world.bytes x = a.world.bytes x ∧ a'.world.poisoned x = a.world.poisoned x

theorem Image.Kept.trim (conforms : parent.Conforms Out) (kept : a.Kept build parent Out b) :
    ∃ a', a.trim build = .ok a' ∧ a.Trimmed a' ∧ a'.Kept build parent Out b := by
  obtain ⟨committed, world, ran, sane, keeps, owed⟩ := kept.sane.trim conforms
  have same : ∀ p, Below a.chain p →
      world.bytes p = a.world.bytes p ∧ world.poisoned p = a.world.poisoned p := by
    intro p below
    obtain ⟨c, member, covers, _⟩ := kept.sane.covers_of_below below
    exact keeps c.region (List.mem_map_of_mem member) p covers
  refine ⟨_, ran, ⟨rfl, List.nil_subset _, rfl, rfl, rfl, rfl, rfl, rfl,
      fun fixed => (owed fixed).1, fun fixed => (owed fixed).2, same⟩,
    ⟨sane, kept.lie, kept.current, ?_, ?_⟩⟩
  · intro x member p covers
    exact (same p (kept.lit_below (Books.mem_lit_of_live member) covers)).1.trans
      (kept.written x member p covers)
  · intro asan p below lit
    exact kept.quiet asan p below ((same p below).2.symm.trans lit)

theorem Image.Kept.clearError (kept : a.Kept build parent Out b) :
    a.Advances build parent Out b a.clearError b where
  kept :=
    { sane := { { kept.sane with } with counted := kept.sane.counted, peak := kept.sane.peak }
      lie := kept.lie
      current := kept.current
      written := kept.written
      quiet := kept.quiet }
  lit _ shown := shown
  outer := rfl
  fixed := rfl
  steady _ := ⟨rfl, rfl, rfl⟩
  tempDepth := rfl
  retains _ := id
  supplied := .held (.refl _) rfl
  carried _ _ _ _ := rfl
  level _ level := level

/-- What happens elsewhere. -/
theorem Image.Kept.elsewhere (kept : a.Kept build parent Out b) {world : World σ}
    (out : a.fixed = false → Out world a.regions)
    (poisoned : ∀ r ∈ a.regions, ∀ p, r.Covers p → (∀ x ∈ b.live, ¬ x.Covers p) →
      world.poisoned p = a.world.poisoned p) :
    Image.Kept build parent Out { a with world } { b with contents := world.bytes } := by
  -- What is live lies below a cursor, so nothing above one changed.
  have still : ∀ c ∈ a.cells, ∀ p, c.region.Covers p → (∀ x ∈ b.live, ¬ x.Covers p) →
      world.poisoned p = a.world.poisoned p := fun c member =>
    poisoned c.region (List.mem_map_of_mem member)
  have owned := kept.sane.toOwned
  have dark : build.asan = true → ∀ c ∈ a.cells, c.Dark world := ?_
  · refine
      { sane := ⟨{ owned with out := out, dark := dark }, kept.sane.counted, kept.sane.peak⟩
        lie := kept.lie
        current := kept.current
        written := fun _ _ _ _ => rfl
        quiet := ?_ }
    intro asan p below lit
    by_cases live : ∃ x ∈ b.live, x.Covers p
    · obtain ⟨x, member, covers⟩ := live
      exact ⟨x, Books.mem_lit_of_live member, covers⟩
    · obtain ⟨c, member, covers, _⟩ := kept.sane.covers_of_below below
      refine kept.quiet asan p below ?_
      rw [← still c (List.mem_append_left _ member) p covers
        fun x listed inside => live ⟨x, listed, inside⟩]
      exact lit
  · intro asan c member p above below
    have covers := c.covers_of_data (Nat.le_trans (Nat.le_add_right _ _) above) below
    change world.poisoned p = true
    rw [still c member p covers fun x live inside => ?_]
    · exact kept.sane.dark asan c member p above below
    · obtain ⟨d, held, there, low, high⟩ := kept.sane.covers_of_below
        (kept.lit_below (Books.mem_lit_of_live live) inside)
      have same := kept.sane.eq_of_covers member (List.mem_append_left _ held) covers there
      subst same
      exact absurd high (Nat.not_lt.mpr above)

end AgencC.Arena
