import AgencC.Arena.Movements

/-! A temp scope, whatever is done in it, leaves the arena as it was. -/

set_option autoImplicit false

namespace AgencC.Arena

open Library

variable {σ : Type} {build : Build} {parent : AllocT σ} {Out : World σ → List Region → Prop}

namespace Nested

variable {fixed : Bool} {base top : Mark} {under outer : Suspended} {l : Ledger}

theorem suffix (nested : Nested build fixed base under top l outer) :
    ∃ inner, outer = inner ++ under := by
  induction nested with
  | bottom level => exact ⟨[], rfl⟩
  | scope level marks used same nested ih =>
      obtain ⟨inner, rfl⟩ := ih
      exact ⟨_ :: inner, rfl⟩

/-- Where no inner scope is open, one level lies on the base. -/
theorem exact (nested : Nested build fixed base under top l outer)
    (whole : outer.length = under.length) : outer = under ∧ Level build base top l := by
  cases nested with
  | bottom level => exact ⟨rfl, level⟩
  | scope level marks used same nested =>
      have lower := nested.length_le
      rw [← whole] at lower
      exact absurd lower (Nat.not_succ_le_self _)

end Nested

/-- A legal call inside the scope that begins at `s`: it ends inner scopes only, and nobody writes
to what was live when the scope began. -/
structure Op.Inside (Out : World σ → List Region → Prop) (s now : Session σ) (op : Op σ) : Prop where
  legal : op.Legal Out now
  shallow : op.Shallow now
  ongoing : op.Ongoing
  inner : op = .tempEnd → s.books.outer.length + 1 < now.books.outer.length
  spares : ∀ world, op = .elsewhere world → ∀ x ∈ s.books.live, ∀ p, x.Covers p →
    world.bytes p = now.state.world.bytes p

variable (build) in
/-- `now` is in the scope that began at `t`. -/
structure Account.Above (t now : Account σ) : Prop where
  nested : Nested build t.image.fixed t.image.mark ((t.image.tempBegin.1, t.books.scope) :: t.books.outer)
    now.image.mark now.books.scope now.books.outer
  fixed : now.image.fixed = t.image.fixed
  contents : ∀ x ∈ t.books.live, ∀ p, x.Covers p → now.books.contents p = t.books.contents p

namespace Account.Above

variable {t now now' : Account σ}

theorem start (t : Account σ) :
    t.Above build { image := t.image.tempBegin.2, books := t.books.begun t.image.tempBegin.1 } where
  nested := .bottom (.start t.image.mark)
  fixed := rfl
  contents _ _ _ _ := rfl

/-- What was live when the scope began is suspended. -/
theorem suspended (above : t.Above build now) {x : Span} (member : x ∈ t.books.live) :
    x ∈ now.books.suspended := by
  obtain ⟨inner, outer⟩ := above.nested.suffix
  rw [Books.suspended, outer, List.map_append, List.flatMap_append]
  exact List.mem_append_right _ member

theorem step {s m : Session σ} (shows : s.Shows t) (shown : m.Shows now) (above : t.Above build now)
    (kept : now.Kept build parent Out) {op : Op σ} (inside : op.Inside Out s m)
    (effect : now.Effect build parent Out op now') : t.Above build now' := by
  have kept : now.image.Kept build parent Out now.books := kept
  have nested := above.nested
  cases effect with
  | @advanced _ now' advancing advances =>
      refine ⟨?_, advances.fixed.trans above.fixed, fun x member p covers => ?_⟩
      · rw [advances.outer]
        exact nested.replace
          (fun fixed => (advances.steady (above.fixed.trans fixed)).length) advances.level
      · exact (advances.carried x (above.suspended member) p covers).trans
          (above.contents x member p covers)
  | @trimmed image trimmed =>
      have mark : image.mark = now.image.mark := by
        rw [Image.mark, trimmed.chain, trimmed.used]
        rfl
      exact ⟨mark ▸ nested, trimmed.fixed.trans above.fixed, above.contents⟩
  | begun =>
      exact ⟨.scope (.start now.image.mark) ⟨rfl, rfl⟩ rfl (fun _ => rfl) nested, above.fixed,
        above.contents⟩
  | @ended temp outer rest image inner grown marks same unwound lit =>
      have deeper := inside.inner rfl
      rw [shows.2, shown.2, inner] at deeper
      rw [inner] at nested
      obtain ⟨floor, grown', marks', used, _, _, under⟩ := nested.unwind kept.sane.laid deeper
      have chain := marks.unique marks' kept.sane.toOwned grown grown'
      have mark : image.mark = floor := by
        rw [Image.mark, unwound.chain, unwound.used, used, chain]
      exact ⟨mark ▸ under, unwound.fixed.trans above.fixed, above.contents⟩
  | reset rewound => exact inside.ongoing.elim
  | deinit ran renewed => exact inside.ongoing.elim
  | elsewhere world =>
      refine ⟨nested, above.fixed, fun x member p covers => ?_⟩
      have live := Books.mem_live_of_suspended (above.suspended member)
      have same := inside.spares world rfl x (shows.2 ▸ member) p covers
      rw [shown.1.world, kept.written x live p covers] at same
      exact same.trans (above.contents x member p covers)

end Account.Above

/-- What a scope that began at `s` leaves of it, where `inside` is how it was before the end, and
`moves` is what was moved. -/
structure Session.Restored (s inside after : Session σ) (moves : Movements) : Prop where
  /-- The chain is as it was, cursors included, and all other blocks are on the free list. -/
  lists : ∃ chain free free', s.state.Lists chain free ∧ after.state.Lists chain free' ∧
    ∀ c ∈ free', c.used = 0 ∧ c.oversize = false
  used : after.state.arena.used = s.state.arena.used
  tempDepth : after.state.arena.tempDepth = s.state.arena.tempDepth
  live : after.books.scope = s.books.scope ∧ after.books.outer = s.books.outer
  bytes : ∀ x ∈ s.books.live, ∀ p, x.Covers p →
    after.state.world.bytes p = s.state.world.bytes p
  held : (after.state.pieces ++ moves.trimmed).Perm
    (s.state.pieces ++ moves.obtained.filter (!·.oversize))
  trimmed : ∀ c ∈ moves.trimmed, c.oversize = false
  returned : moves.returned.Perm (moves.obtained.filter (·.oversize))
  status : after.state.arena.status = inside.state.arena.status

/-- Both parts of what a balance says, where the oversize blocks held are the same. -/
theorem Movements.Balance.split {m : Movements} {before after : List Cell}
    (balance : m.Balance before after)
    (same : (after.filter (·.oversize)).Perm (before.filter (·.oversize))) :
    (after ++ m.trimmed).Perm (before ++ m.obtained.filter (!·.oversize)) ∧
      m.returned.Perm (m.obtained.filter (·.oversize)) := by
  have trimmed : m.trimmed.filter (·.oversize) = [] :=
    List.filter_eq_nil_iff.mpr fun c member => by rw [balance.trimmed c member]; exact Bool.false_ne_true
  have returned : m.returned.filter (·.oversize) = m.returned :=
    List.filter_eq_self.mpr balance.returned
  have large := balance.held.filter (·.oversize)
  rw [List.filter_append, List.filter_append, List.filter_append, trimmed, returned,
    List.nil_append] at large
  have gone : m.returned.Perm (m.obtained.filter (·.oversize)) :=
    (List.perm_append_left_iff _).mp (large.trans (same.symm.append_right _))
  refine ⟨?_, gone⟩
  have parts := List.filter_append_perm (·.oversize) m.obtained
  have whole : (after ++ m.trimmed ++ m.returned).Perm
      (before ++ m.obtained.filter (!·.oversize) ++ m.returned) := by
    rw [List.append_assoc, List.append_assoc]
    refine balance.held.trans ((parts.symm.trans ?_).append_left before)
    exact List.perm_append_comm.trans (gone.symm.append_left _)
  exact (List.perm_append_right_iff _).mp whole

/-- Oversize blocks are on the chain only. -/
theorem Image.Owned.large {a : Image σ} (owned : a.Owned build parent Out) :
    a.pieces.filter (·.oversize) = (a.chain.map Cell.bare).filter (·.oversize) := by
  have none : (a.free.map Cell.bare).filter (·.oversize) = [] := by
    refine List.filter_eq_nil_iff.mpr fun piece member => ?_
    obtain ⟨c, listed, rfl⟩ := List.mem_map.mp member
    change ¬ c.oversize = true
    rw [(owned.empty c listed).2]
    exact Bool.false_ne_true
  rw [Image.pieces, Image.cells, List.map_append, List.filter_append, none, List.append_nil]

theorem Account.Above.restores {t now after : Account σ} (above : t.Above build now)
    (deep : t.Deep) (reached : now.Deep) (kept : t.Kept build parent Out)
    (kept' : now.Kept build parent Out) (kept'' : after.Kept build parent Out)
    (matching : now.books.outer.length = t.books.outer.length + 1)
    (effect : now.Effect build parent Out .tempEnd after) :
    after.image.chain = t.image.chain ∧ after.image.used = t.image.used ∧
      after.image.tempDepth = t.image.tempDepth ∧ after.image.status = now.image.status ∧
      after.books.scope = t.books.scope ∧ after.books.outer = t.books.outer ∧
      ∀ x ∈ t.books.live, ∀ p, x.Covers p → after.image.world.bytes p = t.image.world.bytes p := by
  have kept : t.image.Kept build parent Out t.books := kept
  have kept' : now.image.Kept build parent Out now.books := kept'
  obtain ⟨whole, level⟩ := above.nested.exact matching
  cases effect with
  | advanced advancing advances => exact advancing.elim
  | @ended temp outer rest image inner grown marks same unwound lit =>
      have entry := whole.symm.trans inner
      injection entry with top under
      injection top with snapshot ledger
      subst snapshot ledger under
      have chain : image.chain = t.image.chain :=
        marks.unique ⟨rfl, rfl⟩ kept'.sane.toOwned grown level.grown
      refine ⟨chain, unwound.used, ?_, unwound.status, rfl, rfl, fun x member p covers => ?_⟩
      · change image.tempDepth = t.image.tempDepth
        rw [unwound.tempDepth, reached.depth, matching, deep.depth]
        rfl
      · exact (Image.Kept.written kept'' x member p covers).trans
          ((above.contents x member p covers).trans (kept.written x member p covers).symm)

theorem Session.tempEnd_null {s s' : Session σ} {ptr : Nat}
    (ran : s.step build .tempEnd = .ok (ptr, s')) : ptr = 0 := by
  rw [Session.step] at ran
  split at ran
  · cases ran
    rfl
  · obtain ⟨state, _, same⟩ := bind_eq_ok.mp ran
    cases same
    rfl

/-- Whatever is done in a temp scope, its end restores the chain, the counters and what was live,
and puts every other block on the free list. -/
theorem Session.scope_restores (conforms : parent.Conforms Out) {s₀ s : Session σ}
    (started : s₀.Started build parent Out) {before : List (Op σ)} {ptrs : List Nat}
    (reachable : s₀.Allows build (fun s op => op.Legal Out s ∧ op.Shallow s) before)
    (reached : s₀.run build before = .ok (ptrs, s)) (shallow : s.books.outer.length + 1 < 2 ^ 32) :
    ∃ s₁, s.step build .tempBegin = .ok (0, s₁) ∧
      ∀ (ops : List (Op σ)) {ptrs : List Nat} {s₂ : Session σ},
        s₁.Allows build (Op.Inside Out s) ops → s₁.run build ops = .ok (ptrs, s₂) →
        s₂.books.outer.length = s.books.outer.length + 1 →
        ∃ s₃, s₂.step build .tempEnd = .ok (0, s₃) ∧
          s.Restored s₂ s₃ (s.movements build (.tempBegin :: (ops ++ [.tempEnd]))) := by
  obtain ⟨t₀, shows₀, kept₀⟩ := started.kept conforms
  obtain ⟨t, shows, kept, deep⟩ := Session.run_account Account.Deep conforms And.left
    (fun shows _ deep may effect => effect.deep shows deep may.2) shows₀ kept₀
    (started.deep shows₀) reachable reached
  have free : Op.Legal Out s .tempBegin := trivial
  have room : Op.Shallow s .tempBegin := shallow
  obtain ⟨ptr, s₁, _, begun, followed, _⟩ :=
    Session.step_refines conforms shows kept free (deep.level .tempBegin)
  cases followed
  obtain ⟨t₁, followed, shows₁, kept₁, effect₁⟩ :=
    Session.step_follows conforms shows kept free begun
  have deep₁ := effect₁.deep shows deep room
  cases followed
  refine ⟨s₁, begun, fun ops ptrs s₂ allowed ran matching => ?_⟩
  obtain ⟨t₂, shows₂, kept₂, deep₂, above⟩ := Session.run_account
    (fun now => now.Deep ∧ t.Above build now) conforms Op.Inside.legal
    (fun shown kept holds inside effect =>
      ⟨effect.deep shown holds.1 inside.shallow, holds.2.step shows shown kept inside effect⟩)
    shows₁ kept₁ ⟨deep₁, .start t⟩ allowed ran
  have opened : Op.Legal Out s₂ .tempEnd := by
    intro none
    rw [none] at matching
    cases matching
  obtain ⟨ptr, s₃, _, ended, _⟩ :=
    Session.step_refines conforms shows₂ kept₂ opened (deep₂.level .tempEnd)
  obtain ⟨t₃, _, shows₃, kept₃, effect₃⟩ := Session.step_follows conforms shows₂ kept₂ opened ended
  have matching' : t₂.books.outer.length = t.books.outer.length + 1 := by
    rw [← shows₂.2, ← shows.2]
    exact matching
  obtain ⟨chain, used, tempDepth, status, scope, outer, bytes⟩ :=
    above.restores deep deep₂ kept kept₂ kept₃ matching' effect₃
  have owned : t.image.Owned build parent Out := (Image.Kept.sane kept).toOwned
  have owned₃ : t₃.image.Owned build parent Out := (Image.Kept.sane kept₃).toOwned
  have balance := (effect₁.balance shows shows₁ kept trivial).append
    ((Session.run_balance conforms (fun inside => ⟨inside.legal, inside.ongoing⟩) shows₁ kept₁
      allowed ran).append
    ((effect₃.balance shows₂ shows₃ kept₂ trivial).append (.none _)))
  have moves : s.movements build (.tempBegin :: (ops ++ [.tempEnd])) = _ :=
    (Session.movements_cons begun _).trans (congrArg _ ((Session.movements_append ran _).trans
      (congrArg _ (Session.movements_cons ended []))))
  have large : (s₃.state.pieces.filter (·.oversize)).Perm (s.state.pieces.filter (·.oversize)) := by
    refine (shows₃.1.pieces.filter _).trans (.trans (.of_eq ?_) (shows.1.pieces.filter _).symm)
    rw [owned₃.large, owned.large, chain]
  obtain ⟨held, returned⟩ := balance.split large
  cases Session.tempEnd_null ended
  refine ⟨s₃, ended, ?_⟩
  rw [moves]
  exact
    { lists := ⟨t.image.chain, t.image.free, t₃.image.free, shows.1.lists, chain ▸ shows₃.1.lists,
        owned₃.empty⟩
      used := by rw [shows₃.used, shows.used, used]
      tempDepth := by rw [shows₃.level, shows.level, tempDepth]
      live := by rw [shows₃.2, shows.2]; exact ⟨scope, outer⟩
      bytes := fun x member p covers => by
        rw [shows₃.1.world, shows.1.world]
        exact bytes x (shows.2 ▸ member) p covers
      held := held
      trimmed := balance.trimmed
      returned := returned
      status := by
        have before := shows₂.1.arena
        have after := shows₃.1.arena
        rw [before, after]
        exact status }

/-- A scope in which an allocation is moved to an oversize block, and another one gets a new normal
block. -/
theorem Session.scope_restores_moved :
    ∃ s s₁ s₂ s₃ moves,
      Session.rising.run .sanitized [.allocate (.alloc 100)] = .ok ([4128], s) ∧
        s.step .sanitized .tempBegin = .ok (0, s₁) ∧
        s₁.run .sanitized [.allocate (.xalloc 24 64), .realloc 4288 24 9000 64,
          .allocate (.alloc 5000)] = .ok ([4288, 8256, 17344], s₂) ∧
        s₂.step .sanitized .tempEnd = .ok (0, s₃) ∧ s.Restored s₂ s₃ moves ∧
        s₃.state.Lists [⟨4096, 4064, 116, false⟩] [⟨17312, 8160, 0, false⟩] ∧
        moves.returned = [⟨8192, 9079, 0, true⟩] ∧ s₃.state.arena.used = 116 ∧
        s₃.state.arena.committed = 12288 ∧ s₃.state.arena.tempDepth = 0 ∧
        s₃.state.arena.highWater = 14240 := by
  have conforms := risingParent_conforms 0x100000 (by decide)
  have word : 64 ≤ sizeMax := by decide
  have reached : Session.rising.run .sanitized [.allocate (.alloc 100)] = .ok _ := rfl
  have reachable : Session.rising.Allows .sanitized
      (fun s op => op.Legal (RisingOut 0x100000) s ∧ op.Shallow s) [.allocate (.alloc 100)] :=
    .cons rfl ⟨Nat.zero_le _, trivial⟩ trivial
  obtain ⟨s₁, begun, later⟩ := Session.scope_restores conforms (Session.rising_started _) reachable
    reached (show 0 + 1 < 2 ^ 32 by decide)
  cases begun
  have closed := later [.allocate (.xalloc 24 64), .realloc 4288 24 9000 64,
    .allocate (.alloc 5000)] ?_ rfl rfl
  · obtain ⟨s₃, ended, restored⟩ := closed
    cases ended
    exact ⟨_, _, _, _, _, reached, rfl, rfl, rfl, restored,
      by decide +kernel, by decide +kernel, by decide +kernel, by decide +kernel,
      by decide +kernel, by decide +kernel⟩
  · refine .cons rfl ⟨word, trivial, trivial, fun same => (nomatch same),
      fun _ same => nomatch same⟩ ?_
    refine .cons rfl ⟨⟨word, .inr (.head _)⟩, trivial, trivial, fun same => (nomatch same),
      fun _ same => nomatch same⟩ ?_
    exact .cons rfl ⟨Nat.zero_le _, trivial, trivial, fun same => (nomatch same),
      fun _ same => nomatch same⟩ trivial

/-- The 2 ^ 32th scope does not restore the number of open scopes. -/
theorem Session.scope_loses_depth :
    ∃ (before : List (Op Nat)) (ptrs : List Nat) (s s₁ s₃ : Session Nat),
      Session.rising.Allows .sanitized (fun s op => op.Legal (RisingOut 0x100000) s) before ∧
        Session.rising.run .sanitized before = .ok (ptrs, s) ∧ s.state.arena.status = .ok ∧
        s.step .sanitized .tempBegin = .ok (0, s₁) ∧ s₁.step .sanitized .tempEnd = .ok (0, s₃) ∧
        s₃.state.arena.tempDepth ≠ s.state.arena.tempDepth := by
  have limit : 4294967295 + 1 = 2 ^ 32 := rfl
  generalize 4294967295 = n at limit
  have wraps : (n + 1) % 2 ^ 32 = 0 := by rw [limit]; exact Nat.mod_self _
  have counts : n % 2 ^ 32 ≠ 0 := by omega
  have begun := Session.scoped_run .sanitized n 0
  rw [Nat.zero_add] at begun
  refine ⟨List.replicate n .tempBegin, List.replicate n 0, Session.scoped n (n % 2 ^ 32), _,
    Session.scoped n 0, ?_, begun, rfl, Session.scoped_begin _ n, Session.scoped_end n wraps,
    Ne.symm counts⟩
  rw [← List.append_nil (List.replicate n Op.tempBegin)]
  exact Session.scoped_allows n 0 trivial

end AgencC.Arena
