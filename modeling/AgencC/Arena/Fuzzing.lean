import AgencC.Arena.Driving

/-! Whatever its input, the fuzz driver returns: none of its assertions fails, it touches nothing
that is not its own, and every block of its parent comes back. -/

set_option autoImplicit false

namespace AgencC.Arena

open Library

/-! The parent with a budget. -/

/-- The C library has given out `rs`, within the budget. -/
structure FuzzOut (base : World Malloc) (w : World FuzzParent) (rs : List Region) : Prop where
  lent : LibcLent base w.heap rs
  live : w.parent.live = (rs.map Region.size).sum
  budget : w.parent.live ≤ fuzzParentBudget

theorem fuzzParentAlloc_conforms (build : Build) (base : World Malloc) :
    (fuzzParentAlloc build).Conforms (FuzzOut base) where
  perm out same :=
    ⟨(allocLibc_conforms base).perm out.lent same, out.live.trans (same.map _).sum_eq, out.budget⟩
  apart out := (allocLibc_conforms base).apart out.lent
  inside out := (allocLibc_conforms base).inside out.lent
  aligned out := (allocLibc_conforms base).aligned out.lent
  written {w w' rs} out inside := by
    have same := inside.parent
    refine ⟨(allocLibc_conforms base).written out.lent ?_, same ▸ out.live, same ▸ out.budget⟩
    exact ⟨congrArg FuzzParent.heap same, inside.bytes, inside.poisoned⟩
  xalloc {w rs size} out some small := by
    have word : fuzzParentBudget ≤ sizeMax := by decide
    have budget := out.budget
    have left := sizeSub_of_le budget word
    by_cases refused : size = 0 ∨ sizeSub fuzzParentBudget w.parent.live < size
    · exact ⟨0, w, congrArg Except.ok (if_pos refused), .refl _ _, .inl ⟨rfl, out⟩⟩
    · have fits : w.parent.live + size ≤ fuzzParentBudget := by omega
      obtain ⟨ptr, heap, placed, keeps, grants⟩ :=
        LibcOut.malloc out.lent some small alignArg_zero (Nat.zero_le _)
      rw [extents_block] at keeps
      have called : fuzzParentXalloc size w =
          if ptr ≠ 0 then (ptr, heap.charged (sizeAdd w.parent.live size))
          else (ptr, heap.charged w.parent.live) := by
        rw [fuzzParentXalloc, if_neg refused, placed]
      cases grants with
      | inl none =>
          obtain ⟨null, still⟩ := none
          rw [if_neg (not_not_intro null)] at called
          exact ⟨ptr, _, congrArg Except.ok called, keeps, .inl ⟨null, still, out.live, budget⟩⟩
      | inr given =>
          obtain ⟨given, more⟩ := given
          rw [if_pos given, sizeAdd_of_le (Nat.le_trans fits word)] at called
          refine ⟨ptr, _, congrArg Except.ok called, keeps, .inr ⟨given, more, ?_, fits⟩⟩
          change w.parent.live + size = size + (rs.map Region.size).sum
          rw [out.live, Nat.add_comm]
  xfree {w r rs} out := by
    have word : fuzzParentBudget ≤ sizeMax := by decide
    have total : w.parent.live = r.size + (rs.map Region.size).sum := out.live
    have budget := out.budget
    have given := ((allocLibc_conforms base).inside out.lent r (.head _)).1
    obtain ⟨heap, freed, keeps, less⟩ := LibcOut.free out.lent
    rw [extents_block] at keeps
    have covered : r.size ≤ w.parent.live := by omega
    have called : fuzzParentXfree build r.addr r.size w =
        .ok (heap.charged (sizeSub w.parent.live r.size)) := by
      rw [fuzzParentXfree, if_neg given, Build.check_of build covered, ok_bind]
      exact bind_eq_ok.mpr ⟨_, freed, rfl⟩
    rw [sizeSub_of_le covered (Nat.le_trans budget word)] at called
    refine ⟨_, called, keeps, less, ?_, Nat.le_trans (Nat.sub_le _ _) budget⟩
    change w.parent.live - r.size = (rs.map Region.size).sum
    omega

/-! A run from the start. -/

section
variable {σ : Type} {build : Build} {parent : AllocT σ} {Out : World σ → List Region → Prop}
  {origin : σ}

theorem Session.Started.prepared (conforms : parent.Conforms Out) {s : Session σ}
    (started : s.Started build parent Out)
    (calm : s.state.arena.fixed = true → s.state.world.parent = origin) :
    s.Prepared build parent Out origin := by
  obtain ⟨t, shows, kept⟩ := started.kept conforms
  refine ⟨t, shows, kept, started.deep shows, fun _ x member => ?_, fun fixed => ?_⟩
  · have none : s.books.lit = [] := by cases started <;> rfl
    rw [← shows.2, none] at member
    cases member
  · rw [← shows.1.world]
    exact calm (shows.fixed.trans fixed)

/-- The loops of the driver, and the deinit after them. -/
theorem fuzzRun_returns (conforms : parent.Conforms Out) {state : State σ}
    {contents : Nat → UInt8}
    (started : Session.Started build parent Out { state, books := .start contents })
    (ready : state.arena.status = .ok)
    (calm : state.arena.fixed = true → state.world.parent = origin) (input : FuzzInput) :
    ∃ looped closed last,
      fuzzLoop build fuzzMaxTotalOps
        { input, state, model := { live := [], temps := [], nextSeed := 0 } } = .ok looped ∧
      fuzzClose build (looped.model.temps.length + 1) looped = .ok closed ∧
      deinit build closed.state = .ok last ∧
      (state.arena.fixed = false → Out last.world []) ∧
      (state.arena.fixed = true → last.world.parent = origin) := by
  have start : FuzzRun.Stands build parent Out origin state.arena.fixed
      { input, state, model := { live := [], temps := [], nextSeed := 0 } } (.start contents) :=
    ⟨started.prepared conforms calm, rfl, ready, rfl, .none _, Nat.zero_le _⟩
  obtain ⟨looped, b, ran, stands⟩ := start.loop conforms
  obtain ⟨closed, b', ended, stands'⟩ := stands.close conforms (Nat.lt_succ_self _)
  obtain ⟨last, gone, growing, fixed⟩ := stands'.prepared.deinit conforms
  have same := stands'.fixed
  exact ⟨looped, closed, last, ran, ended, gone, fun held => growing (same.trans held),
    fun held => fixed (same.trans held)⟩

end

/-- One input: the driver returns, and the C library has the blocks it had. In a run that grows,
those of others are as they were. -/
theorem llvmFuzzerTestOneInput_returns (build : Build) {buffer : Nat} (given : buffer ≠ 0)
    (fits : buffer + fuzzFixedBuffer ≤ sizeMax) {base : World Malloc} (sound : base.parent.Sound)
    (data : List UInt8) :
    ∃ w, llvmFuzzerTestOneInput build buffer data base = .ok w ∧ w.parent.Sound ∧
      w.parent.live.Perm base.parent.live ∧
      ((fuzzByte { data, pos := 0 }).1 &&& 1 = 0 → w.Keeps base.parent.live base) := by
  unfold llvmFuzzerTestOneInput
  obtain ⟨byte, input⟩ := fuzzByte { data, pos := 0 }
  dsimp only
  by_cases odd : byte &&& 1 ≠ 0
  · have some : fuzzFixedBuffer ≠ 0 := by decide
    have small : fuzzFixedBuffer ≤ ptrdiffMax := by decide
    obtain ⟨state, taken, shows⟩ :=
      initFixed_returns build given some small fits (base.charged 0)
    obtain ⟨_, _, _, _, status, fixed, parent, _⟩ :=
      Image.inBuffer_new build buffer fuzzFixedBuffer (base.charged 0)
    have held : state.arena.fixed = true := by rw [shows.arena]; exact fixed
    have ready : state.arena.status = .ok := by rw [shows.arena]; exact status
    have still : state.world.parent = (base.charged 0).parent := by rw [shows.world, parent]
    have started : Session.Started build (allocNull FuzzParent) NoneOut
        { state, books := .start base.bytes } :=
      .fixed buffer fuzzFixedBuffer (base.charged 0) base.bytes rfl (fun _ => rfl) fits taken
    obtain ⟨looped, closed, last, ran, ended, gone, _, calm⟩ :=
      fuzzRun_returns allocNull_conforms started ready (fun _ => still) input
    have back := calm held
    have none : last.world.parent.live = 0 := congrArg FuzzParent.live back
    have heap : last.world.heap.parent = base.parent := congrArg FuzzParent.heap back
    refine ⟨last.world.heap, ?_, heap ▸ sound, heap ▸ .refl _, fun even => absurd even odd⟩
    rw [if_pos odd, taken, ok_bind, ran, ok_bind, ended, ok_bind, gone, ok_bind,
      Build.check_of build none, ok_bind]
  · rw [if_neg odd]
    have conforms := fuzzParentAlloc_conforms build base
    have nothing : FuzzOut base (base.charged 0) [] := ⟨.start sound, rfl, Nat.zero_le _⟩
    have started : Session.Started build (fuzzParentAlloc build) (FuzzOut base)
        { state := (initSized (fuzzParentAlloc build) 256 8192 (base.charged 0)).2
          books := .start base.bytes } :=
      .sized 256 8192 (base.charged 0) base.bytes nothing
    have growing : (initSized (fuzzParentAlloc build) 256 8192 (base.charged 0)).2.arena.fixed =
        false := rfl
    obtain ⟨looped, closed, last, ran, ended, gone, back, _⟩ :=
      fuzzRun_returns conforms started rfl
        (fun fixed => show _ = (base.charged 0).parent from
          absurd (growing.symm.trans fixed) Bool.false_ne_true) input
    have begun : (initSized (fuzzParentAlloc build) 256 8192 (base.charged 0)).1 = .ok := rfl
    obtain ⟨lent, live, _⟩ := back growing
    have none : last.world.parent.live = 0 := live
    have out : LibcOut base last.world.heap [] := lent
    refine ⟨last.world.heap, ?_, out.sound, out.none_left, fun _ => out.frozen⟩
    rw [Build.check_of build begun, ok_bind, ok_bind, ran, ok_bind, ended, ok_bind, gone, ok_bind,
      Build.check_of build none, ok_bind]

end AgencC.Arena
