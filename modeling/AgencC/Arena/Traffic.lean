import AgencC.Arena.Failure

/-! What an arena asks of its parent, whatever the parent: a relation between worlds that no answer
but a refusal can break holds across every call that no refusal ended. -/

set_option autoImplicit false

namespace AgencC.Arena

open Library

variable {σ : Type} {build : Build} {parent : AllocT σ} {Out : World σ → List Region → Prop}

/-- Only a refusal by the parent can break the relation. -/
structure AllocT.Passes (parent : AllocT σ) (R : World σ → World σ → Prop) : Prop where
  still : ∀ {w w'}, w'.parent = w.parent → R w w'
  trans : ∀ {w w' w''}, R w w' → R w' w'' → R w w''
  given : ∀ {w w' size ptr}, parent.xalloc size 0 w = .ok (ptr, w') → ptr ≠ 0 → R w w'
  freed : ∀ {w w' ptr size}, parent.xfree ptr size 0 w = .ok w' → R w w'

section
variable {R : World σ → World σ → Prop} (passes : parent.Passes R) {a a' b : Image σ}

include passes

theorem AllocT.Passes.after {w w' w'' : World σ} (first : R w w') (same : w''.parent = w'.parent) :
    R w w'' :=
  passes.trans first (passes.still same)

/-! Blocks that are given up. -/

theorem Image.release_passes (holder : a.parent = parent) {c : Cell}
    (ran : a.release build c = .ok a') : R a.world a'.world ∧ a'.parent = parent := by
  obtain ⟨world, freed, same⟩ := bind_eq_ok.mp ran
  cases same
  rw [holder] at freed
  refine ⟨passes.trans (passes.still ?_) (passes.freed freed), holder⟩
  exact (World.fade_touched build _ _ _).parent

theorem Image.releaseAll_passes (holder : a.parent = parent) {cells : List Cell}
    (ran : a.releaseAll build cells = .ok a') : R a.world a'.world := by
  induction cells generalizing a with
  | nil =>
      cases ran
      exact passes.still rfl
  | cons c cs ih =>
      obtain ⟨b, released, rest⟩ := bind_eq_ok.mp ran
      obtain ⟨first, holder⟩ := Image.release_passes passes holder released
      exact passes.trans first (ih holder rest)

theorem Image.discard_passes (holder : a.parent = parent) {cells : List Cell}
    (ran : a.discard build cells = .ok a') : R a.world a'.world := by
  induction cells generalizing a with
  | nil =>
      cases ran
      exact passes.still rfl
  | cons c cs ih =>
      rw [Image.discard] at ran
      cases kind : c.oversize with
      | true =>
          obtain ⟨b, dropped, rest⟩ := bind_eq_ok.mp ((if_pos kind).symm.trans ran)
          obtain ⟨first, holder⟩ := Image.release_passes passes holder dropped
          exact passes.trans first (ih holder rest)
      | false =>
          have rest : (a.retire build c).discard build cs = .ok a' :=
            (if_neg (Bool.not_eq_true _ ▸ kind)).symm.trans ran
          refine passes.trans (passes.still ?_) (ih (a := a.retire build c) holder rest)
          exact (World.dead_touched build c.data c.used a.world).parent

theorem Image.tempEnd_passes (holder : a.parent = parent) {temp : TempT}
    (ran : a.tempEnd build temp = .ok a') : R a.world a'.world := by
  obtain ⟨b, dropped, same⟩ := bind_eq_ok.mp ran
  cases same
  exact passes.after (Image.discard_passes passes holder dropped) (b.cut_parent _ _)

theorem Image.reset_passes (holder : a.parent = parent) (ran : a.reset build = .ok a') :
    R a.world a'.world := by
  obtain ⟨b, dropped, same⟩ := bind_eq_ok.mp ran
  cases same
  refine passes.after (Image.discard_passes passes holder dropped) ?_
  cases oldestNormal a.chain with
  | none => rfl
  | some c => exact (World.dead_touched build _ _ _).parent

theorem Image.trim_passes (holder : a.parent = parent) (ran : a.trim build = .ok a') :
    R a.world a'.world := by
  unfold Image.trim at ran
  split at ran
  · cases ran
    exact passes.still rfl
  · obtain ⟨b, released, same⟩ := bind_eq_ok.mp ran
    cases same
    have reached : R a.world b.world := Image.releaseAll_passes passes holder released
    exact reached

theorem Image.deinit_passes (holder : a.parent = parent) (ran : a.deinit build = .ok a') :
    R a.world a'.world := by
  unfold Image.deinit at ran
  by_cases fixed : a.fixed = true
  · cases (if_pos fixed).symm.trans ran
    refine passes.still ?_
    change (a.chain.foldl _ a.world).parent = a.world.parent
    generalize a.world = w
    induction a.chain generalizing w with
    | nil => rfl
    | cons c cs ih => exact (ih _).trans (World.light_touched build _ _ _).parent
  · obtain ⟨b, released, same⟩ := bind_eq_ok.mp ((if_neg fixed).symm.trans ran)
    cases same
    have reached : R a.world b.world := Image.releaseAll_passes passes holder released
    exact reached

/-! Allocations. -/

theorem Image.enters_passes (holder : a.parent = parent) {need : Nat} {c : Cell} {cs : List Cell}
    (enters : a.Enters build need c cs b) : R a.world b.world := by
  cases enters with
  | current chain => exact passes.still rfl
  | reused growing found => exact passes.still rfl
  | obtained growing bound absent found =>
      obtain ⟨world, asked, nonzero, block, result⟩ := Image.obtain_some found
      rw [holder] at asked
      refine passes.after (passes.given asked nonzero) ?_
      rw [congrArg Image.world result]
      exact (World.shade_touched build _ _ _).parent

theorem Image.Owned.allocImpl_passes (conforms : parent.Conforms Out)
    (owned : a.Owned build parent Out) {count size align ptr : Nat} (word : align ≤ sizeMax)
    (ran : a.allocImpl build count size align = .ok (ptr, a'))
    (nothing : ptr = 0 → count * size = 0) : R a.world a'.world := by
  obtain ⟨r, again, reply⟩ := owned.allocImpl conforms count size word
  generalize answer : (ptr, a') = result at ran
  cases ran.symm.trans again
  cases reply with
  | latched failed | nothing ready valid empty =>
      cases answer
      exact passes.still rfl
  | invalid ready invalid | overflow ready valid large =>
      cases answer
      exact passes.still (congrArg World.parent (a.fail_world _))
  | outcome ready valid some small outcome =>
      cases outcome with
      | refused refusal failed =>
          cases answer
          exact absurd (nothing rfl) (Nat.ne_of_gt some)
      | @served c cs b enters room =>
          cases answer
          exact passes.after (Image.enters_passes passes owned.parent enters)
            (World.live_touched build _ _ _).parent

theorem Image.allocates_passes (conforms : parent.Conforms Out) (owned : a.Owned build parent Out)
    {total align ptr : Nat} (word : align ≤ sizeMax) (nothing : ptr = 0 → total = 0)
    (allocates : a.Allocates build total align ptr a') : R a.world a'.world := by
  cases allocates with
  | served product ran rewritten unserved =>
      subst product
      obtain ⟨world, rfl, same⟩ := rewritten
      exact passes.after (Image.Owned.allocImpl_passes passes conforms owned word ran nothing) same
  | rejected ready some none => exact passes.still (congrArg World.parent (a.fail_world _))

theorem Image.reallocates_passes (conforms : parent.Conforms Out)
    (owned : a.Owned build parent Out) {ptr oldSize newSize align fresh : Nat}
    (word : align ≤ sizeMax) (served : fresh ≠ 0)
    (reallocates : a.Reallocates build ptr oldSize newSize align fresh a') : R a.world a'.world := by
  cases reallocates with
  | resized ready done => exact passes.still (Image.resizeLast_parent done)
  | @moved _ b _ some ran unserved after =>
      have first := Image.Owned.allocImpl_passes passes conforms owned word ran
        fun none => absurd none served
      cases after with
      | inl same => exact same ▸ first
      | inr same =>
          subst same
          exact passes.after first (World.dead_touched build _ _ _).parent
  | rejected ready wrong => exact absurd rfl served

/-- Where nothing is refused, the relation holds across a call. -/
theorem Account.step_passes (conforms : parent.Conforms Out) {s : Session σ} {t t' : Account σ}
    (kept : t.Kept build parent Out) {op : Op σ} (legal : op.Legal Out s)
    (alone : ∀ world, op ≠ .elsewhere world) {ptr : Nat}
    (served : op.Allocating → ptr = 0 → op.Demanding → False)
    (followed : t.step build op = .ok (ptr, t')) : R t.image.world t'.image.world := by
  have kept : t.image.Kept build parent Out t.books := kept
  have owned := kept.sane.toOwned
  cases op with
  | allocate request =>
      obtain ⟨⟨_, image⟩, ran, same⟩ := bind_eq_ok.mp followed
      cases same
      refine Image.allocates_passes passes conforms owned legal (fun none => ?_)
        (Request.image_allocates ran)
      by_contra some
      exact served trivial none some
  | realloc given oldSize newSize align | xrealloc given oldSize newSize align =>
      obtain ⟨⟨_, image⟩, ran, same⟩ := bind_eq_ok.mp followed
      cases same
      exact Image.reallocates_passes passes conforms owned legal.1
        (fun none => served trivial none trivial) (Image.realloc_reallocates ran)
  | xfree given size align =>
      cases followed
      by_cases null : given = 0
      · rw [if_pos null]
        exact passes.still rfl
      · rw [if_neg null]
        exact passes.still (t.image.xfree_parent given size)
  | tempBegin | clearError =>
      cases followed
      exact passes.still rfl
  | tempEnd =>
      cases inner : t.books.outer with
      | nil =>
          rw [Account.step, inner] at followed
          cases followed
          exact passes.still rfl
      | cons entry rest =>
          rw [Account.step, inner] at followed
          obtain ⟨image, ran, same⟩ := bind_eq_ok.mp followed
          cases same
          exact Image.tempEnd_passes passes owned.parent ran
  | reset =>
      obtain ⟨image, ran, same⟩ := bind_eq_ok.mp followed
      cases same
      exact Image.reset_passes passes owned.parent ran
  | trim =>
      obtain ⟨image, ran, same⟩ := bind_eq_ok.mp followed
      cases same
      exact Image.trim_passes passes owned.parent ran
  | deinit =>
      obtain ⟨image, ran, same⟩ := bind_eq_ok.mp followed
      cases same
      exact Image.deinit_passes passes owned.parent ran
  | elsewhere world => exact absurd rfl (alone world)

end

end AgencC.Arena
