import AgencC.Arena.Decision

/-! Every allocating call is `arena_alloc_n` and what it then does with the bytes. -/

set_option autoImplicit false

namespace AgencC.Arena

open Library

variable {σ : Type} {build : Build} {parent : AllocT σ} {Out : World σ → List Region → Prop}

section
variable {a a' b : Image σ}

/-- Other bytes and poison, and nothing else. -/
def Image.Rewritten (a a' : Image σ) : Prop :=
  ∃ world : World σ, a' = { a with world } ∧ world.parent = a.world.parent

theorem Image.Rewritten.refl (a : Image σ) : a.Rewritten a := ⟨a.world, rfl, rfl⟩

/-- How a call that allocates `total` bytes at `align` relates to `arena_alloc_n`. -/
inductive Image.Allocates (build : Build) (total align : Nat) (a : Image σ) (ptr : Nat) :
    Image σ → Prop where
  | served {count size : Nat} {b a' : Image σ} (product : count * size = total)
      (ran : a.allocImpl build count size align = .ok (ptr, b)) (rewritten : b.Rewritten a')
      (unserved : ptr = 0 → a' = b) : Allocates build total align a ptr a'
  | rejected (ready : a.status = .ok) (some : 0 < total) (none : ptr = 0) :
      Allocates build total align a ptr (a.fail .errArg)

theorem Request.image_allocates {request : Request} {ptr : Nat}
    (ran : request.image build a = .ok (ptr, a')) :
    a.Allocates build request.total request.align ptr a' := by
  cases Request.image_goes ran with
  | refused product served none => exact .served product served (.refl _) fun _ => rfl
  | written product served given touched _ =>
      exact .served product served ⟨_, rfl, touched.parent⟩ fun none => absurd none given
  | rejected ready some none => exact .rejected ready some none

/-- How `arena_realloc` ends. -/
inductive Image.Reallocates (build : Build) (ptr oldSize newSize align : Nat) (a : Image σ) :
    Nat → Image σ → Prop where
  | resized {a' : Image σ} (ready : a.status = .ok) (done : a.resizeLast build ptr oldSize newSize = some a') :
      Reallocates build ptr oldSize newSize align a ptr a'
  | moved {fresh : Nat} {b a' : Image σ} (some : a.status = .ok → newSize ≠ 0)
      (ran : a.allocImpl build 1 newSize align = .ok (fresh, b))
      (unserved : fresh = 0 → a' = b)
      (after : a' = b ∨ a' = b.abandon build ptr oldSize fresh newSize) :
      Reallocates build ptr oldSize newSize align a fresh a'
  | rejected (ready : a.status = .ok) (wrong : alignValid align = false ∨ newSize = 0) :
      Reallocates build ptr oldSize newSize align a 0 (a.fail .errArg)

theorem Image.realloc_reallocates {ptr oldSize newSize align fresh : Nat}
    (ran : a.realloc build ptr oldSize newSize align = .ok (fresh, a')) :
    a.Reallocates build ptr oldSize newSize align fresh a' := by
  unfold Image.realloc at ran
  by_cases ready : a.status = .ok
  · rw [if_neg (not_not_intro ready)] at ran
    by_cases invalid : (!alignValid align) = true
    · cases (if_pos invalid).symm.trans ran
      exact .rejected ready (.inl ((Bool.not_eq_true' _).mp invalid))
    · rw [if_neg invalid] at ran
      by_cases empty : newSize = 0
      · cases (if_pos empty).symm.trans ran
        exact .rejected ready (.inr empty)
      · rw [if_neg empty] at ran
        by_cases null : ptr = 0
        · exact .moved (fun _ => empty) ((if_pos null).symm.trans ran) (fun _ => rfl) (.inl rfl)
        · rw [if_neg null] at ran
          by_cases large : ptrdiffMax < newSize
          · cases (if_pos large).symm.trans ran
            refine .moved (fun _ => empty) ?_ (fun _ => rfl) (.inl rfl)
            rw [Image.allocImpl, if_neg (not_not_intro ready), if_neg invalid,
              if_neg (by omega), if_pos (by omega)]
          · rw [if_neg large] at ran
            cases done : a.resizeLast build ptr oldSize newSize with
            | some resized =>
                rw [done] at ran
                cases ran
                exact .resized ready done
            | none =>
                rw [done] at ran
                obtain ⟨⟨given, b⟩, served, rest⟩ := bind_eq_ok.mp ran
                by_cases refused : given = 0
                · cases (if_pos refused).symm.trans rest
                  subst refused
                  exact .moved (fun _ => empty) served (fun _ => rfl) (.inl rfl)
                · cases (if_neg refused).symm.trans rest
                  exact .moved (fun _ => empty) served (fun none => absurd none refused) (.inr rfl)
  · cases (if_pos ready).symm.trans ran
    exact .moved (fun able => absurd able ready) (if_pos ready) (fun _ => rfl) (.inl rfl)

/-! What the parent is not asked for. -/

theorem Image.fail_world (a : Image σ) (status : Status) : (a.fail status).world = a.world := by
  unfold Image.fail
  split <;> rfl

theorem Image.resizeLast_parent {ptr oldSize newSize : Nat}
    (done : a.resizeLast build ptr oldSize newSize = some a') :
    a'.world.parent = a.world.parent := by
  unfold Image.resizeLast at done
  split at done
  · cases done
  · split at done
    · cases done
      exact (World.dead_touched build _ _ a.world).parent
    · split at done
      · cases done
      · cases done
        exact (World.live_touched build _ _ a.world).parent

theorem Image.xfree_parent (a : Image σ) (ptr size : Nat) :
    (a.xfree build ptr size).world.parent = a.world.parent := by
  unfold Image.xfree
  split
  · rfl
  · exact (World.dead_touched build _ _ a.world).parent

theorem Image.cut_parent (a : Image σ) (used : Nat) (rest : List Cell) :
    (a.cut build used rest).world.parent = a.world.parent := by
  cases rest with
  | nil => rfl
  | cons c cs => exact (World.dead_touched build _ _ a.world).parent

end

end AgencC.Arena
