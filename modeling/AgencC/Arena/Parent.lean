import AgencC.Arena.Calls

/-! What an arena relies on in its parent: the contract of `alloc.h` for the two
functions it calls. -/

set_option autoImplicit false

namespace AgencC.Arena

open Library

variable {σ : Type}

/-- Nothing changed outside `r`, and the parent not at all. -/
structure World.Touched (w : World σ) (r : Region) (w' : World σ) : Prop where
  parent : w'.parent = w.parent
  bytes : ∀ x, ¬ r.Covers x → w'.bytes x = w.bytes x
  poisoned : ∀ x, ¬ r.Covers x → w'.poisoned x = w.poisoned x

/-- The storage of `rs` is as it was. -/
def World.Keeps (w : World σ) (rs : List Region) (w' : World σ) : Prop :=
  ∀ r ∈ rs, ∀ x, r.Covers x → w'.bytes x = w.bytes x ∧ w'.poisoned x = w.poisoned x

/-- Any contents of the storage of `rs`, and nothing else changed. -/
structure World.Inside (w : World σ) (rs : List Region) (w' : World σ) : Prop where
  parent : w'.parent = w.parent
  bytes : ∀ x, (∀ r ∈ rs, ¬ r.Covers x) → w'.bytes x = w.bytes x
  poisoned : ∀ x, (∀ r ∈ rs, ¬ r.Covers x) → w'.poisoned x = w.poisoned x

/-- An allocator that keeps the contract. `Out w rs` says that `rs` are the regions it has
given out and not got back: they lie apart, and what their holder writes to them is
no concern of the allocator's. A request for 1 up to `PTRDIFF_MAX` bytes is refused or
given a further region, and a region that is given back leaves the others alone. -/
structure AllocT.Conforms (a : AllocT σ) (Out : World σ → List Region → Prop) : Prop where
  perm : ∀ {w rs rs'}, Out w rs → rs.Perm rs' → Out w rs'
  apart : ∀ {w rs}, Out w rs → rs.Pairwise Region.Apart
  inside : ∀ {w rs}, Out w rs → ∀ r ∈ rs, r.addr ≠ 0 ∧ r.addr + r.size ≤ sizeMax
  aligned : ∀ {w rs}, Out w rs → ∀ r ∈ rs, maxAlignT ∣ r.addr
  written : ∀ {w w' rs}, Out w rs → w.Inside rs w' → Out w' rs
  xalloc : ∀ {w rs size}, Out w rs → 0 < size → size ≤ ptrdiffMax →
    ∃ ptr w', a.xalloc size 0 w = .ok (ptr, w') ∧ w.Keeps rs w' ∧
      ((ptr = 0 ∧ Out w' rs) ∨ (ptr ≠ 0 ∧ Out w' (⟨ptr, size⟩ :: rs)))
  xfree : ∀ {w r rs}, Out w (r :: rs) →
    ∃ w', a.xfree r.addr r.size 0 w = .ok w' ∧ w.Keeps rs w' ∧ Out w' rs

theorem World.Touched.refl (w : World σ) (r : Region) : w.Touched r w :=
  ⟨rfl, fun _ _ => rfl, fun _ _ => rfl⟩

theorem World.Touched.trans {w w' w'' : World σ} {r : Region} (first : w.Touched r w')
    (second : w'.Touched r w'') : w.Touched r w'' where
  parent := second.parent.trans first.parent
  bytes x outside := (second.bytes x outside).trans (first.bytes x outside)
  poisoned x outside := (second.poisoned x outside).trans (first.poisoned x outside)

theorem World.Touched.mono {w w' : World σ} {r r' : Region} (touched : w.Touched r w')
    (within : r.Within r') : w.Touched r' w' where
  parent := touched.parent
  bytes x outside := touched.bytes x fun covers => outside (within.covers covers)
  poisoned x outside := touched.poisoned x fun covers => outside (within.covers covers)

theorem World.Touched.inside {w w' : World σ} {r r' : Region} {rs : List Region}
    (touched : w.Touched r w') (member : r' ∈ rs) (within : r.Within r') : w.Inside rs w' where
  parent := touched.parent
  bytes x outside := touched.bytes x fun covers => outside r' member (within.covers covers)
  poisoned x outside := touched.poisoned x fun covers => outside r' member (within.covers covers)

theorem World.Keeps.refl (w : World σ) (rs : List Region) : w.Keeps rs w :=
  fun _ _ _ _ => ⟨rfl, rfl⟩

theorem World.Keeps.trans {w w' w'' : World σ} {rs : List Region} (first : w.Keeps rs w')
    (second : w'.Keeps rs w'') : w.Keeps rs w'' := fun r member x covers =>
  ⟨((second r member x covers).1).trans (first r member x covers).1,
    ((second r member x covers).2).trans (first r member x covers).2⟩

theorem World.Keeps.mono {w w' : World σ} {rs rs' : List Region} (keeps : w.Keeps rs w')
    (sub : ∀ r ∈ rs', ∃ r' ∈ rs, r.Within r') : w.Keeps rs' w' := fun r member x covers => by
  obtain ⟨r', member', within⟩ := sub r member
  exact keeps r' member' x (within.covers covers)

theorem World.Touched.keeps {w w' : World σ} {r : Region} {rs : List Region}
    (touched : w.Touched r w') (apart : ∀ r' ∈ rs, r.Apart r') : w.Keeps rs w' :=
  fun r' member x covers =>
    have outside : ¬ r.Covers x := (apart r' member).symm.not_covers covers
    ⟨touched.bytes x outside, touched.poisoned x outside⟩

/-- What refuses every request conforms: it gives nothing out. -/
theorem AllocT.conforms_of_refuses {a : AllocT σ}
    (refuses : ∀ size w, ∃ w', a.xalloc size 0 w = .ok (0, w')) :
    a.Conforms fun _ rs => rs = [] where
  perm none same := by
    subst none
    exact List.Perm.nil_eq same ▸ rfl
  apart none := none ▸ .nil
  inside none r member := by
    subst none
    cases member
  aligned none r member := by
    subst none
    cases member
  written none _ := none
  xalloc {w rs size} none _ _ := by
    obtain ⟨w', answered⟩ := refuses size w
    subst none
    exact ⟨0, w', answered, fun _ member => (nomatch member), .inl ⟨rfl, rfl⟩⟩
  xfree some := nomatch some

theorem allocNull_conforms : (allocNull σ).Conforms fun _ rs => rs = [] :=
  AllocT.conforms_of_refuses fun _ w => ⟨w, rfl⟩

/-! A parent that hands out rising addresses below `top`, and never one twice. -/

def risingParent (top : Nat) : AllocT Nat where
  xalloc size _ w :=
    let next := w.parent + size + padding (w.parent + size) maxAlignT
    if next ≤ top then .ok (w.parent, { w with parent := next }) else .ok (0, w)
  xrealloc _ _ _ _ w := .ok (0, w)
  xfree _ _ _ w := .ok w

structure RisingOut (top : Nat) (w : World Nat) (rs : List Region) : Prop where
  apart : rs.Pairwise Region.Apart
  below : ∀ r ∈ rs, r.addr ≠ 0 ∧ maxAlignT ∣ r.addr ∧ r.addr + r.size ≤ w.parent
  next : w.parent ≠ 0 ∧ maxAlignT ∣ w.parent ∧ w.parent ≤ top

/-- Nothing has been handed out yet. -/
def risingWorld : World Nat where
  bytes _ := 0
  poisoned _ := false
  parent := 4096

theorem risingWorld_out : RisingOut 0x100000 risingWorld [] where
  apart := .nil
  below _ member := nomatch member
  next := by decide

theorem risingParent_conforms (top : Nat) (word : top ≤ sizeMax) :
    (risingParent top).Conforms (RisingOut top) where
  perm out same :=
    ⟨(same.pairwise_iff fun apart => Region.Apart.symm apart).mp out.apart,
      fun r member => out.below r (same.mem_iff.mpr member), out.next⟩
  apart out := out.apart
  inside out r member :=
    ⟨(out.below r member).1,
      Nat.le_trans (out.below r member).2.2 (Nat.le_trans out.next.2.2 word)⟩
  aligned out r member := (out.below r member).2.1
  written out inside := by
    have same := inside.parent
    exact ⟨out.apart, same ▸ out.below, same ▸ out.next⟩
  xalloc {w rs size} out _ _ := by
    have pos : 0 < maxAlignT := by decide
    have aligned : maxAlignT ∣ w.parent + size + padding (w.parent + size) maxAlignT :=
      dvd_add_padding pos
    by_cases room : w.parent + size + padding (w.parent + size) maxAlignT ≤ top
    · refine ⟨w.parent, _, if_pos room, fun _ _ _ _ => ⟨rfl, rfl⟩, .inr ⟨out.next.1, ?_⟩⟩
      constructor
      · refine List.pairwise_cons.mpr ⟨fun r member => ?_, out.apart⟩
        exact .inr (out.below r member).2.2
      · refine List.forall_mem_cons.mpr ⟨⟨out.next.1, out.next.2.1, Nat.le_add_right _ _⟩, ?_⟩
        intro r member
        obtain ⟨nonzero, aligned, below⟩ := out.below r member
        refine ⟨nonzero, aligned, Nat.le_trans below ?_⟩
        exact Nat.le_trans (Nat.le_add_right _ size) (Nat.le_add_right _ _)
      · refine ⟨?_, aligned, room⟩
        exact fun zero => out.next.1 (Nat.eq_zero_of_add_eq_zero_right (Nat.eq_zero_of_add_eq_zero_right zero))
    · exact ⟨0, w, if_neg room, .refl _ _, .inl ⟨rfl, out⟩⟩
  xfree {w r rs} out :=
    ⟨w, rfl, .refl _ _, (List.pairwise_cons.mp out.apart).2,
      fun r member => out.below r (.tail _ member), out.next⟩

end AgencC.Arena
