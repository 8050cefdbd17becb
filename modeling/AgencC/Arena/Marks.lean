import AgencC.Arena.Image

/-! What marking does to bytes and poison. -/

set_option autoImplicit false

namespace AgencC.Arena

open Library

variable {σ : Type} {build : Build}

/-! The effects of marking stay in its range. -/

theorem World.memset_touched (p : Nat) (value : UInt8) (len : Nat) (w : World σ) :
    w.Touched ⟨p, len⟩ (w.memset p value len) :=
  ⟨rfl, fun _ outside => if_neg outside, fun _ _ => rfl⟩

theorem World.memcpy_touched (destination source len : Nat) (w : World σ) :
    w.Touched ⟨destination, len⟩ (w.memcpy destination source len) :=
  ⟨rfl, fun _ outside => if_neg outside, fun _ _ => rfl⟩

theorem World.setPoison_touched (p len : Nat) (value : Bool) (w : World σ) :
    w.Touched ⟨p, len⟩ (w.setPoison p len value) :=
  ⟨rfl, fun _ _ => rfl, fun _ outside => if_neg outside⟩

variable (build) in
theorem World.light_touched (p len : Nat) (w : World σ) : w.Touched ⟨p, len⟩ (w.light build p len) := by
  unfold light
  split
  · exact setPoison_touched _ _ _ _
  · exact .refl _ _

variable (build) in
theorem World.shade_touched (p len : Nat) (w : World σ) : w.Touched ⟨p, len⟩ (w.shade build p len) := by
  unfold shade
  split
  · exact setPoison_touched _ _ _ _
  · exact .refl _ _

variable (build) in
theorem World.brighten_touched (p len : Nat) (w : World σ) :
    w.Touched ⟨p, len⟩ (w.brighten build p len) := by
  unfold brighten
  split
  · exact memset_touched _ _ _ _
  · exact .refl _ _

variable (build) in
theorem World.fade_touched (p len : Nat) (w : World σ) : w.Touched ⟨p, len⟩ (w.fade build p len) := by
  unfold fade
  split
  · exact memset_touched _ _ _ _
  · exact .refl _ _

variable (build) in
theorem World.live_touched (p len : Nat) (w : World σ) : w.Touched ⟨p, len⟩ (w.live build p len) :=
  (light_touched build p len w).trans (brighten_touched build p len _)

variable (build) in
theorem World.dead_touched (p len : Nat) (w : World σ) : w.Touched ⟨p, len⟩ (w.dead build p len) :=
  (fade_touched build p len w).trans (shade_touched build p len _)

/-! What poison is left behind. -/

theorem World.shade_poisoned (asan : build.asan = true) (p len x : Nat) (w : World σ) :
    (w.shade build p len).poisoned x = if p ≤ x ∧ x < p + len then true else w.poisoned x := by
  rw [shade, if_pos asan]
  rfl

theorem World.light_poisoned (asan : build.asan = true) (p len x : Nat) (w : World σ) :
    (w.light build p len).poisoned x = if p ≤ x ∧ x < p + len then false else w.poisoned x := by
  rw [light, if_pos asan]
  rfl

@[simp] theorem World.fade_poisoned (p len x : Nat) (w : World σ) :
    (w.fade build p len).poisoned x = w.poisoned x := by
  unfold fade
  split <;> rfl

@[simp] theorem World.brighten_poisoned (p len x : Nat) (w : World σ) :
    (w.brighten build p len).poisoned x = w.poisoned x := by
  unfold brighten
  split <;> rfl

theorem World.live_poisoned (asan : build.asan = true) (p len x : Nat) (w : World σ) :
    (w.live build p len).poisoned x = if p ≤ x ∧ x < p + len then false else w.poisoned x := by
  rw [live, brighten_poisoned, light_poisoned asan]

theorem World.dead_poisoned (asan : build.asan = true) (p len x : Nat) (w : World σ) :
    (w.dead build p len).poisoned x = if p ≤ x ∧ x < p + len then true else w.poisoned x := by
  rw [dead, shade_poisoned asan, fade_poisoned]

end AgencC.Arena
