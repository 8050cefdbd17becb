import AgencC.Arena.Requests

/-! Which block serves an allocation, and where in it. -/

set_option autoImplicit false

namespace AgencC.Arena

open Library

variable {σ : Type} {build : Build} {parent : AllocT σ} {Out : World σ → List Region → Prop}

section
variable {a a' : Image σ}

/-- A call that returns an allocation has passed every check. -/
theorem Image.allocImpl_core {count size align ptr : Nat} (given : ptr ≠ 0)
    (ran : a.allocImpl build count size align = .ok (ptr, a')) :
    a.status = .ok ∧ alignValid align = true ∧ 0 < count * size ∧ ∀ b : Image σ, b.status = .ok →
      b.allocImpl build count size align =
        b.allocCore build (count * size) (alignEffective build align) := by
  by_cases ready : a.status = .ok
  · rw [Image.allocImpl, if_neg (not_not_intro ready)] at ran
    cases valid : alignValid align with
    | false =>
        rw [valid] at ran
        cases ran
        exact absurd rfl given
    | true =>
        rw [valid, if_neg (by decide)] at ran
        by_cases empty : count = 0 ∨ size = 0
        · cases (if_pos empty).symm.trans ran
          exact absurd rfl given
        · rw [if_neg empty] at ran
          by_cases large : ptrdiffMax < count * size
          · cases (if_pos large).symm.trans ran
            exact absurd rfl given
          · refine ⟨ready, rfl, Nat.pos_of_ne_zero fun none => empty (Nat.mul_eq_zero.mp none), ?_⟩
            intro b able
            rw [Image.allocImpl, if_neg (not_not_intro able), valid, if_neg (by decide),
              if_neg empty, if_neg large]
  · cases (if_pos ready).symm.trans ran
    exact absurd rfl given

/-- The current block serves where it has room. -/
theorem Image.allocCore_fits {size align : Nat} {c : Cell} {cs : List Cell}
    (chain : a.chain = c :: cs) (room : c.used + (c.pad align + build.footprint size) ≤ c.cap) :
    a.allocCore build size align = .ok (a.serve build size align c cs) := by
  rw [Image.allocCore, chain]
  exact if_neg (Nat.not_lt.mpr room)

variable (build) in
/-- The current block of a growing arena has no room, and `c` is an unused block that has. -/
structure Image.Opens (a : Image σ) (size align : Nat) (c : Cell) : Prop where
  empty : c.used = 0
  full : ∀ d ∈ a.chain.head?, d.cap < d.used + (d.pad align + build.footprint size)
  growing : a.fixed = false
  large : build.need size align ≤ c.cap

variable (build) in
/-- What serving `x` from the block `c` does to the arena. -/
structure Image.Stacks (a : Image σ) (x : Span) (c : Cell) (cs : List Cell) (a' : Image σ) : Prop where
  chain : a'.chain = c.bump build x.size (alignEffective build x.align) :: cs
  place : x.addr = c.cursor + c.pad (alignEffective build x.align)
  used : a'.used = a.used + (c.pad (alignEffective build x.align) + build.footprint x.size)
  room : c.used + (c.pad (alignEffective build x.align) + build.footprint x.size) ≤ c.cap
  fixed : a'.fixed = a.fixed
  status : a'.status = a.status
  before : a.chain = c :: cs ∨
    a.chain = cs ∧ a.Opens build x.size (alignEffective build x.align) c

theorem Image.Owned.stacked (conforms : parent.Conforms Out) (owned : a.Owned build parent Out)
    {count size align ptr : Nat} (word : align ≤ sizeMax) (given : ptr ≠ 0)
    (ran : a.allocImpl build count size align = .ok (ptr, a')) :
    ∃ c cs, a.Stacks build { addr := ptr, size := count * size, align } c cs a' := by
  obtain ⟨ready, valid, some, core⟩ := Image.allocImpl_core given ran
  have core := (core a ready).symm.trans ran
  obtain ⟨k, bits, power⟩ := alignEffective_eq build word valid
  have pos : 0 < alignEffective build align := power ▸ Nat.two_pow_pos k
  obtain ⟨r, again, outcome⟩ := owned.allocCore conforms (count * size) pos
  have answer := Except.ok.inj (core.symm.trans again)
  cases outcome with
  | refused => exact absurd (congrArg Prod.fst answer) given
  | @served c cs b enters room =>
      obtain ⟨place, rfl⟩ := Prod.mk.inj answer
      have fields : b.used = a.used ∧ b.fixed = a.fixed ∧ b.status = a.status := by
        cases enters <;> exact ⟨rfl, rfl, rfl⟩
      refine ⟨c, cs, rfl, place, congrArg (· + _) fields.1, room, fields.2.1, fields.2.2, ?_⟩
      have opens : a.fixed = false → a.chain = cs → c.used = 0 →
          build.need (count * size) (alignEffective build align) ≤ c.cap →
          a.chain = cs ∧ a.Opens build (count * size) (alignEffective build align) c := by
        intro growing chain empty large
        refine ⟨chain, empty, fun d member => Nat.lt_of_not_le fun fits => ?_, growing, large⟩
        obtain ⟨ds, same⟩ := List.head?_eq_some_iff.mp member
        have other := core.symm.trans (Image.allocCore_fits same fits)
        have chains := congrArg (fun r => r.2.chain.length) (Except.ok.inj other)
        rw [← chain, same] at chains
        exact absurd chains (Nat.succ_ne_self _)
      cases enters with
      | current chain => exact .inl chain
      | reused growing found =>
          obtain ⟨xs, ys, before, _, large⟩ := takeFit_some found
          have listed : c ∈ a.free := before ▸ List.mem_append_right _ (.head _)
          exact .inr (opens growing rfl (owned.empty c listed).1 large)
      | obtained growing bound absent found =>
          obtain ⟨_, _, _, block, _⟩ := Image.obtain_some found
          have cap : c.cap = max a.nextBlock (blockHdr + _) - blockHdr := congrArg Cell.cap block
          exact .inr (opens growing rfl (congrArg Cell.used block) (by omega))

end

section
variable {a a' b : Image σ} {x : Span} {c : Cell} {cs : List Cell}

theorem Image.Stacks.above (stacked : a.Stacks build x c cs a') :
    (c.bump build x.size (alignEffective build x.align)).data ≤ x.addr := by
  rw [stacked.place]
  exact Nat.le_trans (Nat.le_add_right _ _) (Nat.le_add_right _ _)

theorem Image.Stacks.ends (stacked : a.Stacks build x c cs a') :
    x.addr + build.footprint x.size =
      (c.bump build x.size (alignEffective build x.align)).cursor := by
  rw [stacked.place]
  exact (Nat.add_assoc _ _ _).trans (Nat.add_assoc c.data c.used _)

theorem Image.Stacks.grown (stacked : a.Stacks build x c cs a') : Grown a.chain a'.chain := by
  rw [stacked.chain]
  cases stacked.before with
  | inl same => exact .raised same (Nat.le_add_right _ _)
  | inr new => exact .entered _ (new.1 ▸ .refl _)

end

end AgencC.Arena
