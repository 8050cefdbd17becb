import AgencC.Arena.Parent

/-! A parent that records the calls made of it, and what a record in order says. -/

set_option autoImplicit false

namespace AgencC.Arena

open Library

variable {σ : Type}

/-- A call of a parent, with what it returned. -/
inductive Call where
  | xalloc (size align ptr : Nat)
  | xrealloc (ptr oldSize newSize align fresh : Nat)
  | xfree (ptr size align : Nat)
  deriving DecidableEq, Repr

/-- A parent's state, and the calls made of it, newest first. -/
abbrev Recorded (σ : Type) := σ × List Call

/-- The world without its record. -/
def World.inner (w : World (Recorded σ)) : World σ := { w with parent := w.parent.1 }

def World.calls (w : World (Recorded σ)) : List Call := w.parent.2

def World.record (calls : List Call) (w : World σ) : World (Recorded σ) :=
  { w with parent := (w.parent, calls) }

@[simp] theorem World.inner_record (calls : List Call) (w : World σ) :
    (w.record calls).inner = w := rfl

@[simp] theorem World.calls_record (calls : List Call) (w : World σ) :
    (w.record calls).calls = calls := rfl

def AllocT.logged (a : AllocT σ) : AllocT (Recorded σ) where
  xalloc size align w := do
    let (ptr, inner) ← a.xalloc size align w.inner
    .ok (ptr, inner.record (.xalloc size align ptr :: w.calls))
  xrealloc ptr oldSize newSize align w := do
    let (fresh, inner) ← a.xrealloc ptr oldSize newSize align w.inner
    .ok (fresh, inner.record (.xrealloc ptr oldSize newSize align fresh :: w.calls))
  xfree ptr size align w := do
    let inner ← a.xfree ptr size align w.inner
    .ok (inner.record (.xfree ptr size align :: w.calls))

/-- A request for 1 up to `PTRDIFF_MAX` bytes at align 0, or a release at align 0. -/
def Call.Permitted : Call → Prop
  | .xalloc size align _ => 0 < size ∧ size ≤ ptrdiffMax ∧ align = 0
  | .xrealloc _ _ _ _ _ => False
  | .xfree _ _ align => align = 0

instance : DecidablePred Call.Permitted := fun call => by
  cases call <;> unfold Call.Permitted <;> infer_instance

/-- The blocks that the calls of a record have obtained and not given back. There is no answer
where a call is not permitted, or gives back what was not held with the size it was asked for. -/
def heldBlocks : List Call → Option (List Region)
  | [] => some []
  | .xalloc size align ptr :: calls => do
      let held ← heldBlocks calls
      if (Call.xalloc size align ptr).Permitted then
        some (if ptr = 0 then held else ⟨ptr, size⟩ :: held)
      else none
  | .xrealloc _ _ _ _ _ :: _ => none
  | .xfree ptr size align :: calls => do
      let held ← heldBlocks calls
      if align = 0 ∧ ⟨ptr, size⟩ ∈ held then some (held.erase ⟨ptr, size⟩) else none

/-- The record is in order, and has `rs` left to be given back. -/
def Owes (calls : List Call) (rs : List Region) : Prop :=
  ∃ held, heldBlocks calls = some held ∧ held.Perm rs

/-- A call that is accepted is permitted, and comes after calls that were. -/
theorem heldBlocks_cons {call : Call} {calls : List Call} {held : List Region}
    (accepted : heldBlocks (call :: calls) = some held) :
    call.Permitted ∧ ∃ before, heldBlocks calls = some before ∧
      match call with
      | .xalloc size _ ptr => held = if ptr = 0 then before else ⟨ptr, size⟩ :: before
      | .xrealloc _ _ _ _ _ => False
      | .xfree ptr size _ => ⟨ptr, size⟩ ∈ before ∧ held = before.erase ⟨ptr, size⟩ := by
  cases call with
  | xalloc size align ptr =>
      obtain ⟨before, earlier, accepted⟩ := Option.bind_eq_some_iff.mp accepted
      by_cases permitted : (Call.xalloc size align ptr).Permitted
      · rw [if_pos permitted] at accepted
        exact ⟨permitted, before, earlier, (Option.some.inj accepted).symm⟩
      · rw [if_neg permitted] at accepted
        cases accepted
  | xrealloc ptr oldSize newSize align fresh => cases accepted
  | xfree ptr size align =>
      obtain ⟨before, earlier, accepted⟩ := Option.bind_eq_some_iff.mp accepted
      by_cases owned : align = 0 ∧ ⟨ptr, size⟩ ∈ before
      · rw [if_pos owned] at accepted
        exact ⟨owned.1, before, earlier, owned.2, (Option.some.inj accepted).symm⟩
      · rw [if_neg owned] at accepted
        cases accepted

/-- Every call of a record in order is permitted. -/
theorem heldBlocks_permitted {calls : List Call} {held : List Region}
    (accepted : heldBlocks calls = some held) : ∀ call ∈ calls, call.Permitted := by
  induction calls generalizing held with
  | nil => exact fun _ member => nomatch member
  | cons call calls ih =>
      obtain ⟨permitted, before, earlier, _⟩ := heldBlocks_cons accepted
      exact List.forall_mem_cons.mpr ⟨permitted, ih earlier⟩

/-- A block was given back as often as it was obtained, less the times it is held. -/
theorem heldBlocks_count {calls : List Call} {held : List Region}
    (accepted : heldBlocks calls = some held) (r : Region) (given : r.addr ≠ 0) :
    calls.count (.xalloc r.size 0 r.addr) =
      calls.count (.xfree r.addr r.size 0) + held.count r := by
  induction calls generalizing held with
  | nil =>
      cases accepted
      rfl
  | cons call calls ih =>
      obtain ⟨permitted, before, earlier, effect⟩ := heldBlocks_cons accepted
      have counted := ih earlier
      cases call with
      | xalloc size align ptr =>
          have effect : held = if ptr = 0 then before else ⟨ptr, size⟩ :: before := effect
          rw [permitted.2.2, effect]
          by_cases here : r = ⟨ptr, size⟩
          · subst here
            rw [if_neg given, List.count_cons_self, List.count_cons_self,
              List.count_cons_of_ne (by simp), counted, Nat.add_assoc]
          · have other : Call.xalloc size 0 ptr ≠ .xalloc r.size 0 r.addr := by
              intro same
              injection same with size _ addr
              exact here (by rw [size, addr])
            rw [List.count_cons_of_ne other, List.count_cons_of_ne (by simp), counted]
            split
            · rfl
            · rw [List.count_cons_of_ne (Ne.symm here)]
      | xrealloc ptr oldSize newSize align fresh => exact effect.elim
      | xfree ptr size align =>
          have align : align = 0 := permitted
          obtain ⟨member, rfl⟩ := effect
          rw [align, List.count_cons_of_ne (by simp), counted]
          by_cases here : r = ⟨ptr, size⟩
          · subst here
            have some := List.count_pos_iff.mpr member
            rw [List.count_cons_self, List.count_erase_self]
            dsimp only
            omega
          · have other : Call.xfree ptr size 0 ≠ .xfree r.addr r.size 0 := by
              intro same
              injection same with addr size _
              exact here (by rw [size, addr])
            rw [List.count_cons_of_ne other, List.count_erase_of_ne here]

namespace Owes

variable {calls : List Call} {rs : List Region}

theorem permitted (owes : Owes calls rs) : ∀ call ∈ calls, call.Permitted := by
  obtain ⟨held, accepted, _⟩ := owes
  exact heldBlocks_permitted accepted

theorem count (owes : Owes calls rs) (r : Region) (given : r.addr ≠ 0) :
    calls.count (.xalloc r.size 0 r.addr) =
      calls.count (.xfree r.addr r.size 0) + rs.count r := by
  obtain ⟨held, accepted, same⟩ := owes
  rw [← same.count_eq r]
  exact heldBlocks_count accepted r given

theorem perm (owes : Owes calls rs) {rs' : List Region} (same : rs.Perm rs') : Owes calls rs' := by
  obtain ⟨held, accepted, before⟩ := owes
  exact ⟨held, accepted, before.trans same⟩

theorem xalloc (owes : Owes calls rs) {size : Nat} (some : 0 < size) (small : size ≤ ptrdiffMax)
    (ptr : Nat) :
    Owes (.xalloc size 0 ptr :: calls) (if ptr = 0 then rs else ⟨ptr, size⟩ :: rs) := by
  obtain ⟨held, accepted, same⟩ := owes
  refine ⟨if ptr = 0 then held else ⟨ptr, size⟩ :: held, ?_, ?_⟩
  · rw [heldBlocks, accepted]
    exact if_pos ⟨some, small, rfl⟩
  · split
    · exact same
    · exact same.cons _

theorem xfree {r : Region} (owes : Owes calls (r :: rs)) :
    Owes (.xfree r.addr r.size 0 :: calls) rs := by
  obtain ⟨held, accepted, same⟩ := owes
  have member : r ∈ held := same.mem_iff.mpr (.head _)
  refine ⟨held.erase r, ?_, ?_⟩
  · rw [heldBlocks, accepted]
    exact if_pos ⟨rfl, member⟩
  · exact (List.perm_cons_erase member).symm.trans same |>.cons_inv

end Owes

/-- What a recorded parent has given out: what the parent itself has, and the record owes. -/
def LogOut (Out : World σ → List Region → Prop) (w : World (Recorded σ)) (rs : List Region) : Prop :=
  Out w.inner rs ∧ Owes w.calls rs

theorem AllocT.Conforms.logged {parent : AllocT σ} {Out : World σ → List Region → Prop}
    (conforms : parent.Conforms Out) : parent.logged.Conforms (LogOut Out) where
  perm out same := ⟨conforms.perm out.1 same, out.2.perm same⟩
  apart out := conforms.apart out.1
  inside out := conforms.inside out.1
  aligned out := conforms.aligned out.1
  written {w w' rs} out inside := by
    have calls : w'.calls = w.calls := congrArg Prod.snd inside.parent
    refine ⟨conforms.written out.1 ⟨congrArg Prod.fst inside.parent, inside.bytes, inside.poisoned⟩, ?_⟩
    rw [calls]
    exact out.2
  xalloc {w rs size} out some small := by
    obtain ⟨ptr, inner, answered, keeps, outcome⟩ := conforms.xalloc out.1 some small
    have owes := out.2.xalloc some small ptr
    refine ⟨ptr, inner.record (.xalloc size 0 ptr :: w.calls), bind_eq_ok.mpr ⟨_, answered, rfl⟩,
      keeps, ?_⟩
    cases outcome with
    | inl refused => exact .inl ⟨refused.1, refused.2, by rwa [if_pos refused.1] at owes⟩
    | inr given => exact .inr ⟨given.1, given.2, by rwa [if_neg given.1] at owes⟩
  xfree {w r rs} out := by
    obtain ⟨inner, answered, keeps, left⟩ := conforms.xfree out.1
    exact ⟨inner.record (.xfree r.addr r.size 0 :: w.calls), bind_eq_ok.mpr ⟨_, answered, rfl⟩,
      keeps, left, out.2.xfree⟩

end AgencC.Arena
