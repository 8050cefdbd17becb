import AgencC.Arena.Integrity

/-! The whole contract of `alloc.h`, the helpers its callers go through, and what any client
of an allocator that keeps it can rely on. -/

set_option autoImplicit false

namespace AgencC.Arena

open Library

variable {σ : Type}

/-! The helpers `alloc_realloc` and `alloc_zeroed`. -/

def allocRealloc (build : Build) (a : AllocT σ) (ptr oldSize newSize align : Nat) (w : World σ) :
    Except Fault (Nat × World σ) := do
  build.check (align &&& sizeSub align 1 = 0) "(align & (align - 1)) == 0"
  build.check (newSize ≠ 0) "new_size != 0"
  build.check (ptr ≠ 0 ∨ oldSize = 0) "ptr != NULL || old_size == 0"
  a.xrealloc ptr oldSize newSize align w

def AllocT.allocZeroed (build : Build) (a : AllocT σ) (size align : Nat) (w : World σ) :
    Except Fault (Nat × World σ) := do
  let (ptr, w) ← allocAlloc build a size align w
  if ptr ≠ 0 then .ok (ptr, w.memset ptr 0 size) else .ok (ptr, w)

/-! The contract. -/

/-- An align that callers may pass: 0 or a power of two. -/
structure AlignArg (align : Nat) : Prop where
  word : align ≤ sizeMax
  power : align &&& sizeSub align 1 = 0

/-- The alignment a block has for its holder. -/
def Span.effective (x : Span) : Nat := if x.align = 0 then maxAlignT else x.align

/-- The storage of blocks. -/
def extents (xs : List Span) : List Region := xs.map Span.extent

/-- What an allocation for `x` may come to: a refusal, or `x` for its caller. -/
def AllocT.Grants (Out : World σ → List Span → Prop) (xs : List Span) (x : Span)
    (w : World σ) : Prop :=
  (x.addr = 0 ∧ Out w xs) ∨ (x.addr ≠ 0 ∧ Out w (x :: xs))

/-- An allocator that keeps the contract. `Out w xs` says that `xs` are the blocks it has given
out and not got back. Every call returns; it leaves alone the blocks it is not given, and
a reallocation that is refused leaves alone all of them. -/
structure AllocT.Honours (a : AllocT σ) (Out : World σ → List Span → Prop) : Prop where
  perm : ∀ {w xs xs'}, Out w xs → xs.Perm xs' → Out w xs'
  apart : ∀ {w xs}, Out w xs → (extents xs).Pairwise Region.Apart
  inside : ∀ {w xs}, Out w xs → ∀ x ∈ xs, x.addr ≠ 0 ∧ 0 < x.size ∧ x.size ≤ ptrdiffMax ∧
    x.addr + x.size ≤ sizeMax
  aligned : ∀ {w xs}, Out w xs → ∀ x ∈ xs, x.effective ∣ x.addr
  written : ∀ {w w' xs}, Out w xs → w.Inside (extents xs) w' → Out w' xs
  xalloc : ∀ {w xs align} (size : Nat), Out w xs → AlignArg align → ∃ ptr w',
    a.xalloc size align w = .ok (ptr, w') ∧ w.Keeps (extents xs) w' ∧
      AllocT.Grants Out xs ⟨ptr, size, align⟩ w'
  xreallocNull : ∀ {w xs newSize align}, Out w xs → AlignArg align → newSize ≠ 0 → ∃ ptr w',
    a.xrealloc 0 0 newSize align w = .ok (ptr, w') ∧ w.Keeps (extents xs) w' ∧
      AllocT.Grants Out xs ⟨ptr, newSize, align⟩ w'
  xrealloc : ∀ {w x xs newSize}, Out w (x :: xs) → AlignArg x.align → newSize ≠ 0 → ∃ ptr w',
    a.xrealloc x.addr x.size newSize x.align w = .ok (ptr, w') ∧ w.Keeps (extents xs) w' ∧
      ((ptr = 0 ∧ Out w' (x :: xs) ∧ ∀ p, x.Covers p → w'.bytes p = w.bytes p) ∨
        (ptr ≠ 0 ∧ Out w' (⟨ptr, newSize, x.align⟩ :: xs) ∧
          ∀ i < min x.size newSize, w'.bytes (ptr + i) = w.bytes (x.addr + i)))
  xfreeNull : ∀ {w xs} (size align : Nat), Out w xs → ∃ w', a.xfree 0 size align w = .ok w' ∧
    w.Keeps (extents xs) w' ∧ Out w' xs
  xfree : ∀ {w x xs}, Out w (x :: xs) → ∃ w', a.xfree x.addr x.size x.align w = .ok w' ∧
    w.Keeps (extents xs) w' ∧ Out w' xs

/-! A client of an allocator: what it holds, and the bytes it last saw there. -/

structure Holder (σ : Type) where
  world : World σ
  held : List Span
  contents : Nat → UInt8

/-- A call through the helpers of `alloc.h`, or what the client writes to its blocks. -/
inductive Deed (σ : Type) where
  | alloc (size align : Nat)
  | zeroed (size align : Nat)
  | realloc (ptr oldSize newSize align : Nat)
  | free (ptr size align : Nat)
  | write (world : World σ)

section
variable (build : Build) (a : AllocT σ)

/-- What a client holds after an allocation that came with `bytes`. -/
def Holder.received (ptr size align : Nat) (bytes : Nat → UInt8) (w : World σ) (c : Holder σ) :
    Holder σ :=
  if ptr = 0 then { c with world := w }
  else
    { world := w, held := ⟨ptr, size, align⟩ :: c.held
      contents := carry c.contents bytes 0 0 ⟨ptr, size, align⟩ }

/-- What a client holds after a reallocation. -/
def Holder.resized (ptr oldSize newSize align fresh : Nat) (w : World σ) (c : Holder σ) : Holder σ :=
  if fresh = 0 then { c with world := w }
  else if ptr = 0 then c.received fresh newSize align w.bytes w
  else
    { world := w, held := ⟨fresh, newSize, align⟩ :: c.held.erase ⟨ptr, oldSize, align⟩
      contents :=
        carry c.contents w.bytes ptr (min oldSize newSize) ⟨fresh, newSize, align⟩ }

def Holder.step (c : Holder σ) : Deed σ → Except Fault (Nat × Holder σ)
  | .alloc size align => do
      let (ptr, w) ← allocAlloc build a size align c.world
      .ok (ptr, c.received ptr size align w.bytes w)
  | .zeroed size align => do
      let (ptr, w) ← a.allocZeroed build size align c.world
      .ok (ptr, c.received ptr size align (fun _ => 0) w)
  | .realloc ptr oldSize newSize align => do
      let (fresh, w) ← allocRealloc build a ptr oldSize newSize align c.world
      .ok (fresh, c.resized ptr oldSize newSize align fresh w)
  | .free ptr size align => do
      let w ← allocFree build a ptr size align c.world
      .ok (0, { c with world := w, held := c.held.erase ⟨ptr, size, align⟩ })
  | .write world => .ok (0, { c with world, contents := world.bytes })

def Holder.run (c : Holder σ) : List (Deed σ) → Except Fault (List Nat × Holder σ)
  | [] => .ok ([], c)
  | deed :: deeds => do
      let (ptr, c) ← c.step build a deed
      let (ptrs, c) ← c.run deeds
      .ok (ptr :: ptrs, c)

end

/-- The preconditions that `alloc.h` states. -/
def Deed.Legal (c : Holder σ) : Deed σ → Prop
  | .alloc _ align | .zeroed _ align => AlignArg align
  | .realloc ptr oldSize newSize align =>
      AlignArg align ∧ newSize ≠ 0 ∧ (ptr = 0 ∧ oldSize = 0 ∨ ⟨ptr, oldSize, align⟩ ∈ c.held)
  | .free ptr size align => AlignArg align ∧ (ptr = 0 ∨ ⟨ptr, size, align⟩ ∈ c.held)
  | .write world => c.world.Inside (extents c.held) world

/-- Each deed is one that may be done where it is done. -/
def Holder.Allows (build : Build) (a : AllocT σ) (c : Holder σ) : List (Deed σ) → Prop
  | [] => True
  | deed :: deeds => deed.Legal c ∧
      ∀ ptr c', c.step build a deed = .ok (ptr, c') → c'.Allows build a deeds

/-- Deeds that give back blocks, one after the other. -/
def releases (xs : List Span) : List (Deed σ) := xs.map fun x => .free x.addr x.size x.align

/-- The client's blocks are out, with the bytes it last saw. -/
structure Holder.Served (Out : World σ → List Span → Prop) (c : Holder σ) : Prop where
  out : Out c.world c.held
  plain : ∀ x ∈ c.held, AlignArg x.align
  written : ∀ x ∈ c.held, ∀ p, x.Covers p → c.world.bytes p = c.contents p

section
variable {build : Build} {a : AllocT σ} {Out : World σ → List Span → Prop} {c : Holder σ}

theorem World.Keeps.bytes {w w' : World σ} {xs : List Span} (keeps : w.Keeps (extents xs) w')
    {x : Span} (member : x ∈ xs) {p : Nat} (covers : x.Covers p) : w'.bytes p = w.bytes p :=
  (keeps x.extent (List.mem_map_of_mem member) p covers).1

namespace Holder.Served

/-- The blocks a client holds are live beside a further one of its own. -/
theorem beside (honours : a.Honours Out) {w : World σ} {x y : Span} {xs : List Span}
    (out : Out w (x :: xs)) (member : y ∈ xs) {p : Nat} (covers : y.Covers p) : ¬ x.Covers p := by
  have apart := List.pairwise_cons.mp (honours.apart out)
  exact (apart.1 y.extent (List.mem_map_of_mem member)).symm.not_covers covers

/-- Nothing the client held has changed. -/
theorem unchanged (served : c.Served Out) {w : World σ}
    (keeps : ∀ x ∈ c.held, ∀ p, x.Covers p → w.bytes p = c.world.bytes p) (out : Out w c.held) :
    Served Out { c with world := w } where
  out := out
  plain := served.plain
  written x member p covers := (keeps x member p covers).trans (served.written x member p covers)

/-- A new block joins what the client holds. -/
theorem received (honours : a.Honours Out) (served : c.Served Out) {ptr size align : Nat}
    {bytes : Nat → UInt8} {w : World σ} (plain : AlignArg align)
    (keeps : c.world.Keeps (extents c.held) w)
    (grants : AllocT.Grants Out c.held ⟨ptr, size, align⟩ w)
    (right : ptr ≠ 0 → ∀ p, Span.Covers ⟨ptr, size, align⟩ p → w.bytes p = bytes p) :
    (c.received ptr size align bytes w).Served Out := by
  unfold Holder.received
  cases grants with
  | inl refused =>
      rw [if_pos refused.1]
      exact served.unchanged (fun x member p => keeps.bytes member) refused.2
  | inr granted =>
      obtain ⟨some, out⟩ := granted
      rw [if_neg some]
      refine ⟨out, List.forall_mem_cons.mpr ⟨plain, served.plain⟩, ?_⟩
      refine List.forall_mem_cons.mpr ⟨fun p covers => ?_, fun x member p covers => ?_⟩
      · exact (right some p covers).trans (carry_fresh covers covers.1).symm
      · refine (keeps.bytes member covers).trans ((served.written x member p covers).trans ?_)
        exact (carry_outside (beside honours out member covers)).symm

/-- A block of the client's is replaced by a resized one with the bytes they share. -/
theorem resized (honours : a.Honours Out) (served : c.Served Out) {x : Span} {newSize fresh : Nat}
    {w : World σ} (member : x ∈ c.held) (given : x.addr ≠ 0) (some : fresh ≠ 0)
    (keeps : c.world.Keeps (extents (c.held.erase x)) w)
    (out : Out w (⟨fresh, newSize, x.align⟩ :: c.held.erase x))
    (moved : ∀ i < min x.size newSize, w.bytes (fresh + i) = c.world.bytes (x.addr + i)) :
    (c.resized x.addr x.size newSize x.align fresh w).Served Out := by
  unfold Holder.resized
  rw [if_neg some, if_neg given]
  have earlier : ∀ y ∈ c.held.erase x, y ∈ c.held := fun y => List.mem_of_mem_erase
  refine ⟨out, List.forall_mem_cons.mpr ⟨served.plain x member, fun y listed =>
    served.plain y (earlier y listed)⟩, ?_⟩
  refine List.forall_mem_cons.mpr ⟨fun p covers => ?_, fun y listed p covers => ?_⟩
  · by_cases before : p < fresh + min x.size newSize
    · have low : fresh ≤ p := covers.1
      have same := moved (p - fresh) (by omega)
      rw [Nat.add_sub_cancel' low] at same
      refine same.trans (Eq.trans ?_ (carry_kept covers before).symm)
      refine served.written x member _ ⟨Nat.le_add_right _ _, ?_⟩
      omega
    · exact (carry_fresh covers (Nat.le_of_not_lt before)).symm
  · refine (keeps.bytes listed covers).trans ((served.written y (earlier y listed) p covers).trans ?_)
    exact (carry_outside (beside honours out listed covers)).symm

end Holder.Served

theorem AlignArg.check {align : Nat} (plain : AlignArg align) (build : Build) (text : String) :
    build.check (align &&& sizeSub align 1 = 0) text = .ok () :=
  build.check_of plain.power text

theorem allocAlloc_of {align : Nat} (plain : AlignArg align) (size : Nat) (w : World σ) :
    allocAlloc build a size align w = a.xalloc size align w := by
  rw [allocAlloc, plain.check, ok_bind]

theorem allocFree_of {align : Nat} (plain : AlignArg align) (ptr size : Nat) (w : World σ) :
    allocFree build a ptr size align w = a.xfree ptr size align w := by
  rw [allocFree, plain.check, ok_bind]

theorem allocRealloc_of {ptr oldSize newSize align : Nat} (plain : AlignArg align)
    (some : newSize ≠ 0) (given : ptr ≠ 0 ∨ oldSize = 0) (w : World σ) :
    allocRealloc build a ptr oldSize newSize align w = a.xrealloc ptr oldSize newSize align w := by
  rw [allocRealloc, plain.check, ok_bind, build.check_of some, ok_bind, build.check_of given,
    ok_bind]

/-- `alloc_zeroed` gives what `xalloc` gives, with nothing but zeros in it. -/
theorem AllocT.Honours.zeroed (honours : a.Honours Out) {w : World σ} {xs : List Span} {align : Nat}
    (out : Out w xs) (plain : AlignArg align) (size : Nat) : ∃ ptr w',
      a.allocZeroed build size align w = .ok (ptr, w') ∧ w.Keeps (extents xs) w' ∧
        AllocT.Grants Out xs ⟨ptr, size, align⟩ w' ∧
        (ptr ≠ 0 → ∀ p, Span.Covers ⟨ptr, size, align⟩ p → w'.bytes p = 0) := by
  obtain ⟨ptr, w', answered, keeps, grants⟩ := honours.xalloc size out plain
  unfold AllocT.allocZeroed
  rw [allocAlloc_of plain, answered, ok_bind]
  cases grants with
  | inl refused =>
      refine ⟨ptr, w', if_neg (not_not_intro refused.1), keeps, .inl refused, ?_⟩
      exact fun some => absurd refused.1 some
  | inr granted =>
      obtain ⟨some, out'⟩ := granted
      have touched := World.memset_touched ptr 0 size w'
      have apart := List.pairwise_cons.mp (honours.apart out')
      refine ⟨ptr, _, if_pos some, keeps.trans (touched.keeps apart.1), .inr ⟨some, ?_⟩, ?_⟩
      · exact honours.written out' (touched.inside (.head _) (.refl _))
      · exact fun _ p covers => if_pos covers

/-- A legal deed is done, and the client's blocks are as it left them. -/
theorem Holder.step_served (honours : a.Honours Out) (served : c.Served Out) {deed : Deed σ}
    (legal : deed.Legal c) : ∃ ptr c', c.step build a deed = .ok (ptr, c') ∧ c'.Served Out := by
  cases deed with
  | alloc size align =>
      obtain ⟨ptr, w, answered, keeps, grants⟩ := honours.xalloc size served.out legal
      refine ⟨ptr, _, bind_eq_ok.mpr ⟨_, (allocAlloc_of legal size _).trans answered, rfl⟩, ?_⟩
      exact served.received honours legal keeps grants fun _ _ _ => rfl
  | zeroed size align =>
      obtain ⟨ptr, w, answered, keeps, grants, zeros⟩ := honours.zeroed served.out legal size
      refine ⟨ptr, _, bind_eq_ok.mpr ⟨_, answered, rfl⟩, ?_⟩
      exact served.received honours legal keeps grants zeros
  | realloc ptr oldSize newSize align =>
      obtain ⟨plain, some, owned⟩ := legal
      cases owned with
      | inl none =>
          obtain ⟨rfl, rfl⟩ := none
          obtain ⟨fresh, w, answered, keeps, grants⟩ :=
            honours.xreallocNull served.out plain some
          have called : allocRealloc build a 0 0 newSize align c.world = .ok (fresh, w) :=
            (allocRealloc_of plain some (.inr rfl) _).trans answered
          refine ⟨fresh, _, bind_eq_ok.mpr ⟨_, called, rfl⟩, ?_⟩
          have after : c.resized 0 0 newSize align fresh w =
              c.received fresh newSize align w.bytes w := by
            unfold Holder.resized
            split
            · case isTrue refused => exact (if_pos refused).symm
            · rfl
          rw [after]
          exact served.received honours plain keeps grants fun _ _ _ => rfl
      | inr member =>
          have split := List.perm_cons_erase member
          have out := honours.perm served.out split
          have given := (honours.inside served.out _ member).1
          obtain ⟨fresh, w, answered, keeps, outcome⟩ := honours.xrealloc out plain some
          have called : allocRealloc build a ptr oldSize newSize align c.world = .ok (fresh, w) :=
            (allocRealloc_of plain some (.inl given) _).trans answered
          refine ⟨fresh, _, bind_eq_ok.mpr ⟨_, called, rfl⟩, ?_⟩
          cases outcome with
          | inl refused =>
              obtain ⟨none, out', same⟩ := refused
              unfold Holder.resized
              rw [if_pos none]
              refine served.unchanged (fun x listed p covers => ?_) (honours.perm out' split.symm)
              cases List.mem_cons.mp (split.mem_iff.mp listed) with
              | inl this => exact same p (this ▸ covers)
              | inr other => exact keeps.bytes other covers
          | inr granted =>
              obtain ⟨fine, out', moved⟩ := granted
              exact served.resized honours member given fine keeps out' moved
  | free ptr size align =>
      obtain ⟨plain, owned⟩ := legal
      by_cases member : ⟨ptr, size, align⟩ ∈ c.held
      · have out := honours.perm served.out (List.perm_cons_erase member)
        obtain ⟨w, freed, keeps, out'⟩ := honours.xfree out
        refine ⟨0, _, bind_eq_ok.mpr ⟨_, (allocFree_of plain ptr size _).trans freed, rfl⟩, ?_⟩
        have earlier : ∀ y ∈ c.held.erase ⟨ptr, size, align⟩, y ∈ c.held :=
          fun y => List.mem_of_mem_erase
        exact ⟨out', fun y listed => served.plain y (earlier y listed), fun y listed p covers =>
          (keeps.bytes listed covers).trans (served.written y (earlier y listed) p covers)⟩
      · cases owned.resolve_right member
        obtain ⟨w, freed, keeps, out'⟩ := honours.xfreeNull size align served.out
        refine ⟨0, _, bind_eq_ok.mpr ⟨_, (allocFree_of plain 0 size _).trans freed, rfl⟩, ?_⟩
        rw [List.erase_of_not_mem member]
        exact served.unchanged (fun x listed p => keeps.bytes listed) out'
  | write world =>
      refine ⟨0, _, rfl, honours.written served.out legal, served.plain, fun _ _ _ _ => rfl⟩

/-- Every legal run of a client returns, and its blocks are as it left them. -/
theorem Holder.run_served (honours : a.Honours Out) {deeds : List (Deed σ)} (served : c.Served Out)
    (allowed : c.Allows build a deeds) :
    ∃ ptrs c', c.run build a deeds = .ok (ptrs, c') ∧ c'.Served Out := by
  induction deeds generalizing c with
  | nil => exact ⟨[], c, rfl, served⟩
  | cons deed deeds ih =>
      obtain ⟨ptr, middle, first, still⟩ := Holder.step_served honours served allowed.1
      obtain ⟨ptrs, last, looped, done⟩ := ih still (allowed.2 ptr middle first)
      exact ⟨ptr :: ptrs, last, bind_eq_ok.mpr ⟨_, first, bind_eq_ok.mpr ⟨_, looped, rfl⟩⟩, done⟩

/-- A client can give back all it holds, in any order, and then nothing is out. -/
theorem Holder.releases_served (build : Build) (honours : a.Honours Out) {xs : List Span}
    (served : c.Served Out) (all : c.held.Perm xs) :
    ∃ ptrs c', c.run build a (releases xs) = .ok (ptrs, c') ∧ c'.Served Out ∧ c'.held = [] := by
  induction xs generalizing c with
  | nil => exact ⟨[], c, rfl, served, all.eq_nil⟩
  | cons x xs ih =>
      have member : x ∈ c.held := all.mem_iff.mpr (.head _)
      have legal : Deed.Legal c (.free x.addr x.size x.align) :=
        ⟨served.plain x member, .inr member⟩
      obtain ⟨ptr, middle, first, still⟩ := Holder.step_served honours served legal
      have fewer : middle.held = c.held.erase x := by
        obtain ⟨w, _, same⟩ := bind_eq_ok.mp first
        cases same
        rfl
      have rest : middle.held.Perm xs := by
        rw [fewer]
        exact ((List.perm_cons_erase member).symm.trans all).cons_inv
      obtain ⟨ptrs, last, looped, done⟩ := ih still rest
      exact ⟨ptr :: ptrs, last, bind_eq_ok.mpr ⟨_, first, bind_eq_ok.mpr ⟨_, looped, rfl⟩⟩, done⟩

end

end AgencC.Arena
