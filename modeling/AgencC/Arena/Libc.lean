import AgencC.Arena.Contract
import AgencC.Arena.Lending

/-! The backend `alloc_libc` over the C library's `malloc`, `realloc` and `free`. -/

set_option autoImplicit false

namespace AgencC.Arena

open Library

/-! The C library. -/

/-- What one call of the C library comes to: where it puts a block, if it serves the call, and
what storage without contents holds after it. -/
structure Answer where
  addr : Option Nat
  bytes : Nat → UInt8
  poisoned : Nat → Bool

/-- The blocks that are allocated, and the answers to the calls to come. -/
structure Malloc where
  live : List Region
  calls : Nat
  answers : Nat → Answer

namespace Malloc

/-- A block can be placed at `r`. -/
def Fits (live : List Region) (r : Region) : Prop :=
  r.addr ≠ 0 ∧ maxAlignT ∣ r.addr ∧ r.addr + r.size ≤ sizeMax ∧ ∀ other ∈ live, r.Apart other

instance (live : List Region) (r : Region) : Decidable (Fits live r) :=
  inferInstanceAs (Decidable (_ ∧ _ ∧ _ ∧ _))

def answer (m : Malloc) : Answer := m.answers m.calls

/-- The block that starts at `ptr`. -/
def block (m : Malloc) (ptr : Nat) : Option Region := m.live.find? (·.addr = ptr)

/-- One more call has been answered. -/
def answered (live : List Region) (m : Malloc) : Malloc := { m with live, calls := m.calls + 1 }

end Malloc

/-- A call that serves nothing. -/
def World.refuse (w : World Malloc) : World Malloc :=
  { w with parent := w.parent.answered w.parent.live }

/-- The allocated blocks are now `live`. The bytes in `rs` are those that `source` leads to, or else
have no contents. -/
def World.serve (live rs : List Region) (source : Nat → Option Nat) (w : World Malloc) :
    World Malloc where
  bytes x := (source x).elim
    (if ∃ r ∈ rs, r.Covers x then w.parent.answer.bytes x else w.bytes x) w.bytes
  poisoned x := if ∃ r ∈ rs, r.Covers x then w.parent.answer.poisoned x else w.poisoned x
  parent := w.parent.answered live

namespace Malloc

def malloc (size : Nat) (w : World Malloc) : Nat × World Malloc :=
  match w.parent.answer.addr with
  | none => (0, w.refuse)
  | some addr =>
      if Fits w.parent.live ⟨addr, size⟩ then
        (addr, w.serve (⟨addr, size⟩ :: w.parent.live) [⟨addr, size⟩] fun _ => none)
      else (0, w.refuse)

/-- The source of a byte of a block that `realloc` moves from `r` to `addr`. -/
def moved (r : Region) (addr size x : Nat) : Option Nat :=
  if addr ≤ x ∧ x < addr + min r.size size then some (r.addr + (x - addr)) else none

def realloc (ptr size : Nat) (w : World Malloc) : Except Fault (Nat × World Malloc) :=
  if ptr = 0 then .ok (malloc size w)
  else
    match w.parent.block ptr with
    | none => .error .notHeld
    | some r =>
        match w.parent.answer.addr with
        | none => .ok (0, w.refuse)
        | some addr =>
            if Fits (w.parent.live.erase r) ⟨addr, size⟩ then
              .ok (addr, w.serve (⟨addr, size⟩ :: w.parent.live.erase r) [⟨addr, size⟩, r]
                (moved r addr size))
            else .ok (0, w.refuse)

def free (ptr : Nat) (w : World Malloc) : Except Fault (World Malloc) :=
  if ptr = 0 then .ok w
  else
    match w.parent.block ptr with
    | none => .error .notHeld
    | some r => .ok (w.serve (w.parent.live.erase r) [r] fun _ => none)

end Malloc

/-! The functions of the backend. -/

def allocLibcXalloc (size align : Nat) (w : World Malloc) : Nat × World Malloc :=
  if size = 0 ∨ ptrdiffMax < size then (0, w)
  else if maxAlignT < align then (0, w)
  else Malloc.malloc size w

def allocLibcXrealloc (ptr oldSize newSize align : Nat) (w : World Malloc) :
    Except Fault (Nat × World Malloc) :=
  if newSize = 0 ∨ ptrdiffMax < newSize then .ok (0, w)
  else if maxAlignT < align then .ok (0, w)
  else if ptr = 0 then .ok (Malloc.malloc newSize w)
  else do
    let (grown, w) ← Malloc.realloc ptr newSize w
    if grown = 0 ∧ newSize ≤ oldSize then .ok (ptr, w) else .ok (grown, w)

def allocLibcXfree (ptr : Nat) (w : World Malloc) : Except Fault (World Malloc) :=
  Malloc.free ptr w

def allocLibc : AllocT Malloc where
  xalloc size align w := .ok (allocLibcXalloc size align w)
  xrealloc := allocLibcXrealloc
  xfree ptr _ _ w := allocLibcXfree ptr w

/-! What the C library keeps true. -/

/-- Allocated blocks lie apart, and each is where one can be placed. -/
structure Malloc.Sound (m : Malloc) : Prop where
  apart : m.live.Pairwise Region.Apart
  placed : ∀ r ∈ m.live, r.addr ≠ 0 ∧ maxAlignT ∣ r.addr ∧ r.addr + r.size ≤ sizeMax ∧ 0 < r.size

namespace Malloc

variable {m : Malloc} {w : World Malloc}

theorem Sound.distinct (sound : m.Sound) : (m.live.map Region.addr).Nodup := by
  refine List.pairwise_map.mpr (sound.apart.imp_of_mem fun left right apart same => ?_)
  have first := (sound.placed _ left).2.2.2
  have second := (sound.placed _ right).2.2.2
  unfold Region.Apart at apart
  omega

theorem Sound.eq_of_addr (sound : m.Sound) {r r' : Region} (member : r ∈ m.live)
    (member' : r' ∈ m.live) (same : r.addr = r'.addr) : r = r' :=
  List.inj_on_of_nodup_map sound.distinct member member' same

/-- A block is found by its address. -/
theorem Sound.block_eq (sound : m.Sound) {r : Region} (member : r ∈ m.live) :
    m.block r.addr = some r := by
  have found : (m.live.find? (·.addr = r.addr)).isSome :=
    List.find?_isSome.mpr ⟨r, member, decide_eq_true rfl⟩
  obtain ⟨r', here⟩ := Option.isSome_iff_exists.mp found
  have same : r'.addr = r.addr := by simpa using List.find?_some here
  rw [block, here, sound.eq_of_addr (List.mem_of_find?_eq_some here) member same]

theorem Sound.live_nodup (sound : m.Sound) : m.live.Nodup := .of_map _ sound.distinct

/-- What is left after a block is given up, with another one in its place. -/
theorem Sound.replace (sound : m.Sound) (r : Region) {r' : Region} {n : Malloc}
    (fits : Fits (m.live.erase r) r') (some : 0 < r'.size) (live : n.live = r' :: m.live.erase r) :
    n.Sound where
  apart := by
    rw [live]
    exact List.pairwise_cons.mpr ⟨fits.2.2.2, sound.apart.sublist List.erase_sublist⟩
  placed := by
    rw [live]
    refine List.forall_mem_cons.mpr ⟨⟨fits.1, fits.2.1, fits.2.2.1, some⟩, fun other member => ?_⟩
    exact sound.placed other (List.mem_of_mem_erase member)

theorem Sound.place (sound : m.Sound) {r : Region} {n : Malloc} (fits : Fits m.live r)
    (some : 0 < r.size) (live : n.live = r :: m.live) : n.Sound where
  apart := by
    rw [live]
    exact List.pairwise_cons.mpr ⟨fits.2.2.2, sound.apart⟩
  placed := by
    rw [live]
    exact List.forall_mem_cons.mpr ⟨⟨fits.1, fits.2.1, fits.2.2.1, some⟩, sound.placed⟩

theorem Sound.erase (sound : m.Sound) (r : Region) {n : Malloc} (live : n.live = m.live.erase r) :
    n.Sound where
  apart := by
    rw [live]
    exact sound.apart.sublist List.erase_sublist
  placed := by
    rw [live]
    exact fun other member => sound.placed other (List.mem_of_mem_erase member)

/-- `malloc` refuses, or places a block beside the others. -/
theorem malloc_cases (size : Nat) (w : World Malloc) :
    malloc size w = (0, w.refuse) ∨
      ∃ addr, Fits w.parent.live ⟨addr, size⟩ ∧
        malloc size w =
          (addr, w.serve (⟨addr, size⟩ :: w.parent.live) [⟨addr, size⟩] fun _ => none) := by
  unfold malloc
  cases w.parent.answer.addr with
  | none => exact .inl rfl
  | some addr =>
      by_cases fits : Fits w.parent.live ⟨addr, size⟩
      · exact .inr ⟨addr, fits, if_pos fits⟩
      · exact .inl (if_neg fits)

/-- `realloc` refuses, or puts the block somewhere else or where it is. -/
theorem realloc_cases (sound : w.parent.Sound) {r : Region} (member : r ∈ w.parent.live)
    (size : Nat) :
    realloc r.addr size w = .ok (0, w.refuse) ∨
      ∃ addr, Fits (w.parent.live.erase r) ⟨addr, size⟩ ∧
        realloc r.addr size w = .ok (addr, w.serve (⟨addr, size⟩ :: w.parent.live.erase r)
          [⟨addr, size⟩, r] (moved r addr size)) := by
  unfold realloc
  rw [if_neg (sound.placed r member).1, sound.block_eq member]
  dsimp only
  cases w.parent.answer.addr with
  | none => exact .inl rfl
  | some addr =>
      by_cases fits : Fits (w.parent.live.erase r) ⟨addr, size⟩
      · exact .inr ⟨addr, fits, if_pos fits⟩
      · exact .inl (if_neg fits)

theorem free_of (sound : w.parent.Sound) {r : Region} (member : r ∈ w.parent.live) :
    free r.addr w = .ok (w.serve (w.parent.live.erase r) [r] fun _ => none) := by
  unfold free
  rw [if_neg (sound.placed r member).1, sound.block_eq member]

end Malloc

/-- Serving a call leaves alone what is apart from the storage it deals with. -/
theorem World.serve_same {w : World Malloc} {live rs : List Region} {source : Nat → Option Nat}
    {x : Nat} (outside : ∀ r ∈ rs, ¬ r.Covers x) (unmoved : source x = none) :
    (w.serve live rs source).bytes x = w.bytes x ∧
      (w.serve live rs source).poisoned x = w.poisoned x := by
  have away : ¬ ∃ r ∈ rs, r.Covers x := fun ⟨r, member, covers⟩ => outside r member covers
  refine ⟨?_, if_neg away⟩
  exact (congrArg (Option.elim · _ _) unmoved).trans (if_neg away)

theorem Malloc.moved_outside {r : Region} {addr size x : Nat}
    (outside : ¬ Region.Covers ⟨addr, size⟩ x) : moved r addr size x = none := by
  refine if_neg fun inside => outside ⟨inside.1, Nat.lt_of_lt_of_le inside.2 ?_⟩
  exact Nat.add_le_add_left (Nat.min_le_right _ _) _

theorem World.serve_moved {w : World Malloc} {live rs : List Region} {r : Region}
    {addr size i : Nat} (small : i < min r.size size) :
    (w.serve live rs (Malloc.moved r addr size)).bytes (addr + i) = w.bytes (r.addr + i) := by
  have source : Malloc.moved r addr size (addr + i) = some (r.addr + i) := by
    refine (if_pos ⟨Nat.le_add_right _ _, Nat.add_lt_add_left small _⟩).trans ?_
    rw [Nat.add_sub_cancel_left]
  exact congrArg (Option.elim · _ _) source

/-! The backend keeps the contract. -/

/-- The blocks a client of the backend has beside those that were allocated at first. A block that
could not be shrunk is larger than its client knows. -/
structure LibcOut (base w : World Malloc) (xs : List Span) : Prop where
  sound : w.parent.Sound
  addrs : (xs.map Span.addr ++ base.parent.live.map Region.addr).Perm
    (w.parent.live.map Region.addr)
  backed : ∀ x ∈ xs, ∃ r ∈ w.parent.live, r.addr = x.addr ∧ x.size ≤ r.size
  sized : ∀ x ∈ xs, 0 < x.size ∧ x.size ≤ ptrdiffMax
  plain : ∀ x ∈ xs, AlignArg x.align ∧ x.align ≤ maxAlignT
  others : ∀ r ∈ base.parent.live, r ∈ w.parent.live
  frozen : w.Keeps base.parent.live base

/-- A power of two up to `maxAlignT` divides it. -/
theorem dvd_maxAlignT {align : Nat} (plain : AlignArg align) (small : align ≤ maxAlignT)
    (given : align ≠ 0) : align ∣ maxAlignT := by
  have powers : ∀ align ≤ maxAlignT, align &&& sizeSub align 1 = 0 → align ≠ 0 →
      align ∣ maxAlignT := by decide
  exact powers align small plain.power given

namespace LibcOut

variable {base w w' : World Malloc} {x : Span} {xs : List Span} {r : Region}

theorem addrs_nodup (out : LibcOut base w xs) :
    (xs.map Span.addr ++ base.parent.live.map Region.addr).Nodup :=
  out.addrs.nodup_iff.mpr out.sound.distinct

/-- Blocks of the client with different addresses lie apart. -/
theorem apart_of_ne (out : LibcOut base w xs) {r r' : Region} (member : r ∈ w.parent.live)
    (member' : r' ∈ w.parent.live) (other : r.addr ≠ r'.addr) : r.Apart r' := by
  have symmetric : Std.Symm Region.Apart := ⟨fun _ _ => Region.Apart.symm⟩
  exact out.sound.apart.forall member member' fun same => other (congrArg Region.addr same)

theorem apart (out : LibcOut base w xs) : (extents xs).Pairwise Region.Apart := by
  have distinct := (List.nodup_append.mp out.addrs_nodup).1
  refine List.pairwise_map.mpr ((List.pairwise_map.mp distinct).imp_of_mem ?_)
  intro x y left right other
  obtain ⟨r, member, same, large⟩ := out.backed x left
  obtain ⟨r', member', same', large'⟩ := out.backed y right
  refine (out.apart_of_ne member member' fun equal => other ?_).mono ⟨?_, ?_⟩ ⟨?_, ?_⟩
  · rw [← same, ← same', equal]
  · exact Nat.le_of_eq same
  · exact same ▸ Nat.add_le_add_left large _
  · exact Nat.le_of_eq same'
  · exact same' ▸ Nat.add_le_add_left large' _

theorem extent_within {y : Span} (same : r.addr = y.addr) (large : y.size ≤ r.size) :
    y.extent.Within r :=
  ⟨Nat.le_of_eq same, same ▸ Nat.add_le_add_left large _⟩

/-- What was allocated at first is apart from the client's blocks. -/
theorem base_apart (out : LibcOut base w xs) (member : x ∈ xs) (other : r ∈ base.parent.live) :
    x.extent.Apart r := by
  obtain ⟨r', listed, same, large⟩ := out.backed x member
  have distinct := List.nodup_append.mp out.addrs_nodup
  refine (out.apart_of_ne listed (out.others r other) ?_).mono (extent_within same large) (.refl r)
  rw [same]
  exact distinct.2.2 _ (List.mem_map_of_mem member) _ (List.mem_map_of_mem other)

/-- A call that allocates nothing and gives nothing up. -/
theorem idle (out : LibcOut base w xs) (live : w'.parent.live = w.parent.live)
    (same : w'.Keeps base.parent.live w) : LibcOut base w' xs where
  sound := ⟨live ▸ out.sound.apart, live ▸ out.sound.placed⟩
  addrs := live ▸ out.addrs
  backed := live ▸ out.backed
  sized := out.sized
  plain := out.plain
  others := live ▸ out.others
  frozen := same.trans out.frozen

/-- Only storage that the client's blocks do not have is dealt with. -/
theorem spared (live rs : List Region) (source : Nat → Option Nat) {r' : Region}
    (away : ∀ s ∈ rs, ∀ p, r'.Covers p → ¬ s.Covers p)
    (unmoved : ∀ p, r'.Covers p → source p = none) {p : Nat} (covers : r'.Covers p) :
    (w.serve live rs source).bytes p = w.bytes p ∧
      (w.serve live rs source).poisoned p = w.poisoned p :=
  World.serve_same (fun s member => away s member p covers) (unmoved p covers)

/-- `malloc`, for a request that the backend passes on. -/
theorem malloc (out : LibcOut base w xs) {size align : Nat} (some : 0 < size)
    (small : size ≤ ptrdiffMax) (plain : AlignArg align) (fine : align ≤ maxAlignT) :
    ∃ ptr w', Malloc.malloc size w = (ptr, w') ∧ w.Keeps (extents xs) w' ∧
      AllocT.Grants (LibcOut base) xs ⟨ptr, size, align⟩ w' := by
  cases Malloc.malloc_cases size w with
  | inl refused =>
      exact ⟨0, _, refused, .refl _ _, .inl ⟨rfl, out.idle rfl (.refl _ _)⟩⟩
  | inr placed =>
      obtain ⟨addr, fits, served⟩ := placed
      have away : ∀ {r' : Region}, r' ∈ w.parent.live → ∀ p, r'.Covers p →
          ¬ Region.Covers ⟨addr, size⟩ p := fun member p covers =>
        (fits.2.2.2 _ member).symm.not_covers covers
      refine ⟨addr, _, served, fun r member p covers => ?_, .inr ⟨fits.1, ?_⟩⟩
      · obtain ⟨x, listed, rfl⟩ := List.mem_map.mp member
        obtain ⟨r', held, same, large⟩ := out.backed x listed
        refine spared _ _ _ (fun s only p covers => ?_) (fun _ _ => rfl) covers
        cases List.mem_singleton.mp only
        exact away held p ((extent_within same large).covers covers)
      · exact
          { sound := out.sound.place fits some rfl
            addrs := out.addrs.cons addr
            backed := List.forall_mem_cons.mpr ⟨⟨_, .head _, rfl, Nat.le_refl _⟩,
              fun y member =>
                have ⟨r, held, rest⟩ := out.backed y member
                ⟨r, .tail _ held, rest⟩⟩
            sized := List.forall_mem_cons.mpr ⟨⟨some, small⟩, out.sized⟩
            plain := List.forall_mem_cons.mpr ⟨⟨plain, fine⟩, out.plain⟩
            others := fun r member => .tail _ (out.others r member)
            frozen := fun r member p covers => by
              have before := out.frozen r member p covers
              have same := spared (w := w) (⟨addr, size⟩ :: w.parent.live) [⟨addr, size⟩]
                (fun _ => none)
                (fun s only p (covers : r.Covers p) => by
                  cases List.mem_singleton.mp only
                  exact away (out.others r member) p covers)
                (fun _ _ => rfl) covers
              exact ⟨before.1.trans same.1.symm, before.2.trans same.2.symm⟩ }

/-- What is allocated beside the block of one allocation. -/
theorem without (out : LibcOut base w (x :: xs)) (member : r ∈ w.parent.live)
    (same : r.addr = x.addr) :
    (xs.map Span.addr ++ base.parent.live.map Region.addr).Perm
        ((w.parent.live.erase r).map Region.addr) ∧
      (∀ y ∈ xs, ∃ r' ∈ w.parent.live.erase r, r'.addr = y.addr ∧ y.size ≤ r'.size) ∧
      ∀ r' ∈ base.parent.live, r' ∈ w.parent.live.erase r := by
  have distinct := List.nodup_cons.mp out.addrs_nodup
  have other : ∀ r' : Region,
      r'.addr ∈ xs.map Span.addr ++ base.parent.live.map Region.addr → r' ≠ r := by
    intro r' listed equal
    rw [equal, same] at listed
    exact distinct.1 listed
  refine ⟨?_, fun y listed => ?_, fun r' listed => ?_⟩
  · have split := (List.perm_cons_erase member).map Region.addr
    have whole := out.addrs.trans split
    rw [List.map_cons, List.cons_append, List.map_cons, same] at whole
    exact whole.cons_inv
  · obtain ⟨r', held, equal, large⟩ := out.backed y (.tail _ listed)
    refine ⟨r', (List.mem_erase_of_ne (other r' ?_)).mpr held, equal, large⟩
    rw [equal]
    exact List.mem_append_left _ (List.mem_map_of_mem listed)
  · exact (List.mem_erase_of_ne (other r' (List.mem_append_right _ (List.mem_map_of_mem listed)))).mpr
      (out.others r' listed)

/-- A block is served again or given up, and its client's others stay where they are. -/
theorem serve_keeps (out : LibcOut base w (x :: xs)) (member : r ∈ w.parent.live)
    (same : r.addr = x.addr) (live rs : List Region) (source : Nat → Option Nat)
    (away : ∀ r' ∈ w.parent.live.erase r, ∀ s ∈ rs, r'.Apart s)
    (unmoved : ∀ r' ∈ w.parent.live.erase r, ∀ p, r'.Covers p → source p = none) :
    w.Keeps (extents xs) (w.serve live rs source) ∧
      (w.serve live rs source).Keeps base.parent.live base := by
  obtain ⟨_, backed, others⟩ := out.without member same
  constructor
  · intro r' listed p covers
    obtain ⟨y, inside, rfl⟩ := List.mem_map.mp listed
    obtain ⟨r', held, equal, large⟩ := backed y inside
    have covers := (extent_within equal large).covers covers
    exact spared live rs source (fun s found q covers => (away r' held s found).not_covers covers)
      (unmoved r' held) covers
  · intro r' listed p covers
    have before := out.frozen r' listed p covers
    have after := spared (w := w) live rs source
      (fun s found q covers => (away r' (others r' listed) s found).not_covers covers)
      (unmoved r' (others r' listed)) covers
    exact ⟨before.1.trans after.1.symm, before.2.trans after.2.symm⟩

theorem erase_apart (out : LibcOut base w xs) (member : r ∈ w.parent.live) :
    ∀ r' ∈ w.parent.live.erase r, r'.Apart r := by
  intro r' listed
  refine out.apart_of_ne (List.mem_of_mem_erase listed) member fun same => ?_
  have equal := out.sound.eq_of_addr (List.mem_of_mem_erase listed) member same
  exact (out.sound.live_nodup.mem_erase_iff.mp listed).1 equal

/-- `free`, of a block of the client's. -/
theorem free (out : LibcOut base w (x :: xs)) : ∃ w', Malloc.free x.addr w = .ok w' ∧
    w.Keeps (extents xs) w' ∧ LibcOut base w' xs := by
  obtain ⟨r, member, same, large⟩ := out.backed x (.head _)
  have freed := Malloc.free_of out.sound member
  rw [same] at freed
  obtain ⟨addrs, backed, others⟩ := out.without member same
  obtain ⟨keeps, frozen⟩ := out.serve_keeps member same (w.parent.live.erase r) [r] (fun _ => none)
    (fun r' listed s only => List.mem_singleton.mp only ▸ out.erase_apart member r' listed)
    (fun _ _ _ _ => rfl)
  exact ⟨_, freed, keeps,
    { sound := out.sound.erase r rfl
      addrs := addrs
      backed := backed
      sized := fun y listed => out.sized y (.tail _ listed)
      plain := fun y listed => out.plain y (.tail _ listed)
      others := others
      frozen := frozen }⟩

/-- The client asks for less of a block, and it stays as large as it is. -/
theorem shrunk (out : LibcOut base w (x :: xs)) {newSize : Nat} (some : 0 < newSize)
    (small : newSize ≤ x.size) : LibcOut base w (⟨x.addr, newSize, x.align⟩ :: xs) where
  sound := out.sound
  addrs := out.addrs
  backed := by
    refine List.forall_mem_cons.mpr ⟨?_, fun y listed => out.backed y (.tail _ listed)⟩
    obtain ⟨r, member, same, large⟩ := out.backed x (.head _)
    exact ⟨r, member, same, Nat.le_trans small large⟩
  sized := List.forall_mem_cons.mpr
    ⟨⟨some, Nat.le_trans small (out.sized x (.head _)).2⟩, fun y listed => out.sized y (.tail _ listed)⟩
  plain := List.forall_mem_cons.mpr
    ⟨out.plain x (.head _), fun y listed => out.plain y (.tail _ listed)⟩
  others := out.others
  frozen := out.frozen

/-- A block of the client's is reallocated. A request that is refused leaves it alone, and no
request for less is refused. -/
theorem realloc (out : LibcOut base w (x :: xs)) {newSize : Nat} (some : newSize ≠ 0) :
    ∃ ptr w', allocLibcXrealloc x.addr x.size newSize x.align w = .ok (ptr, w') ∧
      w.Keeps (extents xs) w' ∧
      ((ptr = 0 ∧ LibcOut base w' (x :: xs) ∧ ∀ p, x.Covers p → w'.bytes p = w.bytes p) ∨
        (ptr ≠ 0 ∧ LibcOut base w' (⟨ptr, newSize, x.align⟩ :: xs) ∧
          ∀ i < min x.size newSize, w'.bytes (ptr + i) = w.bytes (x.addr + i))) ∧
      (newSize ≤ x.size → ptr ≠ 0) := by
  obtain ⟨r, member, same, large⟩ := out.backed x (.head _)
  obtain ⟨_, small⟩ := out.sized x (.head _)
  obtain ⟨plain, fine⟩ := out.plain x (.head _)
  have given : x.addr ≠ 0 := same ▸ (out.sound.placed r member).1
  have idle : LibcOut base w.refuse (x :: xs) := out.idle rfl (.refl _ _)
  unfold allocLibcXrealloc
  by_cases beyond : ptrdiffMax < newSize
  · rw [if_pos (.inr beyond)]
    exact ⟨0, w, rfl, .refl _ _, .inl ⟨rfl, out, fun _ _ => rfl⟩, fun less => by omega⟩
  rw [if_neg (not_or.mpr ⟨some, beyond⟩), if_neg (Nat.not_lt.mpr fine), if_neg given]
  have answers := Malloc.realloc_cases out.sound member newSize
  rw [same] at answers
  cases answers with
  | inl refused =>
      rw [refused, ok_bind]
      by_cases less : newSize ≤ x.size
      · refine ⟨x.addr, w.refuse, if_pos ⟨rfl, less⟩, .refl _ _, .inr ⟨given, ?_, ?_⟩,
          fun _ => given⟩
        · exact idle.shrunk (Nat.pos_of_ne_zero some) less
        · exact fun _ _ => rfl
      · exact ⟨0, w.refuse, if_neg fun both => less both.2, .refl _ _,
          .inl ⟨rfl, idle, fun _ _ => rfl⟩, fun smaller => absurd smaller less⟩
  | inr granted =>
      obtain ⟨addr, fits, served⟩ := granted
      obtain ⟨addrs, backed, others⟩ := out.without member same
      obtain ⟨keeps, frozen⟩ := out.serve_keeps member same
        (⟨addr, newSize⟩ :: w.parent.live.erase r) [⟨addr, newSize⟩, r] (Malloc.moved r addr newSize)
        (fun r' listed => List.forall_mem_cons.mpr ⟨(fits.2.2.2 r' listed).symm,
          List.forall_mem_singleton.mpr (out.erase_apart member r' listed)⟩)
        (fun r' listed p covers => Malloc.moved_outside
          ((fits.2.2.2 r' listed).symm.not_covers covers))
      rw [served, ok_bind]
      refine ⟨addr, _, if_neg fun both => fits.1 both.1, keeps, .inr ⟨fits.1, ?_, ?_⟩,
        fun _ => fits.1⟩
      · exact
          { sound := out.sound.replace r fits (Nat.pos_of_ne_zero some) rfl
            addrs := addrs.cons addr
            backed := List.forall_mem_cons.mpr ⟨⟨_, .head _, rfl, Nat.le_refl _⟩,
              fun y listed =>
                have ⟨r', held, rest⟩ := backed y listed
                ⟨r', .tail _ held, rest⟩⟩
            sized := List.forall_mem_cons.mpr
              ⟨⟨Nat.pos_of_ne_zero some, Nat.le_of_not_lt beyond⟩,
                fun y listed => out.sized y (.tail _ listed)⟩
            plain := List.forall_mem_cons.mpr
              ⟨⟨plain, fine⟩, fun y listed => out.plain y (.tail _ listed)⟩
            others := fun r' listed => .tail _ (others r' listed)
            frozen := frozen }
      · intro i below
        rw [World.serve_moved (Nat.lt_of_lt_of_le below ?_), same]
        exact Nat.le_min.mpr ⟨Nat.le_trans (Nat.min_le_left _ _) large, Nat.min_le_right _ _⟩

end LibcOut

theorem allocLibc_honours (base : World Malloc) : allocLibc.Honours (LibcOut base) where
  perm out same :=
    { out with
      addrs := ((same.symm.map Span.addr).append_right _).trans out.addrs
      backed := fun x member => out.backed x (same.mem_iff.mpr member)
      sized := fun x member => out.sized x (same.mem_iff.mpr member)
      plain := fun x member => out.plain x (same.mem_iff.mpr member) }
  apart out := out.apart
  inside out x member := by
    obtain ⟨r, held, same, large⟩ := out.backed x member
    obtain ⟨given, _, below, _⟩ := out.sound.placed r held
    obtain ⟨some, small⟩ := out.sized x member
    exact ⟨same ▸ given, some, small, by omega⟩
  aligned out x member := by
    obtain ⟨r, held, same, _⟩ := out.backed x member
    obtain ⟨plain, fine⟩ := out.plain x member
    have aligned := (out.sound.placed r held).2.1
    rw [same] at aligned
    unfold Span.effective
    split
    · exact aligned
    · case isFalse given => exact (dvd_maxAlignT plain fine given).trans aligned
  written {w w' xs} out inside := by
    have same := inside.parent
    refine out.idle (by rw [same]) fun r member p covers => ?_
    have away : ∀ r' ∈ extents xs, ¬ r'.Covers p := by
      intro r' listed
      obtain ⟨x, held, rfl⟩ := List.mem_map.mp listed
      exact (out.base_apart held member).symm.not_covers covers
    exact ⟨(inside.bytes p away).symm, (inside.poisoned p away).symm⟩
  xalloc {w xs align} size out plain := by
    by_cases wrong : size = 0 ∨ ptrdiffMax < size
    · exact ⟨0, w, congrArg Except.ok (if_pos wrong), .refl _ _, .inl ⟨rfl, out⟩⟩
    by_cases coarse : maxAlignT < align
    · exact ⟨0, w, congrArg Except.ok ((if_neg wrong).trans (if_pos coarse)), .refl _ _,
        .inl ⟨rfl, out⟩⟩
    obtain ⟨some, small⟩ := not_or.mp wrong
    obtain ⟨ptr, w', placed, rest⟩ := out.malloc (Nat.pos_of_ne_zero some) (Nat.le_of_not_lt small)
      plain (Nat.le_of_not_lt coarse)
    exact ⟨ptr, w', congrArg Except.ok ((if_neg wrong).trans ((if_neg coarse).trans placed)), rest⟩
  xreallocNull {w xs newSize align} out plain some := by
    by_cases beyond : ptrdiffMax < newSize
    · exact ⟨0, w, if_pos (.inr beyond), .refl _ _, .inl ⟨rfl, out⟩⟩
    have right : ¬ (newSize = 0 ∨ ptrdiffMax < newSize) := not_or.mpr ⟨some, beyond⟩
    by_cases coarse : maxAlignT < align
    · exact ⟨0, w, (if_neg right).trans (if_pos coarse), .refl _ _, .inl ⟨rfl, out⟩⟩
    obtain ⟨ptr, w', placed, rest⟩ := out.malloc (Nat.pos_of_ne_zero some)
      (Nat.le_of_not_lt beyond) plain (Nat.le_of_not_lt coarse)
    refine ⟨ptr, w', (if_neg right).trans ((if_neg coarse).trans ?_), rest⟩
    exact (if_pos rfl).trans (congrArg Except.ok placed)
  xrealloc out _ some :=
    have ⟨ptr, w', ran, keeps, outcome, _⟩ := out.realloc some
    ⟨ptr, w', ran, keeps, outcome⟩
  xfreeNull _ _ out := ⟨_, rfl, .refl _ _, out⟩
  xfree out := out.free

/-! Clients of the backend. -/

namespace LibcOut

variable {base w : World Malloc}

/-- No block of a client's is out before its first call. -/
theorem start (sound : base.parent.Sound) : LibcOut base base [] where
  sound := sound
  addrs := .refl _
  backed _ member := nomatch member
  sized _ member := nomatch member
  plain _ member := nomatch member
  others _ member := member
  frozen := .refl _ _

/-- Where a client has nothing, the C library has the blocks it had at first. -/
theorem none_left (out : LibcOut base w []) : w.parent.live.Perm base.parent.live := by
  have distinct : base.parent.live.Nodup := by
    have all : (base.parent.live.map Region.addr).Nodup := out.addrs_nodup
    exact .of_map _ all
  refine (List.perm_ext_iff_of_nodup out.sound.live_nodup distinct).mpr fun r =>
    ⟨fun member => ?_, out.others r⟩
  obtain ⟨r', listed, same⟩ :=
    List.mem_map.mp (out.addrs.mem_iff.mpr (List.mem_map_of_mem (f := Region.addr) member))
  rwa [← out.sound.eq_of_addr (out.others r' listed) member same]

end LibcOut

/-- What a client of the backend has: blocks that are apart from each other and from those of
others, aligned, with the bytes it left there; the C library has these blocks and those of others,
and no request for less of a block is refused. -/
structure Holder.Housed (build : Build) (base : World Malloc) (c : Holder Malloc) : Prop where
  apart : (extents c.held).Pairwise Region.Apart
  clear : ∀ x ∈ c.held, ∀ r ∈ base.parent.live, x.extent.Apart r
  aligned : ∀ x ∈ c.held, x.effective ∣ x.addr
  written : ∀ x ∈ c.held, ∀ p, x.Covers p → c.world.bytes p = c.contents p
  owed : (c.held.map Span.addr ++ base.parent.live.map Region.addr).Perm
    (c.world.parent.live.map Region.addr)
  shrinks : ∀ x ∈ c.held, ∀ newSize, newSize ≠ 0 → newSize ≤ x.size → ∃ ptr w',
    allocRealloc build allocLibc x.addr x.size newSize x.align c.world = .ok (ptr, w') ∧ ptr ≠ 0

theorem Holder.Served.housed {build : Build} {base : World Malloc} {c : Holder Malloc}
    (served : c.Served (LibcOut base)) : c.Housed build base where
  apart := served.out.apart
  clear x member r listed := served.out.base_apart member listed
  aligned := (allocLibc_honours base).aligned served.out
  written := served.written
  owed := served.out.addrs
  shrinks x member newSize some less := by
    have out := (allocLibc_honours base).perm served.out (List.perm_cons_erase member)
    obtain ⟨ptr, w', ran, _, _, shrinks⟩ := out.realloc some
    have given := ((allocLibc_honours base).inside served.out x member).1
    exact ⟨ptr, w', (allocRealloc_of (served.plain x member) some (.inl given) _).trans ran,
      shrinks less⟩

/-- Whatever the C library answers, every legal run of a client of `alloc_libc` returns, frees
nothing that is not allocated, and leaves the client its blocks. Given back in any order, they leave
the C library with the blocks of others, and those as they were. -/
theorem Holder.run_libc (build : Build) {base : World Malloc} (sound : base.parent.Sound)
    (contents : Nat → UInt8) {deeds : List (Deed Malloc)}
    (allowed : Holder.Allows build allocLibc ⟨base, [], contents⟩ deeds) :
    ∃ ptrs c, Holder.run build allocLibc ⟨base, [], contents⟩ deeds = .ok (ptrs, c) ∧
      c.Housed build base ∧ ∀ xs, c.held.Perm xs →
        ∃ ptrs' c', c.run build allocLibc (releases xs) = .ok (ptrs', c') ∧
          c'.world.parent.live.Perm base.parent.live ∧ c'.world.Keeps base.parent.live base := by
  have start : Holder.Served (LibcOut base) ⟨base, [], contents⟩ :=
    ⟨.start sound, fun _ member => (nomatch member), fun _ member => nomatch member⟩
  obtain ⟨ptrs, c, ran, served⟩ := Holder.run_served (allocLibc_honours base) start allowed
  refine ⟨ptrs, c, ran, served.housed, fun xs all => ?_⟩
  obtain ⟨ptrs', c', gone, done, empty⟩ :=
    Holder.releases_served build (allocLibc_honours base) served all
  have out := done.out
  rw [empty] at out
  exact ⟨ptrs', c', gone, out.none_left, out.frozen⟩

/-- A C library with one block of others, that places each further one 256 bytes on. -/
def Malloc.spaced : World Malloc where
  bytes _ := 7
  poisoned _ := false
  parent :=
    { live := [⟨4096, 64⟩], calls := 0
      answers := fun n =>
        { addr := some (8192 + 256 * n), bytes := fun _ => 0, poisoned := fun _ => false } }

theorem Malloc.spaced_sound : Malloc.spaced.parent.Sound where
  apart := List.pairwise_singleton _ _
  placed := by decide

theorem Holder.run_libc_moved :
    ∃ ptrs c, Holder.run .sanitized allocLibc ⟨Malloc.spaced, [], fun _ => 0⟩
        [.alloc 24 0, .realloc 8192 24 100 0] = .ok (ptrs, c) ∧ c.Housed .sanitized Malloc.spaced := by
  have plain : AlignArg 0 := ⟨Nat.zero_le _, by decide⟩
  have allowed : Holder.Allows .sanitized allocLibc ⟨Malloc.spaced, [], fun _ => 0⟩
      [.alloc 24 0, .realloc 8192 24 100 0] := by
    refine ⟨plain, fun ptr c' ran => ?_⟩
    cases ran
    exact ⟨⟨plain, by decide, .inr (.head _)⟩, fun _ _ _ => trivial⟩
  obtain ⟨ptrs, c, ran, housed, _⟩ :=
    Holder.run_libc .sanitized Malloc.spaced_sound (fun _ => 0) allowed
  exact ⟨ptrs, c, ran, housed⟩

/-! The backend as the parent of arenas. -/

theorem extents_block (rs : List Region) : extents (rs.map Span.block) = rs := by
  rw [extents, List.map_map]
  exact List.map_id rs

/-- What keeps the contract has all that an arena relies on in its parent. -/
theorem AllocT.Honours.conforms {σ : Type} {a : AllocT σ} {Out : World σ → List Span → Prop}
    (honours : a.Honours Out) : a.Conforms fun w rs => Out w (rs.map Span.block) where
  perm out same := honours.perm out (same.map _)
  apart {w rs} out := extents_block rs ▸ honours.apart out
  inside out r member := by
    obtain ⟨given, _, _, below⟩ := honours.inside out _ (List.mem_map_of_mem member)
    exact ⟨given, below⟩
  aligned out r member := honours.aligned out _ (List.mem_map_of_mem member)
  written {w w' rs} out inside := honours.written out ((extents_block rs).symm ▸ inside)
  xalloc {w rs size} out _ _ := by
    have plain : AlignArg 0 := ⟨Nat.zero_le _, by decide⟩
    obtain ⟨ptr, w', ran, keeps, grants⟩ := honours.xalloc size out plain
    exact ⟨ptr, w', ran, extents_block rs ▸ keeps, grants⟩
  xfree {w r rs} out := by
    obtain ⟨w', ran, keeps, out'⟩ := honours.xfree out
    exact ⟨w', ran, extents_block rs ▸ keeps, out'⟩

/-- The C library has given out `rs` to an arena. -/
def LibcLent (base w : World Malloc) (rs : List Region) : Prop :=
  LibcOut base w (rs.map Span.block)

theorem allocLibc_conforms (base : World Malloc) : allocLibc.Conforms (LibcLent base) :=
  (allocLibc_honours base).conforms

end AgencC.Arena
