import AgencC.Arena.Scopes

/-! What a client has from an arena, scope by scope, and where it lies on the chain. -/

set_option autoImplicit false

namespace AgencC.Arena

open Library

variable {σ : Type} {build : Build}

/-- An allocation: its address, and the size and align it was asked for with. -/
structure Span where
  addr : Nat
  size : Nat
  align : Nat
  deriving DecidableEq, Repr

def Span.Covers (x : Span) (b : Nat) : Prop := x.addr ≤ b ∧ b < x.addr + x.size

/-- An allocation and its redzone. -/
def Span.region (build : Build) (x : Span) : Region := ⟨x.addr, build.footprint x.size⟩

variable (build) in
/-- Aligned as it was asked for, and to 8 bytes at least where redzones are poisoned. -/
def Span.Aligned (x : Span) : Prop :=
  alignEffective build x.align ∣ x.addr ∧ (build.asan = true → blockAlign ∣ x.addr)

/-- The allocations of one scope: those that are live, those whose free was ignored, and
those that a reallocation moved away from. -/
structure Ledger where
  live : List Span
  ignored : List Span
  abandoned : List Span
  deriving DecidableEq, Repr

namespace Ledger

def empty : Ledger := ⟨[], [], []⟩

/-- What the arena leaves addressable. -/
def lit (l : Ledger) : List Span := l.live ++ l.ignored

def spans (l : Ledger) : List Span := l.lit ++ l.abandoned

def add (x : Span) (l : Ledger) : Ledger := { l with live := x :: l.live }

def drop (x : Span) (l : Ledger) : Ledger := { l with live := l.live.erase x }

def ignore (x : Span) (l : Ledger) : Ledger :=
  { l with live := l.live.erase x, ignored := x :: l.ignored }

def abandon (x : Span) (l : Ledger) : Ledger :=
  { l with live := l.live.erase x, abandoned := x :: l.abandoned }

/-- Bytes that `used` no longer counts. -/
def uncounted (l : Ledger) : Nat := (l.abandoned.map Span.size).sum

variable {l : Ledger} {x : Span}

theorem lit_perm_drop (member : x ∈ l.live) : l.lit.Perm (x :: (l.drop x).lit) :=
  (List.perm_cons_erase member).append_right l.ignored

theorem spans_perm_drop (member : x ∈ l.live) : l.spans.Perm (x :: (l.drop x).spans) :=
  (lit_perm_drop member).append_right l.abandoned

theorem lit_perm_ignore (member : x ∈ l.live) : l.lit.Perm (l.ignore x).lit :=
  (lit_perm_drop member).trans List.perm_middle.symm

theorem spans_perm_ignore (member : x ∈ l.live) : l.spans.Perm (l.ignore x).spans :=
  (lit_perm_ignore member).append_right l.abandoned

theorem spans_perm_abandon (member : x ∈ l.live) : l.spans.Perm (l.abandon x).spans :=
  (spans_perm_drop member).trans List.perm_middle.symm

theorem mem_spans_of_live (member : x ∈ l.live) : x ∈ l.spans :=
  List.mem_append_left _ (List.mem_append_left _ member)

end Ledger

/-- A chain and a counter. -/
structure Mark where
  chain : List Cell
  used : Nat

def Image.mark (a : Image σ) : Mark := { chain := a.chain, used := a.used }

variable (build) in
/-- How what a scope has allocated since `floor` lies on the chain of `top`. -/
structure Level (floor top : Mark) (l : Ledger) : Prop where
  grown : Grown floor.chain top.chain
  placed : ∀ x ∈ l.spans, Placed top.chain x.addr (build.footprint x.size)
  fresh : ∀ x ∈ l.spans, ∀ b, (x.region build).Covers b → ¬ Below floor.chain b
  apart : (l.spans.map (Span.region build)).Pairwise Region.Apart
  filled : ∀ x ∈ l.spans, 0 < x.size
  aligned : ∀ x ∈ l.live, x.Aligned build
  counted : top.used + l.uncounted + consumed floor.chain = floor.used + consumed top.chain

theorem Span.Covers.region {x : Span} {b : Nat} (covers : x.Covers b) :
    (x.region build).Covers b := by
  refine ⟨covers.1, Nat.lt_of_lt_of_le covers.2 ?_⟩
  exact Nat.add_le_add_left (Nat.le_add_right _ _) _

/-! What one operation does to the innermost level. -/

section
variable {floor top : Mark} {l : Ledger} {x : Span}

theorem Level.start (mark : Mark) : Level build mark mark .empty where
  grown := .refl _
  placed _ member := nomatch member
  fresh _ member := nomatch member
  apart := .nil
  filled _ member := nomatch member
  aligned _ member := nomatch member
  counted := rfl

theorem Level.bottom (chain : List Cell) (unused : consumed chain = 0) :
    Level build ⟨[], 0⟩ ⟨chain, 0⟩ .empty where
  grown := .nil _
  placed _ member := nomatch member
  fresh _ member := nomatch member
  apart := .nil
  filled _ member := nomatch member
  aligned _ member := nomatch member
  counted := by
    change 0 + 0 + 0 = 0 + consumed chain
    rw [unused]

theorem Placed.below_region {chain : List Cell} {x : Span} {b : Nat}
    (placed : Placed chain x.addr (build.footprint x.size)) (covers : (x.region build).Covers b) :
    Below chain b :=
  placed.below covers.1 covers.2

theorem Build.footprint_pos {size : Nat} (some : 0 < size) : 0 < build.footprint size :=
  Nat.lt_of_lt_of_le some (Nat.le_add_right _ _)

/-- A new allocation above everything on the chain. -/
theorem Level.add (level : Level build floor top l) {top' : Mark}
    (grown : Grown top.chain top'.chain)
    (placed : Placed top'.chain x.addr (build.footprint x.size))
    (fresh : ∀ b, (x.region build).Covers b → ¬ Below top.chain b) (some : 0 < x.size)
    (aligned : x.Aligned build)
    (counted : top'.used + consumed top.chain = top.used + consumed top'.chain) :
    Level build floor top' (l.add x) where
  grown := level.grown.trans grown
  placed := List.forall_mem_cons.mpr
    ⟨placed, fun y member => grown.placed (level.placed y member)⟩
  fresh := List.forall_mem_cons.mpr
    ⟨fun b covers below => fresh b covers (level.grown.still_below below), level.fresh⟩
  apart := by
    refine List.pairwise_cons.mpr ⟨?_, level.apart⟩
    intro r member
    obtain ⟨y, listed, rfl⟩ := List.mem_map.mp member
    refine Region.apart_of_disjoint (Build.footprint_pos some)
      (Build.footprint_pos (level.filled y listed)) ?_
    intro b covers other
    exact fresh b covers ((level.placed y listed).below_region other)
  filled := List.forall_mem_cons.mpr ⟨some, level.filled⟩
  aligned := List.forall_mem_cons.mpr ⟨aligned, level.aligned⟩
  counted := by
    have before := level.counted
    change top'.used + l.uncounted + consumed floor.chain = floor.used + consumed top'.chain
    omega

/-- The same allocations under other heads, with the counter adjusted. -/
theorem Level.reorder (level : Level build floor top l) {l' : Ledger} {used : Nat}
    (same : l.spans.Perm l'.spans) (live : ∀ x ∈ l'.live, x ∈ l.live)
    (counted : used + l'.uncounted = top.used + l.uncounted) :
    Level build floor { top with used } l' where
  grown := level.grown
  placed x member := level.placed x (same.mem_iff.mpr member)
  fresh x member := level.fresh x (same.mem_iff.mpr member)
  apart := ((same.map _).pairwise_iff fun apart => Region.Apart.symm apart).mp level.apart
  filled x member := level.filled x (same.mem_iff.mpr member)
  aligned x member := level.aligned x (live x member)
  counted := by
    have before := level.counted
    change used + l'.uncounted + consumed floor.chain = floor.used + consumed top.chain
    omega

theorem Level.ignore (level : Level build floor top l) (member : x ∈ l.live) :
    Level build floor top (l.ignore x) :=
  level.reorder (Ledger.spans_perm_ignore member) (fun _ => List.mem_of_mem_erase) rfl

theorem Level.abandon (level : Level build floor top l) (member : x ∈ l.live)
    (held : x.size ≤ top.used) :
    Level build floor { top with used := top.used - x.size } (l.abandon x) := by
  refine level.reorder (Ledger.spans_perm_abandon member) (fun _ => List.mem_of_mem_erase) ?_
  change top.used - x.size + (x.size + l.uncounted) = top.used + l.uncounted
  omega

/-- A chain grown from `base` may be cut down to where nothing of `base` is above. -/
theorem Grown.lower {base cs : List Cell} {c : Cell} (grown : Grown base (c :: cs)) {p : Nat}
    (above : c.data ≤ p) (under : p < c.cursor) (fresh : ¬ Below base p) (cut : Nat)
    (past : p ≤ c.data + cut) :
    Grown base ({ c with used := cut } :: cs) := by
  cases grown with
  | @raised d ds used start raised =>
      subst start
      refine Grown.raised (c := d) rfl (Nat.le_of_not_lt fun low => fresh ⟨d, .head _, above, ?_⟩)
      change p < d.data + d.used
      change p ≤ d.data + cut at past
      omega
  | entered _ grown => exact .entered _ grown

/-- An allocation below the last one stays in place when the last one is cut off. -/
theorem Placed.lower {cs : List Cell} {c : Cell} {x y : Span}
    (placed : Placed (c :: cs) y.addr (build.footprint y.size)) (some : 0 < y.size)
    (apart : (y.region build).Apart (x.region build))
    (ends : x.addr + build.footprint x.size = c.cursor) {cut : Nat}
    (past : x.addr ≤ c.data + cut) :
    Placed ({ c with used := cut } :: cs) y.addr (build.footprint y.size) := by
  obtain ⟨d, member, low, high⟩ := placed
  cases member with
  | tail _ later => exact ⟨d, .tail _ later, low, high⟩
  | head =>
      refine ⟨{ c with used := cut }, .head _, low, ?_⟩
      change y.addr + build.footprint y.size ≤ c.data + cut
      have some : 0 < build.footprint y.size := Build.footprint_pos some
      cases apart with
      | inl before =>
          have before : y.addr + build.footprint y.size ≤ x.addr := before
          omega
      | inr after =>
          have after : x.addr + build.footprint x.size ≤ y.addr := after
          omega

/-- The last allocation is cut off. -/
theorem Level.drop {c : Cell} {cs : List Cell} {used : Nat}
    (level : Level build floor ⟨c :: cs, used⟩ l) (member : x ∈ l.live) (above : c.data ≤ x.addr)
    (ends : x.addr + build.footprint x.size = c.cursor) (held : build.footprint x.size ≤ used) :
    Level build floor
      ⟨{ c with used := x.addr - c.data } :: cs, used - build.footprint x.size⟩ (l.drop x) := by
  have whole := Ledger.spans_perm_drop member
  have listed : ∀ {y}, y ∈ (l.drop x).spans → y ∈ l.spans := fun other =>
    whole.mem_iff.mpr (.tail _ other)
  have some : 0 < build.footprint x.size :=
    Build.footprint_pos (level.filled x (Ledger.mem_spans_of_live member))
  have start : c.data + (x.addr - c.data) = x.addr := Nat.add_sub_cancel' above
  have separate := ((whole.map (Span.region build)).pairwise_iff
    fun apart => Region.Apart.symm apart).mp level.apart
  obtain ⟨others, rest⟩ := List.pairwise_cons.mp separate
  refine
    { grown := ?_
      placed := fun y other => ?_
      fresh := fun y other => level.fresh y (listed other)
      apart := rest
      filled := fun y other => level.filled y (listed other)
      aligned := fun y other => level.aligned y (List.mem_of_mem_erase other)
      counted := ?_ }
  · refine level.grown.lower above (by omega) ?_ _ (by omega)
    exact level.fresh x (Ledger.mem_spans_of_live member) x.addr
      ⟨Nat.le_refl _, Nat.lt_add_of_pos_right some⟩
  · exact (level.placed y (listed other)).lower (level.filled y (listed other))
      (others _ (List.mem_map_of_mem other)).symm ends (by omega)
  · have before := level.counted
    have cursor : c.cursor = c.data + c.used := rfl
    change used - build.footprint x.size + l.uncounted + consumed floor.chain =
      floor.used + (x.addr - c.data + consumed cs)
    change used + l.uncounted + consumed floor.chain =
      floor.used + (c.used + consumed cs) at before
    omega

end

/-! Counting. -/

/-- The data bytes a block has consumed. -/
def Cell.taken (c : Cell) : Region := ⟨c.data, c.used⟩

theorem below_iff_taken {chain : List Cell} {b : Nat} :
    Below chain b ↔ ∃ r ∈ chain.map Cell.taken, r.Covers b := by
  constructor
  · intro below
    obtain ⟨c, member, inside⟩ := below
    exact ⟨c.taken, List.mem_map_of_mem member, inside⟩
  · intro covered
    obtain ⟨r, member, inside⟩ := covered
    obtain ⟨c, listed, rfl⟩ := List.mem_map.mp member
    exact ⟨c, listed, inside⟩

theorem sum_taken (chain : List Cell) :
    ((chain.map Cell.taken).map Region.size).sum = consumed chain := by
  rw [List.map_map]
  rfl

/-- Blocks that lie apart, with their cursors inside. -/
structure Laid (chain : List Cell) : Prop where
  apart : chain.Pairwise fun c d => c.region.Apart d.region
  fits : ∀ c ∈ chain, c.used ≤ c.cap

theorem Laid.taken_apart {chain : List Cell} (laid : Laid chain) :
    (chain.map Cell.taken).Pairwise Region.Apart := by
  refine List.pairwise_map.mpr (laid.apart.imp_of_mem ?_)
  intro c d left right apart
  exact apart.mono (Cell.used_within (laid.fits c left)) (Cell.used_within (laid.fits d right))

theorem Laid.of_grown {base top : List Cell} (laid : Laid top) (grown : Grown base top) :
    Laid base := by
  induction grown with
  | empty bare =>
      subst bare
      exact laid
  | raised start above =>
      subst start
      obtain ⟨first, rest⟩ := List.pairwise_cons.mp laid.apart
      refine ⟨List.pairwise_cons.mpr ⟨first, rest⟩, List.forall_mem_cons.mpr ⟨?_, ?_⟩⟩
      · exact Nat.le_trans above (laid.fits _ (.head _))
      · exact fun d member => laid.fits d (.tail _ member)
  | entered c _ ih =>
      exact ih ⟨(List.pairwise_cons.mp laid.apart).2, fun d member => laid.fits d (.tail _ member)⟩

theorem Image.Owned.laid {parent : AllocT σ} {Out : World σ → List Region → Prop} {a : Image σ}
    (owned : a.Owned build parent Out) : Laid a.chain where
  apart := (List.pairwise_append.mp owned.cells_apart).1
  fits c member := owned.fits c (List.mem_append_left _ member)

/-- The newest block's cursor moves. -/
theorem Laid.recut {c : Cell} {cs : List Cell} (laid : Laid (c :: cs)) {used : Nat}
    (fits : used ≤ c.cap) : Laid ({ c with used } :: cs) where
  apart :=
    have separate := List.pairwise_cons.mp laid.apart
    List.pairwise_cons.mpr ⟨separate.1, separate.2⟩
  fits := List.forall_mem_cons.mpr ⟨fits, fun d member => laid.fits d (.tail _ member)⟩

theorem Laid.not_below {c : Cell} {cs : List Cell} (laid : Laid (c :: cs)) {p : Nat}
    (above : c.cursor ≤ p) (inside : p < c.data + c.cap) : ¬ Below (c :: cs) p := by
  intro below
  obtain ⟨d, member, low, high⟩ := below
  cases member with
  | head => exact absurd high (Nat.not_lt.mpr above)
  | tail _ later =>
      have fits := laid.fits d (.tail _ later)
      have here := c.covers_of_data (Nat.le_trans (Nat.le_add_right _ _) above) inside
      have there := d.covers_of_data low (Nat.lt_of_lt_of_le high (Nat.add_le_add_left fits _))
      exact ((List.pairwise_cons.mp laid.apart).1 d later).not_covers here there

variable (build) in
/-- Bytes of some allocations, redzones included. -/
def spread (xs : List Span) : Nat := ((xs.map (Span.region build)).map Region.size).sum

theorem spread_append (xs ys : List Span) :
    spread build (xs ++ ys) = spread build xs + spread build ys := by
  rw [spread, List.map_append, List.map_append, List.sum_append]
  rfl

theorem spread_cons (x : Span) (xs : List Span) :
    spread build (x :: xs) = build.footprint x.size + spread build xs := rfl

theorem footprint_le_spread {xs : List Span} {x : Span} (member : x ∈ xs) :
    build.footprint x.size ≤ spread build xs := by
  induction xs with
  | nil => cases member
  | cons y ys ih =>
      rw [spread_cons]
      cases member with
      | head => exact Nat.le_add_right _ _
      | tail _ later => exact Nat.le_trans (ih later) (Nat.le_add_left _ _)

theorem sum_sizes_le_spread (xs : List Span) : (xs.map Span.size).sum ≤ spread build xs := by
  induction xs with
  | nil => exact Nat.le_refl _
  | cons y ys ih =>
      rw [spread_cons, List.map_cons, List.sum_cons]
      exact Nat.add_le_add (Nat.le_add_right _ _) ih

section
variable {floor top : Mark} {l : Ledger} {x : Span}

/-- `used` covers what is addressable, and what it was when the scope began. -/
theorem Level.room (level : Level build floor top l) (laid : Laid top.chain) :
    floor.used + spread build l.lit ≤ top.used := by
  have whole : spread build l.spans + consumed floor.chain ≤ consumed top.chain := by
    rw [← sum_taken floor.chain, ← sum_taken top.chain]
    refine sum_sizes_add_le level.apart (laid.of_grown level.grown).taken_apart laid.taken_apart
      ?_ ?_ ?_
    · rintro b ⟨r, member, covers⟩ under
      obtain ⟨y, listed, rfl⟩ := List.mem_map.mp member
      exact level.fresh y listed b covers (below_iff_taken.mpr under)
    · rintro b ⟨r, member, covers⟩
      obtain ⟨y, listed, rfl⟩ := List.mem_map.mp member
      exact below_iff_taken.mp ((level.placed y listed).below_region covers)
    · exact fun b under =>
        below_iff_taken.mp (level.grown.still_below (below_iff_taken.mpr under))
  have split : spread build l.spans = spread build l.lit + spread build l.abandoned :=
    spread_append _ _
  have moved : l.uncounted ≤ spread build l.abandoned := sum_sizes_le_spread _
  have counted := level.counted
  omega

theorem Level.held (level : Level build floor top l) (laid : Laid top.chain)
    (member : x ∈ l.live) : build.footprint x.size ≤ top.used := by
  have room := level.room laid
  have part : build.footprint x.size ≤ spread build l.lit :=
    footprint_le_spread (List.mem_append_left l.ignored member)
  exact Nat.le_trans part (Nat.le_trans (Nat.le_add_left _ _) room)

end

/-- The last allocation changes its size in place. -/
theorem Level.resize {c : Cell} {cs : List Cell} {floor : Mark} {l : Ledger} {used : Nat}
    {x : Span} (level : Level build floor ⟨c :: cs, used⟩ l) (laid : Laid (c :: cs))
    (member : x ∈ l.live) (above : c.data ≤ x.addr)
    (ends : x.addr + build.footprint x.size = c.cursor) {size : Nat} (some : 0 < size)
    (room : x.addr + build.footprint size ≤ c.data + c.cap) :
    Level build floor
      ⟨{ c with used := x.addr - c.data + build.footprint size } :: cs,
        used - build.footprint x.size + build.footprint size⟩
      ((l.drop x).add { x with size }) := by
  have dropped := level.drop member above ends (level.held laid member)
  have start : c.data + (x.addr - c.data) = x.addr := Nat.add_sub_cancel' above
  have lowered : Laid ({ c with used := x.addr - c.data } :: cs) := laid.recut (by omega)
  refine dropped.add (x := { x with size })
    (.raised (c := { c with used := x.addr - c.data }) rfl (Nat.le_add_right _ _)) ?_ ?_ some
    (level.aligned x member) ?_
  · refine ⟨{ c with used := x.addr - c.data + build.footprint size }, .head _, above, ?_⟩
    change x.addr + build.footprint size ≤ c.data + (x.addr - c.data + build.footprint size)
    omega
  · intro p covers
    refine lowered.not_below ?_ (Nat.lt_of_lt_of_le covers.2 room)
    change c.data + (x.addr - c.data) ≤ p
    have low : x.addr ≤ p := covers.1
    omega
  · change used - build.footprint x.size + build.footprint size + (x.addr - c.data + consumed cs) =
      used - build.footprint x.size + (x.addr - c.data + build.footprint size + consumed cs)
    omega

/-! Open scopes. -/

/-- The snapshots of the open scopes, and the ledgers of the scopes they suspend. -/
abbrev Suspended := List (TempT × Ledger)

variable (build) in
/-- The open scopes above `base`: each one's snapshot marks where it began, and what it has
allocated since lies above. The first ledger is that of the innermost scope. -/
inductive Nested (fixed : Bool) (base : Mark) (under : Suspended) : Mark → Ledger → Suspended → Prop where
  | bottom {top : Mark} {l : Ledger} (level : Level build base top l) :
      Nested fixed base under top l under
  | scope {floor top : Mark} {l outer : Ledger} {temp : TempT} {rest : Suspended}
      (level : Level build floor top l) (marks : temp.Marks floor.chain)
      (used : temp.used = floor.used)
      (same : fixed = true → floor.chain.length = top.chain.length)
      (nested : Nested fixed base under floor outer rest) :
      Nested fixed base under top l ((temp, outer) :: rest)

namespace Nested

variable {fixed : Bool} {base top : Mark} {under outer : Suspended} {l : Ledger}

theorem length_le (nested : Nested build fixed base under top l outer) :
    under.length ≤ outer.length := by
  induction nested with
  | bottom level => exact Nat.le_refl _
  | scope level marks used same nested ih => exact Nat.le_succ_of_le ih

/-- An operation changes the innermost level only. -/
theorem replace (nested : Nested build fixed base under top l outer) {top' : Mark} {l' : Ledger}
    (same : fixed = true → top'.chain.length = top.chain.length)
    (level : ∀ floor, Level build floor top l → Level build floor top' l') :
    Nested build fixed base under top' l' outer := by
  cases nested with
  | bottom inner => exact .bottom (level _ inner)
  | scope inner marks used same' nested =>
      exact .scope (level _ inner) marks used
        (fun isFixed => (same' isFixed).trans (same isFixed).symm) nested

theorem innermost (nested : Nested build fixed base under top l outer) :
    ∃ floor, Level build floor top l := by
  cases nested with
  | bottom level => exact ⟨_, level⟩
  | scope level marks used same nested => exact ⟨_, level⟩

end Nested

end AgencC.Arena
