import AgencC.Arena.Ledger
import AgencC.Arena.Resizing

/-! The ledgers of all open scopes, what the bytes of live allocations should be, and what
an arena keeps true of both. -/

set_option autoImplicit false

namespace AgencC.Arena

open Library

variable {σ : Type} {build : Build}

/-- A client's books: the current scope, those it suspends, and the bytes it last saw. -/
structure Books where
  scope : Ledger
  outer : Suspended
  contents : Nat → UInt8

namespace Books

def ledgers (b : Books) : List Ledger := b.scope :: b.outer.map Prod.snd

def live (b : Books) : List Span := b.ledgers.flatMap Ledger.live

def lit (b : Books) : List Span := b.ledgers.flatMap Ledger.lit

def spans (b : Books) : List Span := b.ledgers.flatMap Ledger.spans

/-- What is live in the scopes that are suspended. -/
def suspended (b : Books) : List Span := (b.outer.map Prod.snd).flatMap Ledger.live

def uncounted (b : Books) : Nat := (b.ledgers.map Ledger.uncounted).sum

theorem mem_lit_of_live {b : Books} {x : Span} (member : x ∈ b.live) : x ∈ b.lit := by
  obtain ⟨l, listed, inside⟩ := List.mem_flatMap.mp member
  exact List.mem_flatMap.mpr ⟨l, listed, List.mem_append_left _ inside⟩

theorem mem_spans_of_lit {b : Books} {x : Span} (member : x ∈ b.lit) : x ∈ b.spans := by
  obtain ⟨l, listed, inside⟩ := List.mem_flatMap.mp member
  exact List.mem_flatMap.mpr ⟨l, listed, List.mem_append_left _ inside⟩

end Books

variable (build) in
/-- The books agree with a chain and a counter, from an empty arena on. -/
abbrev Books.Lie (b : Books) (fixed : Bool) (top : Mark) : Prop :=
  Nested build fixed ⟨[], 0⟩ [] top b.scope b.outer

namespace Nested

variable {fixed : Bool} {top : Mark} {outer : Suspended} {l : Ledger}

theorem placed (nested : Nested build fixed ⟨[], 0⟩ [] top l outer) :
    ∀ x ∈ (l :: outer.map Prod.snd).flatMap Ledger.spans,
      Placed top.chain x.addr (build.footprint x.size) ∧ 0 < x.size := by
  induction nested with
  | @bottom top l level =>
      intro x member
      have member : x ∈ l.spans := by simpa using member
      exact ⟨level.placed x member, level.filled x member⟩
  | scope level marks used same nested ih =>
      intro x member
      cases List.mem_append.mp (List.flatMap_cons ▸ member) with
      | inl here => exact ⟨level.placed x here, level.filled x here⟩
      | inr later =>
          obtain ⟨below, some⟩ := ih x later
          exact ⟨level.grown.placed below, some⟩

theorem apart (nested : Nested build fixed ⟨[], 0⟩ [] top l outer) :
    (((l :: outer.map Prod.snd).flatMap Ledger.spans).map (Span.region build)).Pairwise
      Region.Apart := by
  induction nested with
  | bottom level =>
      simpa using level.apart
  | scope level marks used same nested ih =>
      rw [List.flatMap_cons, List.map_append, List.pairwise_append]
      refine ⟨level.apart, ih, ?_⟩
      intro r here r' later
      obtain ⟨x, member, rfl⟩ := List.mem_map.mp here
      obtain ⟨y, member', rfl⟩ := List.mem_map.mp later
      obtain ⟨below, some⟩ := nested.placed y member'
      refine Region.apart_of_disjoint (Build.footprint_pos (level.filled x member))
        (Build.footprint_pos some) ?_
      intro p covers other
      exact level.fresh x member p covers (below.below_region other)

theorem aligned (nested : Nested build fixed ⟨[], 0⟩ [] top l outer) :
    ∀ x ∈ (l :: outer.map Prod.snd).flatMap Ledger.live,
      x.Aligned build := by
  induction nested with
  | bottom level =>
      intro x member
      exact level.aligned x (by simpa using member)
  | scope level marks used same nested ih =>
      intro x member
      cases List.mem_append.mp (List.flatMap_cons ▸ member) with
      | inl here => exact level.aligned x here
      | inr later => exact ih x later

theorem counted (nested : Nested build fixed ⟨[], 0⟩ [] top l outer) :
    top.used + ((l :: outer.map Prod.snd).map Ledger.uncounted).sum = consumed top.chain := by
  induction nested with
  | @bottom top l level =>
      have counted := level.counted
      change top.used + l.uncounted + 0 = 0 + consumed top.chain at counted
      simpa using counted
  | @scope floor top l outer temp rest level marks used same nested ih =>
      have counted := level.counted
      have before := ih
      simp only [List.map_cons, List.sum_cons] at before ⊢
      omega

theorem room (nested : Nested build fixed ⟨[], 0⟩ [] top l outer) (laid : Laid top.chain) :
    spread build ((l :: outer.map Prod.snd).flatMap Ledger.lit) ≤ top.used := by
  induction nested with
  | bottom level =>
      have room := level.room laid
      simp only [List.map_nil, List.flatMap_cons, List.flatMap_nil, List.append_nil]
      omega
  | @scope floor top l outer temp rest level marks used same nested ih =>
      have room := level.room laid
      have before := ih (laid.of_grown level.grown)
      rw [List.flatMap_cons, spread_append]
      change spread build l.lit + spread build ((outer :: rest.map Prod.snd).flatMap Ledger.lit) ≤
        top.used
      omega

/-- A snapshot's counter is at most the current one, and was covered by its chain. -/
theorem unwind {base : Mark} {under : Suspended} {temp : TempT} {outer : Ledger} {rest : Suspended}
    (nested : Nested build fixed base under top l ((temp, outer) :: rest)) (laid : Laid top.chain)
    (above : under.length < rest.length + 1) :
    ∃ floor : Mark, Grown floor.chain top.chain ∧ temp.Marks floor.chain ∧ temp.used = floor.used ∧
      (fixed = true → floor.chain.length = top.chain.length) ∧ floor.used ≤ top.used ∧
      Nested build fixed base under floor outer rest := by
  cases nested with
  | bottom level => exact absurd above (Nat.lt_irrefl _)
  | scope level marks used same nested =>
      have room := level.room laid
      exact ⟨_, level.grown, marks, used, same, by omega, nested⟩

end Nested

/-- The books with another ledger for the current scope. -/
def Books.put (l : Ledger) (contents : Nat → UInt8) (b : Books) : Books :=
  { b with scope := l, contents }

section
variable (build : Build) (parent : AllocT σ) (Out : World σ → List Region → Prop)

/-- What an arena keeps true of its client's books: everything on them lies on the chain,
live bytes are as the client last saw them, and nothing else is addressable. -/
structure Image.Kept (a : Image σ) (b : Books) : Prop where
  sane : a.Sane build parent Out
  lie : b.Lie build a.fixed a.mark
  current : ∀ entry ∈ b.outer, entry.1.generation = a.generation
  written : ∀ x ∈ b.live, ∀ p, x.Covers p → a.world.bytes p = b.contents p
  quiet : build.asan = true → ∀ p, Below a.chain p → a.world.poisoned p = false →
    ∃ x ∈ b.lit, x.Covers p

/-- Everything the client may touch is addressable. -/
def Image.Lit (a : Image σ) (b : Books) : Prop :=
  ∀ x ∈ b.lit, ∀ p, x.Covers p → a.world.poisoned p = false

/-- A call kept the books, and dealt with the innermost scope only. -/
structure Image.Advances (a : Image σ) (b : Books) (a' : Image σ) (b' : Books) : Prop where
  kept : a'.Kept build parent Out b'
  lit : build.asan = true → a.Lit b → a'.Lit b'
  outer : b'.outer = b.outer
  fixed : a'.fixed = a.fixed
  steady : a.fixed = true → a.Steady a'
  tempDepth : a'.tempDepth = a.tempDepth
  retains : a.pieces ⊆ a'.pieces
  supplied : a.Supplied a'
  carried : ∀ x ∈ b.suspended, ∀ p, x.Covers p → b'.contents p = b.contents p
  level : ∀ floor, Level build floor a.mark b.scope → Level build floor a'.mark b'.scope

end

section
variable {parent : AllocT σ} {Out : World σ → List Region → Prop} {a a' : Image σ} {b : Books}

theorem Books.mem_lit_put {l : Ledger} {contents : Nat → UInt8} {x : Span} :
    x ∈ (b.put l contents).lit ↔ x ∈ l.lit ∨ x ∈ (b.outer.map Prod.snd).flatMap Ledger.lit := by
  rw [lit, ledgers, List.flatMap_cons, List.mem_append]
  rfl

theorem Books.mem_live_put {l : Ledger} {contents : Nat → UInt8} {x : Span} :
    x ∈ (b.put l contents).live ↔ x ∈ l.live ∨ x ∈ (b.outer.map Prod.snd).flatMap Ledger.live := by
  rw [live, ledgers, List.flatMap_cons, List.mem_append]
  rfl

theorem Books.mem_lit {x : Span} :
    x ∈ b.lit ↔ x ∈ b.scope.lit ∨ x ∈ (b.outer.map Prod.snd).flatMap Ledger.lit := by
  rw [lit, ledgers, List.flatMap_cons, List.mem_append]

theorem Books.mem_live_of_suspended {x : Span} (member : x ∈ b.suspended) : x ∈ b.live :=
  List.mem_append_right _ member

theorem Books.mem_live {x : Span} :
    x ∈ b.live ↔ x ∈ b.scope.live ∨ x ∈ (b.outer.map Prod.snd).flatMap Ledger.live := by
  rw [live, ledgers, List.flatMap_cons, List.mem_append]

/-- An allocation enters the current scope, or leaves it. -/
theorem Books.mem_lit_add {l : Ledger} {contents : Nat → UInt8} {x y : Span} :
    y ∈ (b.put (l.add x) contents).lit ↔ y = x ∨ y ∈ (b.put l contents).lit := by
  rw [mem_lit_put, mem_lit_put, ← or_assoc]
  exact or_congr_left List.mem_cons

theorem Books.mem_live_add {l : Ledger} {contents : Nat → UInt8} {x y : Span} :
    y ∈ (b.put (l.add x) contents).live ↔ y = x ∨ y ∈ (b.put l contents).live := by
  rw [mem_live_put, mem_live_put, ← or_assoc]
  exact or_congr_left List.mem_cons

theorem Books.mem_lit_drop (contents : Nat → UInt8) {x y : Span} (member : x ∈ b.scope.live) :
    y ∈ b.lit ↔ y = x ∨ y ∈ (b.put (b.scope.drop x) contents).lit := by
  rw [mem_lit, mem_lit_put, ← or_assoc]
  exact or_congr_left (((Ledger.lit_perm_drop member).mem_iff).trans List.mem_cons)

theorem Books.mem_live_of_drop (contents : Nat → UInt8) {x y : Span}
    (other : y ∈ (b.put (b.scope.drop x) contents).live) : y ∈ b.live :=
  mem_live.mpr ((mem_live_put.mp other).imp List.mem_of_mem_erase id)

/-- The allocations beside one of the current scope. -/
theorem Books.beside {x : Span} (member : x ∈ b.scope.live) (contents : Nat → UInt8) :
    b.spans.Perm (x :: (b.put (b.scope.drop x) contents).spans) :=
  (Ledger.spans_perm_drop member).append_right _

namespace Image.Kept

/-- What is on the books is below a cursor. -/
theorem below (kept : a.Kept build parent Out b) {x : Span} {p : Nat} (member : x ∈ b.spans) (covers : (x.region build).Covers p) :
    Below a.chain p :=
  (kept.lie.placed x member).1.below_region covers

theorem lit_below (kept : a.Kept build parent Out b) {x : Span} {p : Nat} (member : x ∈ b.lit) (covers : x.Covers p) :
    Below a.chain p :=
  kept.below (Books.mem_spans_of_lit member) covers.region

theorem apart_beside (kept : a.Kept build parent Out b) {x y : Span} {p : Nat} (member : x ∈ b.scope.live)
    {contents : Nat → UInt8} (other : y ∈ (b.put (b.scope.drop x) contents).spans)
    (covers : (x.region build).Covers p) : ¬ (y.region build).Covers p := by
  have separate := (((Books.beside member contents).map (Span.region build)).pairwise_iff
    fun apart => Region.Apart.symm apart).mp kept.lie.apart
  exact ((List.pairwise_cons.mp separate).1 _ (List.mem_map_of_mem other)).not_covers covers

/-- What the parent keeps of the blocks it keeps of all that is below a cursor. -/
theorem below_keeps (kept : a.Kept build parent Out b) {world : World σ} (keeps : a.world.Keeps a.regions world) {p : Nat}
    (below : Below a.chain p) :
    world.bytes p = a.world.bytes p ∧ world.poisoned p = a.world.poisoned p := by
  obtain ⟨c, member, covers, _⟩ := kept.sane.covers_of_below below
  exact keeps c.region (List.mem_map_of_mem (List.mem_append_left _ member)) p covers

end Image.Kept

end

end AgencC.Arena
