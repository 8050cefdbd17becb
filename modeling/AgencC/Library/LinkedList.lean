import Mathlib.Data.List.Nodup

/-! Singly linked lists in a store of nodes. Address 0 ends a list. -/

set_option autoImplicit false

namespace AgencC.Library

/-- Where an element's node lies, and the node that holds a link and the element. -/
structure Layout (α β : Type) where
  addr : α → Nat
  node : Nat → α → β

variable {α β : Type} (layout : Layout α β)

def Layout.first : List α → Nat
  | [] => 0
  | x :: _ => layout.addr x

/-- `look` finds a node for each element, linked to the next one's. -/
def Layout.Linked (look : Nat → Option β) : List α → Prop
  | [] => True
  | x :: rest =>
      layout.addr x ≠ 0 ∧ look (layout.addr x) = some (layout.node (layout.first rest) x) ∧
        Layout.Linked look rest

instance Layout.linkedDecidable [DecidableEq β] (look : Nat → Option β) :
    (xs : List α) → Decidable (layout.Linked look xs)
  | [] => .isTrue trivial
  | _ :: rest =>
      have := Layout.linkedDecidable look rest
      inferInstanceAs (Decidable (_ ∧ _ ∧ _))

variable {layout}

theorem Layout.first_append (xs : List α) (x : α) (rest rest' : List α) :
    layout.first (xs ++ x :: rest) = layout.first (xs ++ x :: rest') := by
  cases xs with
  | nil => rfl
  | cons y ys => rfl

theorem Layout.Linked.congr {look look' : Nat → Option β} {xs : List α}
    (linked : layout.Linked look xs)
    (same : ∀ x ∈ xs, look' (layout.addr x) = look (layout.addr x)) : layout.Linked look' xs := by
  induction xs with
  | nil => trivial
  | cons x rest ih =>
      obtain ⟨nonzero, found, tail⟩ := linked
      exact ⟨nonzero, (same x (.head _)).trans found, ih tail fun y member => same y (.tail _ member)⟩

theorem Layout.Linked.drop {look : Nat → Option β} (xs : List α) {rest : List α}
    (linked : layout.Linked look (xs ++ rest)) : layout.Linked look rest := by
  induction xs with
  | nil => exact linked
  | cons x xs ih => exact ih linked.2.2

theorem Layout.Linked.nonzero {look : Nat → Option β} {xs : List α}
    (linked : layout.Linked look xs) {x : α} (member : x ∈ xs) : layout.addr x ≠ 0 := by
  induction xs with
  | nil => cases member
  | cons y rest ih =>
      cases member with
      | head => exact linked.1
      | tail _ later => exact ih linked.2.2 later

theorem Layout.Linked.found {look : Nat → Option β} {xs : List α}
    (linked : layout.Linked look xs) {x : α} (member : x ∈ xs) :
    ∃ link, look (layout.addr x) = some (layout.node link x) := by
  induction xs with
  | nil => cases member
  | cons y rest ih =>
      cases member with
      | head => exact ⟨_, linked.2.1⟩
      | tail _ later => exact ih linked.2.2 later

theorem Layout.Linked.first_eq_zero_iff {look : Nat → Option β} {xs : List α}
    (linked : layout.Linked look xs) : layout.first xs = 0 ↔ xs = [] := by
  cases xs with
  | nil => exact ⟨fun _ => rfl, fun _ => rfl⟩
  | cons x rest => exact ⟨fun none => absurd none linked.1, fun impossible => nomatch impossible⟩

/-- Where a node determines its element and its link, a store and a first address determine the
list. -/
theorem Layout.Linked.unique {look : Nat → Option β} {xs ys : List α}
    (determines : ∀ {x y : α} {link link' : Nat}, layout.addr x = layout.addr y →
      layout.node link x = layout.node link' y → x = y ∧ link = link')
    (linked : layout.Linked look xs) (linked' : layout.Linked look ys)
    (start : layout.first xs = layout.first ys) : xs = ys := by
  induction xs generalizing ys with
  | nil => exact (linked'.first_eq_zero_iff.mp start.symm).symm
  | cons x xs ih =>
      cases ys with
      | nil => exact absurd start linked.1
      | cons y ys =>
          have found := linked.2.1.symm.trans ((congrArg look start).trans linked'.2.1)
          obtain ⟨same, next⟩ := determines start (Option.some.inj found)
          rw [same, ih linked.2.2 linked'.2.2 next]

/-- Rewriting the node of `x` to hold `x'` and lead to `rest'`. -/
theorem Layout.Linked.relink {look look' : Nat → Option β} {xs : List α} {x x' : α}
    {rest rest' : List α} (linked : layout.Linked look (xs ++ x :: rest))
    (tail : layout.Linked look' rest') (addr : layout.addr x' = layout.addr x)
    (found : look' (layout.addr x) = some (layout.node (layout.first rest') x'))
    (others : ∀ y ∈ xs, look' (layout.addr y) = look (layout.addr y)) :
    layout.Linked look' (xs ++ x' :: rest') := by
  induction xs with
  | nil => exact ⟨addr ▸ linked.1, addr ▸ found, tail⟩
  | cons y ys ih =>
      obtain ⟨nonzero, here, later⟩ := linked
      refine ⟨nonzero, ?_, ih later fun z member => others z (.tail _ member)⟩
      rw [others y (.head _), here]
      have start : layout.first (ys ++ x :: rest) = layout.first (ys ++ x' :: rest') := by
        cases ys with
        | nil => exact addr.symm
        | cons z zs => rfl
      rw [List.append_eq, List.append_eq, start]

/-- A linked list has no more elements than its store has addresses. -/
theorem Layout.length_le {xs : List α} {keys : List Nat} (distinct : (xs.map layout.addr).Nodup)
    (stored : ∀ x ∈ xs, layout.addr x ∈ keys) : xs.length ≤ keys.length := by
  have covered : xs.map layout.addr ⊆ keys := by
    intro address member
    obtain ⟨x, listed, rfl⟩ := List.mem_map.mp member
    exact stored x listed
  have bound := distinct.length_le_of_subset covered
  rwa [List.length_map] at bound

end AgencC.Library
