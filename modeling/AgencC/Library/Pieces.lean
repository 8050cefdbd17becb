import Mathlib.Data.List.Basic

/-! Where the pieces of a list lie between its separators. -/

set_option autoImplicit false

namespace AgencC.Library

variable {α : Type}

/-- Where each piece starts and how long it is, with one separator between any two. -/
def pieceSpans (start : Nat) : List (List α) → List (Nat × Nat)
  | [] => []
  | piece :: pieces => (start, piece.length) :: pieceSpans (start + piece.length + 1) pieces

theorem length_pieceSpans (start : Nat) (pieces : List (List α)) :
    (pieceSpans start pieces).length = pieces.length := by
  induction pieces generalizing start with
  | nil => rfl
  | cons piece pieces ih => rw [pieceSpans, List.length_cons, List.length_cons, ih]


variable [DecidableEq α]

/-- The `i`-th of the longest runs of `xs` that have no separator in them. -/
structure SeparatedRun (xs : List α) (separator : α) (i start len : Nat) : Prop where
  inside : start + len ≤ xs.length
  before : (xs.take start).count separator = i
  clear : separator ∉ (xs.drop start).take len
  opened : start = 0 ∨ xs[start - 1]? = some separator
  closed : start + len = xs.length ∨ xs[start + len]? = some separator

theorem length_splitOn (xs : List α) (separator : α) :
    (xs.splitOn separator).length = xs.count separator + 1 := by
  induction xs with
  | nil => rfl
  | cons x xs ih =>
      rw [List.splitOn_cons_eq_if_modifyHead, List.count_cons]
      by_cases same : x = separator
      · subst same
        rw [if_pos (beq_self_eq_true x), if_pos (beq_self_eq_true x), List.length_cons, ih]
      · have other : ¬ (x == separator) = true := fun equal => same (eq_of_beq equal)
        rw [if_neg other, if_neg other, List.length_modifyHead, ih]

theorem not_mem_of_mem_splitOn {xs piece : List α} {separator : α}
    (member : piece ∈ xs.splitOn separator) : separator ∉ piece := by
  induction xs generalizing piece with
  | nil =>
      cases List.mem_singleton.mp member
      exact List.not_mem_nil
  | cons x xs ih =>
      rw [List.splitOn_cons_eq_if_modifyHead] at member
      by_cases same : x = separator
      · subst same
        rw [if_pos (beq_self_eq_true x)] at member
        cases member with
        | head => exact List.not_mem_nil
        | tail _ later => exact ih later
      · rw [if_neg fun equal => same (eq_of_beq equal)] at member
        cases pieces : xs.splitOn separator with
        | nil => exact absurd pieces (List.splitOn_ne_nil separator xs)
        | cons first others =>
            rw [pieces] at ih member
            cases member with
            | head =>
                intro inside
                cases inside with
                | head => exact same rfl
                | tail _ later => exact ih (.head _) later
            | tail _ later => exact ih (.tail _ later)

/-- Pieces joined after `front`, which is empty or ends in a separator, are runs. -/
theorem pieceSpans_runs (front : List α) {separator : α} {pieces : List (List α)}
    (clear : ∀ piece ∈ pieces, separator ∉ piece) {xs : List α}
    (whole : xs = front ++ [separator].intercalate pieces)
    (opened : front.length = 0 ∨ xs[front.length - 1]? = some separator) {i start len : Nat}
    (listed : (pieceSpans front.length pieces)[i]? = some (start, len)) :
    SeparatedRun xs separator (front.count separator + i) start len ∧
      pieces[i]? = some ((xs.drop start).take len) := by
  induction pieces generalizing front i with
  | nil => cases listed
  | cons piece pieces ih =>
      cases i with
      | zero =>
          cases listed
          have rest : ∃ tail, [separator].intercalate (piece :: pieces) = piece ++ tail ∧
              (tail = [] ∨ ∃ later, tail = separator :: later) := by
            cases pieces with
            | nil => exact ⟨[], by rw [List.intercalate_singleton, List.append_nil], .inl rfl⟩
            | cons next later =>
                refine ⟨separator :: [separator].intercalate (next :: later), ?_, .inr ⟨_, rfl⟩⟩
                rw [List.intercalate_cons_cons, List.append_assoc]
                rfl
          obtain ⟨tail, joined, ends⟩ := rest
          rw [joined] at whole
          have here : (xs.drop front.length).take piece.length = piece := by
            rw [whole, List.drop_left, List.take_left]
          refine ⟨⟨?_, ?_, ?_, opened, ?_⟩, by rw [here]; rfl⟩
          · rw [whole, List.length_append, List.length_append]
            omega
          · rw [whole, List.take_left]
            rfl
          · rw [here]
            exact clear piece (.head _)
          · cases ends with
            | inl none =>
                refine .inl ?_
                rw [whole, none, List.append_nil, List.length_append]
            | inr some =>
                obtain ⟨later, rfl⟩ := some
                refine .inr ?_
                rw [whole, ← List.append_assoc, ← List.length_append,
                  List.getElem?_append_right (Nat.le_refl _), Nat.sub_self]
                rfl
      | succ i =>
          cases pieces with
          | nil => cases listed
          | cons next later =>
              have next' : xs = (front ++ (piece ++ [separator])) ++
                  [separator].intercalate (next :: later) := by
                rw [whole, List.intercalate_cons_cons]
                simp only [List.append_assoc]
              have length : (front ++ (piece ++ [separator])).length =
                  front.length + piece.length + 1 := by
                simp only [List.length_append, List.length_singleton, Nat.add_assoc]
              have last : xs[(front ++ (piece ++ [separator])).length - 1]? = some separator := by
                rw [length, Nat.add_sub_cancel, next', ← List.append_assoc front, List.append_assoc,
                  ← List.length_append, List.getElem?_append_right (Nat.le_refl _), Nat.sub_self]
                rfl
              have run := ih _ (fun piece member => clear piece (.tail _ member)) next' (.inr last)
                (i := i) (by rw [length]; exact listed)
              have none : piece.count separator = 0 :=
                List.count_eq_zero.mpr (clear piece (.head _))
              have count : (front ++ (piece ++ [separator])).count separator =
                  front.count separator + 1 := by
                rw [List.count_append, List.count_append, none, List.count_singleton_self]
              rw [count, Nat.add_assoc, Nat.add_comm 1 i] at run
              exact run

/-- The pieces of a list are its runs, in order. -/
theorem pieceSpans_splitOn {xs : List α} {separator : α} {i start len : Nat}
    (listed : (pieceSpans 0 (xs.splitOn separator))[i]? = some (start, len)) :
    SeparatedRun xs separator i start len ∧
      (xs.splitOn separator)[i]? = some ((xs.drop start).take len) := by
  have run := pieceSpans_runs [] (fun _ => not_mem_of_mem_splitOn)
    (List.intercalate_splitOn separator).symm (.inl rfl) listed
  rw [List.count_nil, Nat.zero_add] at run
  exact run

end AgencC.Library
