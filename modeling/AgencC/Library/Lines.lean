import Mathlib.Data.List.Basic

/-! Texts as lines: where a line of a printed text starts, and the text that its lines make. -/

set_option autoImplicit false

namespace AgencC.Library

variable {α : Type} {newline : α}

/-- The text of some lines, each of them ended. -/
def ended (newline : α) (lines : List (List α)) : List α :=
  lines.flatMap fun line => line ++ [newline]

/-- The position after `before` is at the start of a line. -/
def StartsLine (newline : α) (before : List α) : Prop :=
  before = [] ∨ before.getLast? = some newline

@[simp] theorem ended_nil : ended newline [] = [] := rfl

@[simp] theorem ended_cons (line : List α) (lines : List (List α)) :
    ended newline (line :: lines) = line ++ newline :: ended newline lines := by
  rw [ended, List.flatMap_cons, List.append_assoc, List.singleton_append, ended]

/-- A newline comes at the end of the first line or later. -/
theorem end_of_line {line text start rest : List α} (clean : newline ∉ line)
    (split : line ++ newline :: text = start ++ newline :: rest) :
    (start = line ∧ text = rest) ∨
      ∃ more, start = line ++ newline :: more ∧ text = more ++ newline :: rest := by
  induction line generalizing start with
  | nil =>
      cases start with
      | nil => exact .inl ⟨rfl, (List.cons.inj split).2⟩
      | cons letter more =>
          obtain ⟨rfl, same⟩ := List.cons.inj split
          exact .inr ⟨more, rfl, same⟩
  | cons letter line ih =>
      rw [List.mem_cons, not_or] at clean
      cases start with
      | nil => exact absurd (List.cons.inj split).1.symm clean.1
      | cons other start =>
          obtain ⟨rfl, same⟩ := List.cons.inj split
          rcases ih clean.2 same with ⟨rfl, rfl⟩ | ⟨more, rfl, rfl⟩
          · exact .inl ⟨rfl, rfl⟩
          · exact .inr ⟨more, rfl, rfl⟩

/-- A line start within a text of lines lies between two of them. -/
theorem ended_split {lines : List (List α)} (clean : ∀ line ∈ lines, newline ∉ line)
    (before : List α) {rest : List α} (split : ended newline lines = before ++ rest)
    (starts : StartsLine newline before) :
    ∃ printed left, lines = printed ++ left ∧ before = ended newline printed ∧
      rest = ended newline left := by
  induction lines generalizing before with
  | nil =>
      obtain ⟨rfl, rfl⟩ := List.append_eq_nil_iff.mp split.symm
      exact ⟨[], [], rfl, rfl, rfl⟩
  | cons line lines ih =>
      rw [List.forall_mem_cons] at clean
      rcases starts with rfl | last
      · exact ⟨[], line :: lines, rfl, rfl, split.symm⟩
      · obtain ⟨start, rfl⟩ := List.getLast?_eq_some_iff.mp last
        rw [ended_cons, List.append_assoc, List.singleton_append] at split
        rcases end_of_line clean.1 split with ⟨rfl, rfl⟩ | ⟨more, rfl, later⟩
        · exact ⟨[start], lines, rfl, by rw [ended_cons, ended_nil], rfl⟩
        · rw [List.append_cons] at later
          obtain ⟨printed, left, rfl, same, rfl⟩ := ih clean.2 (more ++ [newline]) later
            (.inr List.getLast?_concat)
          refine ⟨line :: printed, left, rfl, ?_, rfl⟩
          rw [ended_cons, ← same, List.append_assoc, List.cons_append]

variable [DecidableEq α]

/-- `text` with its last line ended. -/
def terminated (newline : α) (text : List α) : List α :=
  if text = [] ∨ text.getLast? = some newline then text else text ++ [newline]

theorem terminated_append (line text : List α) :
    terminated newline (line ++ newline :: text) = line ++ newline :: terminated newline text := by
  cases text with
  | nil =>
      have ends : (line ++ [newline]).getLast? = some newline := List.getLast?_concat
      rw [terminated, if_pos (.inr ends), terminated, if_pos (.inl rfl)]
  | cons letter text =>
      have last : (line ++ newline :: letter :: text).getLast? = (letter :: text).getLast? := by
        rw [List.getLast?_append_of_ne_nil _ (List.cons_ne_nil _ _), List.getLast?_cons_cons]
      have nonempty : line ++ newline :: letter :: text ≠ [] := by simp
      simp only [terminated, last, nonempty, List.cons_ne_nil, false_or]
      by_cases ends : (letter :: text).getLast? = some newline
      · rw [if_pos ends, if_pos ends]
      · rw [if_neg ends, if_neg ends, List.append_assoc, List.cons_append]

end AgencC.Library
