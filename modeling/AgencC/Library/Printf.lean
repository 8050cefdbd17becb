import AgencC.Library.Fault
import AgencC.Library.Heap

/-! Arrays of characters as C fills and prints them: `vsnprintf` into a part of an array,
and what `%s` reads from one. -/

set_option autoImplicit false

namespace AgencC.Library

def nul : Char := '\x00'

/-- A write into an array of characters. -/
def store (cells : List Char) (start : Nat) (chars : List Char) : Except Fault (List Char) :=
  if start + chars.length ≤ cells.length then .ok (Heap.overwrite cells start chars)
  else .error .outOfBounds

def load (cells : List Char) (idx : Nat) : Except Fault Char :=
  match cells[idx]? with
  | some char => .ok char
  | none => .error .outOfBounds

/-- `vsnprintf` of `text` into `room` characters from `start` on: the array then, and the full
length of the text. What does not fit beside the terminator is cut off. -/
def vsnprintf (cells : List Char) (start room : Nat) (text : List Char) :
    Except Fault (List Char × Int) :=
  if room = 0 then .ok (cells, text.length)
  else do
    let cells ← store cells start (text.take (room - 1) ++ [nul])
    .ok (cells, text.length)

/-- What `%.*s` prints from `start` on: at most `left` characters, and none from a NUL on. -/
def printString (cells : List Char) : Nat → Nat → Except Fault (List Char)
  | 0, _ => .ok []
  | left + 1, start => do
      let char ← load cells start
      if char = nul then .ok []
      else do
        let rest ← printString cells left (start + 1)
        .ok (char :: rest)

theorem load_of_drop {cells : List Char} {start : Nat} {char : Char} {after : List Char}
    (here : cells.drop start = char :: after) : load cells start = .ok char := by
  have found : cells[start]? = some char := by rw [← List.head?_drop, here, List.head?_cons]
  rw [load, found]

/-- The characters are in place, with a terminator after them, and nothing before them changed. -/
theorem vsnprintf_spec {cells : List Char} {start room : Nat} (positive : 0 < room)
    (inside : start + room ≤ cells.length) (text : List Char) :
    ∃ cells' after, vsnprintf cells start room text = .ok (cells', (text.length : Int)) ∧
      cells'.length = cells.length ∧
      cells' = cells.take start ++ text.take (room - 1) ++ nul :: after := by
  have fits : start + (text.take (room - 1) ++ [nul]).length ≤ cells.length := by
    rw [List.length_append, List.length_take, List.length_singleton]
    omega
  refine ⟨Heap.overwrite cells start (text.take (room - 1) ++ [nul]),
    cells.drop (start + (text.take (room - 1) ++ [nul]).length), ?_, Heap.length_overwrite fits, ?_⟩
  · rw [vsnprintf, if_neg (Nat.pos_iff_ne_zero.mp positive), store, if_pos fits]
    rfl
  · rw [Heap.overwrite, ← List.append_assoc, List.append_assoc _ [nul], List.singleton_append]

theorem printString_of {cells text after : List Char} {left start : Nat} (clean : nul ∉ text)
    (here : cells.drop start = text ++ after)
    (stops : left = text.length ∨ (text.length < left ∧ after.head? = some nul)) :
    printString cells left start = .ok text := by
  induction text generalizing left start with
  | nil =>
      rcases stops with rfl | ⟨more, stop⟩
      · rfl
      · obtain ⟨left, rfl⟩ := Nat.exists_eq_add_of_lt more
        obtain ⟨after, rfl⟩ := List.head?_eq_some_iff.mp stop
        rw [List.length_nil, Nat.zero_add, printString, load_of_drop here, ok_bind, if_pos rfl]
  | cons char text ih =>
      rw [List.mem_cons, not_or] at clean
      obtain ⟨left, rfl⟩ : ∃ rest, left = rest + 1 :=
        Nat.exists_eq_succ_of_ne_zero (by
          rintro rfl
          rcases stops with same | ⟨more, _⟩
          · cases same
          · exact absurd more (Nat.not_lt_zero _))
      have next : cells.drop (start + 1) = text ++ after := by
        rw [← List.drop_drop, here, List.cons_append, List.drop_succ_cons, List.drop_zero]
      have rest := ih clean.2 next (stops.imp Nat.succ.inj fun both =>
        ⟨Nat.lt_of_succ_lt_succ both.1, both.2⟩)
      rw [printString, load_of_drop here, ok_bind, if_neg (Ne.symm clean.1), rest]
      rfl

end AgencC.Library
