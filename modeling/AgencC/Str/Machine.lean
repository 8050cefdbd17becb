import AgencC.Str.Atomicity

/-! Any number of strings over one heap, and runs of public calls on them. -/

set_option autoImplicit false

namespace AgencC.Str

open Library

structure Machine where
  strs : Nat → StrT
  heap : Memory
  /-- Buffers handed out by `str_detach` and not yet freed. -/
  detached : List Ptr

def Machine.cell (m : Machine) (i : Nat) : Cell := { str := m.strs i, heap := m.heap }

def Machine.put (m : Machine) (i : Nat) (c : Cell) : Machine :=
  { m with strs := Function.update m.strs i c.str, heap := c.heap }

/-- A public call. `none` is a NULL string; the last two are the caller's own: freeing
a detached buffer, and writing to storage that belongs to no string. -/
inductive Op where
  | mutate (string : Option Nat) (mutation : Mutation)
  | move (destination source : Option Nat)
  | detach (string : Option Nat)
  | clear (string : Option Nat)
  | clearError (string : Option Nat)
  | deinit (string : Option Nat)
  | free (p : Option Ptr)
  | store (p : Ptr) (bytes : Bytes)

/-- What a call returns. -/
inductive Reply where
  | none
  | status (status : Status)
  | pointer (p : Option Ptr)
  deriving DecidableEq, Repr

def Machine.step (m : Machine) : Op → Except Fault (Reply × Machine)
  | .mutate none _ => .ok (.status .errArg, m)
  | .mutate (some i) mutation => do
      let (status, c) ← mutation.run (m.cell i)
      .ok (.status status, m.put i c)
  | .move (some i) (some j) =>
      if i = j then .ok (.none, m)
      else do
        let c ← Str.move (m.cell i) (m.strs j)
        let moved := m.put i c
        .ok (.none, { moved with strs := Function.update moved.strs j (m.strs j).reset })
  | .move _ _ => .ok (.none, m)
  | .detach none => .ok (.pointer none, m)
  | .detach (some i) => do
      let (p, c) ← Str.detach (m.cell i)
      .ok (.pointer p, { m.put i c with detached := m.detached ++ p.toList })
  | .clear none | .clearError none | .deinit none => .ok (.none, m)
  | .clear (some i) => do
      let c ← Str.clear (m.cell i)
      .ok (.none, m.put i c)
  | .clearError (some i) => .ok (.none, m.put i (Str.clearError (m.cell i)))
  | .deinit (some i) => do
      let c ← Str.deinit (m.cell i)
      .ok (.none, m.put i c)
  | .free p => do
      let heap ← m.heap.free p
      .ok (.none, { m with heap, detached := m.detached.filter fun q => some q ≠ p })
  | .store p bytes => do
      let heap ← m.heap.write p bytes
      .ok (.none, { m with heap })

/-- What a caller has to see to. A copied string is one of the others. -/
def Op.Legal (m : Machine) : Op → Prop
  | .mutate (some i) mutation =>
      mutation.Legal (m.cell i) ∧ ∀ s, mutation = .copy (.other s) → ∃ j, j ≠ i ∧ s = m.strs j
  | .free (some p) => p ∈ m.detached
  | .store p bytes =>
      (∀ i, ¬ (m.strs i).Designates p.obj) ∧ ∃ heap, m.heap.write p bytes = .ok heap
  | _ => True

def Machine.run (m : Machine) : List Op → Except Fault Machine
  | [] => .ok m
  | op :: ops => do
      let (_, m) ← m.step op
      m.run ops

/-- Each call is legal in the state it is made in. -/
def LegalRun (m : Machine) : List Op → Prop
  | [] => True
  | op :: ops => op.Legal m ∧ ∀ reply m', m.step op = .ok (reply, m') → LegalRun m' ops

/-- All strings empty, and no block allocated; the caller's own objects may exist. -/
structure Machine.Initial (m : Machine) : Prop where
  strs : ∀ i, m.strs i = .empty
  detached : m.detached = []
  heap : ∀ id o, m.heap.objs id = some o → o.allocated = false

/-- The empty machine whose allocation attempts are answered by `answers`. -/
def Machine.start (answers : Nat → Option (Placement UInt8)) : Machine :=
  { strs := fun _ => .empty, heap := .vacant answers, detached := [] }

theorem Machine.start_initial (answers : Nat → Option (Placement UInt8)) :
    (Machine.start answers).Initial where
  strs _ := rfl
  detached := rfl
  heap _ _ live := nomatch live

end AgencC.Str
