import AgencC.Library.Fault
import Mathlib.Logic.Function.Basic
import Mathlib.Data.List.Basic

/-! A heap of live objects. A pointer keeps the identity of the object it was
made from, so a use after release is a fault even where the address is reused. -/

set_option autoImplicit false

namespace AgencC.Library

structure Ptr where
  obj : Nat
  addr : Nat
  deriving DecidableEq, Repr

def Ptr.add (p : Ptr) (offset : Nat) : Ptr := { p with addr := p.addr + offset }

structure Obj (α : Type) where
  base : Nat
  /-- Whether the object came from `malloc` or `realloc`. -/
  allocated : Bool
  cells : List α
  deriving DecidableEq, Repr

variable {α : Type} {space : Nat}

def Obj.size (o : Obj α) : Nat := o.cells.length

def Obj.Apart (a b : Obj α) : Prop := a.base + a.size ≤ b.base ∨ b.base + b.size ≤ a.base

instance (a b : Obj α) : Decidable (a.Apart b) := inferInstanceAs (Decidable (_ ∨ _))

theorem Obj.Apart.symm {a b : Obj α} (apart : a.Apart b) : b.Apart a := Or.symm apart

/-- Where an allocation attempt puts its object, and what the storage holds. -/
structure Placement (α : Type) where
  base : Nat
  garbage : Nat → α

/-- Live objects lie apart below the end of the address space and away from NULL. -/
structure Heap (α : Type) (space : Nat) where
  objs : Nat → Option (Obj α)
  nextId : Nat
  /-- Allocation attempts so far. -/
  attempts : Nat
  /-- What each attempt is answered; `none` refuses it. -/
  answers : Nat → Option (Placement α)
  fresh : ∀ id, nextId ≤ id → objs id = none
  placed : ∀ id o, objs id = some o → 0 < o.base ∧ o.base + o.size < space
  apart : ∀ i j a b, i ≠ j → objs i = some a → objs j = some b → a.Apart b

namespace Heap

theorem lt_nextId (h : Heap α space) {id : Nat} {o : Obj α} (live : h.objs id = some o) :
    id < h.nextId := by
  refine Nat.lt_of_not_le fun beyond => ?_
  rw [h.fresh id beyond] at live
  cases live

/-- A heap with no objects. -/
def vacant (answers : Nat → Option (Placement α)) : Heap α space where
  objs _ := none
  nextId := 0
  attempts := 0
  answers := answers
  fresh _ _ := rfl
  placed _ _ live := nomatch live
  apart _ _ _ _ _ live _ := nomatch live

/-- Room for `o` beside every live object. -/
def Fits (h : Heap α space) (o : Obj α) : Prop :=
  0 < o.base ∧ o.base + o.size < space ∧
    ∀ id < h.nextId, ∀ other ∈ h.objs id, o.Apart other

instance (h : Heap α space) (o : Obj α) : Decidable (h.Fits o) :=
  inferInstanceAs (Decidable (_ ∧ _ ∧ _))

theorem Fits.apart {h : Heap α space} {o other : Obj α} (fits : h.Fits o) {id : Nat}
    (live : h.objs id = some other) : o.Apart other :=
  fits.2.2 id (h.lt_nextId live) other live

/-- A new object under the next identity. -/
def insert (h : Heap α space) (o : Obj α) (fits : h.Fits o) : Heap α space where
  objs := Function.update h.objs h.nextId (some o)
  nextId := h.nextId + 1
  attempts := h.attempts
  answers := h.answers
  fresh id beyond := by
    rw [Function.update_of_ne (by omega)]
    exact h.fresh id (by omega)
  placed id other live := by
    by_cases new : id = h.nextId
    · rw [new, Function.update_self] at live
      cases live
      exact ⟨fits.1, fits.2.1⟩
    · rw [Function.update_of_ne new] at live
      exact h.placed id other live
  apart i j a b distinct liveA liveB := by
    by_cases newI : i = h.nextId
    · rw [newI, Function.update_self] at liveA
      rw [Function.update_of_ne (fun newJ => distinct (newI.trans newJ.symm))] at liveB
      cases liveA
      exact fits.apart liveB
    · rw [Function.update_of_ne newI] at liveA
      by_cases newJ : j = h.nextId
      · rw [newJ, Function.update_self] at liveB
        cases liveB
        exact (fits.apart liveA).symm
      · rw [Function.update_of_ne newJ] at liveB
        exact h.apart i j a b distinct liveA liveB

def erase (h : Heap α space) (id : Nat) : Heap α space where
  objs := Function.update h.objs id none
  nextId := h.nextId
  attempts := h.attempts
  answers := h.answers
  fresh other beyond := by
    by_cases same : other = id
    · rw [same, Function.update_self]
    · rw [Function.update_of_ne same]
      exact h.fresh other beyond
  placed other o live := by
    by_cases same : other = id
    · rw [same, Function.update_self] at live
      cases live
    · rw [Function.update_of_ne same] at live
      exact h.placed other o live
  apart i j a b distinct liveA liveB := by
    by_cases sameI : i = id
    · rw [sameI, Function.update_self] at liveA
      cases liveA
    · by_cases sameJ : j = id
      · rw [sameJ, Function.update_self] at liveB
        cases liveB
      · rw [Function.update_of_ne sameI] at liveA
        rw [Function.update_of_ne sameJ] at liveB
        exact h.apart i j a b distinct liveA liveB

/-- New contents for a live object, its size unchanged. -/
def setCells (h : Heap α space) (id : Nat) (o : Obj α) (live : h.objs id = some o)
    (cells : List α) (same : cells.length = o.cells.length) : Heap α space where
  objs := Function.update h.objs id (some { o with cells })
  nextId := h.nextId
  attempts := h.attempts
  answers := h.answers
  fresh other beyond := by
    have distinct : other ≠ id := fun equal => by
      have bound := h.lt_nextId live
      omega
    rw [Function.update_of_ne distinct]
    exact h.fresh other beyond
  placed other a liveA := by
    by_cases equal : other = id
    · rw [equal, Function.update_self] at liveA
      cases liveA
      have placed := h.placed id o live
      simpa only [Obj.size, same] using placed
    · rw [Function.update_of_ne equal] at liveA
      exact h.placed other a liveA
  apart i j a b distinct liveA liveB := by
    have moved : ∀ other c, Function.update h.objs id (some { o with cells }) other = some c →
        ∃ d, h.objs other = some d ∧ d.base = c.base ∧ d.size = c.size := by
      intro other c liveC
      by_cases equal : other = id
      · rw [equal, Function.update_self] at liveC
        cases liveC
        exact ⟨o, equal ▸ live, rfl, same.symm⟩
      · rw [Function.update_of_ne equal] at liveC
        exact ⟨c, liveC, rfl, rfl⟩
    obtain ⟨a', liveA', baseA, sizeA⟩ := moved i a liveA
    obtain ⟨b', liveB', baseB, sizeB⟩ := moved j b liveB
    have apart := h.apart i j a' b' distinct liveA' liveB'
    simpa only [Obj.Apart, baseA, sizeA, baseB, sizeB] using apart

/-- One more allocation attempt has been answered. -/
def tick (h : Heap α space) : Heap α space := { h with attempts := h.attempts + 1 }

/-- An attempt to place `size` cells that start with `kept`. An answer that does
not fit is a refusal. -/
def place (h : Heap α space) (size : Nat) (kept : List α) : Option (Ptr × Heap α space) :=
  match h.answers h.attempts with
  | none => none
  | some answer =>
      let o : Obj α :=
        { base := answer.base, allocated := true
          cells := kept.take size ++ (List.range (size - kept.length)).map answer.garbage }
      if fits : h.Fits o then some (⟨h.nextId, o.base⟩, h.insert o fits) else none

def malloc (h : Heap α space) (size : Nat) : Option Ptr × Heap α space :=
  match h.place size [] with
  | some (p, h) => (some p, h.tick)
  | none => (none, h.tick)

/-- The allocated object `p` is the start of. -/
def block (h : Heap α space) (p : Ptr) : Except Fault (Obj α) :=
  match h.objs p.obj with
  | some o => if o.allocated ∧ p.addr = o.base then .ok o else .error .notHeld
  | none => .error .notHeld

/-- A refused `realloc` leaves the old block; a granted one consumes it. -/
def realloc (h : Heap α space) (p : Ptr) (size : Nat) : Except Fault (Option Ptr × Heap α space) := do
  let o ← h.block p
  match (h.erase p.obj).place size o.cells with
  | some (q, h) => .ok (some q, h.tick)
  | none => .ok (none, h.tick)

def free (h : Heap α space) : Option Ptr → Except Fault (Heap α space)
  | none => .ok h
  | some p => do
      let _ ← h.block p
      .ok (h.erase p.obj)

/-- `len` cells from `p` on, which must lie in its object. -/
def read (h : Heap α space) (p : Ptr) (len : Nat) : Except Fault (List α) :=
  match h.objs p.obj with
  | some o =>
      if o.base ≤ p.addr ∧ p.addr + len ≤ o.base + o.size then
        .ok ((o.cells.drop (p.addr - o.base)).take len)
      else .error .outOfBounds
  | none => .error .notHeld

/-- `cells` with `new` written over them from `offset` on. -/
def overwrite (cells : List α) (offset : Nat) (new : List α) : List α :=
  cells.take offset ++ new ++ cells.drop (offset + new.length)

theorem length_overwrite {cells new : List α} {offset : Nat}
    (inside : offset + new.length ≤ cells.length) :
    (overwrite cells offset new).length = cells.length := by
  simp only [overwrite, List.length_append, List.length_take, List.length_drop]
  omega

theorem getElem?_overwrite {cells new : List α} {offset : Nat}
    (inside : offset + new.length ≤ cells.length) (i : Nat) :
    (overwrite cells offset new)[i]? =
      if offset ≤ i ∧ i < offset + new.length then new[i - offset]? else cells[i]? := by
  unfold overwrite
  by_cases before : i < offset
  · rw [if_neg (by omega), List.append_assoc, List.getElem?_append_left (by simp; omega),
      List.getElem?_take_of_lt before]
  · by_cases within : i < offset + new.length
    · rw [if_pos ⟨by omega, within⟩, List.append_assoc,
        List.getElem?_append_right (by simp; omega), List.getElem?_append_left (by simp; omega)]
      congr 1
      simp
      omega
    · rw [if_neg (by omega), List.getElem?_append_right (by simp; omega), List.getElem?_drop]
      congr 1
      simp
      omega

def write (h : Heap α space) (p : Ptr) (new : List α) : Except Fault (Heap α space) :=
  match live : h.objs p.obj with
  | some o =>
      if inside : o.base ≤ p.addr ∧ p.addr + new.length ≤ o.base + o.size then
        .ok (h.setCells p.obj o live (overwrite o.cells (p.addr - o.base) new)
          (length_overwrite (by unfold Obj.size at inside; omega)))
      else .error .outOfBounds
  | none => .error .notHeld

/-! What each operation can do. -/

theorem place_cases (h : Heap α space) (size : Nat) (kept : List α) :
    h.place size kept = none ∨
    ∃ o : Obj α, ∃ fits : h.Fits o, h.place size kept = some (⟨h.nextId, o.base⟩, h.insert o fits) ∧
      o.allocated = true ∧ o.size = size ∧
      ∀ i, i < size → i < kept.length → o.cells[i]? = kept[i]? := by
  cases answered : h.answers h.attempts with
  | none => exact .inl (by simp only [place, answered])
  | some answer =>
      by_cases fits : h.Fits
          { base := answer.base, allocated := true
            cells := kept.take size ++ (List.range (size - kept.length)).map answer.garbage }
      · refine .inr ⟨_, fits, by simp only [place, answered, dif_pos fits], rfl, ?_, ?_⟩
        · simp only [Obj.size, List.length_append, List.length_take, List.length_map,
            List.length_range]
          omega
        · intro i inside old
          rw [List.getElem?_append_left (by simp; omega), List.getElem?_take_of_lt inside]
      · exact .inl (by simp only [place, answered, dif_neg fits])

theorem malloc_cases (h : Heap α space) (size : Nat) :
    (∃ h' : Heap α space, h.malloc size = (none, h') ∧ h'.objs = h.objs ∧
      h'.nextId = h.nextId) ∨
    ∃ (o : Obj α) (h' : Heap α space), h.malloc size = (some ⟨h.nextId, o.base⟩, h') ∧
      o.allocated = true ∧ o.size = size ∧
      h'.objs = Function.update h.objs h.nextId (some o) ∧ h'.nextId = h.nextId + 1 := by
  rcases h.place_cases size [] with refused | ⟨o, fits, granted, allocated, sized, _⟩
  · exact .inl ⟨h.tick, by simp only [malloc, refused], rfl, rfl⟩
  · exact .inr ⟨o, (h.insert o fits).tick, by simp only [malloc, granted], allocated, sized,
      rfl, rfl⟩

theorem block_ok {h : Heap α space} {p : Ptr} {o : Obj α} (live : h.objs p.obj = some o)
    (allocated : o.allocated = true) (start : p.addr = o.base) : h.block p = .ok o := by
  simp only [block, live]
  rw [if_pos ⟨allocated, start⟩]

theorem realloc_cases {h : Heap α space} {p : Ptr} {o : Obj α} (held : h.block p = .ok o)
    (size : Nat) :
    (∃ h' : Heap α space, h.realloc p size = .ok (none, h') ∧ h'.objs = h.objs ∧
      h'.nextId = h.nextId) ∨
    ∃ (new : Obj α) (h' : Heap α space), h.realloc p size = .ok (some ⟨h.nextId, new.base⟩, h') ∧
      new.allocated = true ∧ new.size = size ∧
      (∀ i, i < size → i < o.size → new.cells[i]? = o.cells[i]?) ∧
      h'.objs = Function.update (Function.update h.objs p.obj none) h.nextId (some new) ∧
      h'.nextId = h.nextId + 1 := by
  rcases (h.erase p.obj).place_cases size o.cells with
    refused | ⟨new, fits, granted, allocated, sized, kept⟩
  · exact .inl ⟨h.tick, by simp only [realloc, held, ok_bind, refused], rfl, rfl⟩
  · exact .inr ⟨new, ((h.erase p.obj).insert new fits).tick,
      by simp only [realloc, held, ok_bind, granted]; rfl, allocated, sized, kept, rfl, rfl⟩

theorem free_ok {h : Heap α space} {p : Ptr} {o : Obj α} (held : h.block p = .ok o) :
    h.free (some p) = .ok (h.erase p.obj) := by
  simp only [free, held, ok_bind]

theorem read_ok {h : Heap α space} {p : Ptr} {o : Obj α} {len : Nat}
    (live : h.objs p.obj = some o) (above : o.base ≤ p.addr)
    (inside : p.addr + len ≤ o.base + o.size) :
    h.read p len = .ok ((o.cells.drop (p.addr - o.base)).take len) := by
  simp only [read, live]
  rw [if_pos ⟨above, inside⟩]

/-- A read that succeeds lies in a live object. -/
theorem read_eq_ok {h : Heap α space} {p : Ptr} {len : Nat} {cells : List α}
    (success : h.read p len = .ok cells) :
    ∃ o, h.objs p.obj = some o ∧ o.base ≤ p.addr ∧ p.addr + len ≤ o.base + o.size ∧
      cells = (o.cells.drop (p.addr - o.base)).take len := by
  unfold read at success
  split at success
  · rename_i o live
    split at success
    · rename_i inside
      cases success
      exact ⟨o, live, inside.1, inside.2, rfl⟩
    · cases success
  · cases success

theorem length_of_read {h : Heap α space} {p : Ptr} {len : Nat} {cells : List α}
    (success : h.read p len = .ok cells) : cells.length = len := by
  obtain ⟨o, _, above, inside, rfl⟩ := read_eq_ok success
  unfold Obj.size at inside
  simp only [List.length_take, List.length_drop]
  omega

/-- A heap with the same objects answers the same reads. -/
theorem read_congr {h h' : Heap α space} {p : Ptr} (same : h'.objs p.obj = h.objs p.obj)
    (len : Nat) : h'.read p len = h.read p len := by
  simp only [read, same]

/-- `h'` is `h` with other cells in one object. -/
structure Stores (h : Heap α space) (id : Nat) (o : Obj α) (cells : List α)
    (h' : Heap α space) : Prop where
  objs : h'.objs = Function.update h.objs id (some { o with cells })
  nextId : h'.nextId = h.nextId
  attempts : h'.attempts = h.attempts
  answers : h'.answers = h.answers
  size : cells.length = o.cells.length

theorem Stores.live {h h' : Heap α space} {id : Nat} {o : Obj α} {cells : List α}
    (stores : h.Stores id o cells h') : h'.objs id = some { o with cells } := by
  rw [stores.objs, Function.update_self]

theorem Stores.other {h h' : Heap α space} {id : Nat} {o : Obj α} {cells : List α}
    (stores : h.Stores id o cells h') {id' : Nat} (distinct : id' ≠ id) :
    h'.objs id' = h.objs id' := by
  rw [stores.objs, Function.update_of_ne distinct]

theorem Stores.refl {h : Heap α space} {id : Nat} {o : Obj α} (live : h.objs id = some o) :
    h.Stores id o o.cells h where
  objs := by rw [← live, Function.update_eq_self]
  nextId := rfl
  attempts := rfl
  answers := rfl
  size := rfl

theorem Stores.trans {h h' h'' : Heap α space} {id : Nat} {o : Obj α} {cells cells' : List α}
    (first : h.Stores id o cells h') (second : h'.Stores id { o with cells } cells' h'') :
    h.Stores id o cells' h'' where
  objs := by rw [second.objs, first.objs, Function.update_idem]
  nextId := second.nextId.trans first.nextId
  attempts := second.attempts.trans first.attempts
  answers := second.answers.trans first.answers
  size := second.size.trans first.size

theorem write_ok {h : Heap α space} (p : Ptr) {o : Obj α} (new : List α)
    (live : h.objs p.obj = some o) (above : o.base ≤ p.addr)
    (inside : p.addr + new.length ≤ o.base + o.size) :
    ∃ h', h.write p new = .ok h' ∧
      h.Stores p.obj o (overwrite o.cells (p.addr - o.base) new) h' := by
  have size : (overwrite o.cells (p.addr - o.base) new).length = o.cells.length :=
    length_overwrite (by unfold Obj.size at inside; omega)
  refine ⟨h.setCells p.obj o live _ size, ?_, ⟨rfl, rfl, rfl, rfl, size⟩⟩
  unfold write
  split
  · rename_i o' live'
    obtain rfl : o = o' := Option.some.inj (live.symm.trans live')
    rw [dif_pos ⟨above, inside⟩]
  · rename_i dead
    rw [dead] at live
    cases live

theorem write_eq_ok {h h' : Heap α space} {p : Ptr} {new : List α}
    (success : h.write p new = .ok h') :
    ∃ o cells, h.objs p.obj = some o ∧ h.Stores p.obj o cells h' := by
  unfold write at success
  split at success
  · rename_i o live
    split at success
    · rename_i inside
      cases success
      exact ⟨o, _, live, rfl, rfl, rfl, rfl,
        length_overwrite (by unfold Obj.size at inside; omega)⟩
    · cases success
  · cases success

/-! Which attempts are granted. -/

/-- The same objects in the same places, whatever they hold, and the same answers to come. -/
structure Alike (h h' : Heap α space) : Prop where
  objs : ∀ id, (h'.objs id).map (fun o => (o.base, o.allocated, o.size)) =
    (h.objs id).map fun o => (o.base, o.allocated, o.size)
  nextId : h'.nextId = h.nextId
  attempts : h'.attempts = h.attempts
  answers : h'.answers = h.answers

theorem Alike.live {h h' : Heap α space} (alike : h.Alike h') {id : Nat} {o' : Obj α}
    (live : h'.objs id = some o') :
    ∃ o, h.objs id = some o ∧ o.base = o'.base ∧ o.allocated = o'.allocated ∧
      o.size = o'.size := by
  have same := alike.objs id
  rw [live] at same
  obtain ⟨o, live', equal⟩ := Option.map_eq_some_iff.mp same.symm
  simp only [Prod.mk.injEq] at equal
  exact ⟨o, live', equal⟩

theorem Stores.alike {h h' : Heap α space} {id : Nat} {o : Obj α} {cells : List α}
    (stores : h.Stores id o cells h') (live : h.objs id = some o) : h.Alike h' where
  objs other := by
    by_cases same : other = id
    · rw [same, stores.live, live]
      simp only [Option.map_some, Obj.size, stores.size]
    · rw [stores.other same]
  nextId := stores.nextId
  attempts := stores.attempts
  answers := stores.answers

theorem Alike.erase {h h' : Heap α space} (alike : h.Alike h') (id : Nat) :
    (h.erase id).Alike (h'.erase id) where
  objs other := by
    show (Function.update h'.objs id none other).map _ =
      (Function.update h.objs id none other).map _
    by_cases same : other = id
    · rw [same, Function.update_self, Function.update_self]
    · rw [Function.update_of_ne same, Function.update_of_ne same]
      exact alike.objs other
  nextId := alike.nextId
  attempts := alike.attempts
  answers := alike.answers

theorem Alike.fits {h h' : Heap α space} (alike : h.Alike h') {o o' : Obj α} (fits : h.Fits o)
    (base : o'.base = o.base) (size : o'.size = o.size) : h'.Fits o' := by
  obtain ⟨nonzero, below, apart⟩ := fits
  refine ⟨base ▸ nonzero, by rw [base, size]; exact below, fun id known other live => ?_⟩
  obtain ⟨other', live', base', _, size'⟩ := alike.live live
  have separate := apart id (alike.nextId ▸ known) other' live'
  unfold Obj.Apart at separate ⊢
  rw [base, size, ← base', ← size']
  exact separate

/-- What the storage holds does not decide whether an attempt is granted. -/
theorem Alike.place {h h' : Heap α space} (alike : h.Alike h') {size : Nat} {kept kept' : List α}
    (granted : (h.place size kept).isSome) : (h'.place size kept').isSome := by
  unfold Heap.place at granted ⊢
  rw [alike.attempts, alike.answers]
  cases answered : h.answers h.attempts with
  | none =>
      rw [answered] at granted
      cases granted
  | some answer =>
      rw [answered] at granted
      dsimp only at granted ⊢
      split at granted
      · case isTrue fits =>
          have sized (kept : List α) :
              (kept.take size ++ (List.range (size - kept.length)).map answer.garbage).length =
                size := by
            simp only [List.length_append, List.length_take, List.length_map, List.length_range]
            omega
          split
          · rfl
          · case isFalse full =>
              exact (full (alike.fits fits rfl ((sized kept').trans (sized kept).symm))).elim
      · cases granted

theorem malloc_isSome (h : Heap α space) (size : Nat) :
    (h.malloc size).1.isSome = (h.place size []).isSome := by
  unfold malloc
  cases h.place size [] <;> rfl

theorem Alike.malloc {h h' : Heap α space} (alike : h.Alike h') {size : Nat}
    (granted : (h.malloc size).1.isSome) : (h'.malloc size).1.isSome := by
  rw [malloc_isSome] at granted ⊢
  exact alike.place granted

theorem realloc_isSome {h h' : Heap α space} {p : Ptr} {size : Nat} {o : Obj α}
    {answer : Option Ptr} (held : h.block p = .ok o) (ran : h.realloc p size = .ok (answer, h')) :
    answer.isSome = ((h.erase p.obj).place size o.cells).isSome := by
  simp only [realloc, held, ok_bind] at ran
  split at ran
  · case h_1 placed =>
      cases ran
      rw [placed]
      rfl
  · case h_2 refused =>
      cases ran
      rw [refused]
      rfl

theorem Alike.realloc {h h' : Heap α space} (alike : h.Alike h') {p : Ptr} {size : Nat}
    (granted : ∀ answer heap, h.realloc p size = .ok (answer, heap) → answer.isSome)
    {answer : Option Ptr} {heap : Heap α space} (ran : h'.realloc p size = .ok (answer, heap)) :
    answer.isSome := by
  obtain ⟨o', held', _⟩ := bind_eq_ok.mp ran
  have held : ∃ o, h.block p = .ok o := by
    unfold block at held' ⊢
    cases live' : h'.objs p.obj with
    | none =>
        rw [live'] at held'
        cases held'
    | some other =>
        rw [live'] at held'
        obtain ⟨o, live, base, allocated, _⟩ := alike.live live'
        rw [live]
        dsimp only at held' ⊢
        rw [base, allocated]
        split at held'
        · case isTrue start => exact ⟨o, if_pos start⟩
        · cases held'
  obtain ⟨o, held⟩ := held
  rw [realloc_isSome held' ran]
  rcases realloc_cases held size with ⟨heap, refused, _⟩ | ⟨_, heap, grown, _⟩
  · cases granted _ _ refused
  · have some := granted _ _ grown
    rw [realloc_isSome held grown] at some
    exact (alike.erase p.obj).place some

end Heap

end AgencC.Library
