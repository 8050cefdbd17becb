import AgencC.Str.Mutators

/-! The header invariant of a string over the object its buffer designates, and
what an operation on one string may do to the rest of the heap. -/

set_option autoImplicit false

namespace AgencC.Str

open Library

def StrT.Designates (s : StrT) (id : Nat) : Prop := ∃ p, s.buf = some p ∧ p.obj = id

/-- The buffer of `c` is the whole of the live block `o`. -/
structure Holds (c : Cell) (p : Ptr) (o : Obj UInt8) : Prop where
  buf : c.str.buf = some p
  live : c.heap.objs p.obj = some o
  allocated : o.allocated = true
  start : p.addr = o.base
  cap : c.str.cap = o.size

/-- The header invariant of `str_t`, with `cap` the size of the buffer's block. -/
inductive WellFormed (c : Cell) : Prop where
  | empty (buf : c.str.buf = none) (len : c.str.len = 0) (cap : c.str.cap = 0)
  | owned {p : Ptr} {o : Obj UInt8} (holds : Holds c p o) (inside : c.str.len < o.size)
      (terminated : o.cells[c.str.len]? = some 0)

/-- All bytes of the buffer, spare capacity included. -/
def Cell.bytes (c : Cell) : Bytes :=
  match c.str.buf with
  | none => []
  | some p => ((c.heap.objs p.obj).map Obj.cells).getD []

def Cell.content (c : Cell) : Bytes := c.bytes.take c.str.len

/-- An operation on the string of `c` leaves every other object alone; the buffer
it ends with is the old one or a new one, and an old one it gave up is gone. -/
structure Frame (c c' : Cell) : Prop where
  others : ∀ id, ¬ c.str.Designates id → ¬ c'.str.Designates id →
    c'.heap.objs id = c.heap.objs id
  fresh : ∀ id, c'.str.Designates id → c.str.Designates id ∨ c.heap.nextId ≤ id
  released : ∀ id, c.str.Designates id → ¬ c'.str.Designates id → c'.heap.objs id = none
  nextId : c.heap.nextId ≤ c'.heap.nextId

/-- A call that failed before it committed anything. -/
structure Unchanged (c c' : Cell) : Prop where
  str : c'.str = c.str
  objs : c'.heap.objs = c.heap.objs
  nextId : c.heap.nextId ≤ c'.heap.nextId

/-- What a mutator leaves behind: `want` on success, and on failure everything but
the recorded status as it was. -/
structure Outcome (c : Cell) (want : Bytes) (status : Status) (c' : Cell) : Prop where
  wellFormed : WellFormed c'
  frame : Frame c c'
  success : status = .ok → c'.str.status = .ok ∧ c'.content = want
  failure : status ≠ .ok → c'.str = { c.str with status } ∧ c'.heap.objs = c.heap.objs

theorem Holds.designates {c : Cell} {p : Ptr} {o : Obj UInt8} (holds : Holds c p o) (id : Nat) :
    c.str.Designates id ↔ id = p.obj := by
  constructor
  · intro ⟨q, designated, same⟩
    rw [holds.buf] at designated
    cases designated
    exact same.symm
  · intro same
    exact ⟨p, holds.buf, same.symm⟩

theorem Holds.block {c : Cell} {p : Ptr} {o : Obj UInt8} (holds : Holds c p o) :
    c.heap.block p = .ok o := Heap.block_ok holds.live holds.allocated holds.start

theorem Holds.nonNull {c : Cell} {p : Ptr} {o : Obj UInt8} (holds : Holds c p o)
    (text : String) : nonNull c.str.buf text = .ok p := by
  rw [holds.buf, Str.nonNull]

theorem Holds.size_lt {c : Cell} {p : Ptr} {o : Obj UInt8} (holds : Holds c p o) :
    o.size < sizeMax := by
  have placed := c.heap.placed p.obj o holds.live
  omega

theorem Holds.bytes {c : Cell} {p : Ptr} {o : Obj UInt8} (holds : Holds c p o) :
    c.bytes = o.cells := by
  simp only [Cell.bytes, holds.buf, holds.live, Option.map_some, Option.getD_some]

theorem Holds.isOwned {c : Cell} {p : Ptr} {o : Obj UInt8} (holds : Holds c p o)
    (pos : 0 < o.size) : isOwned c.str = .ok true := by
  have cap : ¬ o.size = 0 := by omega
  simp [Str.isOwned, holds.buf, holds.cap, cap, pos]

/-- Storing into the buffer keeps the cell's block. -/
theorem Holds.stores {c : Cell} {p : Ptr} {o : Obj UInt8} {cells : Bytes} {heap : Memory}
    (holds : Holds c p o) (stores : c.heap.Stores p.obj o cells heap) {str : StrT}
    (buf : str.buf = c.str.buf) (cap : str.cap = c.str.cap) :
    Holds { str, heap } p { o with cells } where
  buf := buf.trans holds.buf
  live := stores.live
  allocated := holds.allocated
  start := holds.start
  cap := (cap.trans holds.cap).trans stores.size.symm

theorem WellFormed.len_lt {c : Cell} (wf : WellFormed c) : c.str.len < sizeMax := by
  cases wf with
  | empty buf len cap =>
      rw [len]
      decide
  | owned holds inside terminated =>
      have size := holds.size_lt
      omega

theorem WellFormed.cap_le {c : Cell} (wf : WellFormed c) : c.str.cap ≤ sizeMax := by
  cases wf with
  | empty buf len cap =>
      rw [cap]
      exact Nat.zero_le _
  | owned holds inside terminated =>
      have size := holds.size_lt
      have cap := holds.cap
      omega

/-- A string with room has a buffer. -/
theorem WellFormed.holds {c : Cell} (wf : WellFormed c) (pos : 0 < c.str.cap) :
    ∃ p o, Holds c p o ∧ c.str.len < o.size ∧ o.cells[c.str.len]? = some 0 := by
  cases wf with
  | empty buf len cap => omega
  | owned holds inside terminated => exact ⟨_, _, holds, inside, terminated⟩

theorem WellFormed.designates_live {c : Cell} (wf : WellFormed c) {id : Nat}
    (designated : c.str.Designates id) :
    ∃ o, c.heap.objs id = some o ∧ o.allocated = true := by
  cases wf with
  | empty buf len cap =>
      obtain ⟨p, designated, _⟩ := designated
      rw [buf] at designated
      cases designated
  | owned holds inside terminated =>
      rw [(holds.designates id).mp designated]
      exact ⟨_, holds.live, holds.allocated⟩

theorem WellFormed.designates_lt {c : Cell} (wf : WellFormed c) {id : Nat}
    (designated : c.str.Designates id) : id < c.heap.nextId := by
  obtain ⟨o, live, _⟩ := wf.designates_live designated
  exact c.heap.lt_nextId live

theorem WellFormed.length_content {c : Cell} (wf : WellFormed c) :
    c.content.length = c.str.len := by
  cases wf with
  | empty buf len cap => simp [Cell.content, Cell.bytes, buf, len]
  | owned holds inside terminated =>
      rw [Cell.content, holds.bytes, List.length_take]
      unfold Obj.size at inside
      omega

theorem Frame.refl (c : Cell) : Frame c c where
  others _ _ _ := rfl
  fresh _ designated := .inl designated
  released _ designated other := absurd designated other
  nextId := Nat.le_refl _

theorem Frame.trans {c c' c'' : Cell} (first : Frame c c') (second : Frame c' c'') :
    Frame c c'' where
  others id before after := by
    by_cases between : c'.str.Designates id
    · cases first.fresh id between with
      | inl designated => exact absurd designated before
      | inr beyond => rw [second.released id between after, c.heap.fresh id beyond]
    · rw [second.others id between after, first.others id before between]
  fresh id designated := by
    cases second.fresh id designated with
    | inl between => exact first.fresh id between
    | inr beyond => exact .inr (Nat.le_trans first.nextId beyond)
  released id designated after := by
    by_cases between : c'.str.Designates id
    · exact second.released id between after
    · rw [second.others id between after, first.released id designated between]
  nextId := Nat.le_trans first.nextId second.nextId

/-- A frame depends on the buffers and the heaps alone. -/
theorem Frame.congr {c c' : Cell} {str str' : StrT} (frame : Frame c c')
    (buf : str.buf = c.str.buf) (buf' : str'.buf = c'.str.buf) :
    Frame { c with str } { c' with str := str' } := by
  have before : ∀ id, str.Designates id ↔ c.str.Designates id := fun id => by
    simp only [StrT.Designates, buf]
  have after : ∀ id, str'.Designates id ↔ c'.str.Designates id := fun id => by
    simp only [StrT.Designates, buf']
  exact
    { others := fun id old new =>
        frame.others id ((before id).not.mp old) ((after id).not.mp new)
      fresh := fun id designated => by
        rw [before id]
        exact frame.fresh id ((after id).mp designated)
      released := fun id old new =>
        frame.released id ((before id).mp old) ((after id).not.mp new)
      nextId := frame.nextId }

theorem Holds.frame {c : Cell} {p : Ptr} {o : Obj UInt8} {cells : Bytes} {heap : Memory}
    (holds : Holds c p o) (stores : c.heap.Stores p.obj o cells heap) {str : StrT}
    (buf : str.buf = c.str.buf) : Frame c { str, heap } where
  others id other _ := stores.other fun same => other ((holds.designates id).mpr same)
  fresh id designated := by
    obtain ⟨q, designated, same⟩ := designated
    exact .inl ⟨q, buf ▸ designated, same⟩
  released id designated other := by
    obtain ⟨q, designated, same⟩ := designated
    exact absurd ⟨q, buf.trans designated, same⟩ other
  nextId := Nat.le_of_eq stores.nextId.symm

theorem Unchanged.refl (c : Cell) : Unchanged c c := ⟨rfl, rfl, Nat.le_refl _⟩

theorem Unchanged.frame {c c' : Cell} (same : Unchanged c c') : Frame c c' where
  others id _ _ := congrFun same.objs id
  fresh _ designated := .inl (same.str ▸ designated)
  released _ designated other := absurd (same.str.symm ▸ designated) other
  nextId := same.nextId

theorem Unchanged.holds {c c' : Cell} {p : Ptr} {o : Obj UInt8} (same : Unchanged c c')
    (holds : Holds c p o) : Holds c' p o where
  buf := same.str ▸ holds.buf
  live := same.objs ▸ holds.live
  allocated := holds.allocated
  start := holds.start
  cap := same.str ▸ holds.cap

theorem Unchanged.wellFormed {c c' : Cell} (same : Unchanged c c') (wf : WellFormed c) :
    WellFormed c' := by
  cases wf with
  | empty buf len cap => exact .empty (same.str ▸ buf) (same.str ▸ len) (same.str ▸ cap)
  | owned holds inside terminated =>
      exact .owned (same.holds holds) (same.str ▸ inside) (same.str ▸ terminated)

/-- The invariant depends on the heap through the string's own block alone. -/
theorem WellFormed.of_same_block {c : Cell} (wf : WellFormed c) {heap : Memory}
    (same : ∀ id, c.str.Designates id → heap.objs id = c.heap.objs id) :
    WellFormed { c with heap } ∧ Cell.content { c with heap } = c.content := by
  cases wf with
  | empty buf len cap => exact ⟨.empty buf len cap, by simp [Cell.content, Cell.bytes, buf]⟩
  | @owned p o holds inside terminated =>
      have live := same p.obj ⟨p, holds.buf, rfl⟩
      refine ⟨.owned
        { buf := holds.buf
          live := live.trans holds.live
          allocated := holds.allocated
          start := holds.start
          cap := holds.cap } inside terminated, ?_⟩
      simp only [Cell.content, Cell.bytes, holds.buf, live]

/-- The status takes no part in the invariant. -/
theorem WellFormed.withStatus {c : Cell} (wf : WellFormed c) (status : Status) :
    WellFormed { c with str := { c.str with status } } := by
  cases wf with
  | empty buf len cap => exact .empty buf len cap
  | owned holds inside terminated =>
      exact .owned ⟨holds.buf, holds.live, holds.allocated, holds.start, holds.cap⟩ inside
        terminated

/-- Failing after nothing was committed. -/
theorem Unchanged.outcome {c c' : Cell} (same : Unchanged c c') (wf : WellFormed c)
    (want : Bytes) {status : Status} (failed : status ≠ .ok) :
    Outcome c want status { c' with str := { c'.str with status } } where
  wellFormed := (same.wellFormed wf).withStatus status
  frame := same.frame.congr rfl rfl
  success ok := absurd ok failed
  failure _ := ⟨by rw [same.str], same.objs⟩

theorem recordFailure_ok (status : Status) (failed : status ≠ .ok) (c : Cell) :
    recordFailure status c = .ok (status, { c with str := { c.str with status } }) := by
  simp [recordFailure, failed]

/-- A write into the buffer. -/
theorem Holds.write {c : Cell} {p : Ptr} {o : Obj UInt8} (holds : Holds c p o) (offset : Nat)
    (new : Bytes) (inside : offset + new.length ≤ o.size) :
    ∃ heap, c.heap.write (p.add offset) new = .ok heap ∧
      c.heap.Stores p.obj o (Heap.overwrite o.cells offset new) heap := by
  have start := holds.start
  obtain ⟨heap, wrote, stores⟩ := Heap.write_ok (p.add offset) new holds.live
    (by show o.base ≤ p.addr + offset; omega)
    (by show p.addr + offset + new.length ≤ o.base + o.size; omega)
  have distance : (p.add offset).addr - o.base = offset := by
    show p.addr + offset - o.base = offset
    omega
  rw [distance] at stores
  exact ⟨heap, wrote, stores⟩

/-- A read from the buffer. -/
theorem Holds.read {c : Cell} {p : Ptr} {o : Obj UInt8} (holds : Holds c p o) (offset len : Nat)
    (inside : offset + len ≤ o.size) :
    c.heap.read (p.add offset) len = .ok ((o.cells.drop offset).take len) := by
  have start := holds.start
  rw [Heap.read_ok (p := p.add offset) holds.live
    (by show o.base ≤ p.addr + offset; omega)
    (by show p.addr + offset + len ≤ o.base + o.size; omega)]
  have distance : (p.add offset).addr - o.base = offset := by
    show p.addr + offset - o.base = offset
    omega
  rw [distance]

end AgencC.Str
