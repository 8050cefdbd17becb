import AgencC.Str.Ownership
import Mathlib.Algebra.Group.Nat.Defs

/-! Sizing and growth, and where a borrowed source lies. -/

set_option autoImplicit false

namespace AgencC.Str

open Library

theorem addSize_eq {base increment : Nat} (size : increment ≤ sizeMax) :
    addSize base increment =
      if base + increment ≤ sizeMax then .ok (base + increment) else .error .errOverflow := by
  unfold addSize
  by_cases fits : base + increment ≤ sizeMax
  · rw [if_neg (by omega), if_pos fits, sizeAdd_of_le fits]
  · rw [if_pos (by omega), if_neg fits]

theorem calculateCapacity_eq {len additionalLen : Nat} (size : additionalLen ≤ sizeMax) :
    calculateCapacity len additionalLen =
      if len + additionalLen + 1 ≤ sizeMax then .ok (len + additionalLen + 1)
      else .error .errOverflow := by
  unfold calculateCapacity
  rw [addSize_eq size]
  by_cases fits : len + additionalLen ≤ sizeMax
  · rw [if_pos fits]
    exact addSize_eq (by decide)
  · rw [if_neg fits, if_neg (by omega)]
    rfl

/-- `steps` doublings from `cap` on are enough to cover `need`. -/
theorem growCapacityLoop_spec (need steps cap : Nat) (covers : need ≤ cap * 2 ^ steps)
    (needFits : need ≤ sizeMax) (capFits : cap ≤ sizeMax) :
    ∃ newCap, growCapacityLoop need steps cap = .ok newCap ∧ need ≤ newCap ∧
      newCap ≤ sizeMax := by
  induction steps generalizing cap with
  | zero =>
      have enough : need ≤ cap := by simpa using covers
      exact ⟨cap, by rw [growCapacityLoop, if_pos enough], enough, capFits⟩
  | succ steps ih =>
      unfold growCapacityLoop
      by_cases enough : need ≤ cap
      · exact ⟨cap, if_pos enough, enough, capFits⟩
      · rw [if_neg enough]
        by_cases overflows : hasCapacityDoublingOverflow cap = true
        · exact ⟨need, if_pos overflows, Nat.le_refl _, needFits⟩
        · rw [if_neg overflows]
          have half : ¬ sizeMax / 2 < cap := fun above => overflows (decide_eq_true above)
          have doubled : cap * 2 ≤ sizeMax := by omega
          rw [capacityGrowthFactor, sizeMul_of_le doubled]
          refine ih (cap * 2) ?_ doubled
          rw [Nat.pow_succ] at covers
          rw [Nat.mul_assoc, Nat.mul_comm 2]
          exact covers

theorem chooseCapacity_spec {currentCap need : Nat} (needFits : need ≤ sizeMax)
    (capFits : currentCap ≤ sizeMax) :
    ∃ newCap, chooseCapacity currentCap need = .ok newCap ∧ need ≤ newCap ∧
      newCap ≤ sizeMax := by
  unfold chooseCapacity
  by_cases enough : need ≤ currentCap
  · exact ⟨currentCap, if_pos enough, enough, capFits⟩
  · rw [if_neg enough, growCapacity]
    have start : 1 ≤ (if currentCap < minCapacityBytes then minCapacityBytes else currentCap) ∧
        (if currentCap < minCapacityBytes then minCapacityBytes else currentCap) ≤ sizeMax := by
      unfold minCapacityBytes sizeMax at *
      split <;> omega
    refine growCapacityLoop_spec need maxCapacityGrowthSteps _ ?_ needFits start.2
    calc need ≤ 1 * 2 ^ maxCapacityGrowthSteps := by
          unfold maxCapacityGrowthSteps sizeMax at *
          omega
      _ ≤ _ := Nat.mul_le_mul_right _ start.1

theorem allocateHeap_cases {bytes : Nat} (pos : 0 < bytes) (heap : Memory) :
    (∃ heap', allocateHeap bytes heap = .ok (.error .errAlloc, heap') ∧
      heap'.objs = heap.objs ∧ heap'.nextId = heap.nextId) ∨
    ∃ (o : Obj UInt8) (heap' : Memory),
      allocateHeap bytes heap = .ok (.ok ⟨heap.nextId, o.base⟩, heap') ∧
      o.allocated = true ∧ o.size = bytes ∧
      heap'.objs = Function.update heap.objs heap.nextId (some o) ∧
      heap'.nextId = heap.nextId + 1 := by
  rcases heap.malloc_cases bytes with
    ⟨heap', refused, objs, nextId⟩ | ⟨o, heap', granted, allocated, size, objs, nextId⟩
  · exact .inl ⟨heap', by simp [allocateHeap, pos, refused], objs, nextId⟩
  · exact .inr ⟨o, heap', by simp [allocateHeap, pos, granted], allocated, size, objs, nextId⟩

theorem resizeHeap_cases {c : Cell} {p : Ptr} {o : Obj UInt8} (holds : Holds c p o) {bytes : Nat}
    (pos : 0 < bytes) :
    (∃ heap', resizeHeap c.str.buf bytes c.heap = .ok (.error .errAlloc, heap') ∧
      heap'.objs = c.heap.objs ∧ heap'.nextId = c.heap.nextId) ∨
    ∃ (new : Obj UInt8) (heap' : Memory),
      resizeHeap c.str.buf bytes c.heap = .ok (.ok ⟨c.heap.nextId, new.base⟩, heap') ∧
      new.allocated = true ∧ new.size = bytes ∧
      (∀ i, i < bytes → i < o.size → new.cells[i]? = o.cells[i]?) ∧
      heap'.objs = Function.update (Function.update c.heap.objs p.obj none) c.heap.nextId
        (some new) ∧
      heap'.nextId = c.heap.nextId + 1 := by
  rcases Heap.realloc_cases holds.block bytes with
    ⟨heap', refused, objs, nextId⟩ | ⟨new, heap', granted, allocated, size, kept, objs, nextId⟩
  · exact .inl ⟨heap', by simp [resizeHeap, holds.buf, nonNull, pos, refused], objs, nextId⟩
  · exact .inr ⟨new, heap', by simp [resizeHeap, holds.buf, nonNull, pos, granted], allocated,
      size, kept, objs, nextId⟩

/-- The state after the string's storage has become `newCap` bytes: the bytes that
fit are kept. -/
structure Resized (c : Cell) (newCap : Nat) (c' : Cell) (q : Ptr) (new : Obj UInt8) : Prop where
  str : c'.str = { c.str with buf := some q, cap := newCap }
  holds : Holds c' q new
  size : new.size = newCap
  kept : ∀ i, i < newCap → i < c.str.cap → new.cells[i]? = c.bytes[i]?
  opened : c.str.cap = 0 → new.cells[0]? = some 0
  frame : Frame c c'

/-- Storage obtained by `realloc` replaces the old block. -/
theorem Resized.of_realloc {c : Cell} {p : Ptr} {o new : Obj UInt8} {bytes : Nat} {heap' : Memory}
    (holds : Holds c p o) (owned : 0 < o.size) (allocated : new.allocated = true)
    (size : new.size = bytes)
    (kept : ∀ i, i < bytes → i < o.size → new.cells[i]? = o.cells[i]?)
    (objs : heap'.objs =
      Function.update (Function.update c.heap.objs p.obj none) c.heap.nextId (some new))
    (nextId : heap'.nextId = c.heap.nextId + 1) :
    Resized c bytes
      { str := { c.str with buf := some ⟨c.heap.nextId, new.base⟩, cap := bytes }, heap := heap' }
      ⟨c.heap.nextId, new.base⟩ new := by
  have held : p.obj < c.heap.nextId := c.heap.lt_nextId holds.live
  have holds' : Holds
      { str := { c.str with buf := some ⟨c.heap.nextId, new.base⟩, cap := bytes }, heap := heap' }
      ⟨c.heap.nextId, new.base⟩ new :=
    { buf := rfl, live := by rw [objs, Function.update_self], allocated, start := rfl
      cap := size.symm }
  refine ⟨rfl, holds', size, ?_, ?_, ?_⟩
  · intro i inside old
    rw [holds.bytes]
    exact kept i inside (holds.cap ▸ old)
  · intro none
    rw [holds.cap] at none
    omega
  · refine ⟨?_, ?_, ?_, by rw [nextId]; exact Nat.le_succ _⟩
    · intro id old other
      rw [holds.designates] at old
      rw [holds'.designates] at other
      rw [objs, Function.update_of_ne other, Function.update_of_ne old]
    · intro id designated
      exact .inr (Nat.le_of_eq ((holds'.designates id).mp designated).symm)
    · intro id old other
      rw [holds.designates] at old
      rw [holds'.designates] at other
      rw [objs, Function.update_of_ne other, old, Function.update_self]

theorem growHeap_spec {c : Cell} (wf : WellFormed c) (newCap : Nat) (grows : c.str.cap < newCap) :
    (∃ c', growHeap newCap c = .ok (.errAlloc, c') ∧ Unchanged c c') ∨
    ∃ c' q new, growHeap newCap c = .ok (.ok, c') ∧ Resized c newCap c' q new := by
  have pos : 0 < newCap := by omega
  cases wf with
  | empty buf len cap =>
      have owned : isOwned c.str = .ok false := by simp [isOwned, buf, cap]
      rcases allocateHeap_cases pos c.heap with
        ⟨heap', refused, objs, nextId⟩ | ⟨o, heap', granted, allocated, size, objs, nextId⟩
      · refine .inl ⟨{ c with heap := heap' }, ?_, rfl, objs, Nat.le_of_eq nextId.symm⟩
        simp [growHeap, grows, owned, expandHeap, pos, buf, refused]
      · have live : heap'.objs c.heap.nextId = some o := by rw [objs, Function.update_self]
        obtain ⟨heap'', wrote, stores⟩ := Heap.write_ok ⟨c.heap.nextId, o.base⟩
          [0] live (Nat.le_refl _) (by simp [size]; omega)
        have distance : o.base - o.base = 0 := Nat.sub_self _
        simp only [distance] at stores
        have holds' : Holds
            { str := { c.str with buf := some ⟨c.heap.nextId, o.base⟩, cap := newCap }
              heap := heap'' }
            ⟨c.heap.nextId, o.base⟩ { o with cells := Heap.overwrite o.cells 0 [0] } :=
          { buf := rfl, live := stores.live, allocated, start := rfl
            cap := (stores.size.trans size).symm }
        refine .inr ⟨_, _, _, ?_, rfl, holds', stores.size.trans size, ?_, ?_, ?_⟩
        · simp [growHeap, grows, owned, expandHeap, pos, buf, granted, wrote]
        · intro i _ old
          omega
        · intro _
          rw [Heap.getElem?_overwrite (by unfold Obj.size at size; simp; omega)]
          rfl
        · refine ⟨?_, ?_, ?_, ?_⟩
          · intro id _ other
            rw [holds'.designates] at other
            rw [stores.other other, objs, Function.update_of_ne other]
          · intro id designated
            exact .inr (Nat.le_of_eq ((holds'.designates id).mp designated).symm)
          · intro id designated
            obtain ⟨q, designated, _⟩ := designated
            rw [buf] at designated
            cases designated
          · show c.heap.nextId ≤ heap''.nextId
            rw [stores.nextId, nextId]
            exact Nat.le_succ _
  | owned holds inside terminated =>
      have owned := holds.isOwned (by omega)
      rcases resizeHeap_cases holds pos with
        ⟨heap', refused, objs, nextId⟩ | ⟨new, heap', granted, allocated, size, kept, objs, nextId⟩
      · refine .inl ⟨{ c with heap := heap' }, ?_, rfl, objs, Nat.le_of_eq nextId.symm⟩
        simp only [growHeap, ensure_of grows, ok_bind, owned, expandHeap, ensure_of pos,
          holds.buf, Option.isSome_some, ensure_of trivial, if_true]
        rw [← holds.buf, refused]
        rfl
      · refine .inr ⟨_, _, _, ?_,
          Resized.of_realloc holds (by omega) allocated size kept objs nextId⟩
        simp only [growHeap, ensure_of grows, ok_bind, owned, expandHeap, ensure_of pos,
          holds.buf, Option.isSome_some, ensure_of trivial, if_true]
        rw [← holds.buf, granted]
        rfl

/-- The string has a block of at least `need` bytes that starts with all it held. -/
structure Roomy (c : Cell) (need : Nat) (c' : Cell) (q : Ptr) (new : Obj UInt8) : Prop where
  str : c'.str = { c.str with buf := some q, cap := new.size }
  holds : Holds c' q new
  room : need ≤ new.size
  kept : ∀ i, i < c.str.cap → new.cells[i]? = c.bytes[i]?
  terminated : new.cells[c.str.len]? = some 0
  frame : Frame c c'

theorem Roomy.len {c c' : Cell} {need : Nat} {q : Ptr} {new : Obj UInt8}
    (roomy : Roomy c need c' q new) : c'.str.len = c.str.len := by rw [roomy.str]

theorem Roomy.inside {c c' : Cell} {need : Nat} {q : Ptr} {new : Obj UInt8}
    (roomy : Roomy c need c' q new) : c.str.len < new.size :=
  (List.getElem?_eq_some_iff.mp roomy.terminated).1

/-- The bytes up to the terminator are those of the old buffer. -/
theorem Roomy.kept_upto {c c' : Cell} {need : Nat} {q : Ptr} {new : Obj UInt8} (wf : WellFormed c)
    (roomy : Roomy c need c' q new) {i : Nat} (inside : i < c.str.len) :
    new.cells[i]? = c.bytes[i]? := by
  cases wf with
  | empty buf len cap => omega
  | owned holds within terminated =>
      exact roomy.kept i (by rw [holds.cap]; omega)

theorem Roomy.take_len {c c' : Cell} {need : Nat} {q : Ptr} {new : Obj UInt8} (wf : WellFormed c)
    (roomy : Roomy c need c' q new) : new.cells.take c.str.len = c.content := by
  refine List.ext_getElem? fun i => ?_
  rw [Cell.content, List.getElem?_take, List.getElem?_take]
  split
  · rename_i inside
    exact roomy.kept_upto wf inside
  · rfl

theorem ensureCapacity_spec {c : Cell} (wf : WellFormed c) (need : Nat) (pos : 0 < need)
    (fits : need ≤ sizeMax) :
    (∃ c', ensureCapacity need c = .ok (.errAlloc, c') ∧ Unchanged c c') ∨
    ∃ c' q new, ensureCapacity need c = .ok (.ok, c') ∧ Roomy c need c' q new := by
  unfold ensureCapacity
  by_cases enough : need ≤ c.str.cap
  · obtain ⟨p, o, holds, _, terminated⟩ := wf.holds (by omega)
    refine .inr ⟨c, p, o, if_pos enough, ?_⟩
    exact
      { str := by
          rw [← holds.cap, ← holds.buf]
        holds
        room := holds.cap ▸ enough
        kept := fun i _ => by rw [holds.bytes]
        terminated
        frame := .refl c }
  · obtain ⟨newCap, chosen, covers, newFits⟩ := chooseCapacity_spec fits wf.cap_le
    simp only [if_neg enough, chosen]
    rcases growHeap_spec wf newCap (by omega) with
      refused | ⟨c', q, new, grown, resized⟩
    · exact .inl refused
    · refine .inr ⟨c', q, new, grown, ?_⟩
      have kept : ∀ i, i < c.str.cap → new.cells[i]? = c.bytes[i]? := fun i inside =>
        resized.kept i (by omega) inside
      refine ⟨by rw [resized.size, resized.str], resized.holds, by rw [resized.size]; exact covers,
        kept, ?_, resized.frame⟩
      cases wf with
      | empty buf len cap =>
          rw [len]
          exact resized.opened cap
      | owned holds inside terminated =>
          rw [kept _ (by rw [holds.cap]; exact inside), holds.bytes]
          exact terminated

/-- The allocator grants what a growth to `need` bytes asks it for, where one is needed. -/
def Grants (need : Nat) (c : Cell) : Prop :=
  c.str.cap < need → ∀ newCap, chooseCapacity c.str.cap need = .ok newCap →
    match c.str.buf with
    | none => (c.heap.malloc newCap).1.isSome
    | some p => ∀ answer heap, c.heap.realloc p newCap = .ok (answer, heap) → answer.isSome

/-- What the heap holds does not decide whether a growth is granted. -/
theorem Grants.alike {need : Nat} {c : Cell} {heap : Memory} (granted : Grants need c)
    (alike : c.heap.Alike heap) : Grants need { c with heap } := by
  intro short newCap chosen
  have given := granted short newCap chosen
  show match c.str.buf with
    | none => (heap.malloc newCap).1.isSome
    | some p => ∀ answer heap', heap.realloc p newCap = .ok (answer, heap') → answer.isSome
  cases buf : c.str.buf with
  | none =>
      rw [buf] at given
      exact alike.malloc given
  | some p =>
      rw [buf] at given
      exact fun answer heap' ran => alike.realloc given ran

/-- A growth that is granted does not fail. -/
theorem growHeap_granted {c : Cell} (wf : WellFormed c) {newCap : Nat}
    (grows : c.str.cap < newCap)
    (granted : match c.str.buf with
      | none => (c.heap.malloc newCap).1.isSome
      | some p => ∀ answer heap, c.heap.realloc p newCap = .ok (answer, heap) → answer.isSome)
    {status : Status} {c' : Cell} (ran : growHeap newCap c = .ok (status, c')) : status = .ok := by
  have pos : 0 < newCap := by omega
  cases wf with
  | empty buf len cap =>
      have owned : isOwned c.str = .ok false := by simp [isOwned, buf, cap]
      rw [buf] at granted
      rcases answered : c.heap.malloc newCap with ⟨answer, heap⟩
      rw [answered] at granted
      cases answer with
      | none => cases granted
      | some p =>
          simp only [growHeap, ensure_of grows, ok_bind, owned, expandHeap, ensure_of pos, buf,
            Option.isSome_none, ensure_of trivial, Bool.false_eq_true, if_false, allocateHeap,
            answered] at ran
          obtain ⟨heap', _, finished⟩ := bind_eq_ok.mp ran
          cases finished
          rfl
  | @owned p o holds inside terminated =>
      have owned := holds.isOwned (by omega)
      rw [holds.buf] at granted
      rcases resizeHeap_cases holds pos with
        ⟨heap', refused, _, _⟩ | ⟨new, heap', resized, _, _, _, _, _⟩
      · have asked : ∃ answer heap, c.heap.realloc p newCap = .ok (answer, heap) := by
          rcases Heap.realloc_cases holds.block newCap with ⟨h, r, _, _⟩ | ⟨_, h, r, _⟩
          · exact ⟨_, _, r⟩
          · exact ⟨_, _, r⟩
        obtain ⟨answer, heap, answered⟩ := asked
        have some := granted answer heap answered
        simp only [resizeHeap, holds.buf, nonNull, ensure_of pos, ok_bind, answered] at refused
        cases answer with
        | none => cases some
        | some q => cases refused
      · simp only [growHeap, ensure_of grows, ok_bind, owned, expandHeap, ensure_of pos, holds.buf,
          Option.isSome_some, ensure_of trivial, if_true] at ran
        rw [holds.buf] at resized
        simp only [resized, ok_bind] at ran
        cases ran
        rfl

theorem ensureCapacity_granted {c : Cell} (wf : WellFormed c) {need : Nat} (fits : need ≤ sizeMax)
    (granted : Grants need c) {status : Status} {c' : Cell}
    (ran : ensureCapacity need c = .ok (status, c')) : status = .ok := by
  unfold ensureCapacity at ran
  by_cases enough : need ≤ c.str.cap
  · rw [if_pos enough] at ran
    cases ran
    rfl
  · obtain ⟨newCap, chosen, covers, _⟩ := chooseCapacity_spec fits wf.cap_le
    simp only [if_neg enough, chosen] at ran
    exact growHeap_granted wf (by omega) (granted (by omega) newCap chosen) ran

/-- A growth that succeeds has been granted its storage. -/
theorem growHeap_grants {c : Cell} (wf : WellFormed c) {newCap : Nat} (grows : c.str.cap < newCap)
    {c' : Cell} (ran : growHeap newCap c = .ok (.ok, c')) :
    match c.str.buf with
    | none => (c.heap.malloc newCap).1.isSome
    | some p => ∀ answer heap, c.heap.realloc p newCap = .ok (answer, heap) → answer.isSome := by
  have pos : 0 < newCap := by omega
  cases wf with
  | empty buf len cap =>
      have owned : isOwned c.str = .ok false := by simp [isOwned, buf, cap]
      rw [buf]
      rcases answered : c.heap.malloc newCap with ⟨answer, heap⟩
      cases answer with
      | some p => rfl
      | none =>
          simp only [growHeap, ensure_of grows, ok_bind, owned, expandHeap, ensure_of pos, buf,
            Option.isSome_none, ensure_of trivial, Bool.false_eq_true, if_false, allocateHeap,
            answered] at ran
          cases ran
  | owned holds inside terminated =>
      have owned := holds.isOwned (by omega)
      rw [holds.buf]
      intro answer heap answered
      cases answer with
      | some q => rfl
      | none =>
          simp only [growHeap, ensure_of grows, ok_bind, owned, expandHeap, ensure_of pos, holds.buf,
            Option.isSome_some, ensure_of trivial, if_true, resizeHeap, nonNull, answered] at ran
          cases ran

/-- Room is made exactly where the allocator grants the growth. -/
theorem ensureCapacity_decides {c : Cell} (wf : WellFormed c) {need : Nat} (pos : 0 < need)
    (fits : need ≤ sizeMax) :
    (¬ Grants need c ∧ ∃ c', ensureCapacity need c = .ok (.errAlloc, c') ∧ Unchanged c c') ∨
    (Grants need c ∧ ∃ c' q new, ensureCapacity need c = .ok (.ok, c') ∧ Roomy c need c' q new) := by
  rcases ensureCapacity_spec wf need pos fits with ⟨c', refused, same⟩ | ⟨c', q, new, ran, roomy⟩
  · refine .inl ⟨fun granted => ?_, c', refused, same⟩
    cases ensureCapacity_granted wf fits granted refused
  · refine .inr ⟨fun short newCap chosen => ?_, c', q, new, ran, roomy⟩
    obtain ⟨_, chosen', covers, _⟩ := chooseCapacity_spec fits wf.cap_le
    cases chosen.symm.trans chosen'
    simp only [ensureCapacity, if_neg (Nat.not_le_of_lt short), chosen] at ran
    exact growHeap_grants wf (Nat.lt_of_lt_of_le short covers) ran

/-! Sources. -/

/-- A pointer into the string's own allocation, spare capacity included. -/
def Internal (c : Cell) (source : Source) : Prop :=
  ∃ p q, c.str.buf = some p ∧ source = .mem (some q) ∧ q.obj = p.obj ∧ p.addr ≤ q.addr ∧
    q.addr < p.addr + c.str.cap

/-- What a caller may pass as `len` borrowed bytes: nothing to read, NULL, a pointer
into the destination's own allocation, or readable bytes. -/
def Readable (c : Cell) (source : Source) (len : Nat) : Prop :=
  len = 0 ∨ source.isNull = true ∨ Internal c source ∨
    ∃ bytes, source.read c.heap len = .ok bytes

/-- The source is no part of the string's buffer. -/
def External (c : Cell) (source : Source) : Prop :=
  ∀ q, source = .mem (some q) → ¬ c.str.Designates q.obj

/-- How `str_detect_overlap` classifies a source. -/
inductive Classified (c : Cell) (source : Source) (len : Nat) : Except Status (Option Nat) → Prop
  | invalid : Classified c source len (.error .errArg)
  | outside {bytes : Bytes} (external : External c source)
      (read : source.read c.heap len = .ok bytes) : Classified c source len (.ok none)
  | inside {p : Ptr} {offset : Nat} (buf : c.str.buf = some p)
      (own : source = .mem (some (p.add offset))) (within : offset + len ≤ c.str.len + 1) :
      Classified c source len (.ok (some offset))

theorem validateInternalSourceSpan_eq {c : Cell} (wf : WellFormed c) (owned : c.str.buf.isSome)
    (offset len : Nat) (pos : 0 < len) :
    validateInternalSourceSpan c.str offset len =
      .ok (if offset + len ≤ c.str.len + 1 then .ok else .errArg) := by
  have bound := wf.len_lt
  simp only [validateInternalSourceSpan, ensure_of owned, ensure_of pos, ok_bind]
  by_cases beyond : c.str.len < offset
  · rw [if_pos beyond, if_neg (by omega)]
  · rw [if_neg beyond, sizeSub_of_le (by omega) (by omega), nulBytes,
      sizeAdd_of_le (by omega)]
    by_cases within : offset + len ≤ c.str.len + 1
    · rw [if_neg (by omega), if_pos within]
    · rw [if_pos (by omega), if_neg within]

/-- A pointer with the buffer's identity inside its allocation is found at its offset. -/
theorem findAllocationOffset_own {c : Cell} {p q : Ptr} {o : Obj UInt8} (holds : Holds c p o)
    (above : p.addr ≤ q.addr) (below : q.addr < p.addr + o.size) :
    findAllocationOffset c.str (.mem (some q)) = q.addr - p.addr := by
  have placed := c.heap.placed p.obj o holds.live
  have start := holds.start
  simp only [findAllocationOffset, holds.buf]
  rw [sizeSub_of_le above (by omega), if_pos (by rw [holds.cap]; omega)]

/-- A byte of another live object is not found in the buffer. -/
theorem findAllocationOffset_other {c : Cell} {p q : Ptr} {o other : Obj UInt8}
    (holds : Holds c p o) (distinct : q.obj ≠ p.obj) (live : c.heap.objs q.obj = some other)
    (above : other.base ≤ q.addr) (below : q.addr < other.base + other.size) :
    findAllocationOffset c.str (.mem (some q)) = npos := by
  have placed := c.heap.placed p.obj o holds.live
  have placed' := c.heap.placed q.obj other live
  have start := holds.start
  have apart := c.heap.apart q.obj p.obj other o distinct live holds.live
  simp only [findAllocationOffset, holds.buf]
  refine if_neg ?_
  rw [holds.cap]
  unfold sizeSub
  cases apart with
  | inl before =>
      -- The difference wraps around to an offset past the end of the buffer.
      rw [Nat.mod_eq_of_lt (by omega)]
      omega
  | inr after =>
      have split : q.addr + (sizeMax + 1) - p.addr = (q.addr - p.addr) + (sizeMax + 1) := by omega
      rw [split, Nat.add_mod_right, Nat.mod_eq_of_lt (by omega)]
      omega

theorem detectOverlap_spec {c : Cell} (wf : WellFormed c) {source : Source} {len : Nat}
    (given : source.isNull = false) (pos : 0 < len) (readable : Readable c source len) :
    ∃ found, detectOverlap c.str source len = .ok found ∧ Classified c source len found := by
  have outside : findAllocationOffset c.str source = npos →
      detectOverlap c.str source len = .ok (.ok none) := by
    intro unfound
    simp only [detectOverlap, ensure_of given, ensure_of pos, ok_bind, if_pos unfound]
  have foundInside : ∀ {p q : Ptr} {o : Obj UInt8}, Holds c p o → source = .mem (some q) →
      q.obj = p.obj → p.addr ≤ q.addr → q.addr < p.addr + o.size →
      ∃ found, detectOverlap c.str source len = .ok found ∧ Classified c source len found := by
    intro p q o holds designated same above below
    subst designated
    have size := holds.size_lt
    have isSome : c.str.buf.isSome := by simp [holds.buf]
    simp only [detectOverlap, ensure_of given, ensure_of pos, ok_bind]
    rw [findAllocationOffset_own holds above below, if_neg (by unfold npos; omega),
      validateInternalSourceSpan_eq wf isSome _ _ pos]
    by_cases within : q.addr - p.addr + len ≤ c.str.len + 1
    · rw [if_pos within]
      refine ⟨_, rfl, .inside holds.buf ?_ within⟩
      have sum : p.addr + (q.addr - p.addr) = q.addr := by omega
      simp only [Ptr.add, sum, ← same]
    · rw [if_neg within]
      exact ⟨_, rfl, .invalid⟩
  rcases readable with none | null | ⟨p, q, buf, designated, same, above, below⟩ | ⟨bytes, read⟩
  · omega
  · rw [given] at null
    cases null
  · cases wf with
    | empty noBuf len cap =>
        rw [noBuf] at buf
        cases buf
    | owned holds inside terminated =>
        obtain rfl : _ = p := Option.some.inj (holds.buf.symm.trans buf)
        exact foundInside holds designated same above (holds.cap ▸ below)
  · cases source with
    | array array =>
        refine ⟨.ok none, outside (by simp [findAllocationOffset]), .outside ?_ read⟩
        intro q designated
        cases designated
    | mem pointer =>
        cases pointer with
        | none => cases given
        | some q =>
            obtain ⟨other, live, above, below, _⟩ := Heap.read_eq_ok read
            cases wf with
            | empty noBuf strLen cap =>
                refine ⟨.ok none, outside (by simp [findAllocationOffset, noBuf]), .outside ?_ read⟩
                intro q' _ designated
                obtain ⟨p, buf, _⟩ := designated
                rw [noBuf] at buf
                cases buf
            | @owned p o holds inside terminated =>
                by_cases same : q.obj = p.obj
                · rw [same, holds.live] at live
                  cases live
                  have start := holds.start
                  exact foundInside holds rfl same (by omega) (by omega)
                · have unfound := findAllocationOffset_other holds same live above (by omega)
                  refine ⟨.ok none, outside unfound, .outside ?_ read⟩
                  intro q' designated own
                  cases designated
                  exact same ((holds.designates _).mp own)

end AgencC.Str
