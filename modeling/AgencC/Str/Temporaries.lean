import AgencC.Str.Outcomes

/-! Calls that take a block of their own for a while: the staged replacement, the
rendered format and the copy's scratch string. -/

set_option autoImplicit false

namespace AgencC.Str

open Library

/-- `heap` is the heap of `c` with one more block `t`, under the next identity. -/
structure Temporary (c : Cell) (t : Obj UInt8) (heap : Memory) : Prop where
  objs : heap.objs = Function.update c.heap.objs c.heap.nextId (some t)
  nextId : heap.nextId = c.heap.nextId + 1
  allocated : t.allocated = true

theorem Temporary.live {c : Cell} {t : Obj UInt8} {heap : Memory} (tmp : Temporary c t heap) :
    heap.objs c.heap.nextId = some t := by rw [tmp.objs, Function.update_self]

theorem Temporary.other {c : Cell} {t : Obj UInt8} {heap : Memory} (tmp : Temporary c t heap)
    {id : Nat} (distinct : id ≠ c.heap.nextId) : heap.objs id = c.heap.objs id := by
  rw [tmp.objs, Function.update_of_ne distinct]

/-- A live object is not the temporary one. -/
theorem Temporary.distinct (c : Cell) {id : Nat} {o : Obj UInt8} (live : c.heap.objs id = some o) :
    id ≠ c.heap.nextId := Nat.ne_of_lt (c.heap.lt_nextId live)

theorem Temporary.not_designates {c : Cell} (wf : WellFormed c) :
    ¬ c.str.Designates c.heap.nextId := fun designated =>
  Nat.lt_irrefl _ (wf.designates_lt designated)

theorem Temporary.same_block {c : Cell} {t : Obj UInt8} {heap : Memory}
    (tmp : Temporary c t heap) (wf : WellFormed c) {id : Nat} (own : c.str.Designates id) :
    heap.objs id = c.heap.objs id :=
  tmp.other (Nat.ne_of_lt (wf.designates_lt own))

theorem Temporary.wellFormed {c : Cell} {t : Obj UInt8} {heap : Memory}
    (tmp : Temporary c t heap) (wf : WellFormed c) : WellFormed { c with heap } :=
  (wf.of_same_block fun _ own => tmp.same_block wf own).1

theorem Temporary.content {c : Cell} {t : Obj UInt8} {heap : Memory}
    (tmp : Temporary c t heap) (wf : WellFormed c) :
    Cell.content { c with heap } = c.content :=
  (wf.of_same_block fun _ own => tmp.same_block wf own).2

/-- Bytes stored into the temporary block. -/
theorem Temporary.stores {c : Cell} {t : Obj UInt8} {heap heap' : Memory} {cells : Bytes}
    (tmp : Temporary c t heap) (stores : heap.Stores c.heap.nextId t cells heap') :
    Temporary c { t with cells } heap' where
  objs := by rw [stores.objs, tmp.objs, Function.update_idem]
  nextId := stores.nextId.trans tmp.nextId
  allocated := tmp.allocated

/-- What reads in the heap of `c` reads beside the temporary block. -/
theorem Temporary.read {c : Cell} {t : Obj UInt8} {heap : Memory} (tmp : Temporary c t heap)
    {source : Source} {len : Nat} {bytes : Bytes} (read : source.read c.heap len = .ok bytes) :
    source.read heap len = .ok bytes := by
  cases source with
  | array array => exact read
  | mem pointer =>
      cases pointer with
      | none => cases read
      | some q =>
          obtain ⟨o, live, _⟩ := Heap.read_eq_ok read
          rw [Source.read, Heap.read_congr (tmp.other (distinct c live))]
          exact read

/-- After an operation on the string the temporary block is still there, and
freeing it leaves a heap that differs from the first one by the operation alone. -/
theorem Temporary.release {c c' : Cell} {t : Obj UInt8} {heap : Memory} (wf : WellFormed c)
    (tmp : Temporary c t heap) (frame : Frame { c with heap } c') (wf' : WellFormed c') :
    ∃ heap', c'.heap.free (some ⟨c.heap.nextId, t.base⟩) = .ok heap' ∧
      heap'.objs = Function.update c'.heap.objs c.heap.nextId none ∧
      Frame c { c' with heap := heap' } ∧ WellFormed { c' with heap := heap' } ∧
      Cell.content { c' with heap := heap' } = c'.content := by
  have before := not_designates wf
  have after : ¬ c'.str.Designates c.heap.nextId := fun designated => by
    cases frame.fresh _ designated with
    | inl old => exact before old
    | inr beyond =>
        have next : c.heap.nextId + 1 ≤ c.heap.nextId := tmp.nextId ▸ beyond
        omega
  have live : c'.heap.objs c.heap.nextId = some t :=
    (frame.others _ before after).trans tmp.live
  refine ⟨c'.heap.erase c.heap.nextId,
    Heap.free_ok (Heap.block_ok live tmp.allocated rfl), rfl, ?_, ?_⟩
  · refine ⟨?_, ?_, ?_, ?_⟩
    · intro id old new
      show Function.update c'.heap.objs c.heap.nextId none id = c.heap.objs id
      by_cases same : id = c.heap.nextId
      · rw [same, Function.update_self, c.heap.fresh _ (Nat.le_refl _)]
      · rw [Function.update_of_ne same, frame.others id old new, tmp.other same]
    · intro id designated
      cases frame.fresh id designated with
      | inl old => exact .inl old
      | inr beyond =>
          have next : c.heap.nextId + 1 ≤ id := tmp.nextId ▸ beyond
          exact .inr (by omega)
    · intro id old new
      show Function.update c'.heap.objs c.heap.nextId none id = none
      by_cases same : id = c.heap.nextId
      · rw [same, Function.update_self]
      · rw [Function.update_of_ne same, frame.released id old new]
    · have next : heap.nextId ≤ c'.heap.nextId := frame.nextId
      have start : heap.nextId = c.heap.nextId + 1 := tmp.nextId
      show c.heap.nextId ≤ c'.heap.nextId
      omega
  · refine wf'.of_same_block fun id own => Function.update_of_ne (fun same => after ?_) _ _
    rw [← same]
    exact own

/-- Freeing the temporary block after a call that failed or went through. -/
theorem Temporary.release_unchanged {c c' : Cell} {t : Obj UInt8} {heap : Memory}
    (wf : WellFormed c) (tmp : Temporary c t heap) (same : Unchanged { c with heap } c') :
    ∃ heap', c'.heap.free (some ⟨c.heap.nextId, t.base⟩) = .ok heap' ∧
      Unchanged c { c' with heap := heap' } := by
  obtain ⟨heap', freed, objs, frame, _⟩ :=
    tmp.release wf same.frame (same.wellFormed (tmp.wellFormed wf))
  refine ⟨heap', freed, same.str, ?_, frame.nextId⟩
  show heap'.objs = c.heap.objs
  have before : c'.heap.objs = heap.objs := same.objs
  rw [objs, before, tmp.objs, Function.update_idem,
    ← c.heap.fresh c.heap.nextId (Nat.le_refl _), Function.update_eq_self]

theorem Temporary.release_outcome {c c' : Cell} {t : Obj UInt8} {heap : Memory} {want : Bytes}
    {status : Status} (wf : WellFormed c) (tmp : Temporary c t heap)
    (outcome : Outcome { c with heap } want status c') :
    ∃ heap', c'.heap.free (some ⟨c.heap.nextId, t.base⟩) = .ok heap' ∧
      Outcome c want status { c' with heap := heap' } := by
  obtain ⟨heap', freed, objs, frame, wf', content⟩ :=
    tmp.release wf outcome.frame outcome.wellFormed
  refine ⟨heap', freed, wf', frame, ?_, ?_⟩
  · intro ok
    obtain ⟨status, want⟩ := outcome.success ok
    exact ⟨status, content.trans want⟩
  · intro failed
    obtain ⟨str, before⟩ := outcome.failure failed
    refine ⟨str, ?_⟩
    show heap'.objs = c.heap.objs
    have before : c'.heap.objs = heap.objs := before
    rw [objs, before, tmp.objs, Function.update_idem,
      ← c.heap.fresh c.heap.nextId (Nat.le_refl _), Function.update_eq_self]

/-- A new block for an operation on `c`. -/
theorem allocateHeap_temporary (c : Cell) (bytes : Nat) (pos : 0 < bytes) :
    (∃ heap, allocateHeap bytes c.heap = .ok (.error .errAlloc, heap) ∧
      Unchanged c { c with heap }) ∨
    ∃ t heap, allocateHeap bytes c.heap = .ok (.ok ⟨c.heap.nextId, t.base⟩, heap) ∧
      t.size = bytes ∧ Temporary c t heap := by
  rcases allocateHeap_cases pos c.heap with
    ⟨heap, refused, objs, nextId⟩ | ⟨t, heap, granted, allocated, size, objs, nextId⟩
  · exact .inl ⟨heap, refused, rfl, objs, Nat.le_of_eq nextId.symm⟩
  · exact .inr ⟨t, heap, granted, size, objs, nextId, allocated⟩

/-- Filling the temporary block from its start. -/
theorem Temporary.write {c : Cell} {t : Obj UInt8} {heap : Memory} (tmp : Temporary c t heap)
    (new : Bytes) (fits : new.length ≤ t.size) :
    ∃ heap' cells, heap.write ⟨c.heap.nextId, t.base⟩ new = .ok heap' ∧
      Temporary c { t with cells } heap' ∧ cells.length = t.size ∧
      cells.take new.length = new := by
  obtain ⟨heap', wrote, stores⟩ := Heap.write_ok ⟨c.heap.nextId, t.base⟩ new
    tmp.live (Nat.le_refl _) (by show t.base + new.length ≤ t.base + t.size; omega)
  have distance : t.base - t.base = 0 := Nat.sub_self _
  simp only [distance] at stores
  refine ⟨heap', _, wrote, tmp.stores stores, stores.size, ?_⟩
  have taken := take_overwrite t.cells new (Nat.zero_le t.cells.length)
  rwa [Nat.zero_add] at taken

/-- Reading the temporary block from its start. -/
theorem Temporary.read_start {c : Cell} {t : Obj UInt8} {heap : Memory}
    (tmp : Temporary c t heap) (len : Nat) (inside : len ≤ t.size) :
    heap.read ⟨c.heap.nextId, t.base⟩ len = .ok (t.cells.take len) := by
  rw [Heap.read_ok (p := ⟨c.heap.nextId, t.base⟩) tmp.live (Nat.le_refl _)
    (by show t.base + len ≤ t.base + t.size; omega)]
  simp

/-! Replacement. -/

theorem Borrowed.isValid_of {view : Borrowed} (given : 0 < view.len → view.ptr.isNull = false) :
    view.isValid = true := by
  by_cases empty : view.len = 0
  · simp [Borrowed.isValid, empty]
  · simp [Borrowed.isValid, given (by omega)]

/-- The staged replacement: the source itself, or a copy of its bytes. -/
inductive StagedFor (c : Cell) (source : Borrowed) : Except Status Staged → Memory → Prop
  | failed {status : Status} {heap : Memory} (failure : status ≠ .ok)
      (same : Unchanged c { c with heap }) : StagedFor c source (.error status) heap
  | borrowed {bytes : Bytes} (external : 0 < source.len → External c source.ptr)
      (length : bytes.length = source.len)
      (read : 0 < source.len → source.ptr.read c.heap source.len = .ok bytes) :
      StagedFor c source (.ok { view := source, ownedBuf := none }) c.heap
  | copied {bytes : Bytes} {t : Obj UInt8} {heap : Memory} (tmp : Temporary c t heap)
      (length : bytes.length = source.len)
      (old : source.ptr.read c.heap source.len = .ok bytes)
      (read : heap.read ⟨c.heap.nextId, t.base⟩ source.len = .ok bytes) :
      StagedFor c source
        (.ok { view := { source with ptr := .mem (some ⟨c.heap.nextId, t.base⟩) }
               ownedBuf := some ⟨c.heap.nextId, t.base⟩ }) heap

theorem stageReplacement_spec {c : Cell} (wf : WellFormed c) {source : Borrowed}
    (given : 0 < source.len → source.ptr.isNull = false)
    (readable : Readable c source.ptr source.len) :
    ∃ staged heap, stageReplacement source c = .ok (staged, heap) ∧
      StagedFor c source staged heap := by
  have valid : source.isValid = true := Borrowed.isValid_of given
  simp only [stageReplacement, ensure_of valid, ok_bind]
  by_cases empty : source.len = 0
  · rw [if_pos empty]
    have nothing : source.len = ([] : Bytes).length := empty
    exact ⟨_, _, rfl, .borrowed (fun pos => by omega) nothing.symm (fun pos => by omega)⟩
  · have pos : 0 < source.len := by omega
    obtain ⟨found, detected, classified⟩ := detectOverlap_spec wf (given pos) pos readable
    simp only [if_neg empty, detected, ok_bind]
    cases classified with
    | invalid => exact ⟨_, _, rfl, .failed (by decide) (.refl c)⟩
    | outside external read =>
        exact ⟨_, _, rfl, .borrowed (fun _ => external) (Source.length_of_read read)
          (fun _ => read)⟩
    | @inside p offset buf own within =>
        rcases allocateHeap_temporary c source.len pos with
          ⟨heap, refused, same⟩ | ⟨t, heap, granted, size, tmp⟩
        · simp only [refused, ok_bind]
          exact ⟨_, _, rfl, .failed (by decide) same⟩
        · have old : source.ptr.read c.heap source.len = .ok (source.ptr.bytes c.heap source.len) := by
            cases wf with
            | empty noBuf len cap =>
                rw [noBuf] at buf
                cases buf
            | @owned p' o holds inside terminated =>
                obtain rfl : p' = p := Option.some.inj (holds.buf.symm.trans buf)
                have read : source.ptr.read c.heap source.len =
                    .ok ((o.cells.drop offset).take source.len) := by
                  rw [own]
                  exact holds.read offset source.len (by omega)
                rw [Source.bytes_of_read read, read]
          have length := Source.length_of_read old
          obtain ⟨heap', cells, wrote, tmp', sized, placed⟩ :=
            tmp.write (source.ptr.bytes c.heap source.len) (by omega)
          have moved : moveBytes ⟨c.heap.nextId, t.base⟩ source.ptr source.len heap =
              .ok heap' := by
            rw [moveBytes, if_neg empty, ensure_of (given pos), ok_bind, tmp.read old, ok_bind,
              wrote]
          simp only [granted, ok_bind, moved]
          refine ⟨_, _, rfl, .copied (t := { t with cells }) tmp' length old ?_⟩
          have start := tmp'.read_start source.len
            (by show source.len ≤ cells.length; omega)
          rw [length] at placed
          rw [start]
          exact congrArg Except.ok placed

theorem replaceEqualSpan_spec {c : Cell} (wf : WellFormed c) (ok : c.str.status = .ok)
    {replacement : Borrowed} {idx : Nat} (given : replacement.ptr.isNull = false)
    (pos : 0 < replacement.len) (span : idx + replacement.len ≤ c.str.len)
    (readable : Readable c replacement.ptr replacement.len) :
    (∃ status, replaceEqualSpan idx replacement c = .ok (status, c) ∧ status ≠ .ok) ∨
    ∃ c', replaceEqualSpan idx replacement c = .ok (.ok, c') ∧
      Outcome c (c.content.take idx ++ replacement.ptr.bytes c.heap replacement.len ++
        c.content.drop (idx + replacement.len)) .ok c' := by
  have bound := wf.len_lt
  have within : idx ≤ c.str.len := by omega
  have fits : replacement.len ≤ sizeSub c.str.len idx := by
    rw [sizeSub_of_le (by omega) (by omega)]
    omega
  obtain ⟨p, o, holds, inside, terminated⟩ := wf.holds_of_len (by omega)
  obtain ⟨found, detected, classified⟩ := detectOverlap_spec wf given pos readable
  simp only [replaceEqualSpan, ensure_of within, ensure_of fits, ensure_of pos, ok_bind, detected]
  have commit : ∀ (source : Source) {bytes : Bytes},
      replacement.ptr.read c.heap replacement.len = .ok bytes →
      source.read c.heap replacement.len = .ok bytes →
      ∃ c', writeContent idx source replacement.len c = .ok c' ∧
        Outcome c (c.content.take idx ++ replacement.ptr.bytes c.heap replacement.len ++
          c.content.drop (idx + replacement.len)) .ok c' := by
    intro source bytes old read
    have length := Source.length_of_read old
    rw [Source.bytes_of_read old]
    rw [← length] at read span ⊢
    obtain ⟨c', wrote, committed⟩ := writeContent_spec holds inside terminated span read
    exact ⟨c', wrote, committed.outcome holds ok⟩
  cases classified with
  | invalid => exact .inl ⟨_, rfl, by decide⟩
  | outside external read =>
      obtain ⟨c', wrote, outcome⟩ := commit _ read read
      exact .inr ⟨c', by simp [wrote], outcome⟩
  | @inside p' offset buf own internal =>
      obtain rfl : p = p' := Option.some.inj (holds.buf.symm.trans buf)
      have read := holds.read offset replacement.len (by omega)
      obtain ⟨c', wrote, outcome⟩ := commit (c.str.at offset)
        (by rw [own]; exact read) (holds.read_at (by omega))
      exact .inr ⟨c', by simp [wrote], outcome⟩

/-- The replacement's bytes once staged: they read the same after growth and after
the tail has been shifted. -/
theorem replaceResizedSpan_spec {c : Cell} (wf : WellFormed c) (ok : c.str.status = .ok)
    {replacement : Borrowed} {idx removeLen : Nat}
    (given : 0 < replacement.len → replacement.ptr.isNull = false)
    (span : idx + removeLen ≤ c.str.len)
    (size : c.str.len - removeLen + replacement.len ≤ sizeMax)
    (readable : Readable c replacement.ptr replacement.len) :
    (∃ status c', replaceResizedSpan idx removeLen (c.str.len - removeLen + replacement.len)
        replacement c = .ok (status, c') ∧ status ≠ .ok ∧ Unchanged c c') ∨
    ∃ c', replaceResizedSpan idx removeLen (c.str.len - removeLen + replacement.len)
        replacement c = .ok (.ok, c') ∧
      Outcome c (c.content.take idx ++ replacement.ptr.bytes c.heap replacement.len ++
        c.content.drop (idx + removeLen)) .ok c' := by
  simp only [replaceResizedSpan, calculateCapacity_eq size, Nat.zero_add]
  by_cases fits : c.str.len - removeLen + replacement.len + 1 ≤ sizeMax
  · rw [if_pos fits]
    obtain ⟨staged, heap, stage, stagedFor⟩ := stageReplacement_spec wf given readable
    simp only [stage, ok_bind]
    cases stagedFor with
    | failed failure same => exact .inl ⟨_, _, rfl, failure, same⟩
    | @borrowed bytes external length read =>
        rcases ensureCapacity_spec wf (c.str.len - removeLen + replacement.len + 1)
            (by omega) fits with ⟨c', refused, same⟩ | ⟨c', q, new, ensured, roomy⟩
        · simp only [refused, ok_bind, releaseStagedView, Heap.free]
          exact .inl ⟨_, _, rfl, by decide, same⟩
        · have room := roomy.room
          obtain ⟨c'', wrote, committed⟩ := commitReplacement_spec roomy.holds
            (by rw [roomy.len]; exact roomy.inside) replacement length.symm
            (Borrowed.isValid_of given) (by rw [roomy.len]; exact span) (by rw [roomy.len]; omega)
            (fun heap stores pos => by
              have pos : 0 < replacement.len := by omega
              rw [length]
              exact ((external pos).frame (read pos) roomy.frame).read_stores roomy.holds
                ((external pos).read_frame (read pos) roomy.frame) stores)
          simp only [ensured, ok_bind, wrote, releaseStagedView, Heap.free]
          have denoted : replacement.ptr.bytes c.heap replacement.len = bytes := by
            by_cases empty : replacement.len = 0
            · rw [empty, Source.bytes_zero]
              exact (List.length_eq_zero_iff.mp (length.trans empty)).symm
            · exact Source.bytes_of_read (read (by omega))
          rw [roomy.content wf] at committed
          rw [denoted]
          exact .inr ⟨_, rfl, roomy.outcome committed ok⟩
    | @copied bytes t heap tmp length old read =>
        have staged : (Source.mem (some ⟨c.heap.nextId, t.base⟩)).read heap replacement.len =
            .ok bytes := read
        have external : External { c with heap } (.mem (some ⟨c.heap.nextId, t.base⟩)) := by
          rintro q designated own
          cases designated
          exact Temporary.not_designates wf own
        rcases ensureCapacity_spec (tmp.wellFormed wf)
            (c.str.len - removeLen + replacement.len + 1) (by omega) fits with
          ⟨c', refused, same⟩ | ⟨c', q, new, ensured, roomy⟩
        · obtain ⟨heap', freed, same⟩ := tmp.release_unchanged wf same
          simp only [refused, ok_bind, releaseStagedView, freed]
          exact .inl ⟨_, _, rfl, by decide, same⟩
        · have room := roomy.room
          have len : c'.str.len = c.str.len := roomy.len
          obtain ⟨c'', wrote, committed⟩ := commitReplacement_spec roomy.holds
            (by rw [len]; exact roomy.inside)
            { replacement with ptr := .mem (some ⟨c.heap.nextId, t.base⟩) }
            length.symm (Borrowed.isValid_of fun _ => rfl) (by rw [len]; exact span)
            (by rw [len]; omega)
            (fun heap stores _ => by
              rw [length]
              exact (external.frame staged roomy.frame).read_stores roomy.holds
                (external.read_frame staged roomy.frame) stores)
          rw [roomy.content (tmp.wellFormed wf), tmp.content wf] at committed
          obtain ⟨heap', freed, outcome⟩ := tmp.release_outcome wf (roomy.outcome committed ok)
          simp only [ensured, ok_bind, wrote, releaseStagedView, freed,
            Source.bytes_of_read old]
          exact .inr ⟨_, rfl, outcome⟩
  · rw [if_neg fits]
    exact .inl ⟨_, _, rfl, by decide, .refl c⟩

theorem applyReplacement_spec {c : Cell} (wf : WellFormed c) (ok : c.str.status = .ok)
    {replacement : Borrowed} {idx removeLen : Nat}
    (given : 0 < replacement.len → replacement.ptr.isNull = false)
    (size : replacement.len ≤ sizeMax) (span : idx + removeLen ≤ c.str.len)
    (nonempty : ¬ (removeLen = 0 ∧ replacement.len = 0))
    (readable : Readable c replacement.ptr replacement.len) :
    (∃ status c', applyReplacement idx removeLen replacement c = .ok (status, c') ∧
      status ≠ .ok ∧ Unchanged c c') ∨
    ∃ c', applyReplacement idx removeLen replacement c = .ok (.ok, c') ∧
      Outcome c (c.content.take idx ++ replacement.ptr.bytes c.heap replacement.len ++
        c.content.drop (idx + removeLen)) .ok c' := by
  have bound := wf.len_lt
  have within : idx ≤ c.str.len := by omega
  have fits : removeLen ≤ sizeSub c.str.len idx := by
    rw [sizeSub_of_le (by omega) (by omega)]
    omega
  have removed : removeLen ≤ c.str.len := by omega
  simp only [applyReplacement, ensure_of (Borrowed.isValid_of given), ensure_of within,
    ensure_of fits, ok_bind]
  by_cases equal : removeLen = replacement.len
  · subst equal
    rw [if_pos rfl]
    rcases replaceEqualSpan_spec wf ok (given (by omega)) (by omega) span readable with
      ⟨status, rejected, failure⟩ | replaced
    · exact .inl ⟨status, c, rejected, failure, .refl c⟩
    · exact .inr replaced
  · have kept : sizeSub c.str.len removeLen = c.str.len - removeLen :=
      sizeSub_of_le removed (by omega)
    simp only [if_neg equal, calculateReplacementLength, ensure_of removed, ok_bind, kept,
      addSize_eq size]
    by_cases sum : c.str.len - removeLen + replacement.len ≤ sizeMax
    · simp only [if_pos sum]
      exact replaceResizedSpan_spec wf ok given span sum readable
    · simp only [if_neg sum]
      exact .inl ⟨_, _, rfl, by decide, .refl c⟩

theorem replaceView_spec {c : Cell} (wf : WellFormed c) (ok : c.str.status = .ok)
    (idx removeLen : Nat) (replacement : Borrowed) (size : replacement.len ≤ sizeMax)
    (readable : Readable c replacement.ptr replacement.len) :
    ∃ status c', replaceView idx removeLen replacement c = .ok (status, c') ∧
      Outcome c (c.content.take idx ++ replacement.ptr.bytes c.heap replacement.len ++
        c.content.drop (idx + removeLen)) status c' := by
  rcases beginMutation_cases ok replacement.ptr replacement.len with ⟨begun, given⟩ | rejected
  · simp only [replaceView, begun, ok_bind, validateSpan_eq wf]
    by_cases span : idx + removeLen ≤ c.str.len
    · simp only [if_pos span]
      by_cases nothing : removeLen = 0 ∧ replacement.len = 0
      · rw [if_pos nothing, nothing.1, nothing.2, Source.bytes_zero, List.append_nil, Nat.add_zero,
          List.take_append_drop]
        exact ⟨.ok, c, rfl, .refl wf ok⟩
      · rw [if_neg nothing]
        rcases applyReplacement_spec wf ok given size span nothing readable with
          ⟨status, c', failed, failure, same⟩ | ⟨c', replaced, outcome⟩
        · simp only [failed, ok_bind, recordStatus_failed _ failure]
          exact ⟨_, _, rfl, same.outcome wf _ failure⟩
        · simp only [replaced, ok_bind, recordStatus_ok]
          exact ⟨_, _, rfl, outcome⟩
    · simp only [if_neg span, recordFailure_ok .errRange (by decide)]
      exact ⟨_, _, rfl, (Unchanged.refl c).outcome wf _ (by decide)⟩
  · simp only [replaceView, rejected, ok_bind]
    exact ⟨_, _, rfl, (Unchanged.refl c).outcome wf _ (by decide)⟩

end AgencC.Str
