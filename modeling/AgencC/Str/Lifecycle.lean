import AgencC.Str.Text

/-! Releasing, shrinking, copying, moving and detaching. -/

set_option autoImplicit false

namespace AgencC.Str

open Library

theorem empty_wellFormed (heap : Memory) : WellFormed { str := .empty, heap } :=
  .empty rfl rfl rfl

theorem empty_not_designates (id : Nat) : ¬ StrT.empty.Designates id := by
  rintro ⟨p, buf, _⟩
  cases buf

/-- A string that owns nothing becomes another that owns nothing. -/
theorem Frame.of_unowned {c : Cell} (buf : c.str.buf = none) :
    Frame c { c with str := .empty } where
  others _ _ _ := rfl
  fresh id designated := absurd designated (empty_not_designates id)
  released id designated _ := by
    obtain ⟨p, some, _⟩ := designated
    rw [buf] at some
    cases some
  nextId := Nat.le_refl _

/-- Freeing the buffer of a string that becomes empty. -/
theorem Holds.free {c : Cell} {p : Ptr} {o : Obj UInt8} (holds : Holds c p o) :
    c.heap.free c.str.buf = .ok (c.heap.erase p.obj) ∧
      Frame c { str := .empty, heap := c.heap.erase p.obj } := by
  refine ⟨by rw [holds.buf]; exact Heap.free_ok holds.block, ?_, ?_, ?_, Nat.le_refl _⟩
  · intro id old _
    exact Function.update_of_ne (fun same => old ((holds.designates id).mpr same)) _ _
  · exact fun id designated => absurd designated (empty_not_designates id)
  · intro id old _
    obtain rfl := (holds.designates id).mp old
    exact Function.update_self _ _ _

theorem deinit_spec {c : Cell} (wf : WellFormed c) :
    ∃ c', deinit c = .ok c' ∧ c'.str = .empty ∧ Frame c c' := by
  cases wf with
  | empty buf len cap =>
      refine ⟨{ c with str := .empty }, ?_, rfl, .of_unowned buf⟩
      simp [deinit, isOwned, buf, cap, StrT.reset]
  | owned holds inside terminated =>
      obtain ⟨freed, frame⟩ := holds.free
      refine ⟨_, ?_, rfl, frame⟩
      simp only [deinit, holds.isOwned (by omega), ok_bind, if_true, freed, StrT.reset]

theorem clearError_wellFormed {c : Cell} (wf : WellFormed c) : WellFormed (clearError c) :=
  wf.withStatus .ok

theorem clear_spec {c : Cell} (wf : WellFormed c) :
    ∃ c', clear c = .ok c' ∧ WellFormed c' ∧ Frame c c' ∧ c'.content = [] ∧
      c'.str.status = .ok := by
  obtain ⟨c', cleared, wf', frame, content, status⟩ :=
    clearContent_spec (clearError_wellFormed wf)
  exact ⟨c', cleared, wf', frame.congr rfl rfl, content, status⟩

theorem shrinkToFit_spec {c : Cell} (wf : WellFormed c) (ok : c.str.status = .ok) :
    ∃ status c', shrinkToFit c = .ok (status, c') ∧ Outcome c c.content status c' := by
  simp only [shrinkToFit, validateMutation, ok]
  by_cases none : c.str.cap = 0
  · rw [if_pos none]
    exact ⟨.ok, c, rfl, .refl wf ok⟩
  · obtain ⟨p, o, holds, inside, terminated⟩ := wf.holds (by omega)
    have size := holds.size_lt
    rw [if_neg none]
    by_cases empty : c.str.len = 0
    · obtain ⟨freed, frame⟩ := holds.free
      simp only [if_pos empty, discardHeap, ensure_of empty, holds.isOwned (by omega), ok_bind,
        freed]
      have content : c.content = [] := by rw [Cell.content, empty, List.take_zero]
      exact ⟨_, _, rfl,
        { wellFormed := .empty rfl rfl rfl
          frame
          success := fun _ => ⟨rfl, content.symm⟩
          failure := fun failed => absurd rfl failed }⟩
    · have sum : c.str.len + 1 ≤ sizeMax := by omega
      have isSome : c.str.buf.isSome := by simp [holds.buf]
      have pos : 0 < c.str.len + 1 := by omega
      have exactCap : addSize c.str.len nulBytes = .ok (c.str.len + 1) := by
        rw [addSize_eq (by decide), nulBytes, if_pos sum]
      simp only [if_neg empty, exactCap, shrinkHeap, ensure_of isSome, ensure_of pos, ok_bind]
      by_cases minimal : c.str.len + 1 = c.str.cap
      · rw [if_pos minimal]
        exact ⟨_, _, rfl, .refl wf ok⟩
      · rw [if_neg minimal]
        rcases resizeHeap_cases holds pos with
          ⟨heap', refused, objs, nextId⟩ |
          ⟨new, heap', granted, allocated, sized, kept, objs, nextId⟩
        · have same : Unchanged c { c with heap := heap' } :=
            ⟨rfl, objs, Nat.le_of_eq nextId.symm⟩
          simp only [refused, ok_bind, recordStatus_failed .errAlloc (by decide)]
          exact ⟨_, _, rfl, same.outcome wf _ (by decide)⟩
        · have resized := Resized.of_realloc holds (by omega) allocated sized kept objs nextId
          have prefix_kept : ∀ i, i < c.str.len + 1 → new.cells[i]? = o.cells[i]? :=
            fun i within => kept i within (by omega)
          have terminated' : new.cells[c.str.len]? = some 0 := by
            rw [prefix_kept _ (Nat.lt_succ_self _)]
            exact terminated
          simp only [granted, ok_bind, recordStatus_ok]
          refine ⟨_, _, rfl,
            { wellFormed := .owned resized.holds (by show c.str.len < new.size; omega) terminated'
              frame := resized.frame
              success := fun _ => ⟨ok, ?_⟩
              failure := fun failed => absurd rfl failed }⟩
          rw [← resized.holds.take_len, ← holds.take_len]
          refine List.ext_getElem? fun i => ?_
          rw [List.getElem?_take, List.getElem?_take]
          split
          · rename_i within
            have within : i < c.str.len := within
            exact prefix_kept i (by omega)
          · rfl

/-- The bytes `str_copy` reads from its source. -/
theorem cstr_read {s : StrT} {heap : Memory} (wf : WellFormed { str := s, heap }) :
    (0 < s.len → (cstr s).isNull = false) ∧ (s.len = 0 ∨
      (cstr s).read heap s.len = .ok (Cell.content { str := s, heap })) := by
  cases wf with
  | empty buf len cap => exact ⟨fun pos => absurd pos (by rw [len]; exact Nat.lt_irrefl 0), .inl len⟩
  | @owned p o holds inside terminated =>
      have buf : s.buf = some p := holds.buf
      have within : s.len < o.size := inside
      refine ⟨fun _ => by rw [cstr, buf]; rfl, .inr ?_⟩
      rw [cstr, buf]
      have read := holds.read 0 s.len (by omega)
      rw [List.drop_zero] at read
      rw [← holds.take_len]
      exact read

theorem copy_spec {c : Cell} (wf : WellFormed c) (ok : c.str.status = .ok) {s : StrT}
    (source : WellFormed { c with str := s }) :
    ∃ status c', copy (.other s) c = .ok (status, c') ∧
      Outcome c (Cell.content { c with str := s }) status c' := by
  simp only [copy, validateMutation, ok]
  obtain ⟨given, read⟩ := cstr_read source
  have readable : Readable { str := .empty, heap := c.heap } (cstr s) s.len := by
    cases read with
    | inl empty => exact .inl empty
    | inr read => exact .inr (.inr (.inr ⟨_, read⟩))
  have bound : s.len < sizeMax := source.len_lt
  obtain ⟨status, scratch, run, outcome⟩ :=
    setValidSpan_spec (empty_wellFormed c.heap) rfl given (Nat.le_of_lt bound) readable
  have denoted : (cstr s).bytes c.heap s.len = Cell.content { c with str := s } := by
    cases read with
    | inl empty =>
        rw [empty, Source.bytes_zero, Cell.content, empty, List.take_zero]
    | inr read => exact Source.bytes_of_read read
  rw [denoted] at outcome
  -- The destination keeps its block while the scratch string gets one of its own.
  have kept : ∀ id, c.str.Designates id → ¬ scratch.str.Designates id →
      scratch.heap.objs id = c.heap.objs id := fun id _ other =>
    outcome.frame.others id (empty_not_designates id) other
  have apart : ∀ id, c.str.Designates id → ¬ scratch.str.Designates id := by
    intro id designated own
    cases outcome.frame.fresh id own with
    | inl old => exact empty_not_designates id old
    | inr beyond => exact absurd (wf.designates_lt designated) (Nat.not_lt.mpr beyond)
  have wf' : WellFormed { c with heap := scratch.heap } :=
    (wf.of_same_block fun id own => kept id own (apart id own)).1
  cases result : status with
  | ok =>
      subst result
      obtain ⟨c', released, str, frame⟩ := deinit_spec wf'
      obtain ⟨scratchOk, content⟩ := outcome.success rfl
      simp only [run, ok_bind, move, released]
      have others : ∀ id, ¬ c.str.Designates id → c'.heap.objs id = scratch.heap.objs id :=
        fun id other => frame.others id other (by rw [str]; exact empty_not_designates id)
      have moved : ∀ id, scratch.str.Designates id → c'.heap.objs id = scratch.heap.objs id :=
        fun id own => others id fun designated => apart id designated own
      obtain ⟨placed, same⟩ := outcome.wellFormed.of_same_block moved
      refine ⟨_, _, rfl, placed, ⟨?_, ?_, ?_, ?_⟩, fun _ => ⟨scratchOk, same.trans content⟩,
        fun failed => absurd rfl failed⟩
      · intro id old new
        exact (others id old).trans (outcome.frame.others id (empty_not_designates id) new)
      · intro id own
        cases outcome.frame.fresh id own with
        | inl old => exact absurd old (empty_not_designates id)
        | inr beyond => exact .inr beyond
      · intro id old _
        exact frame.released id old (by rw [str]; exact empty_not_designates id)
      · exact Nat.le_trans outcome.frame.nextId frame.nextId
  | errArg | errAlloc | errRange | errOverflow | errFmt =>
      subst result
      obtain ⟨str, objs⟩ := outcome.failure (by decide)
      have buf : scratch.str.buf = none := by rw [str]; rfl
      have cap : scratch.str.cap = 0 := by rw [str]; rfl
      have same : Unchanged c { c with heap := scratch.heap } :=
        ⟨rfl, objs, outcome.frame.nextId⟩
      simp only [run, ok_bind, deinit, isOwned, buf, cap]
      refine ⟨_, _, rfl, same.outcome wf _ (by decide)⟩

/-- `str_detach` hands out the buffer, or a new one for an empty string; a refused
one is recorded. -/
theorem detach_spec {c : Cell} (wf : WellFormed c) :
    (∃ p o, detach c = .ok (some p, { c with str := .empty }) ∧ Holds c p o) ∨
    (∃ t heap, detach c = .ok (some ⟨c.heap.nextId, t.base⟩, { str := .empty, heap }) ∧
      c.str.buf = none ∧ Temporary c t heap) ∨
    ∃ c', detach c = .ok (none, { c' with str := { c'.str with status := .errAlloc } }) ∧
      Unchanged c c' := by
  cases wf with
  | empty buf len cap =>
      have owned : isOwned c.str = .ok false := by simp [isOwned, buf, cap]
      simp only [detach, owned, ok_bind, Bool.false_eq_true, if_false, allocateEmptyBuffer]
      rcases allocateHeap_temporary c nulBytes (by decide) with
        ⟨heap, refused, same⟩ | ⟨t, heap, granted, size, tmp⟩
      · simp only [refused, ok_bind, recordFailure_ok .errAlloc (by decide)]
        exact .inr (.inr ⟨_, rfl, same⟩)
      · obtain ⟨heap', cells, wrote, tmp', _, _⟩ := tmp.write [0]
          (by rw [size]; decide)
        simp only [granted, ok_bind, wrote]
        exact .inr (.inl ⟨{ t with cells }, heap', rfl, buf, tmp'⟩)
  | @owned p o holds inside terminated =>
      refine .inl ⟨p, o, ?_, holds⟩
      simp only [detach, holds.isOwned (by omega), ok_bind, if_true, holds.buf, StrT.reset]

end AgencC.Str
