import AgencC.Str.Commit

/-! What each mutating call does to a string whose status is OK: the edit of its
content, or a recorded failure that leaves the rest alone. -/

set_option autoImplicit false

namespace AgencC.Str

open Library

/-- The bytes a source denotes before a call; none when they are not readable. -/
def Source.bytes (heap : Memory) (len : Nat) (source : Source) : Bytes :=
  match source.read heap len with
  | .ok bytes => bytes
  | .error _ => []

theorem Source.bytes_of_read {heap : Memory} {len : Nat} {source : Source} {bytes : Bytes}
    (read : source.read heap len = .ok bytes) : source.bytes heap len = bytes := by
  rw [Source.bytes, read]

theorem Source.length_of_read {heap : Memory} {len : Nat} {source : Source} {bytes : Bytes}
    (read : source.read heap len = .ok bytes) : bytes.length = len := by
  cases source with
  | mem pointer =>
      cases pointer with
      | none => cases read
      | some p => exact Heap.length_of_read read
  | array array =>
      simp only [Source.read] at read
      split at read
      · cases read
        rw [List.length_take]
        omega
      · cases read

theorem Source.bytes_zero (heap : Memory) (source : Source) : source.bytes heap 0 = [] := by
  cases read : source.read heap 0 with
  | error fault => rw [Source.bytes, read]
  | ok bytes =>
      rw [Source.bytes_of_read read]
      exact List.length_eq_zero_iff.mp (Source.length_of_read read)

/-- A source outside the buffer reads the same after the string's storage moved. -/
theorem External.read_frame {c c' : Cell} {source : Source} {len : Nat} {bytes : Bytes}
    (external : External c source) (read : source.read c.heap len = .ok bytes)
    (frame : Frame c c') : source.read c'.heap len = .ok bytes := by
  cases source with
  | array array => exact read
  | mem pointer =>
      cases pointer with
      | none => cases read
      | some q =>
          have own := external q rfl
          obtain ⟨o, live, _⟩ := Heap.read_eq_ok read
          have other : ¬ c'.str.Designates q.obj := fun designated => by
            cases frame.fresh q.obj designated with
            | inl old => exact own old
            | inr beyond => exact absurd (c.heap.lt_nextId live) (Nat.not_lt.mpr beyond)
          rw [Source.read, Heap.read_congr (frame.others q.obj own other)]
          exact read

/-- An internal span reads the same in the block that replaced the buffer. -/
theorem Roomy.read_at {c c' : Cell} {need : Nat} {q : Ptr} {new : Obj UInt8} (wf : WellFormed c)
    (roomy : Roomy c need c' q new) {p : Ptr} (buf : c.str.buf = some p) {offset len : Nat}
    (within : offset + len ≤ c.str.len + 1) :
    ∃ bytes, (Source.mem (some (p.add offset))).read c.heap len = .ok bytes ∧
      (c'.str.at offset).read c'.heap len = .ok bytes ∧
      bytes = (new.cells.drop offset).take len := by
  have inside := roomy.inside
  refine ⟨_, ?_, roomy.holds.read_at (by omega), rfl⟩
  cases wf with
  | empty noBuf strLen cap =>
      rw [noBuf] at buf
      cases buf
  | owned holds oldInside terminated =>
      obtain rfl : _ = p := Option.some.inj (holds.buf.symm.trans buf)
      rw [Source.read, holds.read _ _ (by omega)]
      congr 1
      refine List.ext_getElem? fun i => ?_
      rw [List.getElem?_take, List.getElem?_take, List.getElem?_drop, List.getElem?_drop]
      split
      · rw [roomy.kept _ (by rw [holds.cap]; omega), holds.bytes]
      · rfl

/-- What `str_prepare_write` reaches: nothing done, or room for `need` bytes and a
source that still reads what it did. -/
inductive PreparedWrite (c : Cell) (source : Source) (len need : Nat) :
    Except Status Source → Cell → Prop
  | failed {status : Status} {c' : Cell} (failure : status ≠ .ok) (same : Unchanged c c') :
      PreparedWrite c source len need (.error status) c'
  | ready {ready : Source} {c' : Cell} {q : Ptr} {new : Obj UInt8} {bytes : Bytes}
      (roomy : Roomy c need c' q new) (old : source.read c.heap len = .ok bytes)
      (read : ready.read c'.heap len = .ok bytes) :
      PreparedWrite c source len need (.ok ready) c'

theorem prepareWrite_spec {c : Cell} (wf : WellFormed c) {source : Source} {len : Nat}
    (baseLen : Nat) (given : source.isNull = false) (pos : 0 < len) (size : len ≤ sizeMax)
    (readable : Readable c source len) :
    ∃ prepared c', prepareWrite source len baseLen c = .ok (prepared, c') ∧
      PreparedWrite c source len (baseLen + len + 1) prepared c' := by
  simp only [prepareWrite, ensure_of given, ensure_of pos, ok_bind, calculateCapacity_eq size]
  by_cases fits : baseLen + len + 1 ≤ sizeMax
  · rw [if_pos fits]
    obtain ⟨found, detected, classified⟩ := detectOverlap_spec wf given pos readable
    simp only [detected, ok_bind]
    cases classified with
    | invalid => exact ⟨_, _, rfl, .failed (by decide) (.refl c)⟩
    | outside external read =>
        rcases ensureCapacity_spec wf (baseLen + len + 1) (by omega) fits with
          ⟨c', refused, same⟩ | ⟨c', q, new, ensured, roomy⟩
        · simp only [refused, ok_bind]
          exact ⟨_, _, rfl, .failed (by decide) same⟩
        · simp only [ensured, ok_bind]
          exact ⟨_, _, rfl, .ready roomy read (external.read_frame read roomy.frame)⟩
    | inside buf own within =>
        rcases ensureCapacity_spec wf (baseLen + len + 1) (by omega) fits with
          ⟨c', refused, same⟩ | ⟨c', q, new, ensured, roomy⟩
        · simp only [refused, ok_bind]
          exact ⟨_, _, rfl, .failed (by decide) same⟩
        · simp only [ensured, ok_bind]
          obtain ⟨bytes, old, read, _⟩ := roomy.read_at wf buf within
          exact ⟨_, _, rfl, .ready roomy (own ▸ old) read⟩
  · rw [if_neg fits]
    exact ⟨_, _, rfl, .failed (by decide) (.refl c)⟩

theorem Roomy.content {c c' : Cell} {need : Nat} {q : Ptr} {new : Obj UInt8} (wf : WellFormed c)
    (roomy : Roomy c need c' q new) : c'.content = c.content := by
  rw [← roomy.holds.take_len, roomy.len, roomy.take_len wf]

/-- Room and then a commit are a successful call. -/
theorem Roomy.outcome {c c' c'' : Cell} {need : Nat} {q : Ptr} {new : Obj UInt8} {want : Bytes}
    (roomy : Roomy c need c' q new) (committed : Committed c' q new want c'')
    (ok : c.str.status = .ok) : Outcome c want .ok c'' where
  wellFormed := committed.wellFormed roomy.holds
  frame := roomy.frame.trans (committed.frame roomy.holds)
  success _ := ⟨by rw [committed.str, roomy.str]; exact ok, committed.content roomy.holds⟩
  failure failed := absurd rfl failed

/-- A commit without growth. -/
theorem Committed.outcome {c c' : Cell} {p : Ptr} {o : Obj UInt8} {want : Bytes}
    (holds : Holds c p o) (committed : Committed c p o want c') (ok : c.str.status = .ok) :
    Outcome c want .ok c' where
  wellFormed := committed.wellFormed holds
  frame := committed.frame holds
  success _ := ⟨by rw [committed.str]; exact ok, committed.content holds⟩
  failure failed := absurd rfl failed

/-- A call with nothing to do. -/
theorem Outcome.refl {c : Cell} (wf : WellFormed c) (ok : c.str.status = .ok) :
    Outcome c c.content .ok c where
  wellFormed := wf
  frame := .refl c
  success _ := ⟨ok, rfl⟩
  failure failed := absurd rfl failed

theorem setValidSpan_spec {c : Cell} (wf : WellFormed c) (ok : c.str.status = .ok)
    {source : Source} {len : Nat} (given : 0 < len → source.isNull = false)
    (size : len ≤ sizeMax) (readable : Readable c source len) :
    ∃ status c', setValidSpan source len c = .ok (status, c') ∧
      Outcome c (source.bytes c.heap len) status c' := by
  simp only [setValidSpan, ensure_of ok, ok_bind]
  by_cases empty : len = 0
  · subst empty
    obtain ⟨c', cleared, wf', frame, content, status⟩ := clearContent_spec wf
    simp only [if_true, cleared, ok_bind]
    refine ⟨.ok, c', rfl, wf', frame, fun _ => ⟨status.trans ok, ?_⟩, fun failed => absurd rfl failed⟩
    rw [content, Source.bytes_zero]
  · obtain ⟨prepared, c', prepare, written⟩ :=
      prepareWrite_spec wf 0 (given (by omega)) (by omega) size readable
    simp only [if_neg empty, prepareValidSpan, ensure_of ok, ok_bind, prepare]
    cases written with
    | failed failure same =>
        simp only [recordFailure_ok _ failure, ok_bind]
        exact ⟨_, _, rfl, same.outcome wf _ failure⟩
    | ready roomy old read =>
        have length := Source.length_of_read old
        have room := roomy.room
        subst length
        obtain ⟨c'', replaced, committed⟩ := replaceContent_spec roomy.holds read (by omega)
        simp only [replaced, ok_bind, Source.bytes_of_read old]
        exact ⟨_, _, rfl, roomy.outcome committed ok⟩

theorem appendValidSpan_spec {c : Cell} (wf : WellFormed c) (ok : c.str.status = .ok)
    {source : Source} {len : Nat} (given : 0 < len → source.isNull = false)
    (size : len ≤ sizeMax) (readable : Readable c source len) :
    ∃ status c', appendValidSpan source len c = .ok (status, c') ∧
      Outcome c (c.content ++ source.bytes c.heap len) status c' := by
  simp only [appendValidSpan, ensure_of ok, ok_bind]
  by_cases empty : len = 0
  · subst empty
    rw [if_pos rfl, Source.bytes_zero, List.append_nil]
    exact ⟨.ok, c, rfl, .refl wf ok⟩
  · obtain ⟨prepared, c', prepare, written⟩ :=
      prepareWrite_spec wf c.str.len (given (by omega)) (by omega) size readable
    simp only [if_neg empty, prepareValidSpan, ensure_of ok, ok_bind, prepare]
    cases written with
    | failed failure same =>
        simp only [recordFailure_ok _ failure, ok_bind]
        exact ⟨_, _, rfl, same.outcome wf _ failure⟩
    | ready roomy old read =>
        have length := Source.length_of_read old
        have room := roomy.room
        subst length
        obtain ⟨c'', appended, committed⟩ := appendContent_spec roomy.holds read
          (by rw [roomy.len]; omega)
        simp only [appended, ok_bind, Source.bytes_of_read old]
        rw [roomy.content wf] at committed
        exact ⟨_, _, rfl, roomy.outcome committed ok⟩

theorem appendUnaliasedSpan_spec {c : Cell} (wf : WellFormed c) (ok : c.str.status = .ok)
    (source : Source) (bytes : Bytes) (given : source.isNull = false)
    (external : External c source) (size : bytes.length ≤ sizeMax)
    (read : source.read c.heap bytes.length = .ok bytes) :
    ∃ status c', appendUnaliasedSpan source bytes.length c = .ok (status, c') ∧
      Outcome c (c.content ++ bytes) status c' := by
  simp only [appendUnaliasedSpan, ensure_of ok, ensure_of given, ok_bind]
  by_cases empty : bytes.length = 0
  · obtain rfl := List.length_eq_zero_iff.mp empty
    rw [if_pos empty, List.append_nil]
    exact ⟨.ok, c, rfl, .refl wf ok⟩
  · simp only [if_neg empty, calculateCapacity_eq size]
    by_cases fits : c.str.len + bytes.length + 1 ≤ sizeMax
    · rw [if_pos fits]
      rcases ensureCapacity_spec wf (c.str.len + bytes.length + 1) (by omega) fits with
        ⟨c', refused, same⟩ | ⟨c', q, new, ensured, roomy⟩
      · simp only [refused, ok_bind, recordFailure_ok .errAlloc (by decide)]
        exact ⟨_, _, rfl, same.outcome wf _ (by decide)⟩
      · have room := roomy.room
        obtain ⟨c'', appended, committed⟩ := appendContent_spec roomy.holds
          (external.read_frame read roomy.frame) (by rw [roomy.len]; omega)
        simp only [ensured, ok_bind, appended]
        rw [roomy.content wf] at committed
        exact ⟨_, _, rfl, roomy.outcome committed ok⟩
    · rw [if_neg fits]
      simp only [recordFailure_ok .errOverflow (by decide)]
      exact ⟨_, _, rfl, (Unchanged.refl c).outcome wf _ (by decide)⟩

/-! Calls on counted bytes. -/

/-- How `str_begin_mutation` ends on a string whose status is OK. -/
theorem beginMutation_cases {c : Cell} (ok : c.str.status = .ok) (source : Source) (len : Nat) :
    (beginMutation source len c = .ok (.ok, c) ∧ (0 < len → source.isNull = false)) ∨
    beginMutation source len c =
      .ok (.errArg, { c with str := { c.str with status := .errArg } }) := by
  simp only [beginMutation, validateMutation, ok, validateSource]
  by_cases empty : len = 0
  · exact .inl ⟨by rw [if_pos empty], fun pos => by omega⟩
  · cases null : source.isNull with
    | false => exact .inl ⟨by simp [empty], fun _ => rfl⟩
    | true => exact .inr (by simp [empty, recordFailure])

theorem setN_spec {c : Cell} (wf : WellFormed c) (ok : c.str.status = .ok) {source : Source}
    {len : Nat} (size : len ≤ sizeMax) (readable : Readable c source len) :
    ∃ status c', setN source len c = .ok (status, c') ∧
      Outcome c (source.bytes c.heap len) status c' := by
  rcases beginMutation_cases ok source len with ⟨begun, given⟩ | rejected
  · simp only [setN, begun, ok_bind]
    exact setValidSpan_spec wf ok given size readable
  · simp only [setN, rejected, ok_bind]
    exact ⟨_, _, rfl, (Unchanged.refl c).outcome wf _ (by decide)⟩

theorem appendN_spec {c : Cell} (wf : WellFormed c) (ok : c.str.status = .ok) {source : Source}
    {len : Nat} (size : len ≤ sizeMax) (readable : Readable c source len) :
    ∃ status c', appendN source len c = .ok (status, c') ∧
      Outcome c (c.content ++ source.bytes c.heap len) status c' := by
  rcases beginMutation_cases ok source len with ⟨begun, given⟩ | rejected
  · simp only [appendN, begun, ok_bind]
    exact appendValidSpan_spec wf ok given size readable
  · simp only [appendN, rejected, ok_bind]
    exact ⟨_, _, rfl, (Unchanged.refl c).outcome wf _ (by decide)⟩

theorem appendChar_spec {c : Cell} (wf : WellFormed c) (ok : c.str.status = .ok) (byte : UInt8) :
    ∃ status c', appendChar byte c = .ok (status, c') ∧
      Outcome c (c.content ++ [byte]) status c' := by
  simp only [appendChar, validateMutation, ok]
  exact appendUnaliasedSpan_spec wf ok (.array [byte]) [byte] rfl
    (fun q designated => nomatch designated) (show 1 ≤ sizeMax by decide) rfl

theorem External.frame {c c' : Cell} {source : Source} {len : Nat} {bytes : Bytes}
    (external : External c source) (read : source.read c.heap len = .ok bytes)
    (frame : Frame c c') : External c' source := by
  rintro q rfl designated
  obtain ⟨o, live, _⟩ := Heap.read_eq_ok read
  cases frame.fresh q.obj designated with
  | inl old => exact external q rfl old
  | inr beyond => exact absurd (c.heap.lt_nextId live) (Nat.not_lt.mpr beyond)

/-- A source outside the buffer reads the same after a write into the buffer. -/
theorem External.read_stores {c : Cell} {p : Ptr} {o : Obj UInt8} {source : Source} {len : Nat}
    {bytes cells : Bytes} {heap : Memory} (external : External c source) (holds : Holds c p o)
    (read : source.read c.heap len = .ok bytes) (stores : c.heap.Stores p.obj o cells heap) :
    source.read heap len = .ok bytes := by
  cases source with
  | array array => exact read
  | mem pointer =>
      cases pointer with
      | none => cases read
      | some q =>
          have other : q.obj ≠ p.obj := fun same => external q rfl ((holds.designates _).mpr same)
          rw [Source.read, Heap.read_congr (stores.other other)]
          exact read

/-- What `str_prepare_insert` reaches: nothing done, or room and a source that reads
what it did once the tail has been shifted. -/
inductive PreparedInsert (c : Cell) (idx : Nat) (source : Source) (len : Nat) :
    Except Status Source → Cell → Prop
  | failed {status : Status} {c' : Cell} (failure : status ≠ .ok) (same : Unchanged c c') :
      PreparedInsert c idx source len (.error status) c'
  | ready {ready : Source} {c' : Cell} {q : Ptr} {new : Obj UInt8} {bytes : Bytes}
      (roomy : Roomy c (c.str.len + len + 1) c' q new) (old : source.read c.heap len = .ok bytes)
      (given : ready.isNull = false)
      (read : ∀ heap, c'.heap.Stores q.obj new (shifted new.cells c'.str.len idx 0 len) heap →
        ready.read heap len = .ok bytes) :
      PreparedInsert c idx source len (.ok ready) c'

/-- An internal source is found again in the shifted block at its adjusted offset. -/
theorem drop_shifted {cells : Bytes} {strLen idx offset len : Nat} (span : idx ≤ strLen)
    (within : offset + len ≤ strLen + 1) (room : strLen + len < cells.length) :
    ((shifted cells strLen idx 0 len).drop (if idx ≤ offset then offset + len else offset)).take
        len = (cells.drop offset).take len := by
  have tail : ((cells.drop (idx + 0)).take (strLen - (idx + 0) + 1)).length =
      strLen - (idx + 0) + 1 := length_span (by omega)
  refine List.ext_getElem? fun i => ?_
  rw [List.getElem?_take, List.getElem?_take, List.getElem?_drop, List.getElem?_drop, shifted,
    Heap.getElem?_overwrite (by omega), tail]
  simp only [List.getElem?_take, List.getElem?_drop]
  split_ifs <;> first
    | rfl
    | omega
    | (congr 1; omega)

theorem prepareInsert_spec {c : Cell} (wf : WellFormed c) {source : Source} {idx len : Nat}
    (given : source.isNull = false) (pos : 0 < len) (size : len ≤ sizeMax)
    (span : idx ≤ c.str.len) (readable : Readable c source len) :
    ∃ prepared c', prepareInsert idx source len c = .ok (prepared, c') ∧
      PreparedInsert c idx source len prepared c' := by
  simp only [prepareInsert, ensure_of given, ensure_of pos, ok_bind, calculateCapacity_eq size]
  by_cases fits : c.str.len + len + 1 ≤ sizeMax
  · rw [if_pos fits]
    obtain ⟨found, detected, classified⟩ := detectOverlap_spec wf given pos readable
    simp only [detected, ok_bind]
    cases classified with
    | invalid => exact ⟨_, _, rfl, .failed (by decide) (.refl c)⟩
    | outside external read =>
        rcases ensureCapacity_spec wf (c.str.len + len + 1) (by omega) fits with
          ⟨c', refused, same⟩ | ⟨c', q, new, ensured, roomy⟩
        · simp only [refused, ok_bind]
          exact ⟨_, _, rfl, .failed (by decide) same⟩
        · simp only [ensured, ok_bind]
          exact ⟨_, _, rfl, .ready roomy read given fun heap stores =>
            (external.frame read roomy.frame).read_stores roomy.holds
              (external.read_frame read roomy.frame) stores⟩
    | @inside p offset buf own within =>
        have adjust : adjustSourceOffset offset idx len =
            .ok (if idx ≤ offset then offset + len else offset) := by
          simp only [adjustSourceOffset, ensure_of pos, ok_bind]
          rw [sizeAdd_of_le (by omega)]
        simp only [adjust, ok_bind]
        rcases ensureCapacity_spec wf (c.str.len + len + 1) (by omega) fits with
          ⟨c', refused, same⟩ | ⟨c', q, new, ensured, roomy⟩
        · simp only [refused, ok_bind]
          exact ⟨_, _, rfl, .failed (by decide) same⟩
        · simp only [ensured, ok_bind]
          obtain ⟨bytes, old, _, denoted⟩ := roomy.read_at wf buf within
          refine ⟨_, _, rfl, .ready roomy (own ▸ old) ?_ ?_⟩
          · rw [StrT.at, roomy.holds.buf]
            rfl
          · intro heap stores
            have room := roomy.room
            have stored : Holds { c' with heap } q
                { new with cells := shifted new.cells c'.str.len idx 0 len } :=
              roomy.holds.stores stores rfl rfl
            rw [stored.read_at (by
              show _ ≤ (shifted new.cells c'.str.len idx 0 len).length
              rw [stores.size]
              unfold Obj.size at room
              split <;> omega)]
            unfold Obj.size at room
            rw [denoted, roomy.len, drop_shifted span within (by omega)]
  · rw [if_neg fits]
    exact ⟨_, _, rfl, .failed (by decide) (.refl c)⟩

theorem validateSpan_eq {c : Cell} (wf : WellFormed c) (idx span : Nat) :
    validateSpan c.str.len idx span = if idx + span ≤ c.str.len then .ok else .errRange := by
  have bound := wf.len_lt
  unfold validateSpan
  by_cases beyond : c.str.len < idx
  · rw [if_pos beyond, if_neg (by omega)]
  · rw [if_neg beyond, sizeSub_of_le (by omega) (by omega)]
    by_cases within : idx + span ≤ c.str.len
    · rw [if_neg (by omega), if_pos within]
    · rw [if_pos (by omega), if_neg within]

theorem insertN_spec {c : Cell} (wf : WellFormed c) (ok : c.str.status = .ok) (idx : Nat)
    {source : Source} {len : Nat} (size : len ≤ sizeMax) (readable : Readable c source len) :
    ∃ status c', insertN idx source len c = .ok (status, c') ∧
      Outcome c (c.content.take idx ++ source.bytes c.heap len ++ c.content.drop idx) status c' := by
  rcases beginMutation_cases ok source len with ⟨begun, given⟩ | rejected
  · simp only [insertN, begun, ok_bind, validateSpan_eq wf, Nat.add_zero]
    by_cases span : idx ≤ c.str.len
    · simp only [if_pos span]
      by_cases empty : len = 0
      · subst empty
        rw [if_pos rfl, Source.bytes_zero, List.append_nil, List.take_append_drop]
        exact ⟨.ok, c, rfl, .refl wf ok⟩
      · obtain ⟨prepared, c', prepare, written⟩ :=
          prepareInsert_spec wf (given (by omega)) (by omega) size span readable
        simp only [if_neg empty, prepare, ok_bind]
        cases written with
        | failed failure same =>
            simp only [recordFailure_ok _ failure]
            exact ⟨_, _, rfl, same.outcome wf _ failure⟩
        | ready roomy old givenReady read =>
            have length := Source.length_of_read old
            have room := roomy.room
            subst length
            obtain ⟨c'', inserted, committed⟩ := commitInsert_spec roomy.holds
              (by rw [roomy.len]; exact roomy.inside) (by rw [roomy.len]; exact span)
              (by rw [roomy.len]; omega) givenReady (fun heap stores _ => read heap stores)
            simp only [inserted, ok_bind, Source.bytes_of_read old]
            rw [roomy.content wf] at committed
            exact ⟨_, _, rfl, roomy.outcome committed ok⟩
    · simp only [if_neg span, recordFailure_ok .errRange (by decide)]
      exact ⟨_, _, rfl, (Unchanged.refl c).outcome wf _ (by decide)⟩
  · simp only [insertN, rejected, ok_bind]
    exact ⟨_, _, rfl, (Unchanged.refl c).outcome wf _ (by decide)⟩

/-- A string with content has a block. -/
theorem WellFormed.holds_of_len {c : Cell} (wf : WellFormed c) (pos : 0 < c.str.len) :
    ∃ p o, Holds c p o ∧ c.str.len < o.size ∧ o.cells[c.str.len]? = some 0 := by
  cases wf with
  | empty buf len cap => omega
  | owned holds inside terminated => exact ⟨_, _, holds, inside, terminated⟩

theorem remove_spec {c : Cell} (wf : WellFormed c) (ok : c.str.status = .ok) (idx len : Nat) :
    ∃ status c', remove idx len c = .ok (status, c') ∧
      Outcome c (c.content.take idx ++ c.content.drop (idx + len)) status c' := by
  simp only [remove, validateMutation, ok, validateSpan_eq wf]
  by_cases span : idx + len ≤ c.str.len
  · simp only [if_pos span]
    by_cases empty : len = 0
    · subst empty
      rw [if_pos rfl, Nat.add_zero, List.take_append_drop]
      exact ⟨.ok, c, rfl, .refl wf ok⟩
    · obtain ⟨p, o, holds, inside, _⟩ := wf.holds_of_len (by omega)
      obtain ⟨c', closed, committed⟩ := closeGap_spec holds inside idx len span
      simp only [if_neg empty, closed, ok_bind]
      exact ⟨_, _, rfl, committed.outcome holds ok⟩
  · simp only [if_neg span, recordFailure_ok .errRange (by decide)]
    exact ⟨_, _, rfl, (Unchanged.refl c).outcome wf _ (by decide)⟩

/-! Capacity and length. -/

/-- Room alone leaves the content as it is. -/
theorem Roomy.outcome_same {c c' : Cell} {need : Nat} {q : Ptr} {new : Obj UInt8}
    (wf : WellFormed c) (roomy : Roomy c need c' q new) (ok : c.str.status = .ok) :
    Outcome c c.content .ok c' where
  wellFormed := by
    have terminated := roomy.terminated
    rw [← roomy.len] at terminated
    exact .owned roomy.holds (by rw [roomy.len]; exact roomy.inside) terminated
  frame := roomy.frame
  success _ := ⟨by rw [roomy.str]; exact ok, roomy.content wf⟩
  failure failed := absurd rfl failed

theorem recordStatus_ok (c : Cell) : recordStatus (.ok, c) = .ok (.ok, c) := rfl

theorem recordStatus_failed (status : Status) (failed : status ≠ .ok) (c : Cell) :
    recordStatus (status, c) = .ok (status, { c with str := { c.str with status } }) := by
  cases status with
  | ok => exact absurd rfl failed
  | errArg | errAlloc | errRange | errOverflow | errFmt => rfl

theorem reserve_spec {c : Cell} (wf : WellFormed c) (ok : c.str.status = .ok) {len : Nat}
    (size : len ≤ sizeMax) :
    ∃ status c', reserve len c = .ok (status, c') ∧ Outcome c c.content status c' := by
  simp only [reserve, validateMutation, ok, calculateCapacity_eq size, Nat.zero_add]
  by_cases empty : len = 0
  · rw [if_pos empty]
    exact ⟨.ok, c, rfl, .refl wf ok⟩
  · rw [if_neg empty]
    by_cases fits : len + 1 ≤ sizeMax
    · rw [if_pos fits]
      rcases ensureCapacity_spec wf (len + 1) (by omega) fits with
        ⟨c', refused, same⟩ | ⟨c', q, new, ensured, roomy⟩
      · simp only [refused, ok_bind, recordStatus_failed .errAlloc (by decide)]
        exact ⟨_, _, rfl, same.outcome wf _ (by decide)⟩
      · simp only [ensured, ok_bind, recordStatus_ok]
        exact ⟨_, _, rfl, roomy.outcome_same wf ok⟩
    · rw [if_neg fits]
      simp only [recordFailure_ok .errOverflow (by decide)]
      exact ⟨_, _, rfl, (Unchanged.refl c).outcome wf _ (by decide)⟩

theorem resize_spec {c : Cell} (wf : WellFormed c) (ok : c.str.status = .ok) {len : Nat}
    (fill : UInt8) (size : len ≤ sizeMax) :
    ∃ status c', resize len fill c = .ok (status, c') ∧
      Outcome c (c.content.take len ++ List.replicate (len - c.str.len) fill) status c' := by
  have length := wf.length_content
  have bound := wf.len_lt
  simp only [resize, validateMutation, ok]
  by_cases same : len = c.str.len
  · rw [if_pos same, List.take_of_length_le (by omega), same, Nat.sub_self, List.replicate_zero,
      List.append_nil]
    exact ⟨.ok, c, rfl, .refl wf ok⟩
  · rw [if_neg same]
    by_cases shrinks : len < c.str.len
    · obtain ⟨p, o, holds, inside, _⟩ := wf.holds_of_len (by omega)
      obtain ⟨c', closed, committed⟩ :=
        closeGap_spec holds inside len (c.str.len - len) (by omega)
      rw [if_pos shrinks, sizeSub_of_le (by omega) (by omega), closed]
      have upto : len + (c.str.len - len) = c.str.len := by omega
      rw [upto, List.drop_eq_nil_of_le (by omega)] at committed
      have none : len - c.str.len = 0 := by omega
      rw [none]
      exact ⟨_, _, rfl, committed.outcome holds ok⟩
    · have grows : c.str.len < len := by omega
      rw [if_neg shrinks, List.take_of_length_le (by omega)]
      simp only [growContent, ensure_of grows, ok_bind, calculateCapacity_eq size, Nat.zero_add]
      by_cases fits : len + 1 ≤ sizeMax
      · rw [if_pos fits]
        rcases ensureCapacity_spec wf (len + 1) (by omega) fits with
          ⟨c', refused, same⟩ | ⟨c', q, new, ensured, roomy⟩
        · simp only [refused, ok_bind, recordStatus_failed .errAlloc (by decide)]
          exact ⟨_, _, rfl, same.outcome wf _ (by decide)⟩
        · have room := roomy.room
          obtain ⟨c'', extended, committed⟩ := extendContent_spec roomy.holds fill
            (by rw [roomy.len]; exact grows) (by omega)
          simp only [ensured, ok_bind, extended, recordStatus_ok]
          rw [roomy.content wf, roomy.len] at committed
          exact ⟨_, _, rfl, roomy.outcome committed ok⟩
      · rw [if_neg fits]
        simp only [ok_bind, recordStatus_failed .errOverflow (by decide)]
        exact ⟨_, _, rfl, (Unchanged.refl c).outcome wf _ (by decide)⟩

/-! A call that succeeds was given an index or a span of the string. -/

section
variable {c c' : Cell} {idx len : Nat}

theorem insertN_within {source : Source} (wf : WellFormed c) (ok : c.str.status = .ok)
    (ran : insertN idx source len c = .ok (.ok, c')) : idx ≤ c.str.len := by
  by_contra beyond
  rcases beginMutation_cases ok source len with ⟨begun, _⟩ | rejected
  · simp only [insertN, begun, ok_bind, validateSpan_eq wf, Nat.add_zero, if_neg beyond,
      recordFailure_ok .errRange (by decide)] at ran
    cases ran
  · simp only [insertN, rejected, ok_bind] at ran
    cases ran

theorem remove_within (wf : WellFormed c) (ok : c.str.status = .ok)
    (ran : remove idx len c = .ok (.ok, c')) : idx + len ≤ c.str.len := by
  by_contra beyond
  simp only [remove, validateMutation, ok, validateSpan_eq wf, if_neg beyond,
    recordFailure_ok .errRange (by decide)] at ran
  cases ran

theorem replaceView_within {removeLen : Nat} {replacement : Borrowed} (wf : WellFormed c)
    (ok : c.str.status = .ok) (ran : replaceView idx removeLen replacement c = .ok (.ok, c')) :
    idx + removeLen ≤ c.str.len := by
  by_contra beyond
  rcases beginMutation_cases ok replacement.ptr replacement.len with ⟨begun, _⟩ | rejected
  · simp only [replaceView, begun, ok_bind, validateSpan_eq wf, if_neg beyond,
      recordFailure_ok .errRange (by decide)] at ran
    cases ran
  · simp only [replaceView, rejected, ok_bind] at ran
    cases ran

end

end AgencC.Str
