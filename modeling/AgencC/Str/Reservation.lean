import AgencC.Str.Atomicity

/-! A reservation: calls whose results fit in it neither allocate nor move the buffer. -/

set_option autoImplicit false

namespace AgencC.Str

open Library

/-- The string's block is the one it was, and the allocator has not been asked. -/
structure Still (c c' : Cell) : Prop where
  buf : c'.str.buf = c.str.buf
  cap : c'.str.cap = c.str.cap
  attempts : c'.heap.attempts = c.heap.attempts

theorem Still.refl (c : Cell) : Still c c := ⟨rfl, rfl, rfl⟩

theorem Still.trans {c c' c'' : Cell} (first : Still c c') (second : Still c' c'') :
    Still c c'' where
  buf := second.buf.trans first.buf
  cap := second.cap.trans first.cap
  attempts := second.attempts.trans first.attempts

/-! Commits. -/

theorem write_attempts {heap heap' : Memory} {p : Ptr} {new : Bytes}
    (wrote : heap.write p new = .ok heap') : heap'.attempts = heap.attempts := by
  obtain ⟨_, _, _, stores⟩ := Heap.write_eq_ok wrote
  exact stores.attempts

theorem moveBytes_attempts {destination : Ptr} {source : Source} {len : Nat} {heap heap' : Memory}
    (moved : moveBytes destination source len heap = .ok heap') :
    heap'.attempts = heap.attempts := by
  unfold moveBytes at moved
  split at moved
  · cases moved
    rfl
  · obtain ⟨_, _, moved⟩ := bind_eq_ok.mp moved
    obtain ⟨bytes, _, wrote⟩ := bind_eq_ok.mp moved
    exact write_attempts wrote

/-- The terminator after a new length and after other writes. -/
theorem writeTerminator_still {c c' : Cell} {len : Nat} {heap : Memory}
    (attempts : heap.attempts = c.heap.attempts)
    (ran : writeTerminator { str := { c.str with len }, heap } = .ok c') : Still c c' := by
  obtain ⟨_, _, ran⟩ := bind_eq_ok.mp ran
  obtain ⟨_, _, ran⟩ := bind_eq_ok.mp ran
  obtain ⟨_, _, ran⟩ := bind_eq_ok.mp ran
  obtain ⟨heap', wrote, finished⟩ := bind_eq_ok.mp ran
  cases finished
  exact ⟨rfl, rfl, (write_attempts wrote).trans attempts⟩

theorem clearContent_still {c c' : Cell} (ran : clearContent c = .ok c') : Still c c' := by
  unfold clearContent at ran
  simp only at ran
  split at ran
  · obtain ⟨_, _, ran⟩ := bind_eq_ok.mp ran
    obtain ⟨heap, wrote, finished⟩ := bind_eq_ok.mp ran
    cases finished
    exact ⟨rfl, rfl, write_attempts wrote⟩
  · cases ran
    exact ⟨rfl, rfl, rfl⟩

section
variable {source : Source} {len idx : Nat} {c c' : Cell}

theorem replaceContent_still (ran : replaceContent source len c = .ok c') : Still c c' := by
  obtain ⟨_, _, ran⟩ := bind_eq_ok.mp ran
  obtain ⟨_, _, ran⟩ := bind_eq_ok.mp ran
  obtain ⟨heap, moved, ran⟩ := bind_eq_ok.mp ran
  exact writeTerminator_still (moveBytes_attempts moved) ran

theorem appendContent_still (ran : appendContent source len c = .ok c') : Still c c' := by
  obtain ⟨_, _, ran⟩ := bind_eq_ok.mp ran
  obtain ⟨_, _, ran⟩ := bind_eq_ok.mp ran
  obtain ⟨_, _, ran⟩ := bind_eq_ok.mp ran
  obtain ⟨heap, moved, ran⟩ := bind_eq_ok.mp ran
  exact writeTerminator_still (moveBytes_attempts moved) ran

theorem writeContent_still (ran : writeContent idx source len c = .ok c') : Still c c' := by
  obtain ⟨_, _, ran⟩ := bind_eq_ok.mp ran
  obtain ⟨_, _, ran⟩ := bind_eq_ok.mp ran
  obtain ⟨_, _, ran⟩ := bind_eq_ok.mp ran
  obtain ⟨heap, moved, finished⟩ := bind_eq_ok.mp ran
  cases finished
  exact ⟨rfl, rfl, moveBytes_attempts moved⟩

theorem commitInsert_still (ran : commitInsert idx source len c = .ok c') : Still c c' := by
  obtain ⟨_, _, ran⟩ := bind_eq_ok.mp ran
  obtain ⟨_, _, ran⟩ := bind_eq_ok.mp ran
  obtain ⟨_, _, ran⟩ := bind_eq_ok.mp ran
  obtain ⟨_, _, ran⟩ := bind_eq_ok.mp ran
  obtain ⟨shifted, first, ran⟩ := bind_eq_ok.mp ran
  obtain ⟨heap, second, ran⟩ := bind_eq_ok.mp ran
  exact writeTerminator_still ((moveBytes_attempts second).trans (moveBytes_attempts first)) ran

theorem closeGap_still (ran : closeGap idx len c = .ok c') : Still c c' := by
  obtain ⟨_, _, ran⟩ := bind_eq_ok.mp ran
  obtain ⟨_, _, ran⟩ := bind_eq_ok.mp ran
  obtain ⟨_, _, ran⟩ := bind_eq_ok.mp ran
  obtain ⟨heap, moved, ran⟩ := bind_eq_ok.mp ran
  exact writeTerminator_still (moveBytes_attempts moved) ran

theorem extendContent_still {fill : UInt8} (ran : extendContent len fill c = .ok c') :
    Still c c' := by
  obtain ⟨_, _, ran⟩ := bind_eq_ok.mp ran
  obtain ⟨_, _, ran⟩ := bind_eq_ok.mp ran
  obtain ⟨_, _, ran⟩ := bind_eq_ok.mp ran
  obtain ⟨heap, filled, ran⟩ := bind_eq_ok.mp ran
  exact writeTerminator_still (write_attempts filled) ran

theorem commitReplacement_still {removeLen : Nat} {replacement : Borrowed}
    (ran : commitReplacement idx removeLen replacement c = .ok c') : Still c c' := by
  obtain ⟨_, _, ran⟩ := bind_eq_ok.mp ran
  obtain ⟨_, _, ran⟩ := bind_eq_ok.mp ran
  obtain ⟨_, _, ran⟩ := bind_eq_ok.mp ran
  obtain ⟨_, _, ran⟩ := bind_eq_ok.mp ran
  obtain ⟨_, _, ran⟩ := bind_eq_ok.mp ran
  obtain ⟨shifted, first, ran⟩ := bind_eq_ok.mp ran
  obtain ⟨heap, second, ran⟩ := bind_eq_ok.mp ran
  exact writeTerminator_still ((moveBytes_attempts second).trans (moveBytes_attempts first)) ran

end

/-! Calls with room. -/

/-- A call that left the block alone and did not fail for want of storage. -/
structure Quiet (c : Cell) (status : Status) (c' : Cell) : Prop where
  still : Still c c'
  stored : status ≠ .errAlloc

theorem Quiet.recorded {c c' : Cell} {status status' : Status} (other : status ≠ .errAlloc)
    (ran : recordFailure status c = .ok (status', c')) : Quiet c status' c' := by
  obtain ⟨_, _, finished⟩ := bind_eq_ok.mp ran
  cases finished
  exact ⟨⟨rfl, rfl, rfl⟩, other⟩

theorem Quiet.recordStatus {c c₁ c' : Cell} {status status' : Status} (quiet : Quiet c status c₁)
    (ran : Str.recordStatus (status, c₁) = .ok (status', c')) : Quiet c status' c' := by
  by_cases ok : status = .ok
  · subst ok
    cases ran
    exact quiet
  · rw [recordStatus_failed _ ok] at ran
    cases ran
    exact ⟨quiet.still.trans ⟨rfl, rfl, rfl⟩, quiet.stored⟩

theorem ensureCapacity_still {c : Cell} {need : Nat} (room : need ≤ c.str.cap) :
    ensureCapacity need c = .ok (.ok, c) := if_pos room

section
variable {c c' : Cell} {source : Source} {len idx : Nat} {status : Status}

theorem prepareWrite_still (wf : WellFormed c) (baseLen : Nat) (given : source.isNull = false)
    (pos : 0 < len) (size : len ≤ sizeMax) (readable : Readable c source len)
    (room : baseLen + len + 1 ≤ c.str.cap) :
    prepareWrite source len baseLen c = .ok (.error .errArg, c) ∨
    ∃ ready, prepareWrite source len baseLen c = .ok (.ok ready, c) := by
  have fits : baseLen + len + 1 ≤ sizeMax := Nat.le_trans room wf.cap_le
  obtain ⟨found, detected, classified⟩ := detectOverlap_spec wf given pos readable
  simp only [prepareWrite, ensure_of given, ensure_of pos, ok_bind, calculateCapacity_eq size,
    if_pos fits, detected, ensureCapacity_still room]
  cases classified with
  | invalid => exact .inl rfl
  | outside external read => exact .inr ⟨_, rfl⟩
  | inside buf own within => exact .inr ⟨_, rfl⟩

theorem prepareValidSpan_still (wf : WellFormed c) (ok : c.str.status = .ok) (baseLen : Nat)
    (given : source.isNull = false) (pos : 0 < len) (size : len ≤ sizeMax)
    (readable : Readable c source len) (room : baseLen + len + 1 ≤ c.str.cap) :
    (∃ c', prepareValidSpan source len baseLen c = .ok (.error .errArg, c') ∧
      Quiet c .errArg c') ∨
    ∃ ready, prepareValidSpan source len baseLen c = .ok (.ok ready, c) := by
  rcases prepareWrite_still wf baseLen given pos size readable room with
    rejected | ⟨ready, prepared⟩
  · simp only [prepareValidSpan, ensure_of ok, ok_bind, rejected,
      recordFailure_ok .errArg (by decide)]
    exact .inl ⟨_, rfl, ⟨rfl, rfl, rfl⟩, by decide⟩
  · simp only [prepareValidSpan, ensure_of ok, ok_bind, prepared]
    exact .inr ⟨ready, rfl⟩

theorem setValidSpan_still (wf : WellFormed c) (ok : c.str.status = .ok)
    (given : 0 < len → source.isNull = false) (size : len ≤ sizeMax)
    (readable : Readable c source len) (room : 0 < len → len + 1 ≤ c.str.cap)
    (ran : setValidSpan source len c = .ok (status, c')) : Quiet c status c' := by
  simp only [setValidSpan, ensure_of ok, ok_bind] at ran
  by_cases empty : len = 0
  · rw [if_pos empty] at ran
    obtain ⟨_, cleared, finished⟩ := bind_eq_ok.mp ran
    cases finished
    exact ⟨clearContent_still cleared, by decide⟩
  · have pos : 0 < len := by omega
    have room : 0 + len + 1 ≤ c.str.cap := by simpa using room pos
    rw [if_neg empty] at ran
    rcases prepareValidSpan_still wf ok 0 (given pos) pos size readable room with
      ⟨c₁, rejected, quiet⟩ | ⟨ready, prepared⟩
    · simp only [rejected, ok_bind] at ran
      cases ran
      exact quiet
    · simp only [prepared, ok_bind] at ran
      obtain ⟨_, replaced, finished⟩ := bind_eq_ok.mp ran
      cases finished
      exact ⟨replaceContent_still replaced, by decide⟩

theorem appendValidSpan_still (wf : WellFormed c) (ok : c.str.status = .ok)
    (given : 0 < len → source.isNull = false) (size : len ≤ sizeMax)
    (readable : Readable c source len) (room : 0 < len → c.str.len + len + 1 ≤ c.str.cap)
    (ran : appendValidSpan source len c = .ok (status, c')) : Quiet c status c' := by
  simp only [appendValidSpan, ensure_of ok, ok_bind] at ran
  by_cases empty : len = 0
  · rw [if_pos empty] at ran
    cases ran
    exact ⟨.refl c, by decide⟩
  · have pos : 0 < len := by omega
    rw [if_neg empty] at ran
    rcases prepareValidSpan_still wf ok c.str.len (given pos) pos size readable (room pos) with
      ⟨c₁, rejected, quiet⟩ | ⟨ready, prepared⟩
    · simp only [rejected, ok_bind] at ran
      cases ran
      exact quiet
    · simp only [prepared, ok_bind] at ran
      obtain ⟨_, appended, finished⟩ := bind_eq_ok.mp ran
      cases finished
      exact ⟨appendContent_still appended, by decide⟩

theorem setN_still (wf : WellFormed c) (ok : c.str.status = .ok) (size : len ≤ sizeMax)
    (readable : Readable c source len) (room : 0 < len → len + 1 ≤ c.str.cap)
    (ran : setN source len c = .ok (status, c')) : Quiet c status c' := by
  rcases beginMutation_cases ok source len with ⟨begun, given⟩ | rejected
  · simp only [setN, begun, ok_bind] at ran
    exact setValidSpan_still wf ok given size readable room ran
  · simp only [setN, rejected, ok_bind] at ran
    cases ran
    exact ⟨⟨rfl, rfl, rfl⟩, by decide⟩

theorem appendN_still (wf : WellFormed c) (ok : c.str.status = .ok) (size : len ≤ sizeMax)
    (readable : Readable c source len) (room : 0 < len → c.str.len + len + 1 ≤ c.str.cap)
    (ran : appendN source len c = .ok (status, c')) : Quiet c status c' := by
  rcases beginMutation_cases ok source len with ⟨begun, given⟩ | rejected
  · simp only [appendN, begun, ok_bind] at ran
    exact appendValidSpan_still wf ok given size readable room ran
  · simp only [appendN, rejected, ok_bind] at ran
    cases ran
    exact ⟨⟨rfl, rfl, rfl⟩, by decide⟩

theorem appendChar_still {byte : UInt8} (wf : WellFormed c) (ok : c.str.status = .ok)
    (room : c.str.len + 1 + 1 ≤ c.str.cap) (ran : appendChar byte c = .ok (status, c')) :
    Quiet c status c' := by
  have fits : c.str.len + 1 + 1 ≤ sizeMax := Nat.le_trans room wf.cap_le
  have given : (Source.array [byte]).isNull = false := rfl
  simp only [appendChar, validateMutation, ok] at ran
  simp only [appendUnaliasedSpan, ensure_of ok, ensure_of given, ok_bind, if_neg Nat.one_ne_zero,
    calculateCapacity_eq (show 1 ≤ sizeMax by decide), if_pos fits,
    ensureCapacity_still room] at ran
  obtain ⟨_, appended, finished⟩ := bind_eq_ok.mp ran
  cases finished
  exact ⟨appendContent_still appended, by decide⟩

theorem prepareInsert_still (idx : Nat) (wf : WellFormed c) (given : source.isNull = false) (pos : 0 < len)
    (size : len ≤ sizeMax) (readable : Readable c source len)
    (room : c.str.len + len + 1 ≤ c.str.cap) :
    prepareInsert idx source len c = .ok (.error .errArg, c) ∨
    ∃ ready, prepareInsert idx source len c = .ok (.ok ready, c) := by
  have fits : c.str.len + len + 1 ≤ sizeMax := Nat.le_trans room wf.cap_le
  obtain ⟨found, detected, classified⟩ := detectOverlap_spec wf given pos readable
  simp only [prepareInsert, ensure_of given, ensure_of pos, ok_bind, calculateCapacity_eq size,
    if_pos fits, detected, ensureCapacity_still room]
  cases classified with
  | invalid => exact .inl rfl
  | outside external read => exact .inr ⟨_, rfl⟩
  | inside buf own within =>
      simp only [adjustSourceOffset, ensure_of pos, ok_bind]
      exact .inr ⟨_, rfl⟩

theorem insertN_still (wf : WellFormed c) (ok : c.str.status = .ok) (size : len ≤ sizeMax)
    (readable : Readable c source len)
    (room : idx ≤ c.str.len → 0 < len → c.str.len + len + 1 ≤ c.str.cap)
    (ran : insertN idx source len c = .ok (status, c')) : Quiet c status c' := by
  rcases beginMutation_cases ok source len with ⟨begun, given⟩ | rejected
  · simp only [insertN, begun, ok_bind, validateSpan_eq wf, Nat.add_zero] at ran
    by_cases span : idx ≤ c.str.len
    · simp only [if_pos span] at ran
      by_cases empty : len = 0
      · rw [if_pos empty] at ran
        cases ran
        exact ⟨.refl c, by decide⟩
      · have pos : 0 < len := by omega
        rw [if_neg empty] at ran
        rcases prepareInsert_still idx wf (given pos) pos size readable (room span pos)
          with rejected | ⟨ready, prepared⟩
        · simp only [rejected, ok_bind] at ran
          exact .recorded (by decide) ran
        · simp only [prepared, ok_bind] at ran
          obtain ⟨_, inserted, finished⟩ := bind_eq_ok.mp ran
          cases finished
          exact ⟨commitInsert_still inserted, by decide⟩
    · simp only [if_neg span] at ran
      exact .recorded (by decide) ran
  · simp only [insertN, rejected, ok_bind] at ran
    cases ran
    exact ⟨⟨rfl, rfl, rfl⟩, by decide⟩

theorem remove_still (wf : WellFormed c) (ok : c.str.status = .ok)
    (ran : remove idx len c = .ok (status, c')) : Quiet c status c' := by
  simp only [remove, validateMutation, ok, validateSpan_eq wf] at ran
  by_cases span : idx + len ≤ c.str.len
  · simp only [if_pos span] at ran
    by_cases empty : len = 0
    · rw [if_pos empty] at ran
      cases ran
      exact ⟨.refl c, by decide⟩
    · rw [if_neg empty] at ran
      obtain ⟨_, closed, finished⟩ := bind_eq_ok.mp ran
      cases finished
      exact ⟨closeGap_still closed, by decide⟩
  · simp only [if_neg span] at ran
    exact .recorded (by decide) ran

theorem resize_still {fill : UInt8} (wf : WellFormed c) (ok : c.str.status = .ok)
    (size : len ≤ sizeMax) (room : c.str.len < len → len + 1 ≤ c.str.cap)
    (ran : resize len fill c = .ok (status, c')) : Quiet c status c' := by
  simp only [resize, validateMutation, ok] at ran
  by_cases same : len = c.str.len
  · rw [if_pos same] at ran
    cases ran
    exact ⟨.refl c, by decide⟩
  · rw [if_neg same] at ran
    by_cases shrinks : len < c.str.len
    · rw [if_pos shrinks] at ran
      obtain ⟨_, closed, finished⟩ := bind_eq_ok.mp ran
      cases finished
      exact ⟨closeGap_still closed, by decide⟩
    · have grows : c.str.len < len := by omega
      have fits : len + 1 ≤ sizeMax := Nat.le_trans (room grows) wf.cap_le
      simp only [if_neg shrinks, growContent, ensure_of grows, ok_bind, calculateCapacity_eq size,
        Nat.zero_add, if_pos fits, ensureCapacity_still (room grows)] at ran
      obtain ⟨_, grown, finished⟩ := bind_eq_ok.mp ran
      obtain ⟨_, extended, returned⟩ := bind_eq_ok.mp grown
      cases returned
      cases finished
      exact ⟨extendContent_still extended, by decide⟩

theorem replaceEqualSpan_still {replacement : Borrowed} (wf : WellFormed c)
    (given : replacement.ptr.isNull = false) (pos : 0 < replacement.len)
    (readable : Readable c replacement.ptr replacement.len)
    (ran : replaceEqualSpan idx replacement c = .ok (status, c')) : Quiet c status c' := by
  obtain ⟨found, detected, classified⟩ := detectOverlap_spec wf given pos readable
  obtain ⟨_, _, ran⟩ := bind_eq_ok.mp ran
  obtain ⟨_, _, ran⟩ := bind_eq_ok.mp ran
  obtain ⟨_, _, ran⟩ := bind_eq_ok.mp ran
  simp only [detected, ok_bind] at ran
  cases classified with
  | invalid =>
      cases ran
      exact ⟨.refl c, by decide⟩
  | outside external read =>
      obtain ⟨_, wrote, finished⟩ := bind_eq_ok.mp ran
      cases finished
      exact ⟨writeContent_still wrote, by decide⟩
  | inside buf own within =>
      obtain ⟨_, wrote, finished⟩ := bind_eq_ok.mp ran
      cases finished
      exact ⟨writeContent_still wrote, by decide⟩

/-- Only a view into the string is staged in storage of its own. -/
theorem stageReplacement_still {replacement : Borrowed} (wf : WellFormed c)
    (given : 0 < replacement.len → replacement.ptr.isNull = false)
    (readable : Readable c replacement.ptr replacement.len)
    (external : 0 < replacement.len → External c replacement.ptr) :
    stageReplacement replacement c = .ok (.error .errArg, c.heap) ∨
    stageReplacement replacement c = .ok (.ok { view := replacement, ownedBuf := none }, c.heap) := by
  have valid : replacement.isValid = true := Borrowed.isValid_of given
  simp only [stageReplacement, ensure_of valid, ok_bind]
  by_cases empty : replacement.len = 0
  · exact .inr (if_pos empty)
  · have pos : 0 < replacement.len := by omega
    obtain ⟨found, detected, classified⟩ := detectOverlap_spec wf (given pos) pos readable
    simp only [if_neg empty, detected, ok_bind]
    cases classified with
    | invalid => exact .inl rfl
    | outside apart read => exact .inr rfl
    | inside buf own within => exact absurd ⟨_, buf, rfl⟩ (external pos _ own)

theorem replaceResizedSpan_still {replacement : Borrowed} {removeLen newLen : Nat}
    (wf : WellFormed c) (given : 0 < replacement.len → replacement.ptr.isNull = false)
    (readable : Readable c replacement.ptr replacement.len)
    (external : 0 < replacement.len → External c replacement.ptr)
    (room : newLen + 1 ≤ c.str.cap)
    (ran : replaceResizedSpan idx removeLen newLen replacement c = .ok (status, c')) :
    Quiet c status c' := by
  have fits : newLen + 1 ≤ sizeMax := Nat.le_trans room wf.cap_le
  have capacity : calculateCapacity 0 newLen = .ok (newLen + 1) := by
    rw [calculateCapacity_eq (Nat.le_of_succ_le fits), Nat.zero_add, if_pos fits]
  simp only [replaceResizedSpan, capacity] at ran
  rcases stageReplacement_still wf given readable external with rejected | staged
  · simp only [rejected, ok_bind] at ran
    cases ran
    exact ⟨⟨rfl, rfl, rfl⟩, by decide⟩
  · simp only [staged, ok_bind, ensureCapacity_still room] at ran
    obtain ⟨_, committed, ran⟩ := bind_eq_ok.mp ran
    simp only [releaseStagedView, Heap.free, ok_bind] at ran
    cases ran
    exact ⟨commitReplacement_still committed, by decide⟩

theorem replaceView_still {removeLen : Nat} (wf : WellFormed c) (ok : c.str.status = .ok)
    (size : len ≤ sizeMax) (readable : Readable c source len)
    (external : 0 < len → External c source)
    (room : idx + removeLen ≤ c.str.len → ¬ (removeLen = 0 ∧ len = 0) →
      c.str.len - removeLen + len + 1 ≤ c.str.cap)
    (ran : replaceView idx removeLen { ptr := source, len } c = .ok (status, c')) :
    Quiet c status c' := by
  rcases beginMutation_cases ok source len with ⟨begun, given⟩ | rejected
  · simp only [replaceView, begun, ok_bind, validateSpan_eq wf] at ran
    by_cases span : idx + removeLen ≤ c.str.len
    · simp only [if_pos span] at ran
      by_cases nothing : removeLen = 0 ∧ len = 0
      · rw [if_pos nothing] at ran
        cases ran
        exact ⟨.refl c, by decide⟩
      · rw [if_neg nothing] at ran
        obtain ⟨⟨reached, c₁⟩, applied, recorded⟩ := bind_eq_ok.mp ran
        refine Quiet.recordStatus ?_ recorded
        obtain ⟨_, _, applied⟩ := bind_eq_ok.mp applied
        obtain ⟨_, _, applied⟩ := bind_eq_ok.mp applied
        obtain ⟨_, _, applied⟩ := bind_eq_ok.mp applied
        by_cases equal : removeLen = len
        · have pos : 0 < len := by omega
          rw [if_pos equal] at applied
          exact replaceEqualSpan_still wf (given pos) pos readable applied
        · have bound := wf.len_lt
          have kept : sizeSub c.str.len removeLen = c.str.len - removeLen :=
            sizeSub_of_le (by omega) (by omega)
          have removed : removeLen ≤ c.str.len := by omega
          have fits := Nat.le_trans (room span nothing) wf.cap_le
          simp only [if_neg equal, calculateReplacementLength, ensure_of removed, ok_bind, kept,
            addSize_eq size, if_pos (Nat.le_of_succ_le fits)] at applied
          exact replaceResizedSpan_still wf given readable external (room span nothing) applied
    · simp only [if_neg span] at ran
      exact .recorded (by decide) ran
  · simp only [replaceView, rejected, ok_bind] at ran
    cases ran
    exact ⟨⟨rfl, rfl, rfl⟩, by decide⟩

end

/-! Runs. -/

/-- A call whose bytes can be read and whose result, where its arguments are valid, is at most
`n` bytes long. A replacement is empty or lies outside the string. -/
inductive Mutation.Fits (n : Nat) (c : Cell) : Mutation → Prop
  | setN {source : Source} {len : Size} (readable : Readable c source len) (fits : len.val ≤ n) :
      Fits n c (.setN source len)
  | appendN {source : Source} {len : Size} (readable : Readable c source len)
      (fits : c.str.len + len ≤ n) : Fits n c (.appendN source len)
  | appendChar (byte : UInt8) (fits : c.str.len + 1 ≤ n) : Fits n c (.appendChar byte)
  | insertN {idx len : Size} {source : Source} (readable : Readable c source len)
      (fits : idx.val ≤ c.str.len → c.str.len + len ≤ n) : Fits n c (.insertN idx source len)
  | remove (idx len : Size) : Fits n c (.remove idx len)
  | resize {len : Size} (fill : UInt8) (fits : len.val ≤ n) : Fits n c (.resize len fill)
  | replaceView {idx removeLen len : Size} {source : Source} (readable : Readable c source len)
      (external : 0 < len.val → External c source)
      (fits : idx.val + removeLen.val ≤ c.str.len → c.str.len - removeLen + len ≤ n) :
      Fits n c (.replaceView idx removeLen source len)

/-- `str_clear` beside the mutators. -/
inductive Call where
  | mutate (m : Mutation)
  | clear

def Call.run (c : Cell) : Call → Except Fault (Status × Cell)
  | .mutate m => m.run c
  | .clear => do
      let c ← Str.clear c
      .ok (.ok, c)

/-- A call that a reservation of `n` bytes covers; on a failed string it does nothing. -/
def Call.Within (n : Nat) (c : Cell) : Call → Prop
  | .mutate m => c.str.status = .ok → m.Fits n c
  | .clear => True

/-- The states of a string after calls within `n` bytes, and whatever else happens meanwhile to
the rest of the heap and to the allocator. -/
inductive Reaches (n : Nat) (start : Cell) : Cell → Prop
  | start : Reaches n start start
  | call {c c' : Cell} {call : Call} {status : Status} (reached : Reaches n start c)
      (within : call.Within n c) (ran : call.run c = .ok (status, c')) : Reaches n start c'
  | elsewhere {c : Cell} {heap : Memory} (reached : Reaches n start c)
      (keeps : ∀ id, c.str.Designates id → heap.objs id = c.heap.objs id) :
      Reaches n start { c with heap }

/-- What a reservation of `n` bytes leaves: room for them and the terminator. -/
structure Reserved (n : Nat) (c : Cell) : Prop where
  wellFormed : WellFormed c
  len : c.str.len ≤ n
  room : n = 0 ∨ n + 1 ≤ c.str.cap
  stored : c.str.status ≠ .errAlloc

theorem Source.length_bytes_le (heap : Memory) (source : Source) (len : Nat) :
    (source.bytes heap len).length ≤ len := by
  cases read : source.read heap len with
  | ok bytes =>
      rw [Source.bytes_of_read read]
      exact Nat.le_of_eq (Source.length_of_read read)
  | error fault =>
      rw [Source.bytes, read]
      exact Nat.zero_le _

theorem Reserved.room_of {n : Nat} {c : Cell} (reserved : Reserved n c) {len : Nat}
    (fits : len ≤ n) (pos : 0 < n) : len + 1 ≤ c.str.cap := by
  cases reserved.room with
  | inl none => omega
  | inr room => omega

/-- A quiet call with an admissible result keeps the reservation. -/
theorem Reserved.keep {n : Nat} {c c' : Cell} {want : Bytes} {status : Status}
    (reserved : Reserved n c) (outcome : Outcome c want status c') (quiet : Quiet c status c')
    (fits : status = .ok → want.length ≤ n) : Reserved n c' where
  wellFormed := outcome.wellFormed
  len := by
    by_cases ok : status = .ok
    · obtain ⟨_, content⟩ := outcome.success ok
      rw [← outcome.wellFormed.length_content, content]
      exact fits ok
    · rw [(outcome.failure ok).1]
      exact reserved.len
  room := by
    rw [quiet.still.cap]
    exact reserved.room
  stored := by
    by_cases ok : status = .ok
    · rw [(outcome.success ok).1]
      decide
    · rw [(outcome.failure ok).1]
      exact quiet.stored

theorem Reserved.mutate {n : Nat} {c : Cell} (reserved : Reserved n c) (ok : c.str.status = .ok)
    {m : Mutation} (covered : m.Fits n c) :
    ∃ status c', m.run c = .ok (status, c') ∧ Quiet c status c' ∧ Reserved n c' := by
  have wf := reserved.wellFormed
  have small := reserved.len
  have size (len : Size) : len.val ≤ sizeMax := Nat.le_of_lt_succ len.isLt
  have length := wf.length_content
  cases covered with
  | @setN source len readable fits =>
      obtain ⟨status, c', ran, outcome⟩ := setN_spec wf ok (size len) readable
      have quiet := setN_still wf ok (size len) readable
        (fun pos => reserved.room_of fits (by omega)) ran
      exact ⟨status, c', ran, quiet, reserved.keep outcome quiet fun _ =>
        Nat.le_trans (Source.length_bytes_le _ _ _) fits⟩
  | @appendN source len readable fits =>
      obtain ⟨status, c', ran, outcome⟩ := appendN_spec wf ok (size len) readable
      have quiet := appendN_still wf ok (size len) readable
        (fun pos => reserved.room_of fits (by omega)) ran
      refine ⟨status, c', ran, quiet, reserved.keep outcome quiet fun _ => ?_⟩
      have added := Source.length_bytes_le c.heap source len
      rw [List.length_append, length]
      omega
  | appendChar byte fits =>
      obtain ⟨status, c', ran, outcome⟩ := appendChar_spec wf ok byte
      have quiet := appendChar_still wf ok (reserved.room_of fits (by omega)) ran
      refine ⟨status, c', ran, quiet, reserved.keep outcome quiet fun _ => ?_⟩
      rw [List.length_append, length]
      exact fits
  | @insertN idx len source readable fits =>
      obtain ⟨status, c', ran, outcome⟩ := insertN_spec wf ok idx (size len) readable
      have quiet := insertN_still wf ok (size len) readable
        (fun within pos => reserved.room_of (fits within) (by have := fits within; omega)) ran
      refine ⟨status, c', ran, quiet, reserved.keep outcome quiet fun succeeded => ?_⟩
      have within := fits (insertN_within wf ok (succeeded ▸ ran))
      have added := Source.length_bytes_le c.heap source len
      simp only [List.length_append, List.length_take, List.length_drop, length]
      omega
  | remove idx len =>
      obtain ⟨status, c', ran, outcome⟩ := remove_spec wf ok idx len
      have quiet := remove_still wf ok ran
      refine ⟨status, c', ran, quiet, reserved.keep outcome quiet fun _ => ?_⟩
      simp only [List.length_append, List.length_take, List.length_drop, length]
      omega
  | @resize len fill fits =>
      obtain ⟨status, c', ran, outcome⟩ := resize_spec wf ok fill (size len)
      have quiet := resize_still wf ok (size len)
        (fun grows => reserved.room_of fits (by omega)) ran
      refine ⟨status, c', ran, quiet, reserved.keep outcome quiet fun _ => ?_⟩
      simp only [List.length_append, List.length_take, List.length_replicate, length]
      omega
  | @replaceView idx removeLen len source readable external fits =>
      obtain ⟨status, c', ran, outcome⟩ := replaceView_spec wf ok idx removeLen
        { ptr := source, len } (size len) readable
      have quiet := replaceView_still wf ok (size len) readable external
        (fun within some => reserved.room_of (fits within)
          (by have := fits within; omega)) ran
      refine ⟨status, c', ran, quiet, reserved.keep outcome quiet fun succeeded => ?_⟩
      have span := replaceView_within wf ok (succeeded ▸ ran)
      have within := fits span
      have added := Source.length_bytes_le c.heap source len
      simp only [List.length_append, List.length_take, List.length_drop, length]
      omega

theorem Reserved.call {n : Nat} {c : Cell} (reserved : Reserved n c) {call : Call}
    (within : call.Within n c) :
    ∃ status c', call.run c = .ok (status, c') ∧ Quiet c status c' ∧ Reserved n c' := by
  cases call with
  | mutate m =>
      by_cases ok : c.str.status = .ok
      · exact reserved.mutate ok (within ok)
      · exact ⟨c.str.status, c, m.run_sticky ok, ⟨.refl c, reserved.stored⟩, reserved⟩
  | clear =>
      obtain ⟨c', cleared, wf, _, content, status⟩ := clear_spec reserved.wellFormed
      have cleaned := clearContent_still cleared
      have still : Still c c' := ⟨cleaned.buf, cleaned.cap, cleaned.attempts⟩
      have none : c'.str.len = 0 := by
        rw [← wf.length_content, content]
        rfl
      refine ⟨.ok, c', by simp only [Call.run, cleared, ok_bind], ⟨still, by decide⟩, wf,
        none.symm ▸ Nat.zero_le n, still.cap.symm ▸ reserved.room, ?_⟩
      rw [status]
      decide

theorem Reserved.elsewhere {n : Nat} {c : Cell} {heap : Memory} (reserved : Reserved n c)
    (keeps : ∀ id, c.str.Designates id → heap.objs id = c.heap.objs id) :
    Reserved n { c with heap } where
  wellFormed := (reserved.wellFormed.of_same_block keeps).1
  len := reserved.len
  room := reserved.room
  stored := reserved.stored

theorem Reaches.reserved {n : Nat} {start c : Cell} (initial : Reserved n start)
    (reached : Reaches n start c) :
    Reserved n c ∧ c.str.buf = start.str.buf ∧ c.str.cap = start.str.cap := by
  induction reached with
  | start => exact ⟨initial, rfl, rfl⟩
  | elsewhere reached keeps ih =>
      obtain ⟨reserved, buf, cap⟩ := ih
      exact ⟨reserved.elsewhere keeps, buf, cap⟩
  | call reached within ran ih =>
      obtain ⟨reserved, buf, cap⟩ := ih
      obtain ⟨_, _, run, quiet, next⟩ := reserved.call within
      cases ran.symm.trans run
      exact ⟨next, quiet.still.buf.trans buf, quiet.still.cap.trans cap⟩

/-- A successful reservation leaves room for what was asked for. -/
theorem reserve_reserved {n : Size} {c c₀ : Cell} (wf : WellFormed c) (ok : c.str.status = .ok)
    (small : c.str.len ≤ n) (ran : reserve n c = .ok (.ok, c₀)) : Reserved n c₀ := by
  have size : n.val ≤ sizeMax := Nat.le_of_lt_succ n.isLt
  obtain ⟨status, c', run, outcome⟩ := reserve_spec wf ok size
  cases ran.symm.trans run
  obtain ⟨recorded, content⟩ := outcome.success rfl
  have same : c₀.str.len = c.str.len := by
    rw [← outcome.wellFormed.length_content, content, wf.length_content]
  refine ⟨outcome.wellFormed, same ▸ small, ?_, by rw [recorded]; decide⟩
  by_cases none : n.val = 0
  · exact .inl none
  · refine .inr ?_
    simp only [reserve, validateMutation, ok, if_neg none, calculateCapacity_eq size,
      Nat.zero_add] at ran
    by_cases fits : n.val + 1 ≤ sizeMax
    · rw [if_pos fits] at ran
      rcases ensureCapacity_spec wf (n.val + 1) (by omega) fits with
        ⟨c', refused, _⟩ | ⟨c', q, new, ensured, roomy⟩
      · simp only [refused, ok_bind, recordStatus_failed .errAlloc (by decide)] at ran
        cases ran
      · simp only [ensured, ok_bind, recordStatus_ok] at ran
        cases ran
        rw [roomy.str]
        exact roomy.room
    · rw [if_neg fits] at ran
      simp only [recordFailure_ok .errOverflow (by decide)] at ran
      cases ran

/-- After a successful `str_reserve(n)` on a string of at most `n` bytes, calls whose results
have at most `n` bytes ask the allocator for nothing and keep the buffer where it is, so that
none of them fails for want of storage. -/
theorem reserve_suffices (n : Size) (c c₀ : Cell) (wf : WellFormed c) (ok : c.str.status = .ok)
    (small : c.str.len ≤ n) (ran : reserve n c = .ok (.ok, c₀)) (c₁ : Cell)
    (reached : Reaches n c₀ c₁) :
    c₁.str.buf = c₀.str.buf ∧ c₁.str.cap = c₀.str.cap ∧ c₁.str.status ≠ .errAlloc ∧
    ∀ call : Call, call.Within n c₁ →
      ∃ status c₂, call.run c₁ = .ok (status, c₂) ∧ status ≠ .errAlloc ∧
        c₂.heap.attempts = c₁.heap.attempts ∧
        c₂.str.buf = c₀.str.buf ∧ c₂.str.cap = c₀.str.cap := by
  obtain ⟨reserved, buf, cap⟩ := reached.reserved (reserve_reserved wf ok small ran)
  refine ⟨buf, cap, reserved.stored, fun call within => ?_⟩
  obtain ⟨status, c₂, run, quiet, _⟩ := reserved.call within
  exact ⟨status, c₂, run, quiet.stored, quiet.still.attempts, quiet.still.buf.trans buf,
    quiet.still.cap.trans cap⟩

theorem Reaches.mutate {n : Nat} {start c c' : Cell} (reached : Reaches n start c) {m : Mutation}
    (covered : m.Fits n c) {status : Status} (ran : m.run c = .ok (status, c')) :
    Reaches n start c' :=
  reached.call (show Call.Within n c (.mutate m) from fun _ => covered) ran

/-- The allocator has nothing left to give. -/
theorem Reaches.exhausted {n : Nat} {start c : Cell} (reached : Reaches n start c) :
    Reaches n start { c with heap := { c.heap with answers := fun _ => none } } :=
  reached.elsewhere fun _ _ => rfl

/-- Six bytes are reserved for an empty string. It is set, edited with its own bytes and with
others, and takes its sixth byte when the allocator has nothing left to give. -/
theorem reserve_suffices_first :
    ∃ c₀ c₁ status c₂, reserve 6 .rising = .ok (.ok, c₀) ∧ Reaches 6 c₀ c₁ ∧
      c₁.content = [98, 98, 98, 98, 98] ∧ (∀ attempt, c₁.heap.answers attempt = none) ∧
      (Call.mutate (.appendChar 99)).run c₁ = .ok (status, c₂) ∧ status ≠ .errAlloc ∧
      c₂.heap.attempts = c₁.heap.attempts ∧ c₂.str.buf = c₀.str.buf ∧
      c₂.content = [98, 98, 98, 98, 98, 99] := by
  have begun : ∃ c₀, reserve 6 .rising = .ok (.ok, c₀) ∧ Reaches 6 c₀ c₀ := ⟨_, rfl, .start⟩
  obtain ⟨c₀, reserved, blank⟩ := begun
  cases reserved
  have internal {c : Cell} (buf : c.str.buf = some ⟨0, 4096⟩) (cap : c.str.cap = 16) :
      Internal c (.mem (some ⟨0, 4096⟩)) :=
    ⟨⟨0, 4096⟩, ⟨0, 4096⟩, buf, rfl, rfl, Nat.le_refl _, by rw [cap]; decide⟩
  have set := blank.mutate (m := .setN (.array [97, 98]) 2)
    (.setN (.inr (.inr (.inr ⟨[97, 98], rfl⟩))) (by decide)) rfl
  have inserted := set.mutate (m := .insertN 1 (.mem (some ⟨0, 4096⟩)) 2)
    (.insertN (.inr (.inr (.inl (internal rfl rfl)))) fun _ => by decide) rfl
  have removed := inserted.mutate (m := .remove 0 1) (.remove 0 1) rfl
  have replaced := removed.mutate (m := .replaceView 0 1 (.array [98, 98, 98]) 3)
    (.replaceView (.inr (.inr (.inr ⟨[98, 98, 98], rfl⟩))) (fun _ _ own => nomatch own)
      fun _ => by decide) rfl
  have reached := replaced.exhausted
  obtain ⟨_, _, _, covers⟩ := reserve_suffices 6 .rising _ (.empty rfl rfl rfl) rfl (by decide) rfl
    _ reached
  obtain ⟨status, c₂, ran, stored, attempts, buf, _⟩ :=
    covers (.mutate (.appendChar 99)) fun _ => .appendChar 99 (by decide)
  refine ⟨_, _, status, c₂, rfl, reached, rfl, fun _ => rfl, ran, stored, attempts, buf, ?_⟩
  have content := congrArg (Except.map (·.2.content)) ran
  exact Except.ok.inj (content.symm.trans rfl)

end AgencC.Str
