import AgencC.Str.Content

/-! Insertion from anywhere, the string itself included, and when it succeeds. -/

set_option autoImplicit false

namespace AgencC.Str

open Library

/-- A source with a span to read is not NULL. -/
theorem Source.Denotes.given {c : Cell} {source : Source} {len : Nat} {input : Input}
    (pos : 0 < len) (denotes : source.Denotes c len input) : source.isNull = false := by
  cases denotes with
  | nothing none => omega
  | external apart read =>
      cases source with
      | array bytes => rfl
      | mem pointer =>
          cases pointer with
          | none => cases read
          | some q => rfl
  | inside buf own within =>
      rw [own]
      rfl

/-- Spans that lie outside the buffer or up to its terminator pass the overlap check. -/
theorem detectOverlap_accepts {c : Cell} (wf : WellFormed c) {source : Source} {len : Nat}
    {input : Input} (pos : 0 < len) (denotes : source.Denotes c len input) :
    ∃ found, detectOverlap c.str source len = .ok (.ok found) := by
  have given := denotes.given pos
  obtain ⟨found, detected, classified⟩ := detectOverlap_spec wf given pos (denotes.readable wf)
  cases classified with
  | outside external read => exact ⟨none, detected⟩
  | inside buf own within => exact ⟨_, detected⟩
  | invalid =>
      cases denotes with
      | nothing none => omega
      | external apart read =>
          -- An external source has no offset in the buffer.
          have unfound : findAllocationOffset c.str source = npos := by
            cases source with
            | array bytes => rfl
            | mem pointer =>
                cases pointer with
                | none => cases given
                | some q =>
                    cases wf with
                    | empty buf strLen cap => simp [findAllocationOffset, buf]
                    | owned holds inside terminated =>
                        obtain ⟨other, live, above, below, _⟩ := Heap.read_eq_ok read
                        have distinct : q.obj ≠ _ := fun same =>
                          apart q rfl ((holds.designates _).mpr same)
                        exact findAllocationOffset_other holds distinct live above (by omega)
          simp only [detectOverlap, ensure_of given, ensure_of pos, ok_bind, if_pos unfound]
            at detected
          cases detected
      | @inside p offset buf own within =>
          cases wf with
          | empty noBuf strLen cap =>
              rw [noBuf] at buf
              cases buf
          | @owned p' o holds roomy terminated =>
              obtain rfl : p' = p := Option.some.inj (holds.buf.symm.trans buf)
              have size := holds.size_lt
              have start : findAllocationOffset c.str source = offset := by
                rw [own, findAllocationOffset_own holds (Nat.le_add_right _ _)
                  (Nat.add_lt_add_left (by omega) _)]
                exact Nat.add_sub_cancel_left _ _
              simp only [detectOverlap, ensure_of given, ensure_of pos, ok_bind, start] at detected
              rw [if_neg (by unfold npos; omega),
                validateInternalSourceSpan_eq (.owned holds roomy terminated) (by simp [buf]) _ _ pos,
                if_pos within] at detected
              cases detected

/-- An insertion that fits and is granted its storage succeeds. -/
theorem insertN_succeeds {c : Cell} (wf : WellFormed c) (ok : c.str.status = .ok) {idx len : Nat}
    (size : len ≤ sizeMax) (span : idx ≤ c.str.len) (pos : 0 < len) {source : Source}
    {input : Input} (denotes : source.Denotes c len input)
    (fits : c.str.len + len + 1 ≤ sizeMax) (granted : Grants (c.str.len + len + 1) c)
    {status : Status} {c' : Cell} (ran : insertN idx source len c = .ok (status, c')) :
    status = .ok := by
  have given := denotes.given pos
  obtain ⟨found, detected⟩ := detectOverlap_accepts wf pos denotes
  rcases beginMutation_cases ok source len with ⟨begun, _⟩ | rejected
  · simp only [insertN, begun, ok_bind, validateSpan_eq wf, Nat.add_zero, if_pos span,
      if_neg (show ¬ len = 0 by omega), prepareInsert, ensure_of given, ensure_of pos,
      calculateCapacity_eq size, if_pos fits, detected] at ran
    rcases ensured : ensureCapacity (c.str.len + len + 1) c with fault | ⟨reached, c''⟩
    · cases found with
      | none =>
          simp only [ensured] at ran
          cases ran
      | some offset =>
          have adjust : adjustSourceOffset offset idx len =
              .ok (if idx ≤ offset then sizeAdd offset len else offset) := by
            simp only [adjustSourceOffset, ensure_of pos, ok_bind]
          simp only [adjust, ok_bind, ensured] at ran
          cases ran
    · obtain rfl := ensureCapacity_granted wf fits granted ensured
      cases found with
      | none =>
          simp only [ensured, ok_bind] at ran
          obtain ⟨c₁, _, finished⟩ := bind_eq_ok.mp ran
          cases finished
          rfl
      | some offset =>
          have adjust : adjustSourceOffset offset idx len =
              .ok (if idx ≤ offset then sizeAdd offset len else offset) := by
            simp only [adjustSourceOffset, ensure_of pos, ok_bind]
          simp only [adjust, ensured, ok_bind] at ran
          obtain ⟨c₁, _, finished⟩ := bind_eq_ok.mp ran
          cases finished
          rfl
  · simp only [insertN, rejected, ok_bind] at ran
    simp only [beginMutation, validateMutation, ok, validateSource, given] at rejected
    rw [if_neg (by omega)] at rejected
    cases rejected

/-- The terminator of a string with a block stands after its content. -/
theorem WellFormed.terminated {c : Cell} (wf : WellFormed c) (pos : 0 < c.str.len) :
    c.bytes[c.str.len]? = some 0 := by
  obtain ⟨p, o, holds, _, last⟩ := wf.holds_of_len pos
  rw [holds.bytes]
  exact last

/-- `str_insert_n` with a nonempty span from outside the string or from anywhere up to
its terminator: success is the insertion of the bytes the span held before the
call, and only a size overflow or a refused allocation prevents it. -/
theorem insertN_content (c : Cell) (wf : WellFormed c) (ok : c.str.status = .ok) (idx len : Size)
    (span : idx.val ≤ c.str.len) (pos : 0 < len.val) (source : Source) (input : Input)
    (denotes : source.Denotes c len input) :
    ∃ status c', insertN idx source len c = .ok (status, c') ∧ WellFormed c' ∧
      (status = .ok →
        c'.content = c.content.take idx ++ input.bytes c.content ++ c.content.drop idx ∧
        c'.str.len = c.str.len + len ∧ c'.bytes[c'.str.len]? = some 0) ∧
      (c.str.len + len + 1 ≤ sizeMax → Grants (c.str.len + len + 1) c → status = .ok) := by
  have size : len.val ≤ sizeMax := Nat.le_of_lt_succ len.isLt
  obtain ⟨status, c', ran, outcome⟩ := insertN_spec wf ok idx size (denotes.readable wf)
  refine ⟨status, c', ran, outcome.wellFormed, fun succeeded => ?_, fun fits granted =>
    insertN_succeeds wf ok size span pos denotes fits granted ran⟩
  obtain ⟨_, content⟩ := outcome.success succeeded
  have length : c'.str.len = c.str.len + len := by
    obtain ⟨bytes, read⟩ := denotes.reads wf pos
    have lengths := congrArg List.length content
    rw [outcome.wellFormed.length_content, List.length_append, List.length_append,
      List.length_take, List.length_drop, wf.length_content, Source.bytes_of_read read,
      Source.length_of_read read] at lengths
    omega
  refine ⟨?_, length, outcome.wellFormed.terminated (by omega)⟩
  rw [content, denotes.bytes wf]

/-- A span with the terminator, straddling the insertion point. -/
theorem insertN_content_straddling :
    ∃ c', insertN 1 (.mem (some ⟨0, 16⟩)) 3 (abAt 16 14 0 (by decide)) = .ok (.ok, c') ∧
      c'.content = [97, 97, 98, 0, 98] := by
  obtain ⟨status, c', ran, _, success, succeeds⟩ := insertN_content (abAt 16 14 0 (by decide))
    (abAt_wellFormed _ _ _ _ (by decide)) rfl 1 3 (by decide) (by decide)
    (.mem (some ⟨0, 16⟩)) (.span 0 3) (.inside rfl rfl (by decide))
  obtain rfl := succeeds (by decide) (fun grows => absurd grows (by decide))
  exact ⟨c', ran, (success rfl).1⟩

end AgencC.Str
