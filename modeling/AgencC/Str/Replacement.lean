import AgencC.Str.Insertion

/-! Replacement as one edit of the content, whichever of its two algorithms runs. -/

set_option autoImplicit false

namespace AgencC.Str

open Library

/-- `removeLen` bytes from `idx` on make way for `replacement`. -/
def splice (idx removeLen : Nat) (replacement content : Bytes) : Bytes :=
  content.take idx ++ replacement ++ content.drop (idx + removeLen)

theorem length_splice {idx removeLen : Nat} (replacement : Bytes) {content : Bytes}
    (span : idx + removeLen ≤ content.length) :
    (splice idx removeLen replacement content).length =
      content.length - removeLen + replacement.length := by
  simp only [splice, List.length_append, List.length_take, List.length_drop]
  omega

/-- A string with a buffer has a terminator after its content. -/
theorem WellFormed.closed {c : Cell} (wf : WellFormed c) (held : c.str.buf ≠ none) :
    c.bytes[c.str.len]? = some 0 := by
  cases wf with
  | empty buf len cap => exact absurd buf held
  | owned holds inside terminated =>
      rw [holds.bytes]
      exact terminated

theorem Source.Denotes.length {c : Cell} {source : Source} {len : Nat} {input : Input}
    (wf : WellFormed c) (denotes : source.Denotes c len input) :
    (input.bytes c.content).length = len := by
  cases Nat.eq_zero_or_pos len with
  | inl none =>
      rw [← denotes.bytes wf, none, Source.bytes_zero]
      rfl
  | inr pos =>
      obtain ⟨bytes, read⟩ := denotes.reads wf pos
      rw [← denotes.bytes wf, Source.bytes_of_read read, Source.length_of_read read]

/-! When a replacement succeeds. -/

/-- The allocator grants what a replacement of another length asks it for: storage for a copy of
bytes of the string's own allocation, and then a growth to `need` bytes. -/
def StageGrants (replacement : Borrowed) (need : Nat) (c : Cell) : Prop :=
  (0 < replacement.len ∧ Internal c replacement.ptr →
    (c.heap.malloc replacement.len).1.isSome ∧
      Grants need { c with heap := (c.heap.malloc replacement.len).2 }) ∧
  (¬ (0 < replacement.len ∧ Internal c replacement.ptr) → Grants need c)

theorem External.not_internal {c : Cell} {source : Source} (external : External c source) :
    ¬ Internal c source := by
  intro internal
  obtain ⟨p, q, buf, own, same, _⟩ := internal
  exact external q own ⟨p, buf, same.symm⟩

/-- Bytes that the string can be read to denote are staged where the allocator grants the copy,
and what it grants the growth is not touched by that. -/
theorem stageReplacement_granted {c : Cell} (wf : WellFormed c) {replacement : Borrowed}
    {input : Input} (denotes : replacement.ptr.Denotes c replacement.len input) {need : Nat}
    (granted : StageGrants replacement need c) {staged : Except Status Staged} {heap : Memory}
    (stage : stageReplacement replacement c = .ok (staged, heap)) :
    (∃ view, staged = .ok view) ∧ Grants need { c with heap } := by
  have valid : replacement.isValid = true := Borrowed.isValid_of fun pos => denotes.given pos
  simp only [stageReplacement, ensure_of valid, ok_bind] at stage
  by_cases empty : replacement.len = 0
  · rw [if_pos empty] at stage
    cases stage
    exact ⟨⟨_, rfl⟩, granted.2 fun both => Nat.ne_of_gt both.1 empty⟩
  · have pos : 0 < replacement.len := by omega
    have given := denotes.given pos
    obtain ⟨found, detected, classified⟩ := detectOverlap_spec wf given pos (denotes.readable wf)
    obtain ⟨_, accepted⟩ := detectOverlap_accepts wf pos denotes
    cases detected.symm.trans accepted
    simp only [if_neg empty, detected, ok_bind] at stage
    cases classified with
    | outside external read =>
        cases stage
        exact ⟨⟨_, rfl⟩, granted.2 fun both => external.not_internal both.2⟩
    | @inside p offset buf own within =>
        have cap : c.str.len < c.str.cap := by
          cases wf with
          | empty noBuf strLen cap =>
              rw [noBuf] at buf
              cases buf
          | owned holds inside terminated => exact holds.cap ▸ inside
        have internal : Internal c replacement.ptr :=
          ⟨p, p.add offset, buf, own, rfl, Nat.le_add_right _ _,
            Nat.add_lt_add_left (by omega) _⟩
        obtain ⟨some, grants⟩ := granted.1 ⟨pos, internal⟩
        rcases asked : c.heap.malloc replacement.len with ⟨answer, heap₁⟩
        rw [asked] at some grants
        cases answer with
        | none => cases some
        | some ownedBuf =>
            have allocated : allocateHeap replacement.len c.heap = .ok (.ok ownedBuf, heap₁) := by
              simp only [allocateHeap, ensure_of pos, ok_bind, asked]
            simp only [allocated, ok_bind] at stage
            obtain ⟨heap₂, moved, finished⟩ := bind_eq_ok.mp stage
            cases finished
            simp only [moveBytes, if_neg empty, ensure_of given, ok_bind] at moved
            obtain ⟨bytes, _, wrote⟩ := bind_eq_ok.mp moved
            obtain ⟨o, cells, live, stores⟩ := Heap.write_eq_ok wrote
            exact ⟨⟨_, rfl⟩, grants.alike (stores.alike live)⟩

theorem replaceEqualSpan_succeeds {c : Cell} (wf : WellFormed c) {idx len : Nat}
    (pos : 0 < len) {source : Source} {input : Input} (denotes : source.Denotes c len input)
    {status : Status} {c' : Cell}
    (ran : replaceEqualSpan idx { ptr := source, len } c = .ok (status, c')) : status = .ok := by
  obtain ⟨found, detected⟩ := detectOverlap_accepts wf pos denotes
  obtain ⟨_, _, ran⟩ := bind_eq_ok.mp ran
  obtain ⟨_, _, ran⟩ := bind_eq_ok.mp ran
  obtain ⟨_, _, ran⟩ := bind_eq_ok.mp ran
  simp only [detected, ok_bind] at ran
  obtain ⟨c₁, _, finished⟩ := bind_eq_ok.mp ran
  cases finished
  rfl

theorem replaceResizedSpan_succeeds {c : Cell} (wf : WellFormed c) {idx removeLen newLen : Nat}
    {replacement : Borrowed} {input : Input}
    (denotes : replacement.ptr.Denotes c replacement.len input) (fits : newLen + 1 ≤ sizeMax)
    (granted : StageGrants replacement (newLen + 1) c) {status : Status} {c' : Cell}
    (ran : replaceResizedSpan idx removeLen newLen replacement c = .ok (status, c')) :
    status = .ok := by
  have given : 0 < replacement.len → replacement.ptr.isNull = false := fun pos => denotes.given pos
  obtain ⟨staged, heap, stage, stagedFor⟩ := stageReplacement_spec wf given (denotes.readable wf)
  obtain ⟨⟨view, held⟩, grants⟩ := stageReplacement_granted wf denotes granted stage
  subst held
  have capacity : calculateCapacity 0 newLen = .ok (newLen + 1) := by
    rw [calculateCapacity_eq (Nat.le_of_succ_le fits), Nat.zero_add, if_pos fits]
  simp only [replaceResizedSpan, capacity, stage, ok_bind] at ran
  have wf' : WellFormed { c with heap } := by
    cases stagedFor with
    | borrowed external length read => exact wf
    | copied tmp length old read => exact tmp.wellFormed wf
  obtain ⟨⟨reached, c₁⟩, ensured, rest⟩ := bind_eq_ok.mp ran
  obtain rfl := ensureCapacity_granted wf' fits grants ensured
  obtain ⟨c₂, _, rest⟩ := bind_eq_ok.mp rest
  obtain ⟨heap', _, finished⟩ := bind_eq_ok.mp rest
  cases finished
  rfl

/-- A replacement of as many bytes as are removed needs no storage; one of another number of
bytes succeeds where it fits and is granted its storage. -/
theorem replaceView_succeeds {c : Cell} (wf : WellFormed c) (ok : c.str.status = .ok)
    {idx removeLen len : Nat} (size : len ≤ sizeMax) (span : idx + removeLen ≤ c.str.len)
    {source : Source} {input : Input} (denotes : source.Denotes c len input)
    (fits : c.str.len - removeLen + len + 1 ≤ sizeMax)
    (granted : removeLen ≠ len →
      StageGrants { ptr := source, len } (c.str.len - removeLen + len + 1) c)
    {status : Status} {c' : Cell}
    (ran : replaceView idx removeLen { ptr := source, len } c = .ok (status, c')) :
    status = .ok := by
  have bound := wf.len_lt
  have given : 0 < len → source.isNull = false := fun pos => denotes.given pos
  rcases beginMutation_cases ok source len with ⟨begun, _⟩ | rejected
  · simp only [replaceView, begun, ok_bind, validateSpan_eq wf, if_pos span] at ran
    by_cases nothing : removeLen = 0 ∧ len = 0
    · rw [if_pos nothing] at ran
      cases ran
      rfl
    · rw [if_neg nothing] at ran
      obtain ⟨⟨reached, c₁⟩, applied, recorded⟩ := bind_eq_ok.mp ran
      have reaches : reached = .ok := by
        obtain ⟨_, _, applied⟩ := bind_eq_ok.mp applied
        obtain ⟨_, _, applied⟩ := bind_eq_ok.mp applied
        obtain ⟨_, _, applied⟩ := bind_eq_ok.mp applied
        by_cases equal : removeLen = len
        · rw [if_pos equal] at applied
          exact replaceEqualSpan_succeeds wf (by omega) denotes applied
        · have kept : sizeSub c.str.len removeLen = c.str.len - removeLen :=
            sizeSub_of_le (by omega) (by omega)
          have removed : removeLen ≤ c.str.len := by omega
          simp only [if_neg equal, calculateReplacementLength, ensure_of removed, ok_bind, kept,
            addSize_eq size, if_pos (Nat.le_of_succ_le fits)] at applied
          exact replaceResizedSpan_succeeds wf denotes fits (granted equal) applied
      subst reaches
      cases recorded
      rfl
  · simp only [beginMutation, validateMutation, ok, validateSource] at rejected
    by_cases empty : len = 0
    · rw [if_pos empty] at rejected
      cases rejected
    · rw [if_neg empty, given (by omega)] at rejected
      cases rejected

/-- `str_replace_view` with a view from outside the string, an empty one, or one that lies
anywhere up to the string's terminator: a success is a splice of the bytes the view held
before the call. -/
theorem replaceView_splice (c : Cell) (wf : WellFormed c) (ok : c.str.status = .ok)
    (idx removeLen len : Size) (span : idx.val + removeLen.val ≤ c.str.len) (source : Source)
    (input : Input) (denotes : source.Denotes c len input) :
    ∃ status c', replaceView idx removeLen { ptr := source, len } c = .ok (status, c') ∧
      WellFormed c' ∧
      (status = .ok →
        c'.content = splice idx removeLen (input.bytes c.content) c.content ∧
        c'.str.len = c.str.len - removeLen + len ∧
        (c'.str.buf ≠ none → c'.bytes[c'.str.len]? = some 0)) := by
  have size : len.val ≤ sizeMax := Nat.le_of_lt_succ len.isLt
  obtain ⟨status, c', ran, outcome⟩ := replaceView_spec wf ok idx removeLen
    { ptr := source, len } size (denotes.readable wf)
  refine ⟨status, c', ran, outcome.wellFormed, fun succeeded => ?_⟩
  obtain ⟨_, content⟩ := outcome.success succeeded
  rw [denotes.bytes wf] at content
  have content : c'.content = splice idx removeLen (input.bytes c.content) c.content := content
  have length : c'.str.len = c.str.len - removeLen + len := by
    have whole := length_splice (input.bytes c.content)
      (show idx.val + removeLen.val ≤ c.content.length by rw [wf.length_content]; exact span)
    rw [← outcome.wellFormed.length_content, content, whole, wf.length_content, denotes.length wf]
  exact ⟨content, length, outcome.wellFormed.closed⟩

/-- The string `ab` in a block without spare capacity; every block it is given next lies beyond
those before. -/
def abFull : Cell where
  str := (abAt 16 1 64 (by decide)).str
  heap := { (abAt 16 1 64 (by decide)).heap with
    answers := fun attempt => some { base := 64 * (attempt + 1), garbage := fun _ => 7 } }

theorem abFull_wellFormed : WellFormed abFull := by
  have same : ∀ id, (abAt 16 1 64 (by decide)).str.Designates id →
      abFull.heap.objs id = (abAt 16 1 64 (by decide)).heap.objs id := fun _ _ => rfl
  exact ((abAt_wellFormed 16 1 64 _ (by decide)).of_same_block same).1

/-- A copy of the last byte and the terminator, and then a larger buffer. -/
theorem abFull_grants :
    StageGrants { ptr := .mem (some ⟨0, 17⟩), len := 2 } 4 abFull := by
  have internal : Internal abFull (.mem (some ⟨0, 17⟩)) :=
    ⟨⟨0, 16⟩, ⟨0, 17⟩, rfl, rfl, rfl, by decide, by decide⟩
  refine ⟨fun _ => ⟨rfl, fun _ newCap chosen answer heap ran => ?_⟩,
    fun outside => absurd ⟨by decide, internal⟩ outside⟩
  cases chosen
  cases ran
  rfl

/-- The string makes way for its last byte and the terminator: all of it in place, and its first
byte in a buffer that has to grow and moves. -/
theorem replaceView_splice_own :
    (∃ c', replaceView 0 2 { ptr := .mem (some ⟨0, 17⟩), len := 2 } (abAt 16 3 64 (by decide)) =
        .ok (.ok, c') ∧
      c'.content = [98, 0]) ∧
    ∃ c', replaceView 0 1 { ptr := .mem (some ⟨0, 17⟩), len := 2 } abFull = .ok (.ok, c') ∧
      c'.content = [98, 0, 98] ∧ c'.str.buf = some ⟨2, 128⟩ := by
  constructor
  · have wf := abAt_wellFormed 16 3 64 (by decide) (by decide)
    have own : (Source.mem (some ⟨0, 17⟩)).Denotes (abAt 16 3 64 (by decide)) 2 (.span 1 2) :=
      .inside rfl rfl (by decide)
    obtain ⟨status, c', ran, _, success⟩ :=
      replaceView_splice (abAt 16 3 64 (by decide)) wf rfl 0 2 2 (by decide) _ _ own
    obtain rfl := replaceView_succeeds wf rfl (by decide) (by decide) own (by decide)
      (fun other => absurd rfl other) ran
    exact ⟨c', ran, (success rfl).1⟩
  · have own : (Source.mem (some ⟨0, 17⟩)).Denotes abFull 2 (.span 1 2) :=
      .inside rfl rfl (by decide)
    obtain ⟨status, c', ran, _, success⟩ :=
      replaceView_splice abFull abFull_wellFormed rfl 0 1 2 (by decide) _ _ own
    obtain rfl := replaceView_succeeds abFull_wellFormed rfl (by decide) (by decide) own (by decide)
      (fun _ => abFull_grants) ran
    refine ⟨c', ran, (success rfl).1, ?_⟩
    cases ran
    rfl

end AgencC.Str
