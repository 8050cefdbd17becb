import AgencC.Str.Atomicity

/-! The string as a byte list with a status. Every call that writes content is one
edit of the list, whatever its source overlaps and wherever the buffer goes. -/

set_option autoImplicit false

namespace AgencC.Str

open Library

/-- What a string is to its user. -/
structure Value where
  content : Bytes
  status : Status
  deriving DecidableEq, Repr

def Cell.value (c : Cell) : Value := { content := c.content, status := c.str.status }

/-- The bytes an edit takes, as a function of the content before the call. Spans of
the content may take in its terminator. -/
inductive Input where
  | external (bytes : Bytes)
  | span (offset len : Nat)
  | text (offset : Nat)

def Input.bytes (content : Bytes) : Input → Bytes
  | .external bytes => bytes
  | .span offset len => ((content ++ [0]).drop offset).take len
  | .text offset => ((content ++ [0]).drop offset).takeWhile (· ≠ 0)

inductive Edit where
  | replace (input : Input)
  | append (input : Input)
  | resize (len : Nat) (fill : UInt8)
  | remove (idx len : Nat)

def Edit.apply (content : Bytes) : Edit → Bytes
  | .replace input => input.bytes content
  | .append input => content ++ input.bytes content
  | .resize len fill => content.take len ++ List.replicate (len - content.length) fill
  | .remove idx len => content.take idx ++ content.drop (idx + len)

/-- An edit that returned `status`: a failure is recorded once and stays. -/
def Value.step (v : Value) (call : Edit × Status) : Value :=
  if v.status ≠ .ok then v
  else if call.2 = .ok then { v with content := call.1.apply v.content }
  else { v with status := call.2 }

/-- What `len` borrowed bytes denote before the call. -/
inductive Source.Denotes (c : Cell) (source : Source) (len : Nat) : Input → Prop
  | nothing (none : len = 0) : Denotes c source len (.external [])
  | external {bytes : Bytes} (apart : External c source)
      (read : source.read c.heap len = .ok bytes) : Denotes c source len (.external bytes)
  | inside {p : Ptr} {offset : Nat} (buf : c.str.buf = some p)
      (own : source = .mem (some (p.add offset))) (within : offset + len ≤ c.str.len + 1) :
      Denotes c source len (.span offset len)

/-- What a C string denotes before the call. -/
inductive Source.DenotesText (c : Cell) (source : Source) : Input → Prop
  | external {text : Bytes} (apart : External c source) (sized : source.Sized)
      (found : source.cString c.heap = .ok text) : DenotesText c source (.external text)
  | inside {p : Ptr} {offset : Nat} (buf : c.str.buf = some p)
      (own : source = .mem (some (p.add offset))) (within : offset ≤ c.str.len) :
      DenotesText c source (.text offset)

/-- The edit a call stands for. -/
inductive Mutation.Edits (c : Cell) : Mutation → Edit → Prop
  | set {source : Source} {input : Input} (denotes : source.DenotesText c input) :
      Edits c (.set source) (.replace input)
  | setN {source : Source} {len : Size} {input : Input} (denotes : source.Denotes c len input) :
      Edits c (.setN source len) (.replace input)
  | setView {source : Source} {len : Size} {input : Input} (denotes : source.Denotes c len input) :
      Edits c (.setView source len) (.replace input)
  | append {source : Source} {input : Input} (denotes : source.DenotesText c input) :
      Edits c (.append source) (.append input)
  | appendN {source : Source} {len : Size} {input : Input} (denotes : source.Denotes c len input) :
      Edits c (.appendN source len) (.append input)
  | appendView {source : Source} {len : Size} {input : Input}
      (denotes : source.Denotes c len input) :
      Edits c (.appendView source len) (.append input)
  | appendChar (byte : UInt8) : Edits c (.appendChar byte) (.append (.external [byte]))
  | resize (len : Size) (fill : UInt8) : Edits c (.resize len fill) (.resize len fill)
  | remove (idx len : Size) : Edits c (.remove idx len) (.remove idx len)
  | copyItself : Edits c (.copy .itself) (.replace (.span 0 c.str.len))
  | copy {s : StrT} (initialized : WellFormed { c with str := s }) :
      Edits c (.copy (.other s)) (.replace (.external (Cell.content { c with str := s })))

/-- The block of a string holds its content, the terminator and spare bytes. -/
theorem Holds.cells_eq {c : Cell} {p : Ptr} {o : Obj UInt8} (holds : Holds c p o)
    (terminated : o.cells[c.str.len]? = some 0) :
    o.cells = (c.content ++ [0]) ++ o.cells.drop (c.str.len + 1) := by
  obtain ⟨inside, last⟩ := List.getElem?_eq_some_iff.mp terminated
  rw [Cell.content, holds.bytes, ← last, ← List.take_succ_eq_append_getElem inside,
    List.take_append_drop]

theorem Holds.read_span {c : Cell} {p : Ptr} {o : Obj UInt8} (holds : Holds c p o)
    {offset len : Nat} (inside : offset + len ≤ o.size) :
    (Source.mem (some (p.add offset))).read c.heap len = .ok ((o.cells.drop offset).take len) :=
  holds.read offset len inside

theorem Source.Denotes.reads {c : Cell} {source : Source} {len : Nat} {input : Input}
    (wf : WellFormed c) (pos : 0 < len) (denotes : source.Denotes c len input) :
    ∃ bytes, source.read c.heap len = .ok bytes := by
  cases denotes with
  | nothing none => omega
  | external apart read => exact ⟨_, read⟩
  | @inside p offset buf own within =>
      cases wf with
      | empty noBuf strLen cap =>
          rw [noBuf] at buf
          cases buf
      | owned holds roomy terminated =>
          obtain rfl : _ = p := Option.some.inj (holds.buf.symm.trans buf)
          rw [own]
          exact ⟨_, holds.read_span (Nat.le_trans within roomy)⟩

theorem Source.Denotes.readable {c : Cell} {source : Source} {len : Nat} {input : Input}
    (wf : WellFormed c) (denotes : source.Denotes c len input) : Readable c source len := by
  cases Nat.eq_zero_or_pos len with
  | inl none => exact .inl none
  | inr pos => exact .inr (.inr (.inr (denotes.reads wf pos)))

theorem Source.Denotes.bytes {c : Cell} {source : Source} {len : Nat} {input : Input}
    (wf : WellFormed c) (denotes : source.Denotes c len input) :
    source.bytes c.heap len = input.bytes c.content := by
  cases denotes with
  | nothing none =>
      rw [none]
      exact Source.bytes_zero _ _
  | external apart read => exact Source.bytes_of_read read
  | @inside p offset buf own within =>
      have length := wf.length_content
      cases wf with
      | empty noBuf strLen cap =>
          rw [noBuf] at buf
          cases buf
      | owned holds roomy terminated =>
          obtain rfl : _ = p := Option.some.inj (holds.buf.symm.trans buf)
          have inside : offset + len ≤ _ := Nat.le_trans within roomy
          rw [own, Source.bytes_of_read (holds.read_span inside), Input.bytes]
          conv_lhs => rw [holds.cells_eq terminated]
          rw [List.drop_append_of_le_length (by simp [length]; omega),
            List.take_append_of_le_length (by simp [length]; omega)]

theorem Source.DenotesText.readable {c : Cell} {source : Source} {input : Input}
    (wf : WellFormed c) (denotes : source.DenotesText c input) :
    source.Sized ∧ ReadableText c source := by
  cases denotes with
  | external apart sized found => exact ⟨sized, .inr (.inr ⟨_, found⟩)⟩
  | @inside p offset buf own within =>
      refine ⟨fun bytes array => ?_, .inr (.inl ⟨p, p.add offset, buf, own, rfl, ?_, ?_⟩)⟩
      · rw [own] at array
        cases array
      · exact Nat.le_add_right _ _
      · cases wf with
        | empty noBuf strLen cap =>
            rw [noBuf] at buf
            cases buf
        | owned holds roomy terminated =>
            have cap := holds.cap
            show p.addr + offset < p.addr + c.str.cap
            omega

theorem Source.DenotesText.text {c : Cell} {source : Source} {input : Input}
    (wf : WellFormed c) (denotes : source.DenotesText c input) :
    source.text c.heap = input.bytes c.content := by
  cases denotes with
  | external apart sized found => exact Source.text_of_cString found
  | @inside p offset buf own within =>
      have length := wf.length_content
      cases wf with
      | empty noBuf strLen cap =>
          rw [noBuf] at buf
          cases buf
      | @owned p' o holds roomy terminated =>
          obtain rfl : p' = p := Option.some.inj (holds.buf.symm.trans buf)
          have start := holds.start
          -- The bytes from the source to the end of the block hold the terminator.
          have cells : o.cells.drop offset =
              (c.content ++ [0]).drop offset ++ o.cells.drop (c.str.len + 1) := by
            conv_lhs => rw [holds.cells_eq terminated]
            rw [List.drop_append_of_le_length (by simp [length]; omega)]
          have nul : 0 ∈ (c.content ++ [0]).drop offset := by
            rw [List.drop_append_of_le_length (by omega)]
            exact List.mem_append_right _ (List.mem_singleton_self 0)
          have rest : (Source.mem (some (p'.add offset))).rest c.heap =
              .ok (o.cells.drop offset) := by
            have read := holds.read offset (o.size - offset) (by omega)
            have all : (o.cells.drop offset).take (o.size - offset) = o.cells.drop offset :=
              List.take_of_length_le (by rw [List.length_drop]; exact Nat.le_refl _)
            rw [all] at read
            simp only [Source.rest, Ptr.add, holds.live]
            have count : o.base + o.size - (p'.addr + offset) = o.size - offset := by omega
            rw [count]
            exact read
          have found : (Source.mem (some (p'.add offset))).cString c.heap =
              .ok ((o.cells.drop offset).takeWhile (· ≠ 0)) := by
            simp only [Source.cString, rest, ok_bind]
            rw [if_pos (by rw [cells]; exact List.mem_append_left _ nul)]
          rw [own, Source.text_of_cString found, Input.bytes, cells]
          obtain ⟨tail, split⟩ := text_split nul
          rw [List.takeWhile_append, if_neg]
          intro whole
          have lengths := congrArg List.length split
          rw [List.length_append, List.length_cons, whole] at lengths
          omega

/-- A call that stands for an edit succeeds with it, or records its failure. -/
theorem Mutation.Edits.outcome {c : Cell} (wf : WellFormed c) (ok : c.str.status = .ok)
    {m : Mutation} {edit : Edit} (edits : m.Edits c edit) :
    ∃ status c', m.run c = .ok (status, c') ∧ Outcome c (edit.apply c.content) status c' := by
  have size (n : Size) : n.val ≤ sizeMax := Nat.le_of_lt_succ n.isLt
  cases edits with
  | set denotes =>
      obtain ⟨sized, readable⟩ := denotes.readable wf
      rw [Edit.apply, ← denotes.text wf]
      exact setCString_spec wf ok sized readable
  | setN denotes | setView denotes =>
      rw [Edit.apply, ← denotes.bytes wf]
      exact setN_spec wf ok (size _) (denotes.readable wf)
  | append denotes =>
      obtain ⟨sized, readable⟩ := denotes.readable wf
      rw [Edit.apply, ← denotes.text wf]
      exact appendCString_spec wf ok sized readable
  | appendN denotes | appendView denotes =>
      rw [Edit.apply, ← denotes.bytes wf]
      exact appendN_spec wf ok (size _) (denotes.readable wf)
  | appendChar byte => exact appendChar_spec wf ok byte
  | resize len fill =>
      rw [Edit.apply, wf.length_content]
      exact resize_spec wf ok fill (size len)
  | remove idx len => exact remove_spec wf ok idx len
  | copyItself =>
      have whole : Edit.apply c.content (.replace (.span 0 c.str.len)) = c.content := by
        rw [Edit.apply, Input.bytes, List.drop_zero, ← wf.length_content,
          List.take_left]
      rw [whole]
      refine ⟨.ok, c, ?_, .refl wf ok⟩
      simp only [run, Str.copy, validateMutation, ok]
  | copy initialized => exact copy_spec wf ok initialized

/-- Calls on one string, one after another, with the edits they stand for and the
statuses they return. Between two calls the rest of the heap may change. -/
inductive EditRun : Cell → List (Edit × Status) → Cell → Prop
  | done (c : Cell) : EditRun c [] c
  | call {c c' c'' : Cell} {m : Mutation} {edit : Edit} {status : Status}
      {calls : List (Edit × Status)} (edits : m.Edits c edit)
      (ran : m.run c = .ok (status, c')) (later : EditRun c' calls c'') :
      EditRun c ((edit, status) :: calls) c''
  | elsewhere {c c' : Cell} {heap : Memory} {calls : List (Edit × Status)}
      (same : ∀ id, c.str.Designates id → heap.objs id = c.heap.objs id)
      (later : EditRun { c with heap } calls c') : EditRun c calls c'

/-- One call takes the value of the string a step on. -/
theorem Mutation.Edits.value {c c' : Cell} (wf : WellFormed c) {m : Mutation} {edit : Edit}
    {status : Status} (edits : m.Edits c edit) (ran : m.run c = .ok (status, c')) :
    WellFormed c' ∧ c'.value = c.value.step (edit, status) := by
  by_cases ok : c.str.status = .ok
  · obtain ⟨returned, c'', result, outcome⟩ := edits.outcome wf ok
    rw [ran] at result
    cases result
    refine ⟨outcome.wellFormed, ?_⟩
    have accepts : ¬ c.value.status ≠ .ok := fun failed => failed ok
    rw [Value.step, if_neg accepts]
    by_cases succeeded : status = .ok
    · obtain ⟨status', content⟩ := outcome.success succeeded
      rw [if_pos succeeded, Cell.value, status', content, ← ok]
      rfl
    · obtain ⟨str, objs⟩ := outcome.failure succeeded
      rw [if_neg succeeded]
      simp only [Cell.value, Cell.content, Cell.bytes, str, objs]
  · rw [m.run_sticky ok] at ran
    cases ran
    exact ⟨wf, (if_pos ok).symm⟩

theorem EditRun.value {c c' : Cell} {calls : List (Edit × Status)} (run : EditRun c calls c')
    (wf : WellFormed c) : WellFormed c' ∧ c'.value = calls.foldl Value.step c.value := by
  induction run with
  | done c => exact ⟨wf, rfl⟩
  | call edits ran later ih =>
      obtain ⟨wf', value⟩ := edits.value wf ran
      rw [List.foldl_cons, ← value]
      exact ih wf'
  | @elsewhere c c' heap calls same later ih =>
      obtain ⟨wf', content⟩ := wf.of_same_block same
      have value : Cell.value { c with heap } = c.value := by
        simp only [Cell.value, content]
      rw [← value]
      exact ih wf'

/-- The content and the status a sequence of calls leaves follow from the value
before, the edits and the returned statuses alone; addresses, spare capacity and
moves of the buffer have no part in it. -/
theorem edits_determine_value {c c' d d' : Cell} {calls : List (Edit × Status)}
    (wf : WellFormed c) (wf' : WellFormed d) (same : c.value = d.value)
    (run : EditRun c calls c') (run' : EditRun d calls d') :
    c'.value = calls.foldl Value.step c.value ∧ d'.value = c'.value := by
  obtain ⟨_, value⟩ := run.value wf
  obtain ⟨_, value'⟩ := run'.value wf'
  exact ⟨value, by rw [value, value', same]⟩

/-- The string `ab` in a block of `2 + spare` bytes at `base`; what is allocated next
is placed at `next`. -/
def abAt (base spare next : Nat) (inside : 0 < base ∧ base + (2 + spare) ≤ sizeMax) : Cell where
  str := { buf := some ⟨0, base⟩, len := 2, cap := 2 + spare, status := .ok }
  heap := Heap.insert (.vacant fun _ => some { base := next, garbage := fun _ => 7 })
    { base, allocated := true, cells := [97, 98] ++ List.replicate spare 0 }
    ⟨inside.1, by
      simp only [Obj.size, List.length_append, List.length_cons, List.length_nil,
        List.length_replicate]
      omega, fun id below => (by cases below)⟩

theorem abAt_wellFormed (base spare next : Nat)
    (inside : 0 < base ∧ base + (2 + spare) ≤ sizeMax) (room : 0 < spare) :
    WellFormed (abAt base spare next inside) := by
  refine .owned (p := ⟨0, base⟩)
    (o := { base, allocated := true, cells := [97, 98] ++ List.replicate spare 0 })
    ⟨rfl, rfl, rfl, rfl, ?_⟩ ?_ ?_
  · simp only [abAt, Obj.size, List.length_append, List.length_cons, List.length_nil,
      List.length_replicate]
  · simp [abAt, Obj.size]
    omega
  · simp [abAt, room]

/-- A string with room and one whose buffer has to move are appended their own last
byte with its terminator. -/
theorem edits_determine_value_moved :
    ∃ c' d' : Cell, c'.value = ⟨[97, 98, 98, 0], .ok⟩ ∧ d'.value = c'.value ∧
      c'.str.buf = some ⟨0, 16⟩ ∧ d'.str.buf = some ⟨1, 256⟩ := by
  have run : EditRun (abAt 16 14 0 (by decide)) [(.append (.span 1 2), .ok)] _ :=
    .call (.appendN (.inside rfl rfl (by decide)))
      (m := .appendN (.mem (some ⟨0, 17⟩)) 2) rfl (.done _)
  have moved : EditRun (abAt 64 1 256 (by decide)) [(.append (.span 1 2), .ok)] _ :=
    .call (.appendN (.inside rfl rfl (by decide)))
      (m := .appendN (.mem (some ⟨0, 65⟩)) 2) rfl (.done _)
  have start : (abAt 16 14 0 (by decide)).value = (abAt 64 1 256 (by decide)).value := rfl
  obtain ⟨value, same⟩ := edits_determine_value (abAt_wellFormed _ _ _ _ (by decide))
    (abAt_wellFormed _ _ _ _ (by decide)) start run moved
  exact ⟨_, _, value, same, rfl, rfl⟩

end AgencC.Str
