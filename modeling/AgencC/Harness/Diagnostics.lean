import AgencC.Harness.Runner
import AgencC.Library.Lines
import AgencC.Library.Printf
import AgencC.Library.Truncation

/-! The diagnostic buffer as an array of characters: what the calls of a test leave in it, and how
`tt_flush_diag` prints it. The runner keeps only its text. -/

set_option autoImplicit false

namespace AgencC.Harness

open Library

/-- `tt_c.diag` and `tt_c.diag_len`. -/
structure DiagBuffer where
  diag : List Char
  diagLen : Nat

def DiagBuffer.text (buffer : DiagBuffer) : CString := buffer.diag.take buffer.diagLen

/-- `tt_diag` of a format that renders to `chunk`. -/
def DiagBuffer.ttDiag (chunk : CString) (buffer : DiagBuffer) : Except Fault DiagBuffer :=
  if diagCap - 1 ≤ buffer.diagLen then .ok buffer
  else do
    let room := diagCap - buffer.diagLen
    let (diag, n) ← vsnprintf buffer.diag buffer.diagLen room chunk
    if n < 0 then .ok { buffer with diag }
    else if room ≤ n.toNat then .ok { diag, diagLen := diagCap - 1 }
    else .ok { diag, diagLen := buffer.diagLen + n.toNat }

/-- `tt_note` of a format that renders to `text`; `none` for a NULL or empty format. `garbage` is
what `buf` holds before it is written. -/
def DiagBuffer.ttNote (text : Option CString) (garbage : Nat → Char) (buffer : DiagBuffer) :
    Except Fault DiagBuffer :=
  match text with
  | none => .ok buffer
  | some text => do
      let buffer ← buffer.ttDiag ['n', 'o', 't', 'e', ':', ' ']
      let (buf, n) ← vsnprintf ((List.range noteCap).map garbage) 0 noteCap text
      let buffer ←
        if 0 < n then do
          let printed ← printString buf (noteCap + 1) 0
          buffer.ttDiag printed
        else .ok buffer
      buffer.ttDiag ['\n']

/-- The text of `"%s:%d: %s\n"` in `tt_fail_begin`. -/
def failLocation (cond file : CString) (line : Int) : CString :=
  file ++ ':' :: (toString line).toList ++ ':' :: ' ' :: cond ++ ['\n']

def DiagBuffer.ttFailBegin (cond file : CString) (line : Int) (buffer : DiagBuffer) :
    Except Fault DiagBuffer :=
  buffer.ttDiag (failLocation cond file line)

/-- A call that writes diagnostics. -/
inductive DiagCall where
  | diag (chunk : CString)
  | note (text : Option CString) (garbage : Nat → Char)
  | failBegin (cond file : CString) (line : Int)

def DiagCall.run : DiagCall → DiagBuffer → Except Fault DiagBuffer
  | .diag chunk, buffer => buffer.ttDiag chunk
  | .note text garbage, buffer => buffer.ttNote text garbage
  | .failBegin cond file line, buffer => buffer.ttFailBegin cond file line

/-- The text a call has to add. -/
def DiagCall.chunk : DiagCall → CString
  | .diag chunk => chunk
  | .note none _ => []
  | .note (some text) _ => ['n', 'o', 't', 'e', ':', ' '] ++ text.take (noteCap - 1) ++ ['\n']
  | .failBegin cond file line => failLocation cond file line

/-- The same call in the runner. -/
def DiagCall.onState (s : State) : DiagCall → State
  | .diag chunk => ttDiag chunk s
  | .note text _ => ttNote text s
  | .failBegin cond file line => ttFailBegin (failLocation cond file line) s

/-- `"#   %.*s\n"` of `len` characters from `start` on. -/
def DiagBuffer.flushLine (buffer : DiagBuffer) (start len : Nat) : Except Fault CString := do
  let line ← printString buffer.diag len start
  .ok (['#', ' ', ' ', ' '] ++ line ++ ['\n'])

/-- The loop of `tt_flush_diag` with `left` characters to go: what it prints, and where the line
starts that is still open. -/
def DiagBuffer.flushLoop (buffer : DiagBuffer) : Nat → Nat → Nat → Except Fault (CString × Nat)
  | 0, _, start => .ok ([], start)
  | left + 1, i, start => do
      let char ← load buffer.diag i
      if char = '\n' then do
        let line ← buffer.flushLine start (i - start)
        let (rest, start) ← buffer.flushLoop left (i + 1) (i + 1)
        .ok (line ++ rest, start)
      else buffer.flushLoop left (i + 1) start

def DiagBuffer.ttFlushDiag (buffer : DiagBuffer) : Except Fault CString := do
  let (lines, start) ← buffer.flushLoop buffer.diagLen 0 0
  if start < buffer.diagLen then do
    let last ← buffer.flushLine start (buffer.diagLen - start)
    .ok (lines ++ last)
  else .ok lines

/-! What the calls leave in the buffer. -/

/-- The array holds `text`, short of its last place. -/
structure DiagBuffer.Holds (buffer : DiagBuffer) (text : CString) : Prop where
  size : buffer.diag.length = diagCap
  len : buffer.diagLen = text.length
  fits : text.length ≤ diagCap - 1
  content : buffer.text = text

theorem DiagBuffer.Holds.ttDiag {buffer : DiagBuffer} {text : CString}
    (holds : buffer.Holds text) (chunk : CString) :
    ∃ buffer', buffer.ttDiag chunk = .ok buffer' ∧
      buffer'.Holds ((text ++ chunk).take (diagCap - 1)) := by
  have len := holds.len
  have fits := holds.fits
  unfold DiagBuffer.ttDiag
  by_cases full : diagCap - 1 ≤ buffer.diagLen
  · have whole : diagCap - 1 ≤ text.length := by omega
    rw [if_pos full, List.take_append_of_le_length whole, List.take_of_length_le fits]
    exact ⟨buffer, rfl, holds⟩
  · have positive : 0 < diagCap - buffer.diagLen := by omega
    have inside : buffer.diagLen + (diagCap - buffer.diagLen) ≤ buffer.diag.length := by
      rw [holds.size]
      omega
    obtain ⟨cells, after, wrote, size, placed⟩ := vsnprintf_spec positive inside chunk
    have before : buffer.diag.take buffer.diagLen = text := holds.content
    have kept : (text ++ chunk).take (diagCap - 1) =
        text ++ chunk.take (diagCap - buffer.diagLen - 1) := by
      rw [List.take_append, List.take_of_length_le fits, len]
      congr 2
      omega
    have content : cells.take (text ++ chunk.take (diagCap - buffer.diagLen - 1)).length =
        text ++ chunk.take (diagCap - buffer.diagLen - 1) := by
      rw [placed, before, List.take_left]
    have counted : ¬ (chunk.length : Int) < 0 := by omega
    rw [kept, if_neg full]
    simp only [wrote, ok_bind, counted, if_false, Int.toNat_natCast]
    -- The new length is that of what was kept, whether or not the chunk was cut.
    have length : (text ++ chunk.take (diagCap - buffer.diagLen - 1)).length =
        if diagCap - buffer.diagLen ≤ chunk.length then diagCap - 1
        else buffer.diagLen + chunk.length := by
      rw [List.length_append, List.length_take]
      split <;> omega
    by_cases cut : diagCap - buffer.diagLen ≤ chunk.length
    · rw [if_pos cut] at length ⊢
      exact ⟨_, rfl, size.trans holds.size, length.symm, Nat.le_of_eq length,
        by rw [← length]; exact content⟩
    · rw [if_neg cut] at length ⊢
      exact ⟨_, rfl, size.trans holds.size, length.symm, by omega, by
        rw [DiagBuffer.text, ← length]; exact content⟩

/-- The local array of `tt_note` gives back the text that was cut to it. -/
theorem note_printed (garbage : Nat → Char) {text : CString}
    (clean : nul ∉ text.take (noteCap - 1)) :
    ∃ buf, vsnprintf ((List.range noteCap).map garbage) 0 noteCap text =
        .ok (buf, (text.length : Int)) ∧
      printString buf (noteCap + 1) 0 = .ok (text.take (noteCap - 1)) := by
  have inside : 0 + noteCap ≤ ((List.range noteCap).map garbage).length := by
    rw [List.length_map, List.length_range, Nat.zero_add]
  obtain ⟨buf, after, wrote, _, placed⟩ := vsnprintf_spec (by decide) inside text
  rw [List.take_zero, List.nil_append] at placed
  refine ⟨buf, wrote, printString_of clean placed (.inr ⟨?_, rfl⟩)⟩
  rw [List.length_take]
  unfold noteCap
  omega

theorem DiagBuffer.Holds.ttNote {buffer : DiagBuffer} {text : CString}
    (holds : buffer.Holds text) (note : CString) (garbage : Nat → Char)
    (clean : nul ∉ note.take (noteCap - 1)) :
    ∃ buffer', buffer.ttNote (some note) garbage = .ok buffer' ∧
      buffer'.Holds ((text ++ (['n', 'o', 't', 'e', ':', ' '] ++ note.take (noteCap - 1) ++
        ['\n'])).take (diagCap - 1)) := by
  obtain ⟨buf, wrote, printed⟩ := note_printed garbage clean
  obtain ⟨first, named, holdsFirst⟩ := holds.ttDiag ['n', 'o', 't', 'e', ':', ' ']
  obtain ⟨second, told, holdsSecond⟩ : ∃ second,
      (if 0 < note.length then first.ttDiag (note.take (noteCap - 1)) else .ok first) =
        .ok second ∧
      second.Holds (((text ++ ['n', 'o', 't', 'e', ':', ' ']).take (diagCap - 1) ++
        note.take (noteCap - 1)).take (diagCap - 1)) := by
    by_cases some : 0 < note.length
    · rw [if_pos some]
      exact holdsFirst.ttDiag _
    · obtain rfl := List.length_eq_zero_iff.mp (Nat.eq_zero_of_not_pos some)
      refine ⟨first, rfl, ?_⟩
      rwa [List.take_nil, List.append_nil, List.take_take, Nat.min_self]
  obtain ⟨third, closed, holdsThird⟩ := holdsSecond.ttDiag ['\n']
  rw [take_append_take, List.append_assoc, take_append_take, List.append_assoc] at holdsThird
  refine ⟨third, ?_, by rwa [List.append_assoc]⟩
  have counted : (0 : Int) < note.length ↔ 0 < note.length := by omega
  simp only [DiagBuffer.ttNote, named, wrote, ok_bind, counted]
  by_cases some : 0 < note.length
  · rw [if_pos some] at told
    simp only [if_pos some, printed, ok_bind, told, closed]
  · rw [if_neg some] at told
    cases told
    simp only [if_neg some, closed]

theorem DiagBuffer.Holds.run {buffer : DiagBuffer} {text : CString} (holds : buffer.Holds text)
    (call : DiagCall) (nulFree : nul ∉ call.chunk) :
    ∃ buffer', call.run buffer = .ok buffer' ∧
      buffer'.Holds ((text ++ call.chunk).take (diagCap - 1)) := by
  cases call with
  | diag chunk => exact holds.ttDiag chunk
  | failBegin cond file line => exact holds.ttDiag (failLocation cond file line)
  | note note garbage =>
      cases note with
      | none =>
          refine ⟨buffer, rfl, ?_⟩
          rwa [DiagCall.chunk, List.append_nil, List.take_of_length_le holds.fits]
      | some note =>
          exact holds.ttNote note garbage fun member =>
            nulFree (List.mem_append_left _ (List.mem_append_right _ member))

/-- Calls one after another keep what fits of their texts. -/
theorem DiagBuffer.Holds.runAll (calls : List DiagCall)
    (nulFree : ∀ call ∈ calls, nul ∉ call.chunk) {buffer : DiagBuffer} {text : CString}
    (holds : buffer.Holds text) :
    ∃ buffer', calls.foldlM (fun buffer call => call.run buffer) buffer = .ok buffer' ∧
      buffer'.Holds ((text ++ calls.flatMap DiagCall.chunk).take (diagCap - 1)) := by
  induction calls generalizing buffer text with
  | nil =>
      refine ⟨buffer, rfl, ?_⟩
      rwa [List.flatMap_nil, List.append_nil, List.take_of_length_le holds.fits]
  | cons call rest ih =>
      rw [List.forall_mem_cons] at nulFree
      obtain ⟨next, ran, holdsNext⟩ := holds.run call nulFree.1
      obtain ⟨last, ranRest, holdsLast⟩ := ih nulFree.2 holdsNext
      rw [take_append_take, List.append_assoc] at holdsLast
      refine ⟨last, ?_, by rwa [List.flatMap_cons]⟩
      rw [List.foldlM_cons, ran]
      exact ranRest

/-! The runner's calls keep the same text. -/

theorem ttDiag_diag (chunk : CString) {s : State} (fits : s.diag.length ≤ diagCap - 1) :
    (ttDiag chunk s).diag = (s.diag ++ chunk).take (diagCap - 1) := by
  unfold ttDiag
  by_cases full : diagCap - 1 ≤ s.diag.length
  · rw [if_pos full, List.take_append_of_le_length full, List.take_of_length_le fits]
  · rw [if_neg full, List.take_append, List.take_of_length_le fits]
    have room : diagCap - 1 - s.diag.length = diagCap - s.diag.length - 1 := by omega
    dsimp only
    split
    · rw [room]
    · rw [List.take_of_length_le (by omega)]

theorem ttDiag_fits (chunk : CString) {s : State} (fits : s.diag.length ≤ diagCap - 1) :
    (ttDiag chunk s).diag.length ≤ diagCap - 1 := by
  rw [ttDiag_diag chunk fits]
  exact List.length_take_le _ _

theorem ttNote_diag (note : CString) {s : State} (fits : s.diag.length ≤ diagCap - 1) :
    (ttNote (some note) s).diag =
      (s.diag ++ (['n', 'o', 't', 'e', ':', ' '] ++ note.take (noteCap - 1) ++ ['\n'])).take
        (diagCap - 1) := by
  have fitsFirst := ttDiag_fits ['n', 'o', 't', 'e', ':', ' '] fits
  by_cases some : 0 < note.length
  · simp only [ttNote, if_pos some]
    rw [ttDiag_diag _ (ttDiag_fits _ fitsFirst), ttDiag_diag _ fitsFirst, ttDiag_diag _ fits,
      take_append_take, List.append_assoc, take_append_take]
    simp only [List.append_assoc]
  · simp only [ttNote, if_neg some]
    obtain rfl := List.length_eq_zero_iff.mp (Nat.eq_zero_of_not_pos some)
    rw [ttDiag_diag _ fitsFirst, ttDiag_diag _ fits, take_append_take, List.take_nil,
      List.append_nil, List.append_assoc]

theorem DiagCall.onState_diag (call : DiagCall) {s : State}
    (fits : s.diag.length ≤ diagCap - 1) :
    (call.onState s).diag = (s.diag ++ call.chunk).take (diagCap - 1) := by
  cases call with
  | diag chunk => exact ttDiag_diag chunk fits
  | failBegin cond file line => exact ttDiag_diag (failLocation cond file line) fits
  | note note garbage =>
      cases note with
      | none =>
          rw [DiagCall.chunk, List.append_nil, List.take_of_length_le fits]
          rfl
      | some note => exact ttNote_diag note fits

theorem onState_all_diag (calls : List DiagCall) {s : State}
    (fits : s.diag.length ≤ diagCap - 1) :
    (calls.foldl DiagCall.onState s).diag =
      (s.diag ++ calls.flatMap DiagCall.chunk).take (diagCap - 1) :=
  foldl_keeps State.diag DiagCall.onState DiagCall.chunk
    (fun _ call fits => call.onState_diag fits) calls s fits

/-! How the buffer is printed. -/

/-- A printed line without its newline. -/
def printedLine (line : CString) : CString := ['#', ' ', ' ', ' '] ++ line

theorem DiagBuffer.Holds.split {buffer : DiagBuffer} {text : CString} (holds : buffer.Holds text)
    {start : Nat} (inside : start ≤ text.length) :
    ∃ after, buffer.diag.drop start = text.drop start ++ after := by
  have content : buffer.diag.take buffer.diagLen = text := holds.content
  refine ⟨buffer.diag.drop buffer.diagLen, ?_⟩
  rw [← List.drop_append_of_le_length inside]
  conv_rhs => rw [← content]
  rw [List.take_append_drop]

theorem DiagBuffer.Holds.flushLine {buffer : DiagBuffer} {text : CString}
    (holds : buffer.Holds text) (nulFree : nul ∉ text) {start len : Nat}
    (inside : start + len ≤ text.length) :
    buffer.flushLine start len =
      .ok (ended '\n' [printedLine ((text.drop start).take len)]) := by
  obtain ⟨after, rest⟩ := holds.split (by omega : start ≤ text.length)
  have clean : nul ∉ (text.drop start).take len := fun member =>
    nulFree (List.mem_of_mem_drop (List.mem_of_mem_take member))
  have here : buffer.diag.drop start =
      (text.drop start).take len ++ ((text.drop start).drop len ++ after) := by
    rw [← List.append_assoc, List.take_append_drop, rest]
  have length : len = ((text.drop start).take len).length := by
    rw [List.length_take, List.length_drop]
    omega
  rw [DiagBuffer.flushLine, printString_of clean here (.inl length)]
  simp [printedLine]

/-- What is printed from some point on: the loop's output, and the line left open at the end. -/
theorem DiagBuffer.Holds.flushLoop {buffer : DiagBuffer} {text : CString}
    (holds : buffer.Holds text) (nulFree : nul ∉ text) (left i start : Nat)
    (reach : i + left = text.length) (order : start ≤ i) :
    ∃ lines open', buffer.flushLoop left i start = .ok (lines, open') ∧ open' ≤ text.length ∧
      lines ++ (if open' < text.length then ended '\n' [printedLine (text.drop open')] else []) =
        ended '\n' ((diagLines ((text.drop start).take (i - start)).reverse (text.drop i)).map
          printedLine) := by
  induction left generalizing i start with
  | zero =>
      refine ⟨[], start, rfl, by omega, ?_⟩
      have whole : (text.drop start).take (i - start) = text.drop start :=
        List.take_of_length_le (by rw [List.length_drop]; omega)
      have noneOpen : (text.drop start).reverse = [] ↔ ¬ start < text.length := by
        rw [List.reverse_eq_nil_iff, List.drop_eq_nil_iff, Nat.not_lt]
      rw [whole, List.drop_eq_nil_of_le (by omega : text.length ≤ i), diagLines]
      by_cases unended : start < text.length
      · rw [if_pos unended, if_neg (fun none => noneOpen.mp none unended), List.reverse_reverse]
        rfl
      · rw [if_neg unended, if_pos (noneOpen.mpr unended)]
        rfl
  | succ left ih =>
      have inside : i < text.length := by omega
      have here : text.drop i = text[i] :: text.drop (i + 1) := List.drop_eq_getElem_cons inside
      obtain ⟨after, rest⟩ := holds.split (by omega : i ≤ text.length)
      rw [here, List.cons_append] at rest
      rw [DiagBuffer.flushLoop, load_of_drop rest, ok_bind, here, diagLines]
      by_cases newline : text[i] = '\n'
      · -- The open line ends here, and the next one starts.
        obtain ⟨lines, open', ran, bound, printed⟩ := ih (i + 1) (i + 1) (by omega) (by omega)
        rw [Nat.sub_self, List.take_zero, List.reverse_nil] at printed
        rw [if_pos newline, if_pos newline, holds.flushLine nulFree (by omega), ok_bind, ran,
          ok_bind]
        refine ⟨_, open', rfl, bound, ?_⟩
        rw [List.append_assoc, printed, List.reverse_reverse, List.map_cons, ended_cons, ended_cons,
          ended_nil, List.append_assoc]
        rfl
      · obtain ⟨lines, open', ran, bound, printed⟩ := ih (i + 1) start (by omega) (by omega)
        have longer : (text.drop start).take (i + 1 - start) =
            (text.drop start).take (i - start) ++ [text[i]] := by
          rw [Nat.succ_sub order, List.take_succ_eq_append_getElem
            (by rw [List.length_drop]; omega), List.getElem_drop]
          simp [Nat.add_sub_cancel' order]
        rw [longer, List.reverse_append] at printed
        rw [if_neg newline, if_neg newline]
        exact ⟨lines, open', ran, bound, printed⟩

/-- The whole text is printed, line by line. -/
theorem DiagBuffer.Holds.ttFlushDiag {buffer : DiagBuffer} {text : CString}
    (holds : buffer.Holds text) (nulFree : nul ∉ text) :
    buffer.ttFlushDiag = .ok (ended '\n' ((diagLines [] text).map printedLine)) := by
  obtain ⟨lines, open', ran, bound, printed⟩ :=
    holds.flushLoop nulFree text.length 0 0 (Nat.zero_add _) (Nat.le_refl _)
  rw [Nat.sub_self, List.take_zero, List.drop_zero, List.reverse_nil] at printed
  rw [DiagBuffer.ttFlushDiag, holds.len, ran, ok_bind, ← printed]
  by_cases unended : open' < text.length
  · have whole : (text.drop open').take (text.length - open') = text.drop open' :=
      List.take_of_length_le (by rw [List.length_drop])
    simp only [if_pos unended, holds.flushLine nulFree (by omega : open' + (text.length - open') ≤ _),
      whole, ok_bind]
  · simp only [if_neg unended, List.append_nil]

theorem diagLines_clean {line : CString} (clean : '\n' ∉ line) (text : CString) :
    ∀ printed ∈ diagLines line text, '\n' ∉ printed := by
  induction text generalizing line with
  | nil =>
      intro printed member
      rw [diagLines] at member
      by_cases none : line = []
      · rw [if_pos none] at member
        cases member
      · rw [if_neg none, List.mem_singleton] at member
        rwa [member, List.mem_reverse]
  | cons char text ih =>
      intro printed member
      rw [diagLines] at member
      by_cases newline : char = '\n'
      · rw [if_pos newline, List.mem_cons] at member
        rcases member with rfl | later
        · rwa [List.mem_reverse]
        · exact ih List.not_mem_nil printed later
      · rw [if_neg newline] at member
        refine ih ?_ printed member
        rw [List.mem_cons, not_or]
        exact ⟨Ne.symm newline, clean⟩

/-- The lines make the text again, its last line ended. -/
theorem ended_diagLines {line : CString} (clean : '\n' ∉ line) (text : CString) :
    ended '\n' (diagLines line text) = terminated '\n' (line.reverse ++ text) := by
  induction text generalizing line with
  | nil =>
      rw [diagLines, List.append_nil]
      by_cases none : line = []
      · rw [if_pos none, none]
        rfl
      · have open' : ¬ (line.reverse = [] ∨ line.reverse.getLast? = some '\n') := by
          rintro (empty | last)
          · exact none (List.reverse_eq_nil_iff.mp empty)
          · exact clean (List.mem_reverse.mp (List.mem_of_getLast? last))
        rw [if_neg none, ended_cons, ended_nil, terminated, if_neg open']
  | cons char text ih =>
      rw [diagLines]
      by_cases newline : char = '\n'
      · subst newline
        rw [if_pos rfl, ended_cons, ih List.not_mem_nil, List.reverse_nil, List.nil_append,
          terminated_append]
      · have cleanMore : '\n' ∉ char :: line := by
          rw [List.mem_cons, not_or]
          exact ⟨Ne.symm newline, clean⟩
        rw [if_neg newline, ih cleanMore, List.reverse_cons, List.append_assoc,
          List.singleton_append]

/-- The runner's state holds the text of the buffer, and the lines the runner prints of it are what
the buffer is printed as. -/
theorem diagCalls_refine (calls : List DiagCall) (nulFree : ∀ call ∈ calls, nul ∉ call.chunk)
    {buffer : DiagBuffer} {s : State} (holds : buffer.Holds s.diag) (clean : nul ∉ s.diag) :
    ∃ (buffer' : DiagBuffer) (lines : List CString),
      calls.foldlM (fun buffer call => call.run buffer) buffer = .ok buffer' ∧
      buffer'.Holds (calls.foldl DiagCall.onState s).diag ∧
      ttFlushDiag (calls.foldl DiagCall.onState s) = lines.map .diag ∧
      buffer'.ttFlushDiag = .ok (ended '\n' (lines.map printedLine)) := by
  obtain ⟨buffer', ran, holds'⟩ := holds.runAll calls nulFree
  rw [← onState_all_diag calls holds.fits] at holds'
  refine ⟨buffer', _, ran, holds', rfl, holds'.ttFlushDiag ?_⟩
  rw [onState_all_diag calls holds.fits]
  intro member
  cases List.mem_append.mp (List.mem_of_mem_take member) with
  | inl old => exact clean old
  | inr new =>
      obtain ⟨call, called, inChunk⟩ := List.mem_flatMap.mp new
      exact nulFree call called inChunk

/-- A line start in the printed text is followed by the marker of a diagnostic, if by anything. -/
theorem printed_marked {lines : List CString} (clean : ∀ line ∈ lines, '\n' ∉ line)
    (before : CString) {rest : CString}
    (split : ended '\n' (lines.map printedLine) = before ++ rest)
    (starts : StartsLine '\n' before) : rest = [] ∨ ['#', ' ', ' ', ' '] <+: rest := by
  have cleanPrinted : ∀ line ∈ lines.map printedLine, '\n' ∉ line := by
    intro line member
    obtain ⟨original, from', rfl⟩ := List.mem_map.mp member
    rw [printedLine, List.mem_append, not_or]
    exact ⟨by decide, clean original from'⟩
  obtain ⟨printed, left, split', -, rfl⟩ := ended_split cleanPrinted before split starts
  cases left with
  | nil => exact .inl rfl
  | cons line left =>
      right
      obtain ⟨original, -, rfl⟩ := List.mem_map.mp
        (split' ▸ List.mem_append_right printed List.mem_cons_self :
          line ∈ lines.map printedLine)
      rw [ended_cons, printedLine, List.append_assoc]
      exact List.prefix_append _ _

/-- For every sequence of diagnostic calls of a test: no write leaves the buffer, the buffer holds
as much of their texts as fits beside the terminator, and `tt_flush_diag` prints just that text,
every line of it behind the marker, so that no line of it reads as a result. -/
theorem diagCalls_flushed (calls : List DiagCall) (nulFree : ∀ call ∈ calls, nul ∉ call.chunk)
    (cells : List Char) (size : cells.length = diagCap) :
    ∃ buffer lines,
      calls.foldlM (fun buffer call => call.run buffer) { diag := cells, diagLen := 0 } =
        .ok buffer ∧
      buffer.diag.length = diagCap ∧ buffer.diagLen ≤ diagCap - 1 ∧
      buffer.text = (calls.flatMap DiagCall.chunk).take (diagCap - 1) ∧
      buffer.diagLen = buffer.text.length ∧
      (∀ line ∈ lines, '\n' ∉ line) ∧ ended '\n' lines = terminated '\n' buffer.text ∧
      buffer.ttFlushDiag = .ok (ended '\n' (lines.map printedLine)) ∧
      ∀ before rest, ended '\n' (lines.map printedLine) = before ++ rest →
        StartsLine '\n' before →
        (rest = [] ∨ ['#', ' ', ' ', ' '] <+: rest) ∧ ¬ ['o', 'k'] <+: rest ∧
          ¬ ['n', 'o', 't', ' ', 'o', 'k'] <+: rest := by
  have start : (DiagBuffer.mk cells 0).Holds [] := ⟨size, rfl, Nat.zero_le _, rfl⟩
  obtain ⟨buffer, ran, holds⟩ := start.runAll calls nulFree
  rw [List.nil_append] at holds
  have content := holds.content
  have clean : nul ∉ buffer.text := by
    rw [content]
    intro member
    obtain ⟨call, called, inChunk⟩ := List.mem_flatMap.mp (List.mem_of_mem_take member)
    exact nulFree call called inChunk
  have cleanLines := diagLines_clean (List.not_mem_nil : '\n' ∉ []) buffer.text
  rw [← content] at holds
  refine ⟨buffer, diagLines [] buffer.text, ran, holds.size, by rw [holds.len]; exact holds.fits,
    content, holds.len, cleanLines, ended_diagLines List.not_mem_nil _, holds.ttFlushDiag clean,
    fun before rest split starts => ?_⟩
  have marked := printed_marked cleanLines before split starts
  refine ⟨marked, ?_, ?_⟩
  all_goals
    intro result
    rcases marked with rfl | ⟨more, rfl⟩
    · cases List.prefix_nil.mp result
    · exact absurd (List.cons_prefix_cons.mp result).1 (by decide)

theorem diagCalls_flushed_newline :
    ∃ buffer lines,
      [DiagCall.diag ['x', '\n'], .note (some ['a', '\n', 'o', 'k', ' ', '1']) fun _ => 'z'].foldlM
        (fun buffer call => call.run buffer)
        (DiagBuffer.mk (List.replicate diagCap 'z') 0) = .ok buffer ∧
      buffer.text =
        ['x', '\n', 'n', 'o', 't', 'e', ':', ' ', 'a', '\n', 'o', 'k', ' ', '1', '\n'] ∧
      ended '\n' lines = buffer.text ∧
      buffer.ttFlushDiag = .ok (ended '\n' (lines.map printedLine)) := by
  obtain ⟨buffer, lines, ran, _, _, content, _, _, whole, flushed, _⟩ := diagCalls_flushed
    [.diag ['x', '\n'], .note (some ['a', '\n', 'o', 'k', ' ', '1']) fun _ => 'z']
    (List.forall_mem_cons.mpr ⟨by decide, List.forall_mem_singleton.mpr (by decide)⟩)
    (List.replicate diagCap 'z') List.length_replicate
  have text : buffer.text =
      ['x', '\n', 'n', 'o', 't', 'e', ':', ' ', 'a', '\n', 'o', 'k', ' ', '1', '\n'] := content
  refine ⟨buffer, lines, ran, text, ?_, flushed⟩
  rw [whole, text]
  decide

end AgencC.Harness
