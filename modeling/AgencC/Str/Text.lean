import AgencC.Str.Temporaries

/-! C-string sources. -/

set_option autoImplicit false

namespace AgencC.Str

open Library

/-- What a caller may pass as a C string: NULL, a pointer into the destination's own
allocation, or bytes with a NUL among them. -/
def ReadableText (c : Cell) (source : Source) : Prop :=
  source.isNull = true ∨ Internal c source ∨ ∃ text, source.cString c.heap = .ok text

/-- The C string a source denotes before a call; none when there is no NUL. -/
def Source.text (heap : Memory) (source : Source) : Bytes :=
  match source.cString heap with
  | .ok text => text
  | .error _ => []

theorem Source.text_of_cString {heap : Memory} {source : Source} {text : Bytes}
    (found : source.cString heap = .ok text) : source.text heap = text := by
  rw [Source.text, found]

/-- A list with a NUL is its text, the NUL and a rest. -/
theorem text_split {bytes : Bytes} (terminated : 0 ∈ bytes) :
    ∃ rest, bytes = bytes.takeWhile (· ≠ 0) ++ 0 :: rest := by
  induction bytes with
  | nil => cases terminated
  | cons byte bytes ih =>
      by_cases nul : byte = 0
      · subst nul
        exact ⟨bytes, by simp⟩
      · have later : 0 ∈ bytes := (List.mem_cons.mp terminated).resolve_left (Ne.symm nul)
        obtain ⟨rest, split⟩ := ih later
        refine ⟨rest, ?_⟩
        rw [List.takeWhile_cons_of_pos (by simpa using nul), List.cons_append, ← split]

theorem text_length_le {bytes : Bytes} {i : Nat} (nul : bytes[i]? = some 0) :
    (bytes.takeWhile (· ≠ 0)).length ≤ i := by
  induction bytes generalizing i with
  | nil => simp
  | cons byte bytes ih =>
      by_cases zero : byte = 0
      · subst zero
        simp
      · rw [List.takeWhile_cons_of_pos (by simpa using zero), List.length_cons]
        cases i with
        | zero => exact absurd (Option.some.inj nul) zero
        | succ i =>
            have bound := ih (i := i) (by simpa using nul)
            omega

theorem text_nonzero {bytes : Bytes} : ∀ byte ∈ bytes.takeWhile (· ≠ 0), byte ≠ 0 := by
  intro byte member
  have passes := List.all_eq_true.mp List.all_takeWhile byte member
  simpa using passes

/-- The bytes from the source on hold the text and the NUL after it. -/
theorem Source.cString_cases {heap : Memory} {source : Source} {text : Bytes}
    (found : source.cString heap = .ok text) :
    ∃ rest, source.rest heap = .ok rest ∧ 0 ∈ rest ∧ text = rest.takeWhile (· ≠ 0) := by
  simp only [Source.cString] at found
  cases all : source.rest heap with
  | error fault => rw [all] at found; cases found
  | ok rest =>
      rw [all, ok_bind] at found
      split at found
      · rename_i terminated
        cases found
        exact ⟨rest, rfl, terminated, rfl⟩
      · cases found

/-- The object a heap source points into. -/
theorem Source.rest_cases {heap : Memory} {q : Ptr} {rest : Bytes}
    (all : (Source.mem (some q)).rest heap = .ok rest) :
    ∃ o, heap.objs q.obj = some o ∧
      heap.read q (o.base + o.size - q.addr) = .ok rest := by
  simp only [Source.rest] at all
  cases live : heap.objs q.obj with
  | none => rw [live] at all; cases all
  | some o =>
      rw [live] at all
      exact ⟨o, rfl, all⟩

/-- A denoted text can be read as counted bytes. -/
theorem Source.read_text {heap : Memory} {source : Source} {text : Bytes}
    (found : source.cString heap = .ok text) : source.read heap text.length = .ok text := by
  obtain ⟨rest, all, terminated, rfl⟩ := Source.cString_cases found
  obtain ⟨tail, split⟩ := text_split terminated
  have short : (rest.takeWhile (· ≠ 0)).length ≤ rest.length := by
    conv => rhs; rw [split]
    simp
  have taken : rest.take (rest.takeWhile (· ≠ 0)).length = rest.takeWhile (· ≠ 0) := by
    conv => lhs; arg 2; rw [split]
    exact List.take_left
  cases source with
  | array array =>
      cases all
      rw [Source.read, if_pos short, taken]
  | mem pointer =>
      cases pointer with
      | none => cases all
      | some q =>
          obtain ⟨o, live, read⟩ := Source.rest_cases all
          have length := Heap.length_of_read read
          obtain ⟨o', live', above, inside, contents⟩ := Heap.read_eq_ok read
          obtain rfl : o = o' := Option.some.inj (live.symm.trans live')
          rw [Source.read, Heap.read_ok live above (by omega)]
          have begins : ∀ n, n ≤ o.base + o.size - q.addr →
              (o.cells.drop (q.addr - o.base)).take n = rest.take n := by
            intro n within
            rw [contents, List.take_take, Nat.min_eq_left within]
          rw [begins _ (by omega), taken]

/-- The size of an array in memory is a `size_t`. -/
def Source.Sized (source : Source) : Prop := ∀ bytes, source = .array bytes → bytes.length ≤ sizeMax

theorem Source.length_text_le {heap : Memory} {source : Source} {text : Bytes}
    (sized : source.Sized) (found : source.cString heap = .ok text) : text.length ≤ sizeMax := by
  cases source with
  | array bytes =>
      have size := sized bytes rfl
      obtain ⟨rest, all, _, rfl⟩ := Source.cString_cases found
      cases all
      exact Nat.le_trans (List.takeWhile_prefix _).length_le size
  | mem pointer =>
      cases pointer with
      | none => cases found
      | some q =>
          have read := Source.read_text found
          obtain ⟨o, live, _, inside, _⟩ := Heap.read_eq_ok read
          have placed := heap.placed q.obj o live
          omega

theorem measureBoundedLoop_spec {c : Cell} {p : Ptr} {o : Obj UInt8} (holds : Holds c p o)
    (offset : Nat) (text rest : Bytes) (available idx : Nat)
    (split : o.cells.drop (offset + idx) = text ++ 0 :: rest) (nonzero : ∀ byte ∈ text, byte ≠ 0)
    (enough : text.length < available) :
    measureBoundedLoop c.heap (c.str.at offset) available idx = .ok (.ok (idx + text.length)) := by
  induction text generalizing available idx with
  | nil =>
      cases available with
      | zero => cases enough
      | succ available =>
          have inside : offset + idx + 1 ≤ o.size := by
            have length := congrArg List.length split
            simp only [List.length_drop, List.nil_append, List.length_cons] at length
            unfold Obj.size
            omega
          rw [measureBoundedLoop, StrT.at_add, holds.read_at inside, split]
          rfl
  | cons byte text ih =>
      cases available with
      | zero => cases enough
      | succ available =>
          have length := congrArg List.length split
          simp only [List.length_drop, List.length_append, List.length_cons] at length
          have inside : offset + idx + 1 ≤ o.size := by
            unfold Obj.size
            omega
          have notNul : ¬ [byte] = [0] := fun same =>
            nonzero byte (.head _) (List.singleton_inj.mp same)
          have next : o.cells.drop (offset + (idx + 1)) = text ++ 0 :: rest := by
            rw [← Nat.add_assoc, ← List.drop_drop, split]
            rfl
          have inner := ih available (idx + 1) next (fun b member => nonzero b (.tail _ member))
            (by simpa using enough)
          rw [measureBoundedLoop, StrT.at_add, holds.read_at inside, split]
          simp only [List.cons_append, List.take_succ_cons, List.take_zero, ok_bind, notNul,
            if_false, inner, List.length_cons]
          congr 2
          omega

/-- How a C-string input is measured: a recorded failure, or the length of its text,
which can then be read as counted bytes. -/
inductive Measured (c : Cell) (source : Source) : Except Status Nat → Cell → Prop
  | failed {status : Status} (failure : status ≠ .ok) :
      Measured c source (.error status) { c with str := { c.str with status } }
  | text {text : Bytes} (given : source.isNull = false) (found : source.cString c.heap = .ok text)
      (size : text.length ≤ sizeMax) : Measured c source (.ok text.length) c

section
variable {c : Cell} {p q : Ptr} {o : Obj UInt8}

/-- A C string that begins behind the terminator is rejected unread. -/
theorem measureInternal_beyond (wf : WellFormed c) (holds : Holds c p o) (above : p.addr ≤ q.addr)
    (below : q.addr < p.addr + o.size) (beyond : c.str.len < q.addr - p.addr) :
    measureValidCStringInput (.mem (some q)) c =
      .ok (.error .errArg, { c with str := { c.str with status := .errArg } }) := by
  have size := holds.size_lt
  have isSome : c.str.buf.isSome := by simp [holds.buf]
  have given : (Source.mem (some q)).isNull = false := rfl
  have validated := validateInternalSourceSpan_eq wf isSome (q.addr - p.addr) 1 Nat.one_pos
  rw [if_neg (by omega)] at validated
  simp only [measureValidCStringInput, ensure_of given, ok_bind,
    findAllocationOffset_own holds above below]
  rw [if_neg (by unfold npos; omega)]
  simp only [measureInternalCString, ensure_of isSome, ok_bind, nulBytes, validated,
    recordFailure_ok .errArg (by decide)]

/-- A C string that begins before the terminator or at it is measured. -/
theorem measureInternal_within (wf : WellFormed c) (holds : Holds c p o)
    (inside : c.str.len < o.size) (terminated : o.cells[c.str.len]? = some 0)
    (own : q.obj = p.obj) (above : p.addr ≤ q.addr) (below : q.addr < p.addr + o.size)
    (within : q.addr - p.addr ≤ c.str.len) :
    ∃ text, (Source.mem (some q)).cString c.heap = .ok text ∧ text.length ≤ sizeMax ∧
      measureValidCStringInput (.mem (some q)) c = .ok (.ok text.length, c) := by
  have size := holds.size_lt
  have isSome : c.str.buf.isSome := by simp [holds.buf]
  have given : (Source.mem (some q)).isNull = false := rfl
  have validated := validateInternalSourceSpan_eq wf isSome (q.addr - p.addr) 1 Nat.one_pos
  rw [if_pos (by omega)] at validated
  have available : sizeAdd (sizeSub c.str.len (q.addr - p.addr)) 1 =
      c.str.len - (q.addr - p.addr) + 1 := by
    rw [sizeSub_of_le (by omega) (by omega), sizeAdd_of_le (by omega)]
  have notNull : (c.str.at (q.addr - p.addr)).isNull = false := by
    rw [StrT.at, holds.buf]
    rfl
  have nul : (o.cells.drop (q.addr - p.addr))[c.str.len - (q.addr - p.addr)]? = some 0 := by
    rw [List.getElem?_drop, Nat.add_sub_of_le within]
    exact terminated
  have member : 0 ∈ o.cells.drop (q.addr - p.addr) := List.mem_of_getElem? nul
  obtain ⟨rest, split⟩ := text_split member
  have short := text_length_le nul
  have counted := measureBoundedLoop_spec holds (q.addr - p.addr)
    ((o.cells.drop (q.addr - p.addr)).takeWhile (· ≠ 0)) rest
    (c.str.len - (q.addr - p.addr) + 1) 0 (by rw [Nat.add_zero]; exact split) text_nonzero
    (by omega)
  rw [Nat.zero_add] at counted
  refine ⟨(o.cells.drop (q.addr - p.addr)).takeWhile (· ≠ 0), ?_, by omega, ?_⟩
  · have start := holds.start
    have read : c.heap.read q (o.base + o.size - q.addr) =
        .ok (o.cells.drop (q.addr - p.addr)) := by
      rw [Heap.read_ok (own ▸ holds.live) (by omega) (by omega), ← start]
      congr 1
      refine List.take_of_length_le ?_
      rw [List.length_drop]
      unfold Obj.size
      omega
    have rest : (Source.mem (some q)).rest c.heap = .ok (o.cells.drop (q.addr - p.addr)) := by
      simp only [Source.rest, own, holds.live]
      exact read
    rw [Source.cString, rest, ok_bind, if_pos member]
  · simp only [measureValidCStringInput, ensure_of given, ok_bind,
      findAllocationOffset_own holds above below]
    rw [if_neg (by unfold npos; omega)]
    simp only [measureInternalCString, ensure_of isSome, ok_bind, nulBytes, validated,
      measureBoundedCString, ensure_of notNull, available, counted]

end

/-- Where a C string lies: outside the buffer, or at an offset into it. -/
inductive TextLies (c : Cell) : Source → Prop
  | outside {source : Source} {text : Bytes} (unfound : findAllocationOffset c.str source = npos)
      (found : source.cString c.heap = .ok text) : TextLies c source
  | inside {p q : Ptr} {o : Obj UInt8} (holds : Holds c p o) (len : c.str.len < o.size)
      (terminated : o.cells[c.str.len]? = some 0) (own : q.obj = p.obj) (above : p.addr ≤ q.addr)
      (below : q.addr < p.addr + o.size) : TextLies c (.mem (some q))

theorem ReadableText.lies {c : Cell} (wf : WellFormed c) {source : Source}
    (given : source.isNull = false) (readable : ReadableText c source) : TextLies c source := by
  rcases readable with isNull | ⟨p, q, buf, rfl, own, above, below⟩ | ⟨text, found⟩
  · rw [given] at isNull
    cases isNull
  · cases wf with
    | empty noBuf len cap =>
        rw [noBuf] at buf
        cases buf
    | @owned p' o holds inside terminated =>
        obtain rfl : p' = p := Option.some.inj (holds.buf.symm.trans buf)
        exact .inside holds inside terminated own above (holds.cap ▸ below)
  · cases source with
    | array bytes => exact .outside rfl found
    | mem pointer =>
        cases pointer with
        | none => cases given
        | some q =>
            cases wf with
            | empty noBuf len cap => exact .outside (by simp [findAllocationOffset, noBuf]) found
            | @owned p o holds inside terminated =>
                obtain ⟨rest, all, member, _⟩ := Source.cString_cases found
                obtain ⟨other, live, read⟩ := Source.rest_cases all
                have length := Heap.length_of_read read
                have nonempty := List.length_pos_of_mem member
                obtain ⟨other', live', above, _⟩ := Heap.read_eq_ok read
                obtain rfl : other = other' := Option.some.inj (live.symm.trans live')
                by_cases own : q.obj = p.obj
                · rw [own, holds.live] at live
                  cases live
                  have start := holds.start
                  exact .inside holds inside terminated own (by omega) (by omega)
                · exact .outside (findAllocationOffset_other holds own live above (by omega)) found

theorem measureCStringInput_spec {c : Cell} (wf : WellFormed c) (ok : c.str.status = .ok)
    {source : Source} (sized : source.Sized) (readable : ReadableText c source) :
    ∃ measured c', measureCStringInput source c = .ok (measured, c') ∧
      Measured c source measured c' := by
  simp only [measureCStringInput, validateMutation, ok]
  cases null : source.isNull with
  | true =>
      simp only [if_true, recordFailure_ok .errArg (by decide), ok_bind]
      exact ⟨_, _, rfl, .failed (by decide)⟩
  | false =>
      simp only [Bool.false_eq_true, if_false]
      cases readable.lies wf null with
      | @outside source text unfound found =>
          simp only [measureValidCStringInput, ensure_of null, ok_bind, unfound, if_true,
            measureCString, found]
          exact ⟨_, _, rfl, .text null found (Source.length_text_le sized found)⟩
      | @inside p q o holds len terminated own above below =>
          by_cases within : q.addr - p.addr ≤ c.str.len
          · obtain ⟨text, found, size, measured⟩ :=
              measureInternal_within wf holds len terminated own above below within
            exact ⟨_, _, measured, .text null found size⟩
          · exact ⟨_, _, measureInternal_beyond wf holds above below (by omega),
              .failed (by decide)⟩

/-- A C string the library takes: outside the allocation, or from the buffer's start to its
terminator. -/
def StrT.TakesText (s : StrT) (source : Source) : Prop :=
  source.isNull = false ∧
    (findAllocationOffset s source = npos ∨ findAllocationOffset s source ≤ s.len)

theorem measureCStringInput_takes {c : Cell} (wf : WellFormed c) (ok : c.str.status = .ok)
    {source : Source} (readable : ReadableText c source) {measured : Except Status Nat}
    {c' : Cell} (ran : measureCStringInput source c = .ok (measured, c')) :
    (measured = .error .errArg ∧ ¬ c.str.TakesText source) ∨
    ∃ text, measured = .ok text.length ∧ c' = c ∧ source.cString c.heap = .ok text ∧
      c.str.TakesText source := by
  simp only [measureCStringInput, validateMutation, ok] at ran
  cases null : source.isNull with
  | true =>
      simp only [null, if_true, recordFailure_ok .errArg (by decide), ok_bind] at ran
      cases ran
      refine .inl ⟨rfl, fun takes => ?_⟩
      rw [takes.1] at null
      cases null
  | false =>
      simp only [null, Bool.false_eq_true, if_false] at ran
      cases readable.lies wf null with
      | outside unfound found =>
          simp only [measureValidCStringInput, ensure_of null, ok_bind, unfound, if_true,
            measureCString, found] at ran
          cases ran
          exact .inr ⟨_, rfl, rfl, found, null, .inl unfound⟩
      | @inside p q o holds len terminated own above below =>
          have size := holds.size_lt
          have offset := findAllocationOffset_own holds above below
          by_cases within : q.addr - p.addr ≤ c.str.len
          · obtain ⟨text, found, _, measures⟩ :=
              measureInternal_within wf holds len terminated own above below within
            cases ran.symm.trans measures
            exact .inr ⟨text, rfl, rfl, found, null, .inr (offset.symm ▸ within)⟩
          · cases ran.symm.trans (measureInternal_beyond wf holds above below (by omega))
            refine .inl ⟨rfl, fun takes => ?_⟩
            obtain ⟨_, outside | within'⟩ := takes
            · rw [offset] at outside
              unfold npos at outside
              omega
            · exact within (offset ▸ within')

/-- A measured text is readable as counted bytes. -/
theorem Source.readable_text {c : Cell} {source : Source} {text : Bytes}
    (found : source.cString c.heap = .ok text) : Readable c source text.length :=
  .inr (.inr (.inr ⟨text, Source.read_text found⟩))

theorem setCString_spec {c : Cell} (wf : WellFormed c) (ok : c.str.status = .ok)
    {source : Source} (sized : source.Sized) (readable : ReadableText c source) :
    ∃ status c', setCString source c = .ok (status, c') ∧
      Outcome c (source.text c.heap) status c' := by
  obtain ⟨measured, c', run, measure⟩ := measureCStringInput_spec wf ok sized readable
  simp only [setCString, run, ok_bind]
  cases measure with
  | failed failure => exact ⟨_, _, rfl, (Unchanged.refl c).outcome wf _ failure⟩
  | text given found size =>
      rw [Source.text_of_cString found, ← Source.bytes_of_read (Source.read_text found)]
      have set := setValidSpan_spec wf ok (fun _ => given) size (Source.readable_text found)
      rwa [Source.bytes_of_read (Source.read_text found)] at set ⊢

theorem appendCString_spec {c : Cell} (wf : WellFormed c) (ok : c.str.status = .ok)
    {source : Source} (sized : source.Sized) (readable : ReadableText c source) :
    ∃ status c', appendCString source c = .ok (status, c') ∧
      Outcome c (c.content ++ source.text c.heap) status c' := by
  obtain ⟨measured, c', run, measure⟩ := measureCStringInput_spec wf ok sized readable
  simp only [appendCString, run, ok_bind]
  cases measure with
  | failed failure => exact ⟨_, _, rfl, (Unchanged.refl c).outcome wf _ failure⟩
  | text given found size =>
      rw [Source.text_of_cString found]
      have append := appendValidSpan_spec wf ok (fun _ => given) size (Source.readable_text found)
      rwa [Source.bytes_of_read (Source.read_text found)] at append

end AgencC.Str
