import AgencC.Library.Pieces
import AgencC.Str.Outcomes
import Mathlib.Data.FinEnum

/-! Splitting a borrowed view at a separator byte. -/

set_option autoImplicit false

namespace AgencC.Str

open Library

/-- `str_split_out_t`. The array behind `parts` may have more than `cap` elements. -/
structure SplitOut where
  parts : Option (List Borrowed)
  cap : Nat
  count : Nat
  deriving DecidableEq, Repr

def validateSplitArguments (source : Borrowed) : Option SplitOut → Status
  | none => .errArg
  | some splitOutput =>
      if 0 < splitOutput.cap ∧ splitOutput.parts = none then .errArg
      else if source.isValid then .ok
      else .errArg

/-- `str_get_view_buffer`. -/
def getViewBuffer (view : Borrowed) : Except Fault Source := do
  ensure view.isValid "str_view_is_valid(view)"
  .ok (if view.ptr.isNull then .array [0] else view.ptr)

def storeSplitPart (count : Nat) (source : Source) (len : Nat) (splitOutput : SplitOut) :
    Except Fault SplitOut :=
  if splitOutput.cap ≤ count then .ok splitOutput
  else
    match splitOutput.parts with
    | none => .error (.assertion "split_output->parts != NULL")
    | some parts =>
        if count < parts.length then
          .ok { splitOutput with parts := some (parts.set count { ptr := source, len }) }
        else .error .outOfBounds

section
variable (heap : Memory) (source : Borrowed) (separator : UInt8)

/-- The loop of `str_find_separator`, with the bytes it has left. -/
def findSeparatorLoop (buffer : Source) : Nat → Nat → Except Fault Nat
  | 0, _ => .ok npos
  | left + 1, idx => do
      let byte ← (buffer.add idx).read heap 1
      if byte = [separator] then .ok idx else findSeparatorLoop buffer left (idx + 1)

def findSeparator (idx : Nat) : Except Fault Nat := do
  ensure source.isValid "str_view_is_valid(source)"
  ensure (idx ≤ source.len) "cursor.idx <= source.len"
  let buffer ← getViewBuffer source
  findSeparatorLoop heap separator buffer (source.len - idx) idx

/-- The first loop of `str_write_split_parts`, with the bytes it has left. -/
def leadingSeparatorsLoop (buffer : Source) : Nat → Nat → Except Fault Nat
  | 0, idx => .ok idx
  | left + 1, idx => do
      let byte ← (buffer.add idx).read heap 1
      if byte = [separator] then leadingSeparatorsLoop buffer left (idx + 1) else .ok idx

/-- The guard of `str_write_split_parts`: a count that is no `size_t`. -/
def hasCountOverflow (buffer : Source) : Except Fault Bool :=
  if source.len = sizeMax then do
    let idx ← leadingSeparatorsLoop heap separator buffer source.len 0
    .ok (idx == source.len)
  else .ok false

/-- The second loop of `str_write_split_parts`: where the last part starts, and how many parts
come before it. The cursor is always at `start`. -/
def splitPartsLoop (buffer : Source) :
    Nat → Nat → Nat → SplitOut → Except Fault (Nat × Nat × SplitOut)
  | 0, _, _, _ => .error .unbounded
  | bound + 1, start, count, splitOutput =>
      if start < source.len then do
        let separatorIdx ← findSeparator heap source separator start
        if separatorIdx = npos then .ok (start, count, splitOutput)
        else do
          let splitOutput ←
            storeSplitPart count (buffer.add start) (sizeSub separatorIdx start) splitOutput
          splitPartsLoop buffer bound (sizeAdd separatorIdx nulBytes) (sizeAdd count 1) splitOutput
      else .ok (start, count, splitOutput)

def writeSplitParts (splitOutput : SplitOut) : Except Fault (Status × SplitOut) := do
  ensure source.isValid "str_view_is_valid(source)"
  let buffer ← getViewBuffer source
  if ← hasCountOverflow heap source separator buffer then .ok (.errOverflow, splitOutput)
  else do
    let (start, count, splitOutput) ←
      splitPartsLoop heap source separator buffer (source.len + 1) 0 0 splitOutput
    let splitOutput ← storeSplitPart count (buffer.add start) (sizeSub source.len start) splitOutput
    let splitOutput := { splitOutput with count := sizeAdd count 1 }
    ensure (0 < splitOutput.count) "split_output->count > 0"
    ensure (source.len = sizeMax ∨ splitOutput.count ≤ sizeAdd source.len nulBytes)
      "source.len == SIZE_MAX || split_output->count <= source.len + STR_NUL_BYTES"
    .ok (.ok, splitOutput)

def splitView (splitOutput : Option SplitOut) : Except Fault (Status × Option SplitOut) :=
  match validateSplitArguments source splitOutput, splitOutput with
  | .ok, some splitOutput => do
      let (status, splitOutput) ← writeSplitParts heap source separator splitOutput
      .ok (status, some splitOutput)
  | status, splitOutput => .ok (status, splitOutput)

end

/-- Part of a readable span is readable. -/
theorem Source.read_within {heap : Memory} {source : Source} {len offset part : Nat} {bytes : Bytes}
    (read : source.read heap len = .ok bytes) (within : offset + part ≤ len) :
    (source.add offset).read heap part = .ok ((bytes.drop offset).take part) := by
  cases source with
  | array array =>
      simp only [Source.read] at read
      split at read
      · case isTrue long =>
          cases read
          simp only [Source.add, Source.read]
          rw [if_pos (by rw [List.length_drop]; omega), List.drop_take, List.take_take,
            Nat.min_eq_left (by omega)]
      · cases read
  | mem pointer =>
      cases pointer with
      | none => cases read
      | some p =>
          obtain ⟨o, live, above, inside, contents⟩ := Heap.read_eq_ok read
          have start : (p.add offset).addr = p.addr + offset := rfl
          have moved : (p.add offset).obj = p.obj := rfl
          have found : heap.read (p.add offset) part =
              .ok ((o.cells.drop ((p.add offset).addr - o.base)).take part) :=
            Heap.read_ok (by rw [moved]; exact live) (by omega) (by omega)
          have shift : p.addr + offset - o.base = (p.addr - o.base) + offset := by omega
          change heap.read (p.add offset) part = _
          rw [found, contents, start, shift, ← List.drop_drop, List.drop_take, List.take_take,
            Nat.min_eq_left (by omega)]

/-- `bytes` is what a view designates. -/
structure Borrowed.Reads (heap : Memory) (view : Borrowed) (bytes : Bytes) : Prop where
  length : bytes.length = view.len
  read : 0 < view.len → view.ptr.isNull = false → view.ptr.read heap view.len = .ok bytes

/-- Whatever lies in a view can be read through its buffer. -/
theorem Borrowed.Reads.within {heap : Memory} {view : Borrowed} {bytes : Bytes}
    (reads : view.Reads heap bytes) (valid : view.isValid = true) {buffer : Source}
    (got : getViewBuffer view = .ok buffer) {offset part : Nat} (pos : 0 < part)
    (inside : offset + part ≤ bytes.length) :
    (buffer.add offset).read heap part = .ok ((bytes.drop offset).take part) := by
  have length := reads.length
  have given : view.ptr.isNull = false := by
    cases null : view.ptr.isNull with
    | false => rfl
    | true =>
        have empty : view.len = 0 := by simpa [Borrowed.isValid, null] using valid
        omega
  simp only [getViewBuffer, ensure_of valid, ok_bind, given, Bool.false_eq_true, if_false] at got
  cases got
  exact Source.read_within (reads.read (by omega) given) (by omega)

/-! The parts of a source. -/

/-- A part by its place in the source's buffer. -/
def partAt (buffer : Source) (span : Nat × Nat) : Borrowed := { ptr := buffer.add span.1, len := span.2 }

/-- All parts of a source, stored or not. -/
def splitParts (buffer : Source) (separator : UInt8) (bytes : Bytes) : List Borrowed :=
  (pieceSpans 0 (bytes.splitOn separator)).map (partAt buffer)

/-- The bytes of a part. -/
def Borrowed.text (heap : Memory) (view : Borrowed) : Bytes := view.ptr.bytes heap view.len

namespace SplitOut

/-- The output with the first of `parts` in its array. -/
def holding (parts : List Borrowed) (out : SplitOut) : SplitOut :=
  { out with
    parts := out.parts.map fun array =>
      parts.take out.cap ++ array.drop (min parts.length out.cap) }

/-- `parts` designates `cap` elements. -/
def Roomy (out : SplitOut) : Prop := ∀ array, out.parts = some array → out.cap ≤ array.length

theorem holding_nil (out : SplitOut) : out.holding [] = out := by
  cases out with
  | mk parts cap count => cases parts <;> simp [holding]

end SplitOut

theorem storeSplitPart_holding {out : SplitOut} (roomy : out.Roomy)
    (given : ¬ (0 < out.cap ∧ out.parts = none)) (done : List Borrowed) (source : Source) (len : Nat) :
    storeSplitPart done.length source len (out.holding done) =
      .ok (out.holding (done ++ [{ ptr := source, len }])) := by
  by_cases full : out.cap ≤ done.length
  · have same : out.holding (done ++ [{ ptr := source, len }]) = out.holding done := by
      simp only [SplitOut.holding, List.length_append, List.length_singleton]
      rw [List.take_append_of_le_length full, Nat.min_eq_right full,
        Nat.min_eq_right (Nat.le_succ_of_le full)]
    rw [same]
    exact if_pos full
  · have room : done.length < out.cap := Nat.lt_of_not_le full
    cases held : out.parts with
    | none => exact absurd ⟨by omega, held⟩ given
    | some array =>
        have long := roomy array held
        have before : (out.holding done).parts = some (done ++ array.drop done.length) := by
          rw [SplitOut.holding, held, Nat.min_eq_left (Nat.le_of_lt room),
            List.take_of_length_le (Nat.le_of_lt room)]
          rfl
        have fits : done.length < (done ++ array.drop done.length).length := by
          rw [List.length_append, List.length_drop]
          omega
        have set : (done ++ array.drop done.length).set done.length { ptr := source, len } =
            (done ++ [{ ptr := source, len }]) ++ array.drop (done.length + 1) := by
          rw [List.set_append_right _ _ (Nat.le_refl _), Nat.sub_self, List.drop_eq_getElem_cons (by omega),
            List.set_cons_zero, List.append_assoc]
          rfl
        have after : out.holding (done ++ [{ ptr := source, len }]) =
            { out.holding done with
              parts := some ((done ++ array.drop done.length).set done.length { ptr := source, len }) } := by
          simp only [SplitOut.holding, held, Option.map_some, List.length_append,
            List.length_singleton]
          rw [set, Nat.min_eq_left (by omega), List.take_of_length_le (by simp; omega)]
        have open' : ¬ (out.holding done).cap ≤ done.length := full
        rw [storeSplitPart, if_neg open', before, after]
        exact if_pos fits

/-! The loops. -/

section
variable {heap : Memory} {separator : UInt8} {buffer : Source} {bytes : Bytes}

/-- Each byte of the source can be read. -/
theorem read_byte
    (reads : ∀ {offset part}, 0 < part → offset + part ≤ bytes.length →
      (buffer.add offset).read heap part = .ok ((bytes.drop offset).take part))
    {idx : Nat} {byte : UInt8} {rest : Bytes} (here : bytes.drop idx = byte :: rest) :
    (buffer.add idx).read heap 1 = .ok [byte] := by
  have length := congrArg List.length here
  rw [List.length_drop, List.length_cons] at length
  rw [reads Nat.one_pos (by omega), here]
  rfl

theorem drop_next {idx : Nat} {byte : UInt8} {rest : Bytes} (here : bytes.drop idx = byte :: rest) :
    bytes.drop (idx + 1) = rest := by
  rw [← List.drop_drop, here]
  rfl

theorem findSeparatorLoop_absent
    (reads : ∀ {offset part}, 0 < part → offset + part ≤ bytes.length →
      (buffer.add offset).read heap part = .ok ((bytes.drop offset).take part))
    {idx : Nat} {rest : Bytes} (here : bytes.drop idx = rest) (absent : separator ∉ rest) :
    findSeparatorLoop heap separator buffer rest.length idx = .ok npos := by
  induction rest generalizing idx with
  | nil => rfl
  | cons byte rest ih =>
      have other : ¬ [byte] = [separator] := fun same =>
        absent (List.singleton_inj.mp same ▸ .head _)
      rw [List.length_cons, findSeparatorLoop, read_byte reads here, ok_bind, if_neg other]
      exact ih (drop_next here) fun member => absent (.tail _ member)

theorem findSeparatorLoop_found
    (reads : ∀ {offset part}, 0 < part → offset + part ≤ bytes.length →
      (buffer.add offset).read heap part = .ok ((bytes.drop offset).take part))
    {idx : Nat} {xs ys : Bytes} (here : bytes.drop idx = xs ++ separator :: ys)
    (clear : separator ∉ xs) :
    findSeparatorLoop heap separator buffer (xs ++ separator :: ys).length idx =
      .ok (idx + xs.length) := by
  induction xs generalizing idx with
  | nil =>
      rw [List.nil_append, List.length_cons, findSeparatorLoop, read_byte reads here, ok_bind,
        if_pos rfl]
      rfl
  | cons byte xs ih =>
      have other : ¬ [byte] = [separator] := fun same =>
        clear (List.singleton_inj.mp same ▸ .head _)
      have here : bytes.drop idx = byte :: (xs ++ separator :: ys) := here
      rw [List.cons_append, List.length_cons, findSeparatorLoop, read_byte reads here, ok_bind,
        if_neg other, ih (drop_next here) fun member => clear (.tail _ member), List.length_cons]
      congr 1
      omega

/-- The leading separators end with the source, or before. -/
theorem leadingSeparatorsLoop_spec (separator : UInt8)
    (reads : ∀ {offset part}, 0 < part → offset + part ≤ bytes.length →
      (buffer.add offset).read heap part = .ok ((bytes.drop offset).take part))
    (idx : Nat) {rest : Bytes} (here : bytes.drop idx = rest) :
    ∃ last, leadingSeparatorsLoop heap separator buffer rest.length idx = .ok last ∧
      (last = idx + rest.length ↔ ∀ byte ∈ rest, byte = separator) := by
  induction rest generalizing idx with
  | nil => exact ⟨idx, rfl, fun _ _ member => (nomatch member), fun _ => rfl⟩
  | cons byte rest ih =>
      rw [List.length_cons, leadingSeparatorsLoop, read_byte reads here, ok_bind]
      by_cases same : [byte] = [separator]
      · rw [if_pos same]
        obtain ⟨last, ran, only⟩ := ih (idx + 1) (drop_next here)
        refine ⟨last, ran, ?_⟩
        have end' : idx + (rest.length + 1) = idx + 1 + rest.length := by omega
        rw [end', only, List.forall_mem_cons]
        exact ⟨fun later => ⟨List.singleton_inj.mp same, later⟩, And.right⟩
      · rw [if_neg same]
        refine ⟨idx, rfl, fun end' => ?_, fun all => ?_⟩
        · omega
        · exact absurd (congrArg (fun b => [b]) (all byte (.head _))) same

theorem findSeparator_eq {source : Borrowed} (valid : source.isValid = true)
    (got : getViewBuffer source = .ok buffer) {idx : Nat} (inside : idx ≤ source.len) :
    findSeparator heap source separator idx =
      findSeparatorLoop heap separator buffer (source.len - idx) idx := by
  simp only [findSeparator, ensure_of valid, ensure_of inside, ok_bind, got]

/-- The loop stores all parts but the last, and returns where the last one starts. -/
theorem splitPartsLoop_spec (separator : UInt8) {source : Borrowed} (valid : source.isValid = true)
    (got : getViewBuffer source = .ok buffer) (length : bytes.length = source.len)
    (size : source.len ≤ sizeMax)
    (reads : ∀ {offset part}, 0 < part → offset + part ≤ bytes.length →
      (buffer.add offset).read heap part = .ok ((bytes.drop offset).take part))
    {out : SplitOut} (roomy : out.Roomy) (given : ¬ (0 < out.cap ∧ out.parts = none)) (bound : Nat) :
    ∀ (start : Nat) (done : List Borrowed), start ≤ source.len → done.length ≤ start →
      source.len - start < bound →
      ∃ start' done',
        splitPartsLoop heap source separator buffer bound start done.length (out.holding done) =
          .ok (start', done'.length, out.holding done') ∧ start' ≤ source.len ∧
        done' ++ [partAt buffer (start', source.len - start')] =
          done ++ (pieceSpans start ((bytes.drop start).splitOn separator)).map (partAt buffer) := by
  induction bound with
  | zero =>
      intro start done inside few enough
      cases enough
  | succ bound ih =>
      intro start done inside few enough
      have left : (bytes.drop start).length = source.len - start := by
        rw [List.length_drop, length]
      rw [splitPartsLoop]
      by_cases absent : separator ∈ bytes.drop start
      · obtain ⟨xs, ys, here, clear⟩ := List.eq_append_cons_of_mem absent
        have whole := congrArg List.length here
        rw [left, List.length_append, List.length_cons] at whole
        have stored := storeSplitPart_holding roomy given done (buffer.add start) xs.length
        have next : bytes.drop (start + xs.length + 1) = ys := by
          rw [← List.drop_drop, ← List.drop_drop, here, List.drop_left]
          rfl
        have found := findSeparatorLoop_found reads here clear
        rw [← here, left] at found
        have between : sizeSub (start + xs.length) start = xs.length := by
          rw [sizeSub_of_le (by omega) (by omega)]
          exact Nat.add_sub_cancel_left _ _
        have after : sizeAdd (start + xs.length) nulBytes = start + xs.length + 1 :=
          sizeAdd_of_le (show start + xs.length + 1 ≤ sizeMax by omega)
        have counted : sizeAdd done.length 1 =
            (done ++ [partAt buffer (start, xs.length)]).length := by
          rw [sizeAdd_of_le (by omega), List.length_append]
          rfl
        have known : start + xs.length ≠ npos := by
          unfold npos
          omega
        rw [if_pos (by omega), findSeparator_eq valid got inside, found, ok_bind, if_neg known,
          between, stored, ok_bind, after, counted]
        obtain ⟨start', done', ran, inside', listed⟩ := ih (start + xs.length + 1)
          (done ++ [partAt buffer (start, xs.length)]) (by omega)
          (by rw [List.length_append]; exact Nat.le_trans (Nat.add_le_add_right few 1) (by omega))
          (by omega)
        refine ⟨start', done', ran, inside', ?_⟩
        rw [listed, next, here, List.splitOn_append_cons_self_of_not_mem clear, pieceSpans,
          List.map_cons, List.append_assoc]
        rfl
      · have single := List.splitOn_eq_singleton absent
        refine ⟨start, done, ?_, inside, ?_⟩
        · by_cases some : start < source.len
          · have found := findSeparatorLoop_absent reads rfl absent
            rw [left] at found
            rw [if_pos some, findSeparator_eq valid got inside, found, ok_bind, if_pos rfl]
          · exact if_neg some
        · rw [single, pieceSpans, left]
          rfl

end

theorem getViewBuffer_valid {source : Borrowed} (valid : source.isValid = true) :
    ∃ buffer, getViewBuffer source = .ok buffer := by
  rw [getViewBuffer, ensure_of valid]
  exact ⟨_, rfl⟩

theorem length_splitParts (buffer : Source) (separator : UInt8) (bytes : Bytes) :
    (splitParts buffer separator bytes).length = bytes.count separator + 1 := by
  rw [splitParts, List.length_map, length_pieceSpans, length_splitOn]

/-- Only a source with nothing but separators has as many of them as bytes. -/
theorem count_lt_length {separator : UInt8} {bytes : Bytes}
    (mixed : ¬ ∀ byte ∈ bytes, byte = separator) : bytes.count separator < bytes.length := by
  refine Nat.lt_of_le_of_ne List.count_le_length fun whole => mixed fun byte member => ?_
  exact (List.count_eq_length.mp whole byte member).symm

section
variable {heap : Memory} {separator : UInt8} {buffer : Source} {bytes : Bytes} {source : Borrowed}
  {out : SplitOut}

theorem hasCountOverflow_eq (valid : source.isValid = true) (reads : source.Reads heap bytes)
    (got : getViewBuffer source = .ok buffer) :
    hasCountOverflow heap source separator buffer =
      .ok (decide (source.len = sizeMax ∧ ∀ byte ∈ bytes, byte = separator)) := by
  have length := reads.length
  obtain ⟨last, leading, only⟩ := leadingSeparatorsLoop_spec separator
    (reads.within valid got) 0 rfl
  rw [List.drop_zero, Nat.zero_add] at only
  rw [List.drop_zero, length] at leading
  unfold hasCountOverflow
  by_cases large : source.len = sizeMax
  · rw [if_pos large, leading, ok_bind]
    congr 1
    rw [Bool.eq_iff_iff, beq_iff_eq, decide_eq_true_eq, ← length, only]
    exact ⟨fun all => ⟨length.trans large, all⟩, And.right⟩
  · rw [if_neg large]
    congr 1
    exact (decide_eq_false fun both => large both.1).symm

theorem writeSplitParts_spec (separator : UInt8) (valid : source.isValid = true)
    (reads : source.Reads heap bytes) (got : getViewBuffer source = .ok buffer)
    (size : source.len ≤ sizeMax) (roomy : out.Roomy)
    (given : ¬ (0 < out.cap ∧ out.parts = none)) :
    writeSplitParts heap source separator out =
      if source.len = sizeMax ∧ ∀ byte ∈ bytes, byte = separator then .ok (.errOverflow, out)
      else
        .ok (.ok,
          { out.holding (splitParts buffer separator bytes) with
            count := bytes.count separator + 1 }) := by
  have length := reads.length
  have within : ∀ {offset part}, 0 < part → offset + part ≤ bytes.length →
      (buffer.add offset).read heap part = .ok ((bytes.drop offset).take part) :=
    reads.within valid got
  simp only [writeSplitParts, ensure_of valid, ok_bind, got, hasCountOverflow_eq valid reads got]
  by_cases unrepresentable : source.len = sizeMax ∧ ∀ byte ∈ bytes, byte = separator
  · rw [if_pos unrepresentable, if_pos (decide_eq_true unrepresentable)]
  · rw [if_neg unrepresentable, if_neg fun all => unrepresentable (of_decide_eq_true all)]
    obtain ⟨start, done, ran, inside, listed⟩ := splitPartsLoop_spec separator valid
      got length size within roomy given (source.len + 1) 0 [] (Nat.zero_le _) (Nat.le_refl _) (Nat.lt_succ_self _)
    rw [SplitOut.holding_nil, List.length_nil] at ran
    rw [List.nil_append, List.drop_zero] at listed
    have whole : done ++ [partAt buffer (start, source.len - start)] =
        splitParts buffer separator bytes := listed
    have total := congrArg List.length whole
    rw [List.length_append, List.length_singleton, length_splitParts] at total
    have few : bytes.count separator + 1 ≤ sizeMax := by
      have bound : bytes.count separator ≤ bytes.length := List.count_le_length
      by_cases large : source.len = sizeMax
      · have mixed := count_lt_length fun all => unrepresentable ⟨large, all⟩
        omega
      · omega
    have counted : sizeAdd done.length 1 = bytes.count separator + 1 := by
      rw [sizeAdd_of_le (by omega), total]
    have rest : sizeSub source.len start = source.len - start := sizeSub_of_le inside size
    have bound : source.len = sizeMax ∨
        bytes.count separator + 1 ≤ sizeAdd source.len nulBytes := by
      by_cases large : source.len = sizeMax
      · exact .inl large
      · refine .inr ?_
        have bound : bytes.count separator ≤ bytes.length := List.count_le_length
        have next : sizeAdd source.len nulBytes = source.len + 1 :=
          sizeAdd_of_le (show source.len + 1 ≤ sizeMax by omega)
        rw [next]
        omega
    rw [ran, ok_bind]
    dsimp only
    rw [rest, storeSplitPart_holding roomy given, ok_bind, counted]
    change (ensure (0 < bytes.count separator + 1) _ >>= _) = _
    rw [ensure_of (Nat.succ_pos _), ok_bind]
    change (ensure (source.len = sizeMax ∨
      bytes.count separator + 1 ≤ sizeAdd source.len nulBytes) _ >>= _) = _
    rw [ensure_of bound, ok_bind]
    exact congrArg (fun parts => Except.ok (Status.ok,
      { out.holding parts with count := bytes.count separator + 1 })) whole

/-- Each part is a run of the source, and its bytes are those of the piece. -/
theorem splitParts_run (valid : source.isValid = true) (reads : source.Reads heap bytes)
    (got : getViewBuffer source = .ok buffer) {i : Nat} {part : Borrowed}
    (listed : (splitParts buffer separator bytes)[i]? = some part) :
    ∃ start, part.ptr = buffer.add start ∧ SeparatedRun bytes separator i start part.len ∧
      (bytes.splitOn separator)[i]? = some (part.text heap) := by
  rw [splitParts, List.getElem?_map] at listed
  obtain ⟨⟨start, len⟩, found, same⟩ := Option.map_eq_some_iff.mp listed
  subst same
  obtain ⟨run, piece⟩ := pieceSpans_splitOn found
  refine ⟨start, rfl, run, ?_⟩
  have text : (partAt buffer (start, len)).text heap = (bytes.drop start).take len := by
    change (buffer.add start).bytes heap len = _
    cases Nat.eq_zero_or_pos len with
    | inl none => rw [none, Source.bytes_zero, List.take_zero]
    | inr pos => exact Source.bytes_of_read (reads.within valid got pos run.inside)
  rw [text]
  exact piece

theorem splitParts_text (valid : source.isValid = true) (reads : source.Reads heap bytes)
    (got : getViewBuffer source = .ok buffer) :
    (splitParts buffer separator bytes).map (·.text heap) = bytes.splitOn separator := by
  refine List.ext_getElem? fun i => ?_
  rw [List.getElem?_map]
  cases listed : (splitParts buffer separator bytes)[i]? with
  | none =>
      have beyond := List.getElem?_eq_none_iff.mp listed
      rw [length_splitParts, ← length_splitOn] at beyond
      exact (List.getElem?_eq_none_iff.mpr beyond).symm
  | some part =>
      obtain ⟨_, _, _, piece⟩ := splitParts_run valid reads got listed
      exact piece.symm

end

/-- A split finds the longest runs without a separator, in order, and stores as many as the
array has room for. -/
theorem splitView_parts (heap : Memory) (source : Borrowed) (size : source.len ≤ sizeMax)
    (bytes : Bytes) (reads : source.Reads heap bytes) (separator : UInt8) (out : SplitOut)
    (roomy : out.Roomy) :
    ∃ status out', splitView heap source separator (some out) = .ok (status, some out') ∧
      (status = .errOverflow ↔ validateSplitArguments source (some out) = .ok ∧
        source.len = sizeMax ∧ ∀ byte ∈ bytes, byte = separator) ∧
      (status = .errArg ↔ validateSplitArguments source (some out) ≠ .ok) ∧
      (status ≠ .ok → out' = out) ∧
      (status = .ok → ∃ (buffer : Source) (parts : List Borrowed),
        getViewBuffer source = .ok buffer ∧
        out'.count = bytes.count separator + 1 ∧ parts.length = out'.count ∧
        [separator].intercalate (parts.map (·.text heap)) = bytes ∧
        (∀ i part, parts[i]? = some part → separator ∉ part.text heap ∧
          ∃ start, part.ptr = buffer.add start ∧ SeparatedRun bytes separator i start part.len) ∧
        out'.cap = out.cap ∧
        out'.parts = out.parts.map fun array =>
          parts.take out.cap ++ array.drop (min out'.count out.cap)) := by
  by_cases missing : 0 < out.cap ∧ out.parts = none
  · have refused : validateSplitArguments source (some out) = .errArg := if_pos missing
    refine ⟨.errArg, out, by simp only [splitView, refused], ?_, ?_, fun _ => rfl, ?_⟩ <;> simp [refused]
  · by_cases valid : source.isValid = true
    · have accepted : validateSplitArguments source (some out) = .ok :=
        (if_neg missing).trans (if_pos valid)
      obtain ⟨buffer, got⟩ := getViewBuffer_valid valid
      have wrote := writeSplitParts_spec separator valid reads got size roomy missing
      have ran : splitView heap source separator (some out) =
          writeSplitParts heap source separator out >>= fun r => .ok (r.1, some r.2) := by
        simp only [splitView, accepted]
      by_cases unrepresentable : source.len = sizeMax ∧ ∀ byte ∈ bytes, byte = separator
      · rw [if_pos unrepresentable] at wrote
        refine ⟨.errOverflow, out, by rw [ran, wrote]; rfl, ?_, ?_, fun _ => rfl, ?_⟩
        · exact ⟨fun _ => ⟨accepted, unrepresentable⟩, fun _ => rfl⟩
        · simp [accepted]
        · exact fun impossible => nomatch impossible
      · rw [if_neg unrepresentable] at wrote
        refine ⟨.ok, _, by rw [ran, wrote]; rfl, ?_, ?_, fun failed => absurd rfl failed, fun _ => ?_⟩
        · exact ⟨fun impossible => (nomatch impossible), fun all => absurd all.2 unrepresentable⟩
        · simp [accepted]
        · refine ⟨buffer, splitParts buffer separator bytes, got, rfl,
            length_splitParts buffer separator bytes, ?_, fun i part listed => ?_, rfl, ?_⟩
          · rw [splitParts_text valid reads got, List.intercalate_splitOn]
          · obtain ⟨start, place, run, piece⟩ := splitParts_run valid reads got listed
            exact ⟨not_mem_of_mem_splitOn (List.mem_of_getElem? piece), start, place, run⟩
          · change out.parts.map _ = out.parts.map _
            rw [length_splitParts]
    · have refused : validateSplitArguments source (some out) = .errArg :=
        (if_neg missing).trans (if_neg valid)
      refine ⟨.errArg, out, by simp only [splitView, refused], ?_, ?_, fun _ => rfl, ?_⟩ <;> simp [refused]

/-- Three parts for an array of two. -/
theorem splitView_parts_truncated :
    ∃ out', splitView (.vacant fun _ => none) { ptr := .array [44, 97, 44], len := 3 } 44
        (some
          { parts := some (List.replicate 3 { ptr := .array [7], len := 1 }), cap := 2, count := 0 }) =
        .ok (.ok, some out') ∧
      out'.count = 3 ∧
      out'.parts = some
        [{ ptr := .array [44, 97, 44], len := 0 }, { ptr := .array [97, 44], len := 1 },
          { ptr := .array [7], len := 1 }] := by
  obtain ⟨status, out', ran, _, _, _, stored⟩ := splitView_parts (.vacant fun _ => none)
    { ptr := .array [44, 97, 44], len := 3 } (by decide) [44, 97, 44] ⟨rfl, fun _ _ => rfl⟩ 44
    { parts := some (List.replicate 3 { ptr := .array [7], len := 1 }), cap := 2, count := 0 }
    (by rintro array held; cases held; decide)
  have computed : splitView (.vacant fun _ => none) { ptr := .array [44, 97, 44], len := 3 } 44
      (some
        { parts := some (List.replicate 3 { ptr := .array [7], len := 1 }), cap := 2, count := 0 }) =
      .ok (.ok, some _) := rfl
  obtain ⟨rfl, same⟩ := Prod.ext_iff.mp (Except.ok.inj (ran.symm.trans computed))
  cases same
  obtain ⟨buffer, parts, _, count, _⟩ := stored rfl
  exact ⟨_, ran, count, rfl⟩

end AgencC.Str
