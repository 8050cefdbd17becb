import AgencC.Str.Text

/-! Formatted output: which rendering an append takes over, and how each step can fail. -/

set_option autoImplicit false

namespace AgencC.Str

open Library

/-- What becomes of an append of `len` bytes that lie outside the string. -/
inductive Appending (c : Cell) (len : Nat) : Status → Prop
  | nothing (none : len = 0) : Appending c len .ok
  | overflows (some : 0 < len) (beyond : sizeMax < c.str.len + len + 1) :
      Appending c len .errOverflow
  | refused (some : 0 < len) (fits : c.str.len + len + 1 ≤ sizeMax)
      (refused : ¬ Grants (c.str.len + len + 1) c) : Appending c len .errAlloc
  | room (some : 0 < len) (fits : c.str.len + len + 1 ≤ sizeMax)
      (granted : Grants (c.str.len + len + 1) c) : Appending c len .ok

theorem appendUnaliasedSpan_decides {c : Cell} (wf : WellFormed c) (ok : c.str.status = .ok)
    {source : Source} (given : source.isNull = false) {len : Nat} (size : len ≤ sizeMax)
    {status : Status} {c' : Cell}
    (ran : appendUnaliasedSpan source len c = .ok (status, c')) : Appending c len status := by
  simp only [appendUnaliasedSpan, ensure_of ok, ensure_of given, ok_bind] at ran
  by_cases none : len = 0
  · rw [if_pos none] at ran
    cases ran
    exact .nothing none
  · simp only [if_neg none, calculateCapacity_eq size] at ran
    by_cases fits : c.str.len + len + 1 ≤ sizeMax
    · rw [if_pos fits] at ran
      rcases ensureCapacity_decides wf (by omega) fits with
        ⟨refused, c₁, answered, _⟩ | ⟨granted, c₁, _, _, answered, _⟩
      · simp only [answered, ok_bind, recordFailure_ok .errAlloc (by decide)] at ran
        cases ran
        exact .refused (by omega) fits refused
      · simp only [answered, ok_bind] at ran
        obtain ⟨c₂, _, finished⟩ := bind_eq_ok.mp ran
        cases finished
        exact .room (by omega) fits granted
    · rw [if_neg fits] at ran
      simp only [recordFailure_ok .errOverflow (by decide)] at ran
      cases ran
      exact .overflows (by omega) (by omega)

/-- `vsnprintf` makes `output` of a format and returns its length. -/
def Prints (rendering : Option Bytes) (output : Bytes) : Prop :=
  rendering = some output ∧ output.length ≤ intMax

/-- The course of a formatted append once the format has been read as `text`: the status it
ends with and the bytes it appends. The stack buffer holds a rendering that leaves room for
the NUL; a longer one is rendered once more, beside the old objects, into a buffer of its
own size. -/
inductive Rendering (c : Cell) (text : Bytes) (arguments : Arguments) : Status → Bytes → Prop
  | unprinted (fails : ∀ output, ¬ Prints (arguments 0 text c.heap) output) :
      Rendering c text arguments .errFmt []
  | short {output : Bytes} {status : Status} (first : Prints (arguments 0 text c.heap) output)
      (fits : output.length < formatStackBytes) (appended : Appending c output.length status) :
      Rendering c text arguments status output
  | unstaged {first : Bytes} {heap : Memory} (printed : Prints (arguments 0 text c.heap) first)
      (long : formatStackBytes ≤ first.length)
      (refused : c.heap.malloc (first.length + 1) = (none, heap)) :
      Rendering c text arguments .errAlloc []
  | changed {first : Bytes} {buf : Ptr} {heap : Memory}
      (printed : Prints (arguments 0 text c.heap) first)
      (long : formatStackBytes ≤ first.length)
      (granted : c.heap.malloc (first.length + 1) = (some buf, heap))
      (differs : ∀ output, Prints (arguments 1 text heap) output → output.length ≠ first.length) :
      Rendering c text arguments .errFmt []
  | staged {first output : Bytes} {buf : Ptr} {heap heap' : Memory} {status : Status}
      (printed : Prints (arguments 0 text c.heap) first)
      (long : formatStackBytes ≤ first.length)
      (granted : c.heap.malloc (first.length + 1) = (some buf, heap))
      (again : Prints (arguments 1 text heap) output) (same : output.length = first.length)
      (wrote : heap.write buf (output ++ [0]) = .ok heap')
      (appended : Appending { c with heap := heap' } output.length status) :
      Rendering c text arguments status output

/-- The course of `str_append_fmt`. -/
inductive Formatting (c : Cell) (format : Source) (arguments : Arguments) : Status → Bytes → Prop
  | rejected (untaken : ¬ c.str.TakesText format) : Formatting c format arguments .errArg []
  | rendered {text output : Bytes} {status : Status} (takes : c.str.TakesText format)
      (found : format.cString c.heap = .ok text)
      (rendering : Rendering c text arguments status output) :
      Formatting c format arguments status output

/-- The format renders as `rendering` wherever the objects of `c` are as they are in `c`. -/
def RendersAs (c : Cell) (format : Source) (arguments : Arguments) (rendering : Bytes) : Prop :=
  ∀ text k heap, format.cString c.heap = .ok text →
    (∀ id o, c.heap.objs id = some o → heap.objs id = some o) →
    arguments k text heap = some rendering

theorem vsnprintf_cases (capacity : Nat) (rendering : Option Bytes) :
    (vsnprintf capacity rendering = (-1, []) ∧ ∀ output, ¬ Prints rendering output) ∨
    ∃ output, Prints rendering output ∧
      vsnprintf capacity rendering =
        ((output.length : Int), output.take (capacity - 1) ++ [0]) := by
  cases rendering with
  | none => exact .inl ⟨rfl, fun output prints => nomatch prints.1⟩
  | some output =>
      by_cases fits : output.length ≤ intMax
      · exact .inr ⟨output, ⟨rfl, fits⟩, by simp only [vsnprintf, if_pos fits]⟩
      · refine .inl ⟨by simp only [vsnprintf, if_neg fits], fun other prints => fits ?_⟩
        cases prints.1
        exact prints.2

theorem renderFormat_cases (k capacity : Nat) (pos : 0 < capacity) {format : Source}
    (given : format.isNull = false) (arguments : Arguments) {heap : Memory} {text : Bytes}
    (found : format.cString heap = .ok text) :
    (renderFormat k capacity format arguments heap = .ok (.error .errFmt, []) ∧
      ∀ output, ¬ Prints (arguments k text heap) output) ∨
    ∃ output, Prints (arguments k text heap) output ∧
      renderFormat k capacity format arguments heap =
        .ok (.ok output.length, output.take (capacity - 1) ++ [0]) := by
  simp only [renderFormat, ensure_of pos, ensure_of given, ok_bind, found]
  rcases vsnprintf_cases capacity (arguments k text heap) with
    ⟨failed, unprinted⟩ | ⟨output, prints, printed⟩
  · exact .inl ⟨by rw [failed]; rfl, unprinted⟩
  · refine .inr ⟨output, prints, ?_⟩
    have fits := prints.2
    have positive : ¬ (output.length : Int) < 0 := by omega
    have small : ¬ (sizeMax : Int) < output.length := by
      unfold intMax at fits
      unfold sizeMax
      omega
    rw [printed]
    simp only [if_neg positive, convertPrintedLength, if_neg small, Int.toNat_natCast]

/-- A format reads the same beside a temporary block. -/
theorem Temporary.cString {c : Cell} {t : Obj UInt8} {heap : Memory} (tmp : Temporary c t heap)
    {source : Source} {text : Bytes} (found : source.cString c.heap = .ok text) :
    source.cString heap = .ok text := by
  cases source with
  | array bytes => exact found
  | mem pointer =>
      cases pointer with
      | none => exact found
      | some q =>
          obtain ⟨rest, all, member, rfl⟩ := Source.cString_cases found
          obtain ⟨o, live, read⟩ := Source.rest_cases all
          have same := tmp.other (Temporary.distinct c live)
          have rest' : (Source.mem (some q)).rest heap = .ok rest := by
            simp only [Source.rest, same, live]
            rw [Heap.read_congr same]
            exact read
          rw [Source.cString, rest', ok_bind, if_pos member]

theorem malloc_of_allocateHeap {bytes : Nat} (pos : 0 < bytes) {heap heap' : Memory}
    {answer : Except Status Ptr} (ran : allocateHeap bytes heap = .ok (answer, heap')) :
    heap.malloc bytes = (answer.toOption, heap') := by
  simp only [allocateHeap, ensure_of pos, ok_bind] at ran
  rcases asked : heap.malloc bytes with ⟨reply, after⟩
  rw [asked] at ran
  cases reply <;> cases ran <;> rfl

/-- The rendered buffer of a long format: nothing left behind, or a block that holds the output
of a second rendering of the same length. -/
inductive Rendered (c : Cell) (text : Bytes) (arguments : Arguments) (expectedLen : Nat) :
    Except Status Ptr → Memory → Prop
  | unstaged {heap : Memory} (refused : c.heap.malloc (expectedLen + 1) = (none, heap))
      (same : Unchanged c { c with heap }) :
      Rendered c text arguments expectedLen (.error .errAlloc) heap
  | changed {buf : Ptr} {heap heap' : Memory}
      (granted : c.heap.malloc (expectedLen + 1) = (some buf, heap))
      (differs : ∀ output, Prints (arguments 1 text heap) output → output.length ≠ expectedLen)
      (same : Unchanged c { c with heap := heap' }) :
      Rendered c text arguments expectedLen (.error .errFmt) heap'
  | built {t : Obj UInt8} {heap heap' : Memory} {output : Bytes}
      (granted : c.heap.malloc (expectedLen + 1) = (some ⟨c.heap.nextId, t.base⟩, heap))
      (again : Prints (arguments 1 text heap) output) (length : output.length = expectedLen)
      (wrote : heap.write ⟨c.heap.nextId, t.base⟩ (output ++ [0]) = .ok heap')
      (tmp : Temporary c t heap')
      (read : (Source.mem (some ⟨c.heap.nextId, t.base⟩)).read heap' output.length = .ok output) :
      Rendered c text arguments expectedLen (.ok ⟨c.heap.nextId, t.base⟩) heap'

theorem buildFormattedBuffer_spec {c : Cell} (wf : WellFormed c) {expectedLen : Nat}
    (size : expectedLen ≤ intMax) {format : Source} (given : format.isNull = false)
    (arguments : Arguments) {text : Bytes} (found : format.cString c.heap = .ok text) :
    ∃ built heap, buildFormattedBuffer expectedLen format arguments c.heap = .ok (built, heap) ∧
      Rendered c text arguments expectedLen built heap := by
  have fits : expectedLen + 1 ≤ sizeMax := by
    unfold intMax at size
    unfold sizeMax
    omega
  simp only [buildFormattedBuffer, calculateCapacity_eq (Nat.le_of_succ_le fits), Nat.zero_add,
    if_pos fits]
  rcases allocateHeap_temporary c (expectedLen + 1) (by omega) with
    ⟨heap, refused, same⟩ | ⟨t, heap, granted, sized, tmp⟩
  · simp only [refused, ok_bind]
    exact ⟨_, _, rfl, .unstaged (malloc_of_allocateHeap (Nat.succ_pos _) refused) same⟩
  · have given' := malloc_of_allocateHeap (Nat.succ_pos _) granted
    simp only [granted, ok_bind, verifyFormatRender]
    have discard : ∀ {t' : Obj UInt8} {heap' : Memory}, Temporary c t' heap' → t'.base = t.base →
        ∃ heap'', heap'.free (some ⟨c.heap.nextId, t.base⟩) = .ok heap'' ∧
          Unchanged c { c with heap := heap'' } := by
      intro t' heap' tmp' base
      obtain ⟨heap'', freed, same⟩ := tmp'.release_unchanged wf (.refl { c with heap := heap' })
      rw [base] at freed
      exact ⟨heap'', freed, same⟩
    rcases renderFormat_cases 1 (expectedLen + 1) (by omega) given arguments
        (tmp.cString found) with ⟨failed, unprinted⟩ | ⟨output, prints, rendered⟩
    · obtain ⟨heap', cells, wrote, tmp', _, _⟩ := tmp.write [] (Nat.zero_le _)
      obtain ⟨heap'', freed, same⟩ := discard tmp' rfl
      simp only [failed, ok_bind, wrote, freed]
      exact ⟨_, _, rfl, .changed given' (fun output prints => absurd prints (unprinted output)) same⟩
    · have written : (output.take (expectedLen + 1 - 1) ++ [0]).length ≤ t.size := by
        rw [List.length_append, List.length_take]
        simp only [List.length_singleton]
        omega
      obtain ⟨heap', cells, wrote, tmp', length, placed⟩ := tmp.write _ written
      simp only [rendered, ok_bind, wrote]
      by_cases equal : output.length = expectedLen
      · rw [if_neg (by simp [equal])]
        have whole : output.take (expectedLen + 1 - 1) = output :=
          List.take_of_length_le (by omega)
        rw [whole] at placed wrote
        refine ⟨_, _, rfl, .built (t := { t with cells }) given' prints equal wrote tmp' ?_⟩
        have start := tmp'.read_start output.length
          (by show output.length ≤ cells.length; omega)
        have text : cells.take output.length = output := by
          have shorter := congrArg (List.take output.length) placed
          rw [List.take_take, List.length_append, Nat.min_eq_left (by omega)] at shorter
          rw [shorter, List.take_left]
        rw [Source.read, start]
        exact congrArg Except.ok text
      · obtain ⟨heap'', freed, same⟩ := discard tmp' rfl
        simp only [if_pos (show output.length ≠ expectedLen from equal), freed, ok_bind]
        refine ⟨_, _, rfl, .changed given' (fun other again => ?_) same⟩
        cases prints.1.symm.trans again.1
        exact equal

/-- A formatted append takes one of its courses and appends what that course rendered. -/
theorem appendFmt_spec {c : Cell} (wf : WellFormed c) (ok : c.str.status = .ok)
    {format : Source} (sized : format.Sized) (arguments : Arguments)
    (readable : ReadableText c format) :
    ∃ output status c', appendFmt format arguments c = .ok (status, c') ∧
      Formatting c format arguments status output ∧
      Outcome c (c.content ++ output) status c' := by
  obtain ⟨measured, c', run, measure⟩ := measureCStringInput_spec wf ok sized readable
  rcases measureCStringInput_takes wf ok readable run with
    ⟨rejected, untaken⟩ | ⟨text, accepted, same, found, takes⟩
  · subst rejected
    cases measure with
    | failed failure =>
        simp only [appendFmt, run, ok_bind]
        exact ⟨[], _, _, rfl, .rejected untaken, (Unchanged.refl c).outcome wf _ failure⟩
  · subst accepted same
    have given := takes.1
    simp only [appendFmt, run, ok_bind]
    rcases renderFormat_cases 0 formatStackBytes (by decide) given arguments found with
      ⟨failed, unprinted⟩ | ⟨first, printed, rendered⟩
    · simp only [failed, ok_bind, recordFailure_ok .errFmt (by decide)]
      exact ⟨[], _, _, rfl, .rendered takes found (.unprinted unprinted),
        (Unchanged.refl _).outcome wf _ (by decide)⟩
    · have fits := printed.2
      have small : first.length ≤ sizeMax := by
        unfold intMax at fits
        unfold sizeMax
        omega
      simp only [rendered, ok_bind, appendFormatPayload, ensure_of given]
      by_cases short : first.length < formatStackBytes
      · rw [if_pos short]
        have whole : first.take (formatStackBytes - 1) = first :=
          List.take_of_length_le (by omega)
        rw [whole]
        obtain ⟨status, c', appended, outcome⟩ := appendUnaliasedSpan_spec wf ok
          (.array (first ++ [0])) first rfl (fun q designated => by cases designated) small
          (by rw [Source.read, if_pos (by simp), List.take_left])
        have decided := appendUnaliasedSpan_decides wf ok rfl small appended
        exact ⟨first, status, c', appended, .rendered takes found (.short printed short decided),
          outcome⟩
      · rw [if_neg short]
        have long : formatStackBytes ≤ first.length := by omega
        obtain ⟨built, heap, build, rendering⟩ :=
          buildFormattedBuffer_spec wf fits given arguments found
        simp only [build, ok_bind]
        cases rendering with
        | unstaged refused same =>
            simp only [recordFailure_ok .errAlloc (by decide)]
            exact ⟨[], _, _, rfl, .rendered takes found (.unstaged printed long refused),
              same.outcome wf _ (by decide)⟩
        | changed granted differs same =>
            simp only [recordFailure_ok .errFmt (by decide)]
            exact ⟨[], _, _, rfl, .rendered takes found (.changed printed long granted differs),
              same.outcome wf _ (by decide)⟩
        | @built t _ heap output granted again length wrote tmp read =>
            rw [← length] at small ⊢
            obtain ⟨status, c', appended, outcome⟩ :=
              appendUnaliasedSpan_spec (tmp.wellFormed wf) ok
                (.mem (some ⟨_, t.base⟩)) output rfl
                (fun q designated own => by
                  cases designated
                  exact Temporary.not_designates wf own)
                small read
            have decided := appendUnaliasedSpan_decides (tmp.wellFormed wf) ok rfl small appended
            rw [tmp.content wf] at outcome
            obtain ⟨heap', freed, outcome⟩ := tmp.release_outcome wf outcome
            simp only [appended, ok_bind, freed]
            exact ⟨output, status, _, rfl,
              .rendered takes found (.staged printed long granted again length wrote decided),
              outcome⟩

/-- What was live before an allocation is live after it. -/
theorem malloc_keeps {c : Cell} {bytes : Nat} {buf : Ptr} {heap : Memory}
    (granted : c.heap.malloc bytes = (some buf, heap)) {id : Nat} {o : Obj UInt8}
    (live : c.heap.objs id = some o) : heap.objs id = some o := by
  rcases c.heap.malloc_cases bytes with ⟨heap', refused, _⟩ | ⟨new, heap', gave, _, _, objs, _⟩
  · cases granted.symm.trans refused
  · cases granted.symm.trans gave
    rw [objs, Function.update_of_ne (Nat.ne_of_lt (c.heap.lt_nextId live))]
    exact live

/-- A rendering that depends on the old objects alone is what a formatted append adds. -/
theorem Formatting.rendering_eq {c : Cell} {format : Source} {arguments : Arguments}
    {output rendering : Bytes} (formatting : Formatting c format arguments .ok output)
    (renders : RendersAs c format arguments rendering) : output = rendering := by
  cases formatting with
  | rendered takes found course =>
      cases course with
      | short first fits appended =>
          have old := renders _ 0 c.heap found fun _ _ live => live
          exact Option.some.inj (first.1.symm.trans old)
      | staged printed long granted again same wrote appended =>
          have old := renders _ 1 _ found fun _ _ live => malloc_keeps granted live
          exact Option.some.inj (again.1.symm.trans old)

/-- `str_append_fmt` with a format that may lie in the string and arguments that may read it,
for every allocator and every pair of renderings: a success appends the rendering in full; a
failure records the status of the step that failed and leaves the string and the live blocks
as they were, the temporary buffer released. -/
theorem appendFmt_renders (c : Cell) (wf : WellFormed c) (ok : c.str.status = .ok)
    (format : Source) (sized : format.Sized) (readable : ReadableText c format)
    (arguments : Arguments) :
    ∃ output status c', appendFmt format arguments c = .ok (status, c') ∧
      Formatting c format arguments status output ∧ WellFormed c' ∧ Frame c c' ∧
      (status = .ok → c'.str.status = .ok ∧ c'.content = c.content ++ output ∧
        ∀ rendering, RendersAs c format arguments rendering → output = rendering) ∧
      (status ≠ .ok → c'.str = { c.str with status } ∧ c'.heap.objs = c.heap.objs ∧
        c'.content = c.content) := by
  obtain ⟨output, status, c', ran, formatting, outcome⟩ :=
    appendFmt_spec wf ok sized arguments readable
  refine ⟨output, status, c', ran, formatting, outcome.wellFormed, outcome.frame, ?_, ?_⟩
  · intro succeeded
    obtain ⟨status, content⟩ := outcome.success succeeded
    exact ⟨status, content, fun rendering renders =>
      (succeeded ▸ formatting).rendering_eq renders⟩
  · intro failed
    obtain ⟨str, objs⟩ := outcome.failure failed
    exact ⟨str, objs, by simp only [Cell.content, Cell.bytes, str, objs]⟩

/-- An empty string, whose blocks are placed ever higher. -/
def Cell.rising : Cell where
  str := .empty
  heap := .vacant fun attempt => some { base := 4096 * (attempt + 1), garbage := fun _ => 7 }

set_option maxRecDepth 4000 in
/-- An empty string takes over two rendered bytes from the stack buffer, and three hundred from a
buffer of their own. -/
theorem appendFmt_renders_first :
    (∃ c', appendFmt (.array [37, 115, 0]) (fun _ _ _ => some [97, 98]) .rising = .ok (.ok, c') ∧
      c'.content = [97, 98]) ∧
    ∃ c', appendFmt (.array [37, 115, 0]) (fun _ _ _ => some (List.replicate 300 97)) .rising =
        .ok (.ok, c') ∧
      c'.content = List.replicate 300 97 := by
  have sized : (Source.array [37, 115, 0]).Sized := fun bytes same => by cases same; decide
  have readable : ReadableText .rising (.array [37, 115, 0]) := .inr (.inr ⟨[37, 115], rfl⟩)
  have takes (rendering : Bytes)
      (computed : (appendFmt (.array [37, 115, 0]) (fun _ _ _ => some rendering) .rising).map
        Prod.fst = .ok .ok) :
      ∃ c', appendFmt (.array [37, 115, 0]) (fun _ _ _ => some rendering) .rising =
        .ok (.ok, c') ∧ c'.content = rendering := by
    obtain ⟨output, status, c', ran, _, _, _, success, _⟩ := appendFmt_renders .rising
      (.empty rfl rfl rfl) rfl (.array [37, 115, 0]) sized readable (fun _ _ _ => some rendering)
    rw [ran] at computed
    obtain rfl : status = .ok := Except.ok.inj computed
    obtain ⟨_, content, renders⟩ := success rfl
    refine ⟨c', ran, ?_⟩
    rw [content, renders rendering fun _ _ _ _ _ => rfl]
    rfl
  exact ⟨takes [97, 98] rfl, takes (List.replicate 300 97) rfl⟩

end AgencC.Str
