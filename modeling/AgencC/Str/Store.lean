import AgencC.Str.MachineProperties
import AgencC.Str.Replacement

/-! The strings of a program as a store of byte lists. A public call is a step of the store, and
what the call returned is all it takes to tell which: where buffers lie, what their spare
capacity holds and which call moved one make no difference. -/

set_option autoImplicit false

namespace AgencC.Str

open Library

abbrev Store := Nat → Value

/-- What the strings of a machine are to their users. -/
def Machine.store (m : Machine) : Store := fun i => (m.cell i).value

/-- Where the bytes of an argument come from: the caller's own, or those of one of the strings. -/
structure Feed where
  string : Nat
  input : Input

def Feed.bytes (store : Store) (feed : Feed) : Bytes := feed.input.bytes (store feed.string).content

/-- What a call does to the content of a string. -/
inductive Act where
  | replace (feed : Feed)
  | append (feed : Feed)
  | splice (idx removeLen : Nat) (feed : Feed)
  | resize (len : Nat) (fill : UInt8)
  | keep
  | refuse

def Act.apply (store : Store) (content : Bytes) : Act → Bytes
  | .replace feed => feed.bytes store
  | .append feed => content ++ feed.bytes store
  | .splice idx removeLen feed => Str.splice idx removeLen (feed.bytes store) content
  | .resize len fill => content.take len ++ List.replicate (len - content.length) fill
  | .keep | .refuse => content

/-- Which calls can succeed at all. -/
def Act.Fits (content : Bytes) : Act → Prop
  | .splice idx removeLen _ => idx + removeLen ≤ content.length
  | .refuse => False
  | _ => True

/-- A public call as the store sees it. -/
inductive Deed where
  | act (string : Nat) (act : Act)
  | move (destination source : Nat)
  | detach (string : Nat)
  | clear (string : Nat)
  | clearError (string : Nat)
  | deinit (string : Nat)
  | idle

def Value.blank : Value := { content := [], status := .ok }

/-- A call with result `after` that returned `status`. -/
def Value.perform (after : Bytes) (status : Status) (v : Value) : Value :=
  if v.status ≠ .ok then v
  else if status = .ok then { v with content := after }
  else { v with status }

def Store.play (store : Store) : Deed → Reply → Store
  | .act i act, .status status =>
      Function.update store i ((store i).perform (act.apply store (store i).content) status)
  | .move i j, _ =>
      if i = j then store else Function.update (Function.update store i (store j)) j .blank
  | .detach i, .pointer (some _) => Function.update store i .blank
  | .detach i, _ => Function.update store i { store i with status := .errAlloc }
  | .clear i, _ | .deinit i, _ => Function.update store i .blank
  | .clearError i, _ => Function.update store i { store i with status := .ok }
  | .act .., _ | .idle, _ => store

/-- What a call may return: a recorded failure again, and success only of an act that fits. -/
def Store.Allows (store : Store) : Deed → Reply → Prop
  | .act i act, .status status =>
      if (store i).status ≠ .ok then status = (store i).status
      else status = .ok → act.Fits (store i).content
  | .act .., _ => False
  | .detach _, reply => ∃ p, reply = .pointer p
  | .idle, _ => True
  | _, reply => reply = .none

/-! What the arguments of a call denote. -/

/-- `len` bytes from `source` on. -/
def Machine.Feeds (m : Machine) (source : Source) (len : Nat) (feed : Feed) : Prop :=
  source.Denotes (m.cell feed.string) len feed.input

/-- The C string at `source`. -/
def Machine.FeedsText (m : Machine) (source : Source) (feed : Feed) : Prop :=
  source.DenotesText (m.cell feed.string) feed.input

/-- The act a mutator called on string `i` stands for. -/
inductive Mutation.Means (m : Machine) (i : Nat) : Mutation → Act → Prop
  | set {source : Source} {feed : Feed} (feeds : m.FeedsText source feed) :
      Means m i (.set source) (.replace feed)
  | setN {source : Source} {len : Size} {feed : Feed} (feeds : m.Feeds source len feed) :
      Means m i (.setN source len) (.replace feed)
  | setView {source : Source} {len : Size} {feed : Feed} (feeds : m.Feeds source len feed) :
      Means m i (.setView source len) (.replace feed)
  | append {source : Source} {feed : Feed} (feeds : m.FeedsText source feed) :
      Means m i (.append source) (.append feed)
  | appendN {source : Source} {len : Size} {feed : Feed} (feeds : m.Feeds source len feed) :
      Means m i (.appendN source len) (.append feed)
  | appendView {source : Source} {len : Size} {feed : Feed} (feeds : m.Feeds source len feed) :
      Means m i (.appendView source len) (.append feed)
  | appendChar (byte : UInt8) : Means m i (.appendChar byte) (.append ⟨i, .external [byte]⟩)
  | appendFmt {format : Source} {arguments : Arguments} {feed : Feed} {rendering : Bytes}
      (feeds : m.FeedsText format feed)
      (renders : RendersAs (m.cell i) format arguments rendering) :
      Means m i (.appendFmt format arguments) (.append ⟨i, .external rendering⟩)
  | insertN (idx : Size) {source : Source} {len : Size} {feed : Feed}
      (feeds : m.Feeds source len feed) : Means m i (.insertN idx source len) (.splice idx 0 feed)
  | insertView (idx : Size) {source : Source} {len : Size} {feed : Feed}
      (feeds : m.Feeds source len feed) :
      Means m i (.insertView idx source len) (.splice idx 0 feed)
  | remove (idx len : Size) : Means m i (.remove idx len) (.splice idx len ⟨i, .external []⟩)
  | replaceView (idx removeLen : Size) {source : Source} {len : Size} {feed : Feed}
      (feeds : m.Feeds source len feed) :
      Means m i (.replaceView idx removeLen source len) (.splice idx removeLen feed)
  | resize (len : Size) (fill : UInt8) : Means m i (.resize len fill) (.resize len fill)
  | reserve (len : Size) : Means m i (.reserve len) .keep
  | shrinkToFit : Means m i .shrinkToFit .keep
  | copyItself : Means m i (.copy .itself) .keep
  | copy {j : Nat} (other : j ≠ i) :
      Means m i (.copy (.other (m.strs j))) (.replace ⟨j, .span 0 (m.strs j).len⟩)
  | copyNull : Means m i (.copy .null) .refuse
  | setNull : Means m i (.set (.mem none)) .refuse
  | appendNull : Means m i (.append (.mem none)) .refuse

/-- A call that no string takes part in. -/
inductive Op.Elsewhere (m : Machine) : Op → Prop
  | mutate (mutation : Mutation) : Elsewhere m (.mutate none mutation)
  | moveTo (source : Option Nat) : Elsewhere m (.move none source)
  | moveFrom (destination : Option Nat) : Elsewhere m (.move destination none)
  | detach : Elsewhere m (.detach none)
  | clear : Elsewhere m (.clear none)
  | clearError : Elsewhere m (.clearError none)
  | deinit : Elsewhere m (.deinit none)
  | free {p : Option Ptr} (given : Op.Legal m (.free p)) : Elsewhere m (.free p)
  | store {p : Ptr} {bytes : Bytes} (given : Op.Legal m (.store p bytes)) :
      Elsewhere m (.store p bytes)

/-- The deed a public call stands for. -/
inductive Op.Means (m : Machine) : Op → Deed → Prop
  | mutate {i : Nat} {mutation : Mutation} {act : Act} (means : mutation.Means m i act) :
      Means m (.mutate (some i) mutation) (.act i act)
  | move (i j : Nat) : Means m (.move (some i) (some j)) (.move i j)
  | detach (i : Nat) : Means m (.detach (some i)) (.detach i)
  | clear (i : Nat) : Means m (.clear (some i)) (.clear i)
  | clearError (i : Nat) : Means m (.clearError (some i)) (.clearError i)
  | deinit (i : Nat) : Means m (.deinit (some i)) (.deinit i)
  | elsewhere {op : Op} (elsewhere : op.Elsewhere m) : Means m op .idle

namespace Machine.Owned
variable {m : Machine} {source : Source} {len : Nat} {feed : Feed}

theorem feeds_readable (owned : m.Owned) (feeds : m.Feeds source len feed) (i : Nat) :
    Readable (m.cell i) source len := by
  cases Nat.eq_zero_or_pos len with
  | inl none => exact .inl none
  | inr pos =>
      obtain ⟨bytes, read⟩ := Source.Denotes.reads (owned.wellFormed feed.string) pos feeds
      exact .inr (.inr (.inr ⟨bytes, read⟩))

theorem feeds_bytes (owned : m.Owned) (feeds : m.Feeds source len feed) :
    source.bytes m.heap len = feed.bytes m.store :=
  feeds.bytes (owned.wellFormed feed.string)

theorem feeds_found (owned : m.Owned) (feeds : m.FeedsText source feed) :
    source.cString m.heap = .ok (feed.bytes m.store) := by
  have text := Source.DenotesText.text (owned.wellFormed feed.string) feeds
  have found : ∃ text, source.cString m.heap = .ok text := by
    obtain ⟨string, input⟩ := feed
    cases feeds with
    | external apart sized found => exact ⟨_, found⟩
    | @inside p offset buf own within =>
        have wf := owned.wellFormed string
        cases wf with
        | empty noBuf strLen cap =>
            rw [noBuf] at buf
            cases buf
        | @owned p' o holds inside terminated =>
            obtain rfl : p' = p := Option.some.inj (holds.buf.symm.trans buf)
            have start := holds.start
            rw [own]
            obtain ⟨text, found, _⟩ := measureInternal_within (owned.wellFormed string) holds
              inside terminated (q := p'.add offset) rfl (Nat.le_add_right _ _)
              (Nat.add_lt_add_left (Nat.lt_of_le_of_lt within inside) _)
              (by show p'.addr + offset - p'.addr ≤ _; rwa [Nat.add_sub_cancel_left])
            exact ⟨text, found⟩
  obtain ⟨bytes, found⟩ := found
  rw [found]
  exact congrArg Except.ok ((Source.text_of_cString found).symm.trans text)

theorem feeds_readableText (owned : m.Owned) (feeds : m.FeedsText source feed) (i : Nat) :
    source.Sized ∧ ReadableText (m.cell i) source :=
  ⟨(Source.DenotesText.readable (owned.wellFormed feed.string) feeds).1,
    .inr (.inr ⟨_, owned.feeds_found feeds⟩)⟩

end Machine.Owned

/-! A step of the machine is a step of the store. -/

theorem Mutation.Means.legal {m : Machine} (owned : m.Owned) {i : Nat} {mutation : Mutation}
    {act : Act} (means : mutation.Means m i act) : Op.Legal m (.mutate (some i) mutation) := by
  have plain : ∀ {mutation : Mutation}, (∀ s, mutation ≠ .copy (.other s)) →
      ∀ s, mutation = .copy (.other s) → ∃ j, j ≠ i ∧ s = m.strs j :=
    fun none s copied => absurd copied (none s)
  cases means with
  | set feeds | append feeds | appendFmt feeds =>
      exact ⟨owned.feeds_readableText feeds i, plain nofun⟩
  | setN feeds | setView feeds | appendN feeds | appendView feeds | insertN idx feeds
  | insertView idx feeds | replaceView idx removeLen feeds =>
      exact ⟨owned.feeds_readable feeds i, plain nofun⟩
  | appendChar | remove | resize | reserve | shrinkToFit => exact ⟨trivial, plain nofun⟩
  | copyItself | copyNull => exact ⟨trivial, plain (by rintro s ⟨⟩)⟩
  | @copy j other => exact ⟨owned.wellFormed j, by rintro s ⟨⟩; exact ⟨j, other, rfl⟩⟩
  | setNull | appendNull => exact ⟨⟨nofun, .inl rfl⟩, plain nofun⟩

/-- What a mutator does to the string it is called on. -/
theorem Mutation.Means.outcome {m : Machine} (owned : m.Owned) {i : Nat}
    (ok : (m.strs i).status = .ok) {mutation : Mutation} {act : Act}
    (means : mutation.Means m i act) :
    ∃ status c', mutation.run (m.cell i) = .ok (status, c') ∧
      Outcome (m.cell i) (act.apply m.store (m.cell i).content) status c' ∧
      (status = .ok → act.Fits (m.cell i).content) := by
  have wf := owned.wellFormed i
  have length := wf.length_content
  have size (n : Size) : n.val ≤ sizeMax := Nat.le_of_lt_succ n.isLt
  have text {source : Source} {feed : Feed} (feeds : m.FeedsText source feed) :
      source.text m.heap = feed.bytes m.store := Source.text_of_cString (owned.feeds_found feeds)
  have always {run : Except Fault (Status × Cell)} {want : Bytes}
      (spec : ∃ status c', run = .ok (status, c') ∧ Outcome (m.cell i) want status c') :
      ∃ status c', run = .ok (status, c') ∧ Outcome (m.cell i) want status c' ∧
        (status = .ok → True) := by
    obtain ⟨status, c', ran, outcome⟩ := spec
    exact ⟨status, c', ran, outcome, fun _ => trivial⟩
  cases means with
  | set feeds =>
      obtain ⟨sized, readable⟩ := owned.feeds_readableText feeds i
      rw [Act.apply, ← text feeds]
      exact always (setCString_spec wf ok sized readable)
  | setN feeds | setView feeds =>
      rw [Act.apply, ← owned.feeds_bytes feeds]
      exact always (setN_spec wf ok (size _) (owned.feeds_readable feeds i))
  | append feeds =>
      obtain ⟨sized, readable⟩ := owned.feeds_readableText feeds i
      rw [Act.apply, ← text feeds]
      exact always (appendCString_spec wf ok sized readable)
  | appendN feeds | appendView feeds =>
      rw [Act.apply, ← owned.feeds_bytes feeds]
      exact always (appendN_spec wf ok (size _) (owned.feeds_readable feeds i))
  | appendChar byte => exact always (appendChar_spec wf ok byte)
  | @appendFmt format arguments feed rendering feeds renders =>
      obtain ⟨sized, readable⟩ := owned.feeds_readableText feeds i
      obtain ⟨output, status, c', ran, formatting, outcome⟩ :=
        appendFmt_spec wf ok sized arguments readable
      refine ⟨status, c', ran, ?_, fun _ => trivial⟩
      by_cases succeeded : status = .ok
      · subst succeeded
        obtain rfl := formatting.rendering_eq renders
        exact outcome
      · exact { outcome with success := fun same => absurd same succeeded }
  | insertN idx feeds | insertView idx feeds =>
      obtain ⟨status, c', ran, outcome⟩ :=
        insertN_spec wf ok idx (size _) (owned.feeds_readable feeds i)
      rw [Act.apply, ← owned.feeds_bytes feeds]
      refine ⟨status, c', ran, outcome, ?_⟩
      rintro rfl
      rw [Act.Fits, length]
      exact insertN_within wf ok ran
  | remove idx len =>
      obtain ⟨status, c', ran, outcome⟩ := remove_spec wf ok idx len
      refine ⟨status, c', ran, ?_, ?_⟩
      · rw [Act.apply, Str.splice, Feed.bytes, Input.bytes, List.append_nil]
        exact outcome
      · rintro rfl
        rw [Act.Fits, length]
        exact remove_within wf ok ran
  | @replaceView idx removeLen source len feed feeds =>
      obtain ⟨status, c', ran, outcome⟩ := replaceView_spec wf ok idx removeLen
        { ptr := source, len } (size len) (owned.feeds_readable feeds i)
      rw [Act.apply, ← owned.feeds_bytes feeds]
      refine ⟨status, c', ran, outcome, ?_⟩
      rintro rfl
      rw [Act.Fits, length]
      exact replaceView_within wf ok ran
  | resize len fill =>
      rw [Act.apply, length]
      exact always (resize_spec wf ok fill (size len))
  | reserve len => exact always (reserve_spec wf ok (size len))
  | shrinkToFit => exact always (shrinkToFit_spec wf ok)
  | copyItself =>
      refine always ⟨.ok, m.cell i, ?_, .refl wf ok⟩
      simp only [run, Str.copy, validateMutation, Machine.cell, ok]
  | @copy j other =>
      have source : WellFormed { m.cell i with str := m.strs j } := owned.wellFormed j
      have whole : Cell.content { m.cell i with str := m.strs j } =
          Feed.bytes m.store ⟨j, .span 0 (m.strs j).len⟩ := by
        have lengthJ : (m.cell j).content.length = (m.strs j).len :=
          (owned.wellFormed j).length_content
        change _ = (((m.cell j).content ++ [0]).drop 0).take (m.strs j).len
        rw [List.drop_zero, ← lengthJ, List.take_left]
        rfl
      rw [Act.apply, ← whole]
      exact always (copy_spec wf ok source)
  | copyNull =>
      refine ⟨.errArg, _, ?_, (Unchanged.refl (m.cell i)).outcome wf _ (by decide),
        fun failed => absurd failed (by decide)⟩
      simp only [run, Str.copy, validateMutation, Machine.cell, ok,
        recordFailure_ok .errArg (by decide)]
  | setNull | appendNull =>
      refine ⟨.errArg, _, ?_, (Unchanged.refl (m.cell i)).outcome wf _ (by decide),
        fun failed => absurd failed (by decide)⟩
      simp only [run, Str.setCString, Str.appendCString, measureCStringInput, validateMutation,
        Machine.cell, ok, Source.isNull, if_true, recordFailure_ok .errArg (by decide), ok_bind]

namespace Machine
variable {m m' : Machine}

theorem step_keeps_owned (owned : m.Owned) {op : Op} (legal : op.Legal m) {reply : Reply}
    (ran : m.step op = .ok (reply, m')) : m'.Owned := by
  obtain ⟨_, _, ran', owned'⟩ := step_owned owned op legal
  cases ran.symm.trans ran'
  exact owned'

/-- A string keeps its value with its header and its block. -/
theorem Owned.value_kept (owned : m.Owned) {k : Nat} (str : m'.strs k = m.strs k)
    (same : ∀ id, (m.strs k).Designates id → m'.heap.objs id = m.heap.objs id) :
    m'.store k = m.store k := by
  have content := ((owned.wellFormed k).of_same_block same).2
  have header : m'.cell k = { m.cell k with heap := m'.heap } := by rw [Machine.cell, str]; rfl
  rw [Machine.store, Machine.store, header, Cell.value, Cell.value, content]

/-- An operation on one string leaves the values of the others. -/
theorem Owned.put_store (owned : m.Owned) {i : Nat} {c : Cell} (frame : Frame (m.cell i) c) :
    (m.put i c).store = Function.update m.store i c.value := by
  funext k
  by_cases same : k = i
  · subst same
    simp [Machine.store, Machine.cell, Machine.put]
  · rw [Function.update_of_ne same]
    refine owned.value_kept (Function.update_of_ne same _ _) fun id own => ?_
    have other : ¬ (m.strs i).Designates id := fun mine => same (owned.separate k i id own mine)
    refine frame.others id other fun designated => ?_
    cases frame.fresh id designated with
    | inl old => exact other old
    | inr beyond =>
        exact absurd ((owned.wellFormed k).designates_lt own) (Nat.not_lt.mpr beyond)

/-- A string is blank once it holds no buffer and no status. -/
theorem store_blank {i : Nat} (str : m.strs i = .empty) : m.store i = .blank := by
  simp [store, cell, Cell.value, Cell.content, Cell.bytes, str, StrT.empty, Value.blank]

theorem value_blank {c : Cell} (str : c.str = .empty) : c.value = .blank := by
  simp [Cell.value, Cell.content, Cell.bytes, str, StrT.empty, Value.blank]

theorem Owned.moves (owned : m.Owned) {i j : Nat} (distinct : i ≠ j) :
    ∃ m', m.step (.move (some i) (some j)) = .ok (.none, m') ∧
      m'.store = Function.update (Function.update m.store i (m.store j)) j .blank := by
  obtain ⟨c, released, str, frame⟩ := deinit_spec (owned.wellFormed i)
  have kept := owned.put_store frame
  refine ⟨_, by simp only [step, if_neg distinct, Str.move, released, ok_bind]; rfl, ?_⟩
  funext k
  by_cases atJ : k = j
  · subst atJ
    rw [Function.update_self]
    refine store_blank ?_
    simp [StrT.reset]
  · rw [Function.update_of_ne atJ]
    have others : ∀ l, l ≠ i → (m.put i c).store l = m.store l := fun l other => by
      rw [kept, Function.update_of_ne other]
    by_cases atI : k = i
    · subst atI
      rw [Function.update_self, ← others j (Ne.symm distinct)]
      simp [Machine.store, Machine.cell, Machine.put, distinct, Ne.symm distinct]
    · rw [Function.update_of_ne atI, ← others k atI]
      simp [Machine.store, Machine.cell, Machine.put, atI, atJ]

theorem Owned.detaches (owned : m.Owned) (i : Nat) :
    ∃ p m', m.step (.detach (some i)) = .ok (.pointer p, m') ∧
      m'.store = m.store.play (.detach i) (.pointer p) := by
  rcases detach_spec (owned.wellFormed i) with
    ⟨p, o, run, holds⟩ | ⟨t, heap, run, buf, tmp⟩ | ⟨c, run, same⟩
  · refine ⟨_, _, by simp only [step, run, ok_bind]; rfl, ?_⟩
    funext k
    by_cases atI : k = i
    · subst atI
      rw [Store.play, Function.update_self]
      exact store_blank (Function.update_self _ _ _)
    · rw [Store.play, Function.update_of_ne atI]
      exact owned.value_kept (Function.update_of_ne atI _ _) fun id own => rfl
  · refine ⟨_, _, by simp only [step, run, ok_bind]; rfl, ?_⟩
    funext k
    by_cases atI : k = i
    · subst atI
      rw [Store.play, Function.update_self]
      exact store_blank (Function.update_self _ _ _)
    · rw [Store.play, Function.update_of_ne atI]
      refine owned.value_kept (Function.update_of_ne atI _ _) fun id own => ?_
      exact tmp.other (Nat.ne_of_lt ((owned.wellFormed k).designates_lt own))
  · refine ⟨_, _, by simp only [step, run, ok_bind]; rfl, ?_⟩
    have frame : Frame (m.cell i) { c with str := { c.str with status := .errAlloc } } :=
      same.frame.congr rfl rfl
    have kept := owned.put_store frame
    have value : Cell.value { c with str := { c.str with status := .errAlloc } } =
        { m.store i with status := .errAlloc } := by
      simp only [Cell.value, Cell.content, Cell.bytes, Machine.store, same.str, same.objs]
    exact kept.trans (congrArg (Function.update m.store i) value)

end Machine

/-- A mutator, whatever its string's status. -/
theorem Mutation.Means.plays {m : Machine} (owned : m.Owned) {i : Nat} {mutation : Mutation}
    {act : Act} (means : mutation.Means m i act) :
    ∃ status c, mutation.run (m.cell i) = .ok (status, c) ∧
      (m.put i c).store = m.store.play (.act i act) (.status status) ∧
      m.store.Allows (.act i act) (.status status) := by
  by_cases ok : (m.strs i).status = .ok
  · obtain ⟨status, c, ran, outcome, fits⟩ := means.outcome owned ok
    have accepts : ¬ (m.store i).status ≠ .ok := not_not.mpr ok
    refine ⟨status, c, ran, ?_, (if_neg accepts).mpr fits⟩
    rw [owned.put_store outcome.frame, Store.play, Value.perform, if_neg accepts]
    by_cases succeeded : status = .ok
    · obtain ⟨status', content⟩ := outcome.success succeeded
      have value : c.value =
          { m.store i with content := act.apply m.store (m.cell i).content } := by
        rw [Cell.value, status', content, ← ok]
        rfl
      rw [if_pos succeeded, value]
      rfl
    · obtain ⟨str, objs⟩ := outcome.failure succeeded
      have value : c.value = { m.store i with status } := by
        simp only [Cell.value, Cell.content, Cell.bytes, str, objs, Machine.store]
      rw [if_neg succeeded, value]
  · have failed : (m.store i).status ≠ .ok := ok
    refine ⟨_, _, mutation.run_sticky (c := m.cell i) ok, ?_, (if_pos failed).mpr rfl⟩
    rw [owned.put_store (.refl (m.cell i)), Store.play, Value.perform, if_pos failed]
    rfl

theorem Op.Elsewhere.legal {m : Machine} {op : Op} (elsewhere : op.Elsewhere m) : op.Legal m := by
  cases elsewhere with
  | mutate | moveTo | detach | clear | clearError | deinit => trivial
  | moveFrom destination => cases destination <;> trivial
  | free given | store given => exact given

theorem Op.Means.legal {m : Machine} (owned : m.Owned) {op : Op} {deed : Deed}
    (means : op.Means m deed) : op.Legal m := by
  cases means with
  | mutate means => exact means.legal owned
  | move | detach | clear | clearError | deinit => trivial
  | elsewhere elsewhere => exact elsewhere.legal

/-- What no string takes part in leaves all of them as they are. -/
theorem Op.Elsewhere.plays {m : Machine} (owned : m.Owned) {op : Op}
    (elsewhere : op.Elsewhere m) :
    ∃ reply m', m.step op = .ok (reply, m') ∧ m'.store = m.store := by
  cases elsewhere with
  | mutate | moveTo | detach | clear | clearError | deinit => exact ⟨_, m, rfl, rfl⟩
  | moveFrom destination => cases destination <;> exact ⟨_, m, rfl, rfl⟩
  | @free p given =>
      cases p with
      | none =>
          refine ⟨_, _, by simp only [Machine.step, Heap.free, ok_bind]; rfl, ?_⟩
          rfl
      | some p =>
          obtain ⟨heap, freed, _⟩ := owned.free given
          refine ⟨_, _, by simp only [Machine.step, freed, ok_bind]; rfl, ?_⟩
          obtain ⟨o, live, allocated, start⟩ := owned.blocks p given
          cases freed.symm.trans (Heap.free_ok (Heap.block_ok live allocated start))
          funext k
          refine owned.value_kept rfl fun id own => ?_
          have other : id ≠ p.obj := by
            rintro rfl
            exact owned.given p given k own
          exact Function.update_of_ne other _ _
  | @store p bytes given =>
      obtain ⟨foreign, heap, wrote⟩ := given
      refine ⟨_, _, by simp only [Machine.step, wrote, ok_bind]; rfl, ?_⟩
      obtain ⟨o, cells, live, stores⟩ := Heap.write_eq_ok wrote
      funext k
      exact owned.value_kept rfl fun id own =>
        stores.other fun same => foreign k (same ▸ own)

/-- A public call returns, and its deed takes the store where the machine goes. -/
theorem Machine.step_plays {m : Machine} (owned : m.Owned) {op : Op} {deed : Deed}
    (means : op.Means m deed) :
    ∃ reply m', m.step op = .ok (reply, m') ∧ m'.Owned ∧ m'.store = m.store.play deed reply ∧
      m.store.Allows deed reply := by
  have kept {reply : Reply} {m' : Machine} (ran : m.step op = .ok (reply, m')) : m'.Owned :=
    step_keeps_owned owned (means.legal owned) ran
  cases means with
  | @mutate i mutation act means =>
      obtain ⟨status, c, ran, store, allows⟩ := means.plays owned
      have ran : m.step (.mutate (some i) mutation) = .ok (.status status, m.put i c) := by
        simp only [step, ran, ok_bind]
      exact ⟨_, _, ran, kept ran, store, allows⟩
  | move i j =>
      by_cases same : i = j
      · have ran : m.step (.move (some i) (some j)) = .ok (.none, m) := by
          simp only [step, if_pos same]
        exact ⟨_, _, ran, owned, (if_pos same).symm, rfl⟩
      · obtain ⟨m', ran, store⟩ := owned.moves same
        exact ⟨_, m', ran, kept ran, store.trans (if_neg same).symm, rfl⟩
  | detach i =>
      obtain ⟨p, m', ran, store⟩ := owned.detaches i
      exact ⟨_, m', ran, kept ran, store, p, rfl⟩
  | clear i =>
      obtain ⟨c, cleared, wf, frame, content, status⟩ := clear_spec (owned.wellFormed i)
      have ran : m.step (.clear (some i)) = .ok (.none, m.put i c) := by
        simp only [step, cleared, ok_bind]
      refine ⟨_, _, ran, kept ran, ?_, rfl⟩
      rw [owned.put_store frame, Cell.value, content, status]
      rfl
  | clearError i =>
      have ran : m.step (.clearError (some i)) = .ok (.none, m.put i (Str.clearError (m.cell i))) :=
        rfl
      exact ⟨_, _, ran, kept ran, owned.put_store ((Frame.refl (m.cell i)).congr rfl rfl), rfl⟩
  | deinit i =>
      obtain ⟨c, released, str, frame⟩ := deinit_spec (owned.wellFormed i)
      have ran : m.step (.deinit (some i)) = .ok (.none, m.put i c) := by
        simp only [step, released, ok_bind]
      refine ⟨_, _, ran, kept ran, ?_, rfl⟩
      rw [owned.put_store frame, value_blank str]
      rfl
  | elsewhere elsewhere =>
      obtain ⟨reply, m', ran, store⟩ := elsewhere.plays owned
      exact ⟨reply, m', ran, kept ran, store, trivial⟩

end AgencC.Str
