import AgencC.Str.Formatting
import AgencC.Str.Lifecycle

/-! The mutators as one family: each keeps the header invariant, and a failure is
atomic and sticky. -/

set_option autoImplicit false

namespace AgencC.Str

open Library

/-- A `size_t` argument. -/
abbrev Size := Fin (sizeMax + 1)

/-- A call of a mutator, less its destination. -/
inductive Mutation where
  | set (source : Source)
  | setN (source : Source) (len : Size)
  | setView (source : Source) (len : Size)
  | append (source : Source)
  | appendN (source : Source) (len : Size)
  | appendView (source : Source) (len : Size)
  | appendChar (byte : UInt8)
  | appendFmt (format : Source) (arguments : Arguments)
  | insertN (idx : Size) (source : Source) (len : Size)
  | insertView (idx : Size) (source : Source) (len : Size)
  | remove (idx len : Size)
  | replaceView (idx removeLen : Size) (replacement : Source) (len : Size)
  | resize (len : Size) (fill : UInt8)
  | reserve (len : Size)
  | shrinkToFit
  | copy (source : CopySource)

def Mutation.run (c : Cell) : Mutation → Except Fault (Status × Cell)
  | .set source => Str.setCString source c
  | .setN source len => Str.setN source len c
  | .setView source len => Str.setView { ptr := source, len } c
  | .append source => Str.appendCString source c
  | .appendN source len => Str.appendN source len c
  | .appendView source len => Str.appendView { ptr := source, len } c
  | .appendChar byte => Str.appendChar byte c
  | .appendFmt format arguments => Str.appendFmt format arguments c
  | .insertN idx source len => Str.insertN idx source len c
  | .insertView idx source len => Str.insertView idx { ptr := source, len } c
  | .remove idx len => Str.remove idx len c
  | .replaceView idx removeLen replacement len =>
      Str.replaceView idx removeLen { ptr := replacement, len } c
  | .resize len fill => Str.resize len fill c
  | .reserve len => Str.reserve len c
  | .shrinkToFit => Str.shrinkToFit c
  | .copy source => Str.copy source c

/-- What a caller has to see to: borrowed bytes that are not NULL and not in the
destination can be read, C strings end, and a copied string is initialized. -/
def Mutation.Legal (c : Cell) : Mutation → Prop
  | .set source | .append source | .appendFmt source _ => source.Sized ∧ ReadableText c source
  | .setN source len | .setView source len | .appendN source len | .appendView source len
  | .insertN _ source len | .insertView _ source len | .replaceView _ _ source len =>
      Readable c source len
  | .copy (.other s) => WellFormed { c with str := s }
  | .copy .null | .copy .itself | .appendChar _ | .remove .. | .resize .. | .reserve _
  | .shrinkToFit => True

theorem Mutation.run_ok {c : Cell} (wf : WellFormed c) (ok : c.str.status = .ok) (m : Mutation)
    (legal : m.Legal c) :
    ∃ want status c', m.run c = .ok (status, c') ∧ Outcome c want status c' := by
  have size (n : Size) : n.val ≤ sizeMax := Nat.le_of_lt_succ n.isLt
  cases m with
  | set source => exact ⟨_, setCString_spec wf ok legal.1 legal.2⟩
  | setN source len | setView source len => exact ⟨_, setN_spec wf ok (size len) legal⟩
  | append source => exact ⟨_, appendCString_spec wf ok legal.1 legal.2⟩
  | appendN source len | appendView source len => exact ⟨_, appendN_spec wf ok (size len) legal⟩
  | appendChar byte => exact ⟨_, appendChar_spec wf ok byte⟩
  | appendFmt format arguments =>
      obtain ⟨output, status, c', ran, _, outcome⟩ := appendFmt_spec wf ok legal.1 arguments legal.2
      exact ⟨_, status, c', ran, outcome⟩
  | insertN idx source len | insertView idx source len =>
      exact ⟨_, insertN_spec wf ok idx (size len) legal⟩
  | remove idx len => exact ⟨_, remove_spec wf ok idx len⟩
  | replaceView idx removeLen replacement len =>
      exact ⟨_, replaceView_spec wf ok idx removeLen
        { ptr := replacement, len } (size len) legal⟩
  | resize len fill => exact ⟨_, resize_spec wf ok fill (size len)⟩
  | reserve len => exact ⟨_, reserve_spec wf ok (size len)⟩
  | shrinkToFit => exact ⟨_, shrinkToFit_spec wf ok⟩
  | copy source =>
      cases source with
      | null =>
          refine ⟨[], .errArg, _, ?_, (Unchanged.refl c).outcome wf _ (by decide)⟩
          simp only [run, Str.copy, validateMutation, ok,
            recordFailure_ok .errArg (by decide)]
      | itself =>
          refine ⟨_, .ok, c, ?_, .refl wf ok⟩
          simp only [run, Str.copy, validateMutation, ok]
      | other s => exact ⟨_, copy_spec wf ok legal⟩

/-- On a failed string every mutator returns the recorded status and does nothing
else; no argument is looked at. -/
theorem Mutation.run_sticky {c : Cell} (failed : c.str.status ≠ .ok) (m : Mutation) :
    m.run c = .ok (c.str.status, c) := by
  cases status : c.str.status with
  | ok => exact absurd status failed
  | errArg | errAlloc | errRange | errOverflow | errFmt =>
      cases m <;>
        simp [run, Str.setCString, Str.setN, Str.setView, Str.appendCString, Str.appendN,
          Str.appendView, Str.appendChar, Str.appendFmt, Str.insertN, Str.insertView, Str.remove,
          Str.replaceView, Str.resize, Str.reserve, Str.shrinkToFit, Str.copy, beginMutation,
          measureCStringInput, validateMutation, status]

/-- The mutators never fault on legal arguments and keep the header invariant. -/
theorem Mutation.run_spec {c : Cell} (wf : WellFormed c) (m : Mutation) (legal : m.Legal c) :
    ∃ status c', m.run c = .ok (status, c') ∧ WellFormed c' ∧ Frame c c' ∧
      (status ≠ .ok → c'.str = { c.str with status } ∧ c'.heap.objs = c.heap.objs) := by
  by_cases ok : c.str.status = .ok
  · obtain ⟨want, status, c', run, outcome⟩ := m.run_ok wf ok legal
    exact ⟨status, c', run, outcome.wellFormed, outcome.frame, outcome.failure⟩
  · exact ⟨c.str.status, c, m.run_sticky ok, wf, .refl c, fun _ => ⟨rfl, rfl⟩⟩

/-- Mutators on one string, one after another, with the status each returns. -/
def runMutations : List Mutation → Cell → Except Fault (List Status × Cell)
  | [], c => .ok ([], c)
  | m :: later, c => do
      let (status, c) ← m.run c
      let (statuses, c) ← runMutations later c
      .ok (status :: statuses, c)

theorem runMutations_sticky (later : List Mutation) {c : Cell} (failed : c.str.status ≠ .ok) :
    runMutations later c = .ok (later.map fun _ => c.str.status, c) := by
  induction later with
  | nil => rfl
  | cons m later ih =>
      simp only [runMutations, m.run_sticky failed, ok_bind, ih, List.map_cons]

/-- A mutator that fails leaves the string's bytes, length, capacity and buffer and
all live blocks as they were and records the status it returns. Whatever happens to
the heap from then on, all later mutators return that status and do nothing. -/
theorem mutation_failure_atomic_sticky (c : Cell) (wf : WellFormed c) (m : Mutation)
    (legal : m.Legal c) :
    ∃ status c', m.run c = .ok (status, c') ∧
      (status ≠ .ok →
        c'.str = { c.str with status } ∧ c'.heap.objs = c.heap.objs ∧ c'.content = c.content ∧
        ∀ (heap : Memory) (later : List Mutation),
          runMutations later { c' with heap } = .ok (later.map fun _ => status, { c' with heap })) := by
  obtain ⟨status, c', run, _, _, failure⟩ := m.run_spec wf legal
  refine ⟨status, c', run, fun failed => ?_⟩
  obtain ⟨str, objs⟩ := failure failed
  have recorded : c'.str.status = status := by rw [str]
  refine ⟨str, objs, ?_, fun heap later => ?_⟩
  · simp only [Cell.content, Cell.bytes, str, objs]
  · have sticky := runMutations_sticky later (c := { c' with heap }) (by rw [recorded]; exact failed)
    rwa [recorded] at sticky

/-- A first allocation that is refused. -/
theorem mutation_failure_refused :
    ∃ c', (Mutation.setN (.array [97]) 1).run { str := .empty, heap := .vacant fun _ => none } =
        .ok (.errAlloc, c') ∧
      c'.str = { StrT.empty with status := .errAlloc } ∧
      ∀ (heap : Memory) (later : List Mutation),
        runMutations later { c' with heap } =
          .ok (later.map fun _ => .errAlloc, { c' with heap }) := by
  obtain ⟨status, c', run, failure⟩ := mutation_failure_atomic_sticky
    { str := .empty, heap := .vacant fun _ => none } (empty_wellFormed _)
    (.setN (.array [97]) 1) (.inr (.inr (.inr ⟨[97], rfl⟩)))
  have refused : status = .errAlloc := by
    have computed : (Mutation.setN (.array [97]) 1).run
        { str := .empty, heap := .vacant fun _ => none } = .ok (.errAlloc, _) := rfl
    exact congrArg Prod.fst (Except.ok.inj (run.symm.trans computed))
  subst refused
  obtain ⟨str, _, _, sticky⟩ := failure (by decide)
  exact ⟨c', run, str, sticky⟩

end AgencC.Str
