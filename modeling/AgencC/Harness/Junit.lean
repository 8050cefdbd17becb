import AgencC.Harness.Registration

/-! The JUnit report. The second pass of `tt_write_xml` goes through the collected tests, not
through the executed ones, and marks no element. -/

set_option autoImplicit false

namespace AgencC.Harness

/-- The elements with the verdict a reader takes from them: one without a mark has passed. -/
def XmlReport.elements (report : XmlReport) : List ((CString × CString) × Verdict) :=
  report.cases.map fun key => (key, .ok)

/-- A report has one element for each executed test, in order and under its verdict, and its
attributes count the elements. -/
structure XmlReport.Agrees (report : XmlReport) (result : RunResult) : Prop where
  executed : report.elements.map Prod.fst = result.records.map fun r => r.test.key
  marked : report.elements.map Prod.snd = (points result.state.out).map Prod.snd
  tests : report.tests = report.elements.length
  failures : report.failures = report.elements.countP (·.2 = .notOk)
  skipped : report.skipped = report.elements.countP (·.2 = .skip)

/-- What `tt_exec_forked` makes of the child of a turn: its result and its signal. -/
def Turn.child (host : Host) (turn : Turn) : Nat × Nat :=
  if host.forks turn.number then
    match turn.outcome with
    | .ok result => (result.code, 0)
    | .error (.exited code) => (code % 256, 0)
    | .error (.signaled sig) => (Result.fail.code, sig)
  else (Result.fail.code, 0)

/-- A death test dies by its signal; any other test neither fails, nor is skipped, nor dies. -/
def Turn.Passes (host : Host) (config : Config) (turn : Turn) : Prop :=
  match turn.test.deathSignal with
  | some expected => turn.child host = (Result.fail.code, expected)
  | none =>
      if config.isolate then turn.child host = (Result.pass.code, 0) else turn.outcome = .ok .pass

/-- The turns of the tests of `list` when each of them has one. -/
def turnsOf (config : Config) : List Test → Nat → UInt64 → List Turn
  | [], _, _ => []
  | t :: rest, n, rng =>
      let turn : Turn := { test := t, number := n + 1, rng }
      turn :: turnsOf config rest (n + 1) (advance (turn.steps config) rng)

theorem ttExecForked_child (host : Host) (turn : Turn) (s : State) (start : s.rng = turn.rng) :
    ((ttExecForked host turn.number turn.test s).result,
      (ttExecForked host turn.number turn.test s).crashedSig) = turn.child host := by
  have ended := (ttExecBody_turn turn s start).1
  simp only [ttExecForked, Turn.child]
  cases host.forks turn.number with
  | false => rfl
  | true =>
      rcases ran : ttExecBody turn.test s with ⟨child, outcome⟩
      rw [ran] at ended
      rw [← ended]
      cases outcome with
      | ok result => rfl
      | error status =>
          cases status with
          | exited code | signaled sig => rfl

/-- A turn is reported as passed exactly when its test passes. -/
theorem ttRunOne_passes {host : Host} {config : Config} (turn : Turn) {s after : State}
    {verdict : Verdict} (start : s.rng = turn.rng)
    (ran : ttRunOne host config turn.test turn.number s = .ok (after, verdict)) :
    verdict = .ok ↔ turn.Passes host config := by
  have child := ttExecForked_child host turn s start
  simp only [Turn.Passes, ← child, Prod.mk.injEq]
  simp only [ttRunOne] at ran
  cases death : turn.test.deathSignal with
  | some expected =>
      simp only [death, runDeathTest] at ran
      split at ran
      · rename_i expectedly
        cases ran
        exact iff_of_true rfl expectedly
      · rename_i otherwise
        cases ran
        exact iff_of_false Verdict.noConfusion otherwise
  | none =>
      cases isolate : config.isolate with
      | true =>
          simp only [death, isolate, if_true, runIsolated] at ran ⊢
          split at ran
          · rename_i crashed
            cases ran
            exact iff_of_false Verdict.noConfusion fun both => crashed both.2
          · rename_i calm
            split at ran
            · rename_i skipped
              cases ran
              exact iff_of_false Verdict.noConfusion fun both => by
                rw [both.1] at skipped
                cases skipped
            · split at ran
              · rename_i passed
                cases ran
                exact iff_of_true rfl ⟨passed, not_not.mp calm⟩
              · rename_i failed
                cases ran
                exact iff_of_false Verdict.noConfusion fun both => failed both.1
      | false =>
          have ended := (ttExecBody_turn turn s start).1
          simp only [death, isolate, Bool.false_eq_true, if_false, runInProcess] at ran ⊢
          rcases one : ttExecBody turn.test s with ⟨s', outcome⟩
          rw [one] at ended ran
          rw [← ended]
          cases outcome with
          | error status => cases ran
          | ok result =>
              cases result with
              | pass =>
                  cases ran
                  exact iff_of_true rfl rfl
              | fail | skip =>
                  cases ran
                  refine iff_of_false Verdict.noConfusion fun passed => ?_
                  cases passed

theorem ListRan.sublist {host : Host} {config : Config} {list : List Test} {n m : Nat}
    {s s' : State} {records : List Record} (ran : ListRan host config list n s m s' records) :
    (records.map fun r => r.test).Sublist list := by
  induction ran with
  | done => exact .slnil
  | passed _ _ ih => exact .cons _ ih
  | stopped _ _ _ => exact .cons_cons _ (List.nil_sublist _)
  | next _ _ _ _ ih => exact .cons_cons _ ih

/-- Every test has a turn and passes exactly if the filter selects every test and each passes in
its turn. -/
theorem ttRunList_whole {host : Host} {config : Config} {list : List Test} {n m : Nat}
    {s s' : State} {records : List Record} (clean : config.failFast = true → s.testsFailed = 0)
    (ran : ttRunList host config list n s = .ok (m, s', records)) :
    (records.length = list.length ∧ ∀ r ∈ records, r.verdict = .ok) ↔
      (∀ t ∈ list, ttSelected config t = true) ∧
        ∀ turn ∈ turnsOf config list n s.rng, turn.Passes host config := by
  have turn_def : ∀ t rest n rng, turnsOf config (t :: rest) n rng =
    ⟨t, n + 1, rng⟩ :: turnsOf config rest (n + 1)
      (advance (Turn.steps config ⟨t, n + 1, rng⟩) rng) := fun _ _ _ _ => rfl
  replace ran := ttRunList_ran ran
  induction ran with
  | done => simp [turnsOf]
  | @passed t rest _ _ _ _ others unselected later _ =>
      have fewer := later.sublist.length_le
      rw [List.length_map] at fewer
      refine iff_of_false (fun whole => ?_) fun whole => unselected (whole.1 t (.head _))
      rw [whole.1, List.length_cons] at fewer
      exact absurd fewer (Nat.not_succ_le_self _)
  | @stopped t rest n s after verdict _ one stop =>
      have passes := ttRunOne_passes ⟨t, n + 1, s.rng⟩ rfl one
      have adds := (ttRunOne_adds one).failed
      -- The run stopped at a failure.
      have failing : verdict ≠ .ok := by
        rintro rfl
        rw [clean stop.1] at adds
        exact absurd stop.2 (by simp [adds])
      rw [turn_def, List.forall_mem_cons, List.forall_mem_cons, List.forall_mem_cons, ← passes]
      exact iff_of_false (fun whole => failing whole.2.1) fun whole => failing whole.2.1
  | @next t rest n m s after s' verdict others selected one goes _ ih =>
      have passes := ttRunOne_passes ⟨t, n + 1, s.rng⟩ rfl one
      have moved := ttRunOne_rng ⟨t, n + 1, s.rng⟩ rfl one
      have rest_iff := ih (clean_of_goes goes)
      rw [turn_def, List.forall_mem_cons, List.forall_mem_cons, List.forall_mem_cons, ← passes,
        ← moved, List.length_cons, List.length_cons, Nat.succ_inj]
      constructor
      · rintro ⟨length, first, later⟩
        obtain ⟨all, pass⟩ := rest_iff.mp ⟨length, later⟩
        exact ⟨⟨selected, all⟩, first, pass⟩
      · rintro ⟨⟨_, all⟩, first, pass⟩
        obtain ⟨length, later⟩ := rest_iff.mpr ⟨all, pass⟩
        exact ⟨length, first, later⟩

/-- A report on `list` that takes its attributes from the run. -/
theorem XmlReport.agrees_iff {report : XmlReport} {result : RunResult} {list : List Test}
    (cases : report.cases = list.map Test.key)
    (sublist : (result.records.map fun r => r.test).Sublist list)
    (printed : points result.state.out = result.records.map Record.point)
    (tests : report.tests = (points result.state.out).length)
    (failures : report.failures = (points result.state.out).countP (·.2 = .notOk))
    (skipped : report.skipped = (points result.state.out).countP (·.2 = .skip)) :
    report.Agrees result ↔
      result.records.length = list.length ∧ ∀ r ∈ result.records, r.verdict = .ok := by
  have keys : report.elements.map Prod.fst = list.map Test.key := by
    rw [elements, cases, List.map_map, List.map_map]
    rfl
  have unmarked : report.elements.map Prod.snd = List.replicate list.length .ok := by
    rw [elements, cases, List.map_map, List.map_map, ← List.map_const']
    rfl
  have verdicts : (points result.state.out).map Prod.snd =
      result.records.map fun r => r.verdict := by
    rw [printed, List.map_map]
    rfl
  have length : report.elements.length = list.length := by
    rw [elements, cases, List.length_map, List.length_map]
  constructor
  · intro agrees
    have same := agrees.marked
    rw [unmarked, verdicts, eq_comm, List.eq_replicate_iff, List.length_map,
      List.forall_mem_map] at same
    exact same
  · rintro ⟨every, passed⟩
    have whole : (result.records.map fun r => r.test) = list :=
      sublist.eq_of_length ((List.length_map _).trans every)
    have marked : report.elements.map Prod.snd = (points result.state.out).map Prod.snd := by
      rw [unmarked, verdicts, eq_comm, List.eq_replicate_iff, List.length_map, List.forall_mem_map]
      exact ⟨every, passed⟩
    have counted (verdict : Verdict) : (points result.state.out).countP (·.2 = verdict) =
        report.elements.countP (·.2 = verdict) := by
      have counts := congrArg (List.countP (· = verdict)) marked
      rw [List.countP_map, List.countP_map] at counts
      exact counts.symm
    refine ⟨?_, marked, ?_, ?_, ?_⟩
    · rw [keys, ← whole, List.map_map]
      rfl
    · rw [tests, printed, List.length_map, length, every]
    · exact failures.trans (counted .notOk)
    · exact skipped.trans (counted .skip)

/-- An insertion sort meets the contract of `qsort`, and evaluates. -/
def Qsort.insertion : Qsort where
  sort list := list.insertionSort fun a b => (ttCmpTests a b).isLE
  perm list := List.perm_insertionSort _ list
  sorted list := @List.pairwise_insertionSort _ (fun a b => (ttCmpTests a b).isLE) _
    ⟨fun a b => Bool.or_eq_true_iff.mp (ttCmpTests_isLE_total a b)⟩ ⟨ttCmpTests_isLE_trans⟩ list

/-- A fixture, a test that draws, and a death test that dies by its signal. -/
def passingTests : List Test :=
  [{ idleTest with
      name := ['a']
      fn := .fixture (.event .passAssert .done) (.event .passAssert .done)
        (.event .passAssert .done) },
    { idleTest with name := ['b'], fn := .plain (.rand fun _ => .event .passAssert .done) },
    { idleTest with
      name := ['c']
      fn := .plain (.event (.die (.signaled 6)) .done)
      deathSignal := some 6 }]

end AgencC.Harness
