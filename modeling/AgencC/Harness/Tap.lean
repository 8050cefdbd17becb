import AgencC.Harness.Replay

/-! The result stream, the counters and the exit code of a run agree, whatever
the executed tests do and however their processes end. -/

set_option autoImplicit false

namespace AgencC.Harness

/-- The number and the verdict of a printed test point. -/
def TapLine.point? : TapLine → Option (Nat × Verdict)
  | .ok n _ => some (n, .ok)
  | .okDied n _ _ => some (n, .ok)
  | .okSkip n _ _ => some (n, .skip)
  | .notOk n _ => some (n, .notOk)
  | _ => none

def TapLine.plan? : TapLine → Option Nat
  | .plan n => some n
  | _ => none

def points (out : List TapLine) : List (Nat × Verdict) := out.filterMap TapLine.point?

def plans (out : List TapLine) : List Nat := out.filterMap TapLine.plan?

theorem points_append (out lines : List TapLine) :
    points (out ++ lines) = points out ++ points lines := List.filterMap_append

theorem plans_append (out lines : List TapLine) :
    plans (out ++ lines) = plans out ++ plans lines := List.filterMap_append

theorem points_flushDiag (s : State) : points (ttFlushDiag s) = [] := by
  rw [points, ttFlushDiag, List.filterMap_map]
  exact List.filterMap_eq_nil_iff.mpr fun line _ => rfl

theorem plans_flushDiag (s : State) : plans (ttFlushDiag s) = [] := by
  rw [plans, ttFlushDiag, List.filterMap_map]
  exact List.filterMap_eq_nil_iff.mpr fun line _ => rfl

/-- A forked child prints no test point of its own. -/
theorem ttExecForked_lines (host : Host) (n : Nat) (t : Test) (s : State) :
    points (ttExecForked host n t s).lines = [] ∧ plans (ttExecForked host n t s).lines = [] := by
  simp only [ttExecForked]
  split
  · split
    · split
      · exact ⟨points_flushDiag _, plans_flushDiag _⟩
      · exact ⟨rfl, rfl⟩
    · exact ⟨rfl, rfl⟩
    · exact ⟨rfl, rfl⟩
  · exact ⟨rfl, rfl⟩

/-- What the turn with the number `n` adds: one test point and its counter. -/
structure AddsPoint (n : Nat) (verdict : Verdict) (s after : State) : Prop where
  printed : points after.out = points s.out ++ [(n, verdict)]
  unplanned : plans after.out = plans s.out
  run : after.testsRun = s.testsRun + 1
  passed : after.testsPassed = s.testsPassed + if verdict = .ok then 1 else 0
  failed : after.testsFailed = s.testsFailed + if verdict = .notOk then 1 else 0
  skipped : after.testsSkipped = s.testsSkipped + if verdict = .skip then 1 else 0

/-- A branch of `tt_run_one` prints its point after what the child has printed. -/
theorem AddsPoint.of_lines {n : Nat} {verdict : Verdict} {s after : State}
    (silent lines : List TapLine) (out : after.out = s.out ++ silent ++ lines)
    (quiet : points silent = [] ∧ plans silent = []) (point : points lines = [(n, verdict)])
    (plan : plans lines = []) (run : after.testsRun = s.testsRun + 1)
    (passed : after.testsPassed = s.testsPassed + if verdict = .ok then 1 else 0)
    (failed : after.testsFailed = s.testsFailed + if verdict = .notOk then 1 else 0)
    (skipped : after.testsSkipped = s.testsSkipped + if verdict = .skip then 1 else 0) :
    AddsPoint n verdict s after where
  printed := by rw [out, points_append, points_append, quiet.1, point, List.append_nil]
  unplanned := by rw [out, plans_append, plans_append, quiet.2, plan, List.append_nil, List.append_nil]
  run := run
  passed := passed
  failed := failed
  skipped := skipped

theorem runDeathTest_adds (host : Host) (t : Test) (expected n : Nat) (s : State) :
    AddsPoint n (runDeathTest host t expected n s).2 s (runDeathTest host t expected n s).1 := by
  have quiet := ttExecForked_lines host n t s
  simp only [runDeathTest, State.print]
  split
  · exact .of_lines _ _ rfl quiet rfl rfl rfl rfl rfl rfl
  · exact .of_lines _ _ rfl quiet rfl rfl rfl rfl rfl rfl

theorem runIsolated_adds (host : Host) (t : Test) (n : Nat) (s : State) :
    AddsPoint n (runIsolated host t n s).2 s (runIsolated host t n s).1 := by
  have quiet := ttExecForked_lines host n t s
  simp only [runIsolated, State.print]
  split
  · exact .of_lines _ _ rfl quiet rfl rfl rfl rfl rfl rfl
  · split
    · exact .of_lines _ _ rfl quiet rfl rfl rfl rfl rfl rfl
    · split
      · exact .of_lines _ _ rfl quiet rfl rfl rfl rfl rfl rfl
      · exact .of_lines _ _ rfl quiet rfl rfl rfl rfl rfl rfl

theorem runInProcess_adds {t : Test} {n : Nat} {s after : State} {verdict : Verdict}
    (ran : runInProcess t n s = .ok (after, verdict)) : AddsPoint n verdict s after := by
  have kept := (ttExecBody_turn { test := t, number := n, rng := s.rng } s rfl).2.2.2
  simp only at kept
  rcases ended : ttExecBody t s with ⟨s', outcome⟩
  simp only [ended, State.counts, Prod.mk.injEq] at kept
  obtain ⟨run, passed, failed, skipped, out⟩ := kept
  cases outcome with
  | error status =>
      simp only [runInProcess, ended] at ran
      cases ran
  | ok result =>
      have silent : points [] = [] ∧ plans [] = [] := ⟨rfl, rfl⟩
      have base : s'.out = s.out ++ [] := by rw [List.append_nil, out]
      cases result with
      | pass =>
          simp only [runInProcess, ended] at ran
          cases ran
          exact .of_lines [] [.ok n t.key] (congrArg (· ++ _) base) silent rfl rfl
            (congrArg (· + 1) run) (congrArg (· + 1) passed) failed skipped
      | skip =>
          simp only [runInProcess, ended] at ran
          cases ran
          exact .of_lines [] [.okSkip n t.key (s'.skipReason.getD [])] (congrArg (· ++ _) base)
            silent rfl rfl (congrArg (· + 1) run) passed failed (congrArg (· + 1) skipped)
      | fail =>
          simp only [runInProcess, ended] at ran
          cases ran
          exact .of_lines [] (.notOk n t.key :: ttFlushDiag _) (congrArg (· ++ _) base) silent
            (congrArg ((n, Verdict.notOk) :: ·) (points_flushDiag _)) (plans_flushDiag _)
            (congrArg (· + 1) run) passed (congrArg (· + 1) failed) skipped

theorem ttRunOne_adds {host : Host} {config : Config} {t : Test} {n : Nat} {s after : State}
    {verdict : Verdict} (ran : ttRunOne host config t n s = .ok (after, verdict)) :
    AddsPoint n verdict s after := by
  simp only [ttRunOne] at ran
  split at ran
  · rename_i expected _
    have adds := runDeathTest_adds host t expected n s
    rw [Except.ok.injEq] at ran
    rw [ran] at adds
    exact adds
  · split at ran
    · have adds := runIsolated_adds host t n s
      rw [Except.ok.injEq] at ran
      rw [ran] at adds
      exact adds
    · exact runInProcess_adds ran

/-- A death test passes exactly when its child dies by the expected signal. -/
theorem ttRunOne_death {host : Host} {config : Config} (turn : Turn) {s after : State}
    {verdict : Verdict} {expected : Nat} (start : s.rng = turn.rng)
    (ran : ttRunOne host config turn.test turn.number s = .ok (after, verdict))
    (death : turn.test.deathSignal = some expected) (real : expected ≠ 0) :
    verdict = .ok ↔
      host.forks turn.number = true ∧ turn.outcome = .error (.signaled expected) := by
  have ended := (ttExecBody_turn turn s start).1
  have died : (ttExecForked host turn.number turn.test s).result = Result.fail.code ∧
      (ttExecForked host turn.number turn.test s).crashedSig = expected ↔
      host.forks turn.number = true ∧ turn.outcome = .error (.signaled expected) := by
    rcases child : ttExecBody turn.test s with ⟨s', outcome⟩
    rw [child] at ended
    rw [← ended]
    simp only [ttExecForked, child]
    cases forks : host.forks turn.number with
    | false => simp [real.symm]
    | true =>
        cases outcome with
        | ok result => simp [real.symm]
        | error status =>
            cases status with
            | exited code => simp [real.symm]
            | signaled sig => simp
  rw [← died]
  simp only [ttRunOne, death, runDeathTest] at ran
  split at ran
  · rename_i expectedly
    cases ran
    exact ⟨fun _ => expectedly, fun _ => rfl⟩
  · rename_i otherwise
    cases ran
    exact ⟨fun same => (by cases same), fun expectedly => absurd expectedly otherwise⟩

/-- The plan and the summary are no test points. -/
theorem points_end (s : State) (n : Nat) :
    points (s.out ++ [.plan n, .summary s.testsPassed s.testsFailed s.testsSkipped
      s.assertions]) = points s.out := by
  rw [points_append]
  exact List.append_nil _

/-- The counters of a run after its first `n` points. -/
structure Tally (n : Nat) (s : State) : Prop where
  numbered : (points s.out).map Prod.fst = List.range' 1 n
  unplanned : plans s.out = []
  run : s.testsRun = n
  passed : s.testsPassed = (points s.out).countP (·.2 = .ok)
  failed : s.testsFailed = (points s.out).countP (·.2 = .notOk)
  skipped : s.testsSkipped = (points s.out).countP (·.2 = .skip)

theorem Tally.start (seed : UInt64) :
    Tally 0 (State.print { rng := seed } [.version, .seed seed]) :=
  ⟨rfl, rfl, rfl, rfl, rfl, rfl⟩

theorem Tally.length_points {n : Nat} {s : State} (tally : Tally n s) :
    (points s.out).length = n := by
  have numbers := congrArg List.length tally.numbered
  rwa [List.length_map, List.length_range'] at numbers

theorem Tally.next {n : Nat} {verdict : Verdict} {s after : State} (tally : Tally n s)
    (adds : AddsPoint (n + 1) verdict s after) : Tally (n + 1) after where
  numbered := by
    rw [adds.printed, List.map_append, tally.numbered, List.range'_1_concat, Nat.add_comm 1 n]
    rfl
  unplanned := adds.unplanned.trans tally.unplanned
  run := by rw [adds.run, tally.run]
  passed := by
    rw [adds.passed, adds.printed, tally.passed, List.countP_append, List.countP_singleton]
    simp only [decide_eq_true_eq]
  failed := by
    rw [adds.failed, adds.printed, tally.failed, List.countP_append, List.countP_singleton]
    simp only [decide_eq_true_eq]
  skipped := by
    rw [adds.skipped, adds.printed, tally.skipped, List.countP_append, List.countP_singleton]
    simp only [decide_eq_true_eq]

theorem Tally.bailOut {n : Nat} {s : State} (tally : Tally n s) : Tally n (s.print [.bailOut]) := by
  have same : points (s.out ++ [.bailOut]) = points s.out := by
    rw [points_append]
    exact List.append_nil _
  have planless : plans (s.out ++ [.bailOut]) = plans s.out := by
    rw [plans_append]
    exact List.append_nil _
  constructor
  · exact (congrArg _ same).trans tally.numbered
  · exact planless.trans tally.unplanned
  · exact tally.run
  · exact tally.passed.trans (congrArg _ same.symm)
  · exact tally.failed.trans (congrArg _ same.symm)
  · exact tally.skipped.trans (congrArg _ same.symm)

def Record.point (r : Record) : Nat × Verdict := (r.number, r.verdict)

/-- A death test that was executed passed exactly if its child died by its signal. -/
def Record.DeathJudged (host : Host) (r : Record) : Prop :=
  ∀ expected, r.test.deathSignal = some expected → expected ≠ 0 →
    (r.verdict = .ok ↔ host.forks r.number = true ∧ r.outcome = .error (.signaled expected))

/-- The loop keeps the tally, prints one point for each record, and under
`--fail-fast` ends with the first failure. -/
structure LoopSpec (host : Host) (config : Config) (n m : Nat) (s s' : State)
    (records : List Record) : Prop where
  tally : Tally m s'
  printed : points s'.out = points s.out ++ records.map Record.point
  judged : ∀ r ∈ records, r.DeathJudged host
  lastFails : config.failFast = true → ∀ r ∈ records.dropLast, r.verdict ≠ .notOk

theorem ttRunList_loop {host : Host} {config : Config} {list : List Test} {n m : Nat}
    {s s' : State} {records : List Record} (tally : Tally n s)
    (clean : config.failFast = true → s.testsFailed = 0)
    (ran : ttRunList host config list n s = .ok (m, s', records)) :
    LoopSpec host config n m s s' records := by
  replace ran := ttRunList_ran ran
  induction ran with
  | done =>
      exact ⟨tally, (List.append_nil _).symm, fun r member => (by cases member),
        fun _ r member => (by cases member)⟩
  | passed _ _ ih => exact ih tally clean
  | @stopped t rest n s after verdict _ one _ =>
      have adds := ttRunOne_adds one
      have judged : Record.DeathJudged host
          { test := t, number := n + 1, rng := s.rng, verdict } := fun expected death real =>
        ttRunOne_death { test := t, number := n + 1, rng := s.rng } rfl one death real
      refine ⟨(tally.next adds).bailOut, ?_, List.forall_mem_singleton.mpr judged,
        fun _ r member => (by cases member)⟩
      rw [State.print, points_append, adds.printed]
      exact List.append_nil _
  | @next t rest n m s after s' verdict others _ one goes _ ih =>
      have adds := ttRunOne_adds one
      have judged : Record.DeathJudged host
          { test := t, number := n + 1, rng := s.rng, verdict } := fun expected death real =>
        ttRunOne_death { test := t, number := n + 1, rng := s.rng } rfl one death real
      have spec := ih (tally.next adds) (clean_of_goes goes)
      refine ⟨spec.tally, ?_, List.forall_mem_cons.mpr ⟨judged, spec.judged⟩, ?_⟩
      · rw [spec.printed, adds.printed, List.append_assoc]
        rfl
      · intro failFast r member
        cases others with
        | nil => cases member
        | cons next others =>
            cases member with
            | tail _ member => exact spec.lastFails failFast r member
            | head =>
                intro failing
                have counted := adds.failed
                rw [clean_of_goes goes failFast, clean failFast, if_pos failing] at counted
                cases counted

theorem ttRunOne_returns (host : Host) (config : Config) (turn : Turn) (s : State)
    (start : s.rng = turn.rng)
    (alive : turn.inProcess config = true → ∃ result, turn.outcome = .ok result) :
    ∃ after verdict, ttRunOne host config turn.test turn.number s = .ok (after, verdict) := by
  simp only [ttRunOne]
  cases death : turn.test.deathSignal with
  | some expected => exact ⟨_, _, rfl⟩
  | none =>
      cases isolate : config.isolate with
      | true => exact ⟨_, _, rfl⟩
      | false =>
          obtain ⟨result, survived⟩ := alive (by simp [Turn.inProcess, death, isolate])
          have ended := (ttExecBody_turn turn s start).1.trans survived
          rcases ran : ttExecBody turn.test s with ⟨s', outcome⟩
          rw [ran] at ended
          simp only at ended
          subst ended
          simp only [runInProcess, ran, Bool.false_eq_true, if_false]
          cases result with
          | pass | fail | skip => exact ⟨_, _, rfl⟩

/-- The loop comes to its end when no test dies in the process of the harness. -/
theorem ttRunList_returns {host : Host} {config : Config} {list : List Test} {n : Nat}
    {s : State} (alive : ∀ turn ∈ givenTurns host config list n s,
      turn.inProcess config = true → ∃ result, turn.outcome = .ok result) :
    ∃ m s' records, ttRunList host config list n s = .ok (m, s', records) := by
  induction list generalizing n s with
  | nil => exact ⟨_, _, _, rfl⟩
  | cons t rest ih =>
      simp only [givenTurns, ttRunList] at alive ⊢
      split
      · rename_i selected
        rw [if_pos selected] at alive
        obtain ⟨after, verdict, one⟩ := ttRunOne_returns host config
          { test := t, number := n + 1, rng := s.rng } s rfl (alive _ (.head _))
        simp only at one
        simp only [one] at alive
        simp only [one, bind, Except.bind]
        split
        · exact ⟨_, _, _, rfl⟩
        · rename_i goes
          rw [if_neg goes] at alive
          obtain ⟨m, s', records, ran⟩ := ih fun turn member => alive turn (.tail _ member)
          rw [ran]
          exact ⟨_, _, _, rfl⟩
      · rename_i passed
        rw [if_neg passed] at alive
        exact ih alive

/-- The result stream, the counters, the records of the executed tests and the
exit code say the same. -/
structure Consistent (host : Host) (config : Config) (result : RunResult) : Prop where
  numbered : (points result.state.out).map Prod.fst =
    List.range' 1 (points result.state.out).length
  planned : config.listOnly = false → plans result.state.out = [(points result.state.out).length]
  run : result.state.testsRun = (points result.state.out).length
  sum : result.state.testsRun =
    result.state.testsPassed + result.state.testsFailed + result.state.testsSkipped
  notOk : (points result.state.out).countP (·.2 = .notOk) = result.state.testsFailed
  ok : (points result.state.out).countP (·.2 = .ok) = result.state.testsPassed
  exit : result.exitCode = 0 ↔ result.state.testsFailed = 0
  printed : points result.state.out = result.records.map Record.point
  judged : ∀ r ∈ result.records, r.DeathJudged host
  lastFails : config.failFast = true → ∀ r ∈ result.records.dropLast, r.verdict ≠ .notOk
  listed : config.listOnly = true → plans result.state.out = [] ∧ points result.state.out = []

theorem verdict_counts (printed : List (Nat × Verdict)) :
    printed.length = printed.countP (·.2 = .ok) + printed.countP (·.2 = .notOk) +
      printed.countP (·.2 = .skip) := by
  induction printed with
  | nil => rfl
  | cons point rest ih =>
      simp only [List.length_cons, List.countP_cons, decide_eq_true_eq]
      cases verdict : point.2 with
      | ok | notOk | skip =>
          simp only [reduceCtorEq, if_true, if_false]
          omega

theorem listed_silent (list : List Test) :
    points (list.map fun t => .listed t.key) = [] ∧
      plans (list.map fun t => .listed t.key) = [] := by
  constructor
  · rw [points, List.filterMap_map]
    exact List.filterMap_eq_nil_iff.mpr fun t _ => rfl
  · rw [plans, List.filterMap_map]
    exact List.filterMap_eq_nil_iff.mpr fun t _ => rfl

theorem exitCode_eq_zero_iff (failed : Nat) :
    (if failed = 0 then 0 else 1 : Nat) = 0 ↔ failed = 0 := by
  cases failed with
  | zero => exact ⟨fun _ => rfl, fun _ => rfl⟩
  | succ failed => exact ⟨fun one => (by cases one), fun none => (by cases none)⟩

end AgencC.Harness
