import AgencC.Harness.Verdict
import AgencC.Library.Fault

/-! A run of the harness reports the turns of its schedule, and reports every
failure exactly when no executed test both fails an assertion and is skipped. -/

set_option autoImplicit false

namespace AgencC.Harness

/-- What one turn adds to the counters and to the result stream. -/
structure TurnSpec (turn : Turn) (verdict : Verdict) (s after : State) : Prop where
  run : after.testsRun = s.testsRun + 1
  passed : after.testsPassed = s.testsPassed + if verdict = .ok then 1 else 0
  failed : after.testsFailed = s.testsFailed + if verdict = .notOk then 1 else 0
  skipped : after.testsSkipped = s.testsSkipped + if verdict = .skip then 1 else 0
  printed : ∃ lines, after.out = s.out ++ lines ∧
    (verdict = .notOk → .notOk turn.number turn.test.key ∈ lines)

theorem ttExecForked_spec (host : Host) (turn : Turn) (s : State) (survives : turn.test.Survives)
    (start : s.rng = turn.rng) (forks : host.forks turn.number = true) :
    (ttExecForked host turn.number turn.test s).result = turn.result.code ∧
      (ttExecForked host turn.number turn.test s).crashedSig = 0 := by
  obtain ⟨child, ran, _⟩ := ttExecBody_spec turn s survives start
  simp only [ttExecForked, forks, ran, if_true, and_self]

theorem runIsolated_spec (host : Host) (config : Config) (turn : Turn) (s : State)
    (survives : turn.test.Survives) (start : s.rng = turn.rng) (isolate : config.isolate = true) :
    (runIsolated host turn.test turn.number s).2 = turn.verdict host config ∧
      (runIsolated host turn.test turn.number s).1.rng = turn.rngAfter config ∧
      TurnSpec turn (turn.verdict host config) s (runIsolated host turn.test turn.number s).1 := by
  have rngAfter : turn.rngAfter config = turn.rng := by simp [Turn.rngAfter, isolate]
  have executed : turn.executed host config = host.forks turn.number := by
    simp [Turn.executed, isolate]
  by_cases forks : host.forks turn.number = true
  · obtain ⟨code, alive⟩ := ttExecForked_spec host turn s survives start forks
    rw [rngAfter, ← start, Turn.verdict, executed, if_pos forks]
    simp only [runIsolated, code, alive, ne_eq, not_true_eq_false, if_false]
    cases turn.result with
    | pass | fail | skip =>
        exact ⟨rfl, rfl, rfl, rfl, rfl, rfl, _, List.append_assoc .., by simp [Result.verdict]⟩
  · rw [rngAfter, ← start, Turn.verdict, executed, if_neg forks]
    have stillborn : ttExecForked host turn.number turn.test s = ⟨1, 0, []⟩ := by
      simp only [ttExecForked, forks, Bool.false_eq_true, if_false, Result.code]
    simp only [runIsolated, stillborn]
    exact ⟨rfl, rfl, rfl, rfl, rfl, rfl, _, List.append_assoc .., by simp⟩

theorem runInProcess_spec (host : Host) (config : Config) (turn : Turn) (s : State)
    (survives : turn.test.Survives) (start : s.rng = turn.rng) (shared : config.isolate = false) :
    ∃ after, runInProcess turn.test turn.number s = .ok (after, turn.verdict host config) ∧
      after.rng = turn.rngAfter config ∧
      TurnSpec turn (turn.verdict host config) s after := by
  obtain ⟨s', ran, rng, counts⟩ := ttExecBody_spec turn s survives start
  have rngAfter : turn.rngAfter config = s'.rng := by simp [Turn.rngAfter, shared, rng]
  have verdict : turn.verdict host config = turn.result.verdict := by
    simp [Turn.verdict, Turn.executed, shared]
  simp only [State.counts, Prod.mk.injEq] at counts
  obtain ⟨run, passed, failed, skipped, out⟩ := counts
  rw [rngAfter, verdict]
  simp only [runInProcess, ran]
  cases turn.result with
  | pass | fail | skip =>
      refine ⟨_, rfl, rfl, ?_, ?_, ?_, ?_, ?_⟩
      · exact congrArg (· + 1) run
      · simp [State.print, passed, Result.verdict]
      · simp [State.print, failed, Result.verdict]
      · simp [State.print, skipped, Result.verdict]
      · rw [State.print, out]
        exact ⟨_, rfl, by simp [Result.verdict]⟩

theorem ttRunOne_spec (host : Host) (config : Config) (turn : Turn) (s : State)
    (survives : turn.test.Survives) (start : s.rng = turn.rng) :
    ∃ after, ttRunOne host config turn.test turn.number s =
        .ok (after, turn.verdict host config) ∧
      after.rng = turn.rngAfter config ∧
      TurnSpec turn (turn.verdict host config) s after := by
  cases mode : config.isolate with
  | true =>
      obtain ⟨verdict, rng, spec⟩ := runIsolated_spec host config turn s survives start mode
      refine ⟨(runIsolated host turn.test turn.number s).1, ?_, rng, spec⟩
      simp only [ttRunOne, survives.1, mode, if_true, ← verdict]
  | false =>
      obtain ⟨after, ran, rng, spec⟩ := runInProcess_spec host config turn s survives start mode
      refine ⟨after, ?_, rng, spec⟩
      simp only [ttRunOne, survives.1, mode, Bool.false_eq_true, if_false, ran]

/-- The turns of a run: the selected tests in order, up to the first one reported
as failed under `--fail-fast`. -/
def schedule (host : Host) (config : Config) : List Test → Nat → UInt64 → List Turn
  | [], _, _ => []
  | t :: rest, n, rng =>
      if ttSelected config t then
        let turn : Turn := { test := t, number := n + 1, rng }
        if config.failFast ∧ turn.verdict host config = .notOk then [turn]
        else turn :: schedule host config rest (n + 1) (turn.rngAfter config)
      else schedule host config rest n rng

def Turn.record (host : Host) (config : Config) (turn : Turn) : Record :=
  { turn with verdict := turn.verdict host config }

/-- What a run over `turns` adds to the failure counter and to the result stream. -/
structure RunListSpec (host : Host) (config : Config) (turns : List Turn) (s s' : State) :
    Prop where
  failed : s'.testsFailed =
    s.testsFailed + turns.countP fun turn => turn.verdict host config = .notOk
  printed : ∃ lines, s'.out = s.out ++ lines ∧ ∀ turn ∈ turns,
    turn.verdict host config = .notOk → .notOk turn.number turn.test.key ∈ lines

theorem RunListSpec.cons {host : Host} {config : Config} {turn : Turn} {turns : List Turn}
    {s after s' : State} (first : TurnSpec turn (turn.verdict host config) s after)
    (rest : RunListSpec host config turns after s') :
    RunListSpec host config (turn :: turns) s s' where
  failed := by
    rw [rest.failed, first.failed, List.countP_cons]
    simp only [decide_eq_true_eq]
    omega
  printed := by
    obtain ⟨lines, out, reported⟩ := first.printed
    obtain ⟨more, out', reported'⟩ := rest.printed
    refine ⟨lines ++ more, by rw [out', out, List.append_assoc], ?_⟩
    intro other member failing
    cases member with
    | head => exact List.mem_append_left _ (reported failing)
    | tail _ member => exact List.mem_append_right _ (reported' other member failing)

theorem RunListSpec.print {host : Host} {config : Config} {turns : List Turn} {s s' : State}
    (spec : RunListSpec host config turns s s') (lines : List TapLine) :
    RunListSpec host config turns s (s'.print lines) where
  failed := spec.failed
  printed := by
    obtain ⟨first, out, reported⟩ := spec.printed
    refine ⟨first ++ lines, ?_, fun turn member failing =>
      List.mem_append_left _ (reported turn member failing)⟩
    rw [State.print, out, List.append_assoc]

theorem RunListSpec.nil (host : Host) (config : Config) (s : State) :
    RunListSpec host config [] s s :=
  ⟨rfl, [], (List.append_nil _).symm, fun _ member => nomatch member⟩

/-- How the loop of `tt_run_all` came from the state before it to its result. -/
inductive ListRan (host : Host) (config : Config) :
    List Test → Nat → State → Nat → State → List Record → Prop
  | done {n : Nat} {s : State} : ListRan host config [] n s n s []
  | passed {t : Test} {rest : List Test} {n m : Nat} {s s' : State} {records : List Record}
      (unselected : ¬ ttSelected config t = true)
      (later : ListRan host config rest n s m s' records) :
      ListRan host config (t :: rest) n s m s' records
  | stopped {t : Test} {rest : List Test} {n : Nat} {s after : State} {verdict : Verdict}
      (selected : ttSelected config t = true)
      (one : ttRunOne host config t (n + 1) s = .ok (after, verdict))
      (stop : config.failFast = true ∧ 0 < after.testsFailed) :
      ListRan host config (t :: rest) n s (n + 1) (after.print [.bailOut])
        [{ test := t, number := n + 1, rng := s.rng, verdict }]
  | next {t : Test} {rest : List Test} {n m : Nat} {s after s' : State} {verdict : Verdict}
      {records : List Record} (selected : ttSelected config t = true)
      (one : ttRunOne host config t (n + 1) s = .ok (after, verdict))
      (goes : ¬ (config.failFast = true ∧ 0 < after.testsFailed))
      (later : ListRan host config rest (n + 1) after m s' records) :
      ListRan host config (t :: rest) n s m s'
        ({ test := t, number := n + 1, rng := s.rng, verdict } :: records)

theorem ttRunList_ran {host : Host} {config : Config} {list : List Test} {n m : Nat}
    {s s' : State} {records : List Record}
    (ran : ttRunList host config list n s = .ok (m, s', records)) :
    ListRan host config list n s m s' records := by
  induction list generalizing n s records with
  | nil =>
      cases ran
      exact .done
  | cons t rest ih =>
      simp only [ttRunList] at ran
      by_cases selected : ttSelected config t = true
      · rw [if_pos selected] at ran
        obtain ⟨⟨after, verdict⟩, one, ran⟩ := Library.bind_eq_ok.mp ran
        dsimp only at ran
        by_cases stop : config.failFast = true ∧ 0 < after.testsFailed
        · rw [if_pos stop] at ran
          cases ran
          exact .stopped selected one stop
        · rw [if_neg stop] at ran
          obtain ⟨⟨k, s'', others⟩, more, ran⟩ := Library.bind_eq_ok.mp ran
          cases ran
          exact .next selected one stop (ih more)
      · rw [if_neg selected] at ran
        exact .passed selected (ih ran)

/-- A run that goes on under `--fail-fast` has no failure yet. -/
theorem clean_of_goes {config : Config} {after : State}
    (goes : ¬ (config.failFast = true ∧ 0 < after.testsFailed)) :
    config.failFast = true → after.testsFailed = 0 :=
  fun failFast => Nat.eq_zero_of_not_pos fun failed => goes ⟨failFast, failed⟩

/-- Under `--fail-fast` the loop only goes on while nothing has failed, so the
counter it tests is the verdict of the last turn. -/
theorem ttRunList_spec (host : Host) (config : Config) (list : List Test) (n : Nat) (s : State)
    (survives : ∀ t ∈ list, t.Survives) (clean : config.failFast = true → s.testsFailed = 0) :
    ∃ m s', ttRunList host config list n s =
        .ok (m, s', (schedule host config list n s.rng).map (Turn.record host config)) ∧
      RunListSpec host config (schedule host config list n s.rng) s s' := by
  induction list generalizing n s with
  | nil => exact ⟨n, s, rfl, .nil host config s⟩
  | cons t rest ih =>
      have restSurvives : ∀ t ∈ rest, t.Survives := fun t member => survives t (.tail _ member)
      simp only [ttRunList, schedule]
      by_cases selected : ttSelected config t = true
      · simp only [if_pos selected]
        obtain ⟨after, ran, rng, spec⟩ := ttRunOne_spec host config
          { test := t, number := n + 1, rng := s.rng } s (survives t (.head _)) rfl
        simp only [ran, bind, Except.bind]
        have stops : (config.failFast = true ∧ 0 < after.testsFailed) ↔ config.failFast = true ∧
            Turn.verdict host config { test := t, number := n + 1, rng := s.rng } = .notOk := by
          refine and_congr_right fun failFast => ?_
          rw [spec.failed, clean failFast]
          split <;> simp_all
        by_cases stop : config.failFast = true ∧ 0 < after.testsFailed
        · rw [if_pos stop, if_pos (stops.mp stop)]
          exact ⟨_, _, rfl, (RunListSpec.cons spec (.nil host config after)).print _⟩
        · rw [if_neg stop, if_neg (stops.not.mp stop)]
          obtain ⟨m, s', restRan, restSpec⟩ := ih (n + 1) after restSurvives (clean_of_goes stop)
          rw [rng] at restRan restSpec
          exact ⟨m, s', by rw [restRan]; rfl, .cons spec restSpec⟩
      · simp only [if_neg selected]
        exact ih n s restSurvives clean

/-- The tests of a run that are given a turn. -/
def turns (host : Host) (qsort : Qsort) (argv : List CString) (registry : Registry) : List Turn :=
  let config := ttParseArgs host argv
  if config.listOnly then []
  else schedule host config (ttCollect qsort registry) 0 config.seed

theorem mem_ttRegister (tests manual : List Test) (t : Test)
    (member : t ∈ tests.foldl ttRegister manual) : t ∈ manual ∨ t ∈ tests := by
  induction tests generalizing manual with
  | nil => exact .inl member
  | cons first rest ih =>
      cases ih (ttRegister manual first) member with
      | inr later => exact .inr (.tail _ later)
      | inl earlier =>
          unfold ttRegister at earlier
          split at earlier
          · cases List.mem_append.mp earlier with
            | inl old => exact .inl old
            | inr new => exact .inr (List.mem_singleton.mp new ▸ .head _)
          · exact .inl earlier

theorem mem_ttCollect (qsort : Qsort) (registry : Registry) (t : Test)
    (member : t ∈ ttCollect qsort registry) : t ∈ registry.table ++ registry.registered := by
  have unsorted : t ∈ (registry.table.take listCap ++
      registry.registered.foldl ttRegister []).take listCap := by
    simp only [ttCollect] at member
    split at member
    · exact (qsort.perm _).mem_iff.mp member
    · exact member
  cases List.mem_append.mp (List.mem_of_mem_take unsorted) with
  | inl table => exact List.mem_append_left _ (List.mem_of_mem_take table)
  | inr manual =>
      cases mem_ttRegister registry.registered [] t manual with
      | inl absent => cases absent
      | inr registered => exact List.mem_append_right _ registered

/-- Failures are reported: each executed test with a failed assertion is counted
as failed and printed `not ok`, and the exit code is 1 when there is one. -/
structure ReportsFailures (host : Host) (config : Config) (result : RunResult) : Prop where
  notOk : ∀ r ∈ result.records, r.executed host config → r.fails →
    r.verdict = .notOk ∧ .notOk r.number r.test.key ∈ result.state.out
  counted : result.state.testsFailed = result.records.countP fun r => r.verdict = .notOk
  exitOne : (∃ r ∈ result.records, r.executed host config ∧ r.fails) → result.exitCode = 1
  exitZero : result.exitCode = 0 → ∀ r ∈ result.records, r.executed host config → ¬ r.fails

/-- A run whose tests survive comes to its end and records the turns it gave. -/
theorem ttRunAll_spec (host : Host) (qsort : Qsort) (argv : List CString) (registry : Registry)
    (survives : ∀ t ∈ registry.table ++ registry.registered, t.Survives) :
    ∃ result, ttRunAll host qsort argv registry = .ok result ∧
      result.records = (turns host qsort argv registry).map
        (Turn.record host (ttParseArgs host argv)) ∧
      result.state.testsFailed =
        result.records.countP (fun r => r.verdict = .notOk) ∧
      (∀ r ∈ result.records, r.verdict = .notOk →
        .notOk r.number r.test.key ∈ result.state.out) ∧
      result.exitCode = if result.state.testsFailed = 0 then 0 else 1 := by
  simp only [ttRunAll, turns]
  by_cases listOnly : (ttParseArgs host argv).listOnly = true
  · simp only [if_pos listOnly]
    exact ⟨_, rfl, rfl, rfl, fun _ member => (nomatch member), rfl⟩
  · simp only [if_neg listOnly]
    obtain ⟨m, s', ran, spec⟩ := ttRunList_spec host (ttParseArgs host argv)
      (ttCollect qsort registry) 0
      (State.print { rng := (ttParseArgs host argv).seed }
        [.version, .seed (ttParseArgs host argv).seed])
      (fun t member => survives t (mem_ttCollect qsort registry t member)) (fun _ => rfl)
    rw [ran]
    refine ⟨_, rfl, rfl, ?_, ?_, rfl⟩
    · rw [List.countP_map]
      exact spec.failed.trans (Nat.zero_add _)
    · obtain ⟨lines, out, reported⟩ := spec.printed
      intro r member failing
      obtain ⟨turn, given, rfl⟩ := List.mem_map.mp member
      refine List.mem_append_left _ ?_
      rw [out]
      exact List.mem_append_right _ (reported turn given failing)

/-- An EXPECT failure followed by a SKIP. -/
def maskedTest : Test where
  suite := ['s']
  name := ['m']
  file := ['f']
  line := 1
  fn := .plain (.event (.failAssert ['e'] [] false) (.event (.skip none) .done))
  deathSignal := none

/-- A failing EXPECT alone. -/
def failingTest : Test where
  suite := ['s']
  name := ['f']
  file := ['f']
  line := 1
  fn := .plain (.event (.failAssert ['e'] [] false) .done)
  deathSignal := none

end AgencC.Harness
