import AgencC.Harness.Tap

/-! A run with `--isolate` reports what the run without it reports, where the tests are fixed
scripts and every fork succeeds. -/

set_option autoImplicit false

namespace AgencC.Harness

/-! Fixed scripts. -/

/-- Nothing is drawn, and nothing takes the process down. -/
def Script.Fixed : Script → Prop
  | .done => True
  | .event (.die _) _ => False
  | .event _ next => next.Fixed
  | .rand _ | .randBelow _ _ => False

def TestFn.Fixed : TestFn → Prop
  | .plain body => body.Fixed
  | .fixture setup body teardown => setup.Fixed ∧ body.Fixed ∧ teardown.Fixed

/-- A plain or a fixture test whose functions are fixed scripts. -/
structure Test.Fixed (t : Test) : Prop where
  noDeath : t.deathSignal = none
  fn : t.fn.Fixed

theorem Script.Fixed.reach {script : Script} (fixed : script.Fixed) (jmp : Bool) (rng : UInt64) :
    (∀ e ∈ (script.reach jmp rng).1, e.isDeath = false) ∧ (script.reach jmp rng).2.2 = rng := by
  induction script with
  | done => exact ⟨List.forall_mem_nil _, rfl⟩
  | event e next ih =>
      have parts : e.isDeath = false ∧ next.Fixed := by
        cases e with
        | die status => exact fixed.elim
        | passAssert | failAssert location details fatal | skip reason => exact ⟨rfl, fixed⟩
      rw [Script.reach]
      split
      · exact ⟨List.forall_mem_singleton.mpr parts.1, rfl⟩
      · exact ⟨List.forall_mem_cons.mpr ⟨parts.1, (ih parts.2).1⟩, (ih parts.2).2⟩
  | rand next ih | randBelow bound next ih => exact fixed.elim

theorem TestFn.Fixed.reach {fn : TestFn} (fixed : fn.Fixed) (rng : UInt64) :
    (∀ e ∈ (fn.reach rng).1, e.isDeath = false) ∧ (fn.reach rng).2 = rng := by
  cases fn with
  | plain body => exact Script.Fixed.reach fixed true rng
  | fixture setup body teardown =>
      obtain ⟨setupFixed, bodyFixed, teardownFixed⟩ := fixed
      obtain ⟨first, start⟩ := setupFixed.reach true rng
      obtain ⟨second, middle⟩ := bodyFixed.reach true rng
      obtain ⟨third, last⟩ := teardownFixed.reach false rng
      simp only [TestFn.reach]
      rcases reached : setup.reach true rng with ⟨events, left, after⟩
      rw [reached] at first start
      dsimp only at start
      subst start
      cases left with
      | true => exact ⟨first, rfl⟩
      | false =>
          rcases reachedBody : body.reach true after with ⟨bodyEvents, bodyLeft, bodyAfter⟩
          rw [reachedBody] at second middle
          dsimp only at middle
          subst middle
          refine ⟨?_, last⟩
          exact List.forall_mem_append.mpr ⟨List.forall_mem_append.mpr ⟨first, second⟩, third⟩

theorem Test.Fixed.survives {t : Test} (fixed : t.Fixed) : t.Survives :=
  ⟨fixed.noDeath, fun rng => (fixed.fn.reach rng).1⟩

/-! What the two streams have in common. -/

/-- A line without what only one of the modes prints: the details of a failure, the reason of a
skip and the count of assertions. -/
def TapLine.gist : TapLine → Option TapLine
  | .okSkip n test _ => some (.okSkip n test [])
  | .summary passed failed skipped _ => some (.summary passed failed skipped 0)
  | .diag _ | .crashed _ | .expectedSignal _ _ => none
  | line => some line

def gists (out : List TapLine) : List TapLine := out.filterMap TapLine.gist

theorem gists_append (out lines : List TapLine) : gists (out ++ lines) = gists out ++ gists lines :=
  List.filterMap_append

theorem gists_flushDiag (s : State) : gists (ttFlushDiag s) = [] := by
  rw [gists, ttFlushDiag, List.filterMap_map]
  exact List.filterMap_eq_nil_iff.mpr fun line _ => rfl

/-- What a run has reported so far, but for what only one of the modes prints. -/
structure Digest where
  run : Nat
  passed : Nat
  failed : Nat
  skipped : Nat
  lines : List TapLine
  deriving DecidableEq, Repr

def State.digest (s : State) : Digest where
  run := s.testsRun
  passed := s.testsPassed
  failed := s.testsFailed
  skipped := s.testsSkipped
  lines := gists s.out

/-- After the test point of one more test. -/
def Digest.point (n : Nat) (t : Test) (d : Digest) : Result → Digest
  | .pass => { d with run := d.run + 1, passed := d.passed + 1, lines := d.lines ++ [.ok n t.key] }
  | .fail => { d with run := d.run + 1, failed := d.failed + 1, lines := d.lines ++ [.notOk n t.key] }
  | .skip =>
      { d with run := d.run + 1, skipped := d.skipped + 1, lines := d.lines ++ [.okSkip n t.key []] }

theorem State.digest_print (s : State) (lines : List TapLine) :
    (s.print lines).digest = { s.digest with lines := s.digest.lines ++ gists lines } := by
  rw [digest, print, gists_append]
  rfl

/-! One test in both modes. -/

section
variable (turn : Turn) (s : State)

theorem runInProcess_digest (fixed : turn.test.Fixed) (start : s.rng = turn.rng) :
    ∃ after, runInProcess turn.test turn.number s = .ok (after, turn.result.verdict) ∧
      after.rng = s.rng ∧ after.digest = s.digest.point turn.number turn.test turn.result := by
  obtain ⟨s', ran, rng, counts⟩ := ttExecBody_spec turn s fixed.survives start
  have rng : s'.rng = s.rng := by
    rw [rng, (fixed.fn.reach turn.rng).2, start]
  have same : s'.digest = s.digest := by
    simp only [State.counts, Prod.mk.injEq] at counts
    obtain ⟨run, passed, failed, skipped, out⟩ := counts
    simp only [State.digest, run, passed, failed, skipped, out]
  simp only [runInProcess, ran]
  rw [← same]
  cases turn.result with
  | pass | skip =>
      refine ⟨_, rfl, rng, ?_⟩
      rw [State.digest_print]
      rfl
  | fail =>
      refine ⟨_, rfl, rng, ?_⟩
      rw [State.digest_print]
      change Digest.mk _ _ _ _ (_ ++ (.notOk turn.number turn.test.key :: gists (ttFlushDiag _))) = _
      rw [gists_flushDiag]
      rfl

theorem ttExecForked_gists (host : Host) (n : Nat) (t : Test) (s : State) :
    gists (ttExecForked host n t s).lines = [] := by
  simp only [ttExecForked]
  split
  · split
    · split
      · exact gists_flushDiag _
      · rfl
    · rfl
    · rfl
  · rfl

theorem runIsolated_digest (host : Host) (fixed : turn.test.Fixed) (start : s.rng = turn.rng)
    (forks : host.forks turn.number = true) :
    ∃ after, runIsolated host turn.test turn.number s = (after, turn.result.verdict) ∧
      after.rng = s.rng ∧ after.digest = s.digest.point turn.number turn.test turn.result := by
  obtain ⟨code, alive⟩ := ttExecForked_spec host turn s fixed.survives start forks
  have quiet := ttExecForked_gists host turn.number turn.test s
  simp only [runIsolated, code, alive, ne_eq, not_true_eq_false, if_false]
  cases turn.result with
  | pass | skip | fail =>
      refine ⟨_, rfl, rfl, ?_⟩
      rw [State.digest_print]
      change Digest.mk _ _ _ _ (gists (s.out ++ _) ++ _) = _
      rw [gists_append, quiet, List.append_nil]
      rfl

end

/-! The run. -/

/-- The verdict is that of the test on its own, whatever ran before it. -/
def Record.Alone (r : Record) : Prop := ∃ alone, r.outcome = .ok alone ∧ r.verdict = alone.verdict

/-- The loop gives the same turns in both modes, and makes the same of them. -/
theorem ttRunList_isolate {host : Host} (forks : ∀ n, host.forks n = true) {config : Config}
    (shared : config.isolate = false) {list : List Test} (fixed : ∀ t ∈ list, t.Fixed) {n : Nat}
    {s s' : State} (rng : s.rng = s'.rng) (same : s.digest = s'.digest) :
    ∃ m after after' records, ttRunList host config list n s = .ok (m, after, records) ∧
      ttRunList host { config with isolate := true } list n s' = .ok (m, after', records) ∧
      after.digest = after'.digest ∧ ∀ r ∈ records, r.Alone := by
  induction list generalizing n s s' with
  | nil => exact ⟨n, s, s', [], rfl, rfl, same, List.forall_mem_nil _⟩
  | cons t rest ih =>
      have later : ∀ t ∈ rest, t.Fixed := fun t member => fixed t (.tail _ member)
      have same_filter : ttSelected { config with isolate := true } t = ttSelected config t := rfl
      simp only [ttRunList, same_filter]
      by_cases selected : ttSelected config t = true
      · simp only [if_pos selected]
        let turn : Turn := { test := t, number := n + 1, rng := s.rng }
        have fixedTest : turn.test.Fixed := fixed t (.head _)
        obtain ⟨after, ran, kept, digest⟩ := runInProcess_digest turn s fixedTest rfl
        obtain ⟨after', ran', kept', digest'⟩ :=
          runIsolated_digest turn s' host fixedTest rng.symm (forks _)
        have one : ttRunOne host config t (n + 1) s = .ok (after, turn.result.verdict) := by
          simp only [ttRunOne, (fixed t (.head _)).noDeath, shared, Bool.false_eq_true, if_false]
          exact ran
        have one' : ttRunOne host { config with isolate := true } t (n + 1) s' =
            .ok (after', turn.result.verdict) := by
          simp only [ttRunOne, (fixed t (.head _)).noDeath, if_true]
          exact congrArg Except.ok ran'
        have agree : after.digest = after'.digest := by rw [digest, digest', same]
        have failed : after.testsFailed = after'.testsFailed := congrArg Digest.failed agree
        have alone : Record.Alone { turn with verdict := turn.result.verdict } := by
          obtain ⟨child, ended, _⟩ := ttExecBody_spec turn turn.start fixedTest.survives rfl
          exact ⟨turn.result, congrArg Prod.snd ended, rfl⟩
        simp only [one, one', bind, Except.bind, failed, ← rng]
        by_cases stop : config.failFast = true ∧ 0 < after'.testsFailed
        · simp only [if_pos stop]
          refine ⟨_, _, _, _, rfl, rfl, ?_, List.forall_mem_singleton.mpr alone⟩
          rw [State.digest_print, State.digest_print, agree]
        · simp only [if_neg stop]
          obtain ⟨m, last, last', records, more, more', ends, others⟩ :=
            ih later (kept.trans (rng.trans kept'.symm)) agree (n := n + 1)
          simp only [more, more']
          exact ⟨m, last, last', _, rfl, rfl, ends, List.forall_mem_cons.mpr ⟨alone, others⟩⟩
      · simp only [if_neg selected]
        exact ih later rng same

/-- `--isolate` may stand anywhere among the arguments. -/
theorem ttParseArgs_isolate (host : Host) (before after : List CString) :
    ttParseArgs host (before ++ optIsolate :: after) =
      { ttParseArgs host (before ++ after) with isolate := true } := by
  have sets (config : Config) :
      ttParseArg host config optIsolate = { config with isolate := true } := rfl
  have passes (config : Config) (a : CString) :
      ttParseArg host { config with isolate := true } a =
        { ttParseArg host config a with isolate := true } := by
    simp only [ttParseArg]
    repeat' split
    all_goals rfl
  rw [ttParseArgs, ttParseArgs, List.foldl_append, List.foldl_append, List.foldl_cons, sets]
  generalize before.foldl (ttParseArg host) {} = config
  induction after generalizing config with
  | nil => rfl
  | cons a after ih => rw [List.foldl_cons, List.foldl_cons, passes, ih]

/-- The two runs report the same test points, counts and exit code, and end at the same one. -/
structure RunResult.ReportsAs (result isolated : RunResult) : Prop where
  stream : gists result.state.out = gists isolated.state.out
  run : result.state.testsRun = isolated.state.testsRun
  passed : result.state.testsPassed = isolated.state.testsPassed
  failed : result.state.testsFailed = isolated.state.testsFailed
  skipped : result.state.testsSkipped = isolated.state.testsSkipped
  exitCode : result.exitCode = isolated.exitCode
  records : result.records = isolated.records
  xml : result.xml = isolated.xml

theorem RunResult.ReportsAs.refl (result : RunResult) : result.ReportsAs result :=
  ⟨rfl, rfl, rfl, rfl, rfl, rfl, rfl, rfl⟩

/-- A fixture test whose body and teardown fail. -/
def scriptedTest : Test where
  suite := ['s']
  name := ['t']
  file := ['f']
  line := 2
  fn := .fixture (.event .passAssert .done) (.event (.failAssert ['e'] [] true) .done)
    (.event (.failAssert ['e'] [] true) .done)
  deathSignal := none

end AgencC.Harness
