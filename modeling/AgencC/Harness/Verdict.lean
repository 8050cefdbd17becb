import AgencC.Harness.Runner

/-! From the events of a test to its test point and the exit code. A skip is
looked at before a recorded failure, so a test that does both is reported as
skipped. -/

set_option autoImplicit false

namespace AgencC.Harness

def Event.isFailure : Event → Bool
  | .failAssert .. => true
  | _ => false

def Event.isSkip : Event → Bool
  | .skip _ => true
  | _ => false

def Event.isDeath : Event → Bool
  | .die _ => true
  | _ => false

/-- Whether control leaves the script at the event, with or without a landing pad. -/
def Event.leaves (jmp : Bool) : Event → Bool
  | .passAssert => false
  | .failAssert _ _ fatal => fatal && jmp
  | .skip _ => jmp
  | .die _ => true

/-- The events a script goes through, whether it is left early, and the
generator state after it. -/
def Script.reach (jmp : Bool) : Script → UInt64 → List Event × Bool × UInt64
  | .done, rng => ([], false, rng)
  | .event e next, rng =>
      if e.leaves jmp then ([e], true, rng)
      else
        let (events, left, rng) := next.reach jmp rng
        (e :: events, left, rng)
  | .rand next, rng => (next (ttRand rng).1).reach jmp (ttRand rng).2
  | .randBelow bound next, rng =>
      (next (ttRandBelow bound rng).1).reach jmp (ttRandBelow bound rng).2

/-- The events of a test and the generator state after it. A fixture's body and
teardown follow only a setup that ran to its end; the teardown has no landing pad. -/
def TestFn.reach : TestFn → UInt64 → List Event × UInt64
  | .plain body, rng =>
      let (events, _, rng) := body.reach true rng
      (events, rng)
  | .fixture setup body teardown, rng =>
      let (events, left, rng) := setup.reach true rng
      if left then (events, rng)
      else
        let (bodyEvents, _, rng) := body.reach true rng
        let (teardownEvents, _, rng) := teardown.reach false rng
        (events ++ bodyEvents ++ teardownEvents, rng)

/-- What a script leaves alone. -/
def State.counts (s : State) : Nat × Nat × Nat × Nat × List TapLine :=
  (s.testsRun, s.testsPassed, s.testsFailed, s.testsSkipped, s.out)

/-- Diagnostics only write the diagnostic buffer. -/
theorem ttDiag_eq (chunk : CString) (s : State) :
    ∃ diag, ttDiag chunk s = { s with diag } := by
  unfold ttDiag
  split
  · exact ⟨s.diag, rfl⟩
  · dsimp only
    split
    · exact ⟨_, rfl⟩
    · exact ⟨_, rfl⟩

theorem ttDetail_eq (s : State) (detail : Detail) :
    ∃ diag, ttDetail s detail = { s with diag } := by
  cases detail with
  | diag text => exact ttDiag_eq text s
  | note text =>
      cases text with
      | none => exact ⟨s.diag, rfl⟩
      | some text =>
          simp only [ttDetail, ttNote]
          obtain ⟨first, wrote⟩ := ttDiag_eq ['n', 'o', 't', 'e', ':', ' '] s
          rw [wrote]
          split
          · obtain ⟨second, wrote⟩ := ttDiag_eq (text.take (noteCap - 1)) { s with diag := first }
            rw [wrote]
            exact ttDiag_eq ['\n'] { s with diag := second }
          · exact ttDiag_eq ['\n'] { s with diag := first }

theorem details_eq (details : List Detail) (s : State) :
    ∃ diag, details.foldl ttDetail s = { s with diag } := by
  induction details generalizing s with
  | nil => exact ⟨s.diag, rfl⟩
  | cons detail rest ih =>
      obtain ⟨diag, wrote⟩ := ttDetail_eq s detail
      obtain ⟨diag', rest_wrote⟩ := ih { s with diag }
      exact ⟨diag', by rw [List.foldl_cons, wrote, rest_wrote]⟩

/-- The state after the recorded part of a failing assertion. -/
theorem failAssert_eq (location : CString) (details : List Detail) (s : State) :
    ∃ diag, details.foldl ttDetail (ttFailBegin location s) =
      { s with assertions := s.assertions + 1, currentFailed := true, diag } := by
  obtain ⟨diag, wrote⟩ := ttDiag_eq location
    { s with assertions := s.assertions + 1, currentFailed := true }
  obtain ⟨diag', rest_wrote⟩ := details_eq details
    { s with assertions := s.assertions + 1, currentFailed := true, diag }
  exact ⟨diag', by rw [ttFailBegin, wrote, rest_wrote]⟩

/-- What running a script does to the two verdict flags, and how it ends. -/
structure RunSpec (events : List Event) (left : Bool) (rng : UInt64) (s s' : State)
    (exit : Exit) : Prop where
  failed : s'.currentFailed = (s.currentFailed || events.any Event.isFailure)
  skipped : s'.skippedCurrent = (s.skippedCurrent || events.any Event.isSkip)
  haveJmp : s'.haveJmp = s.haveJmp
  rng : s'.rng = rng
  exit : exit = if left then .jumped else .returned
  counts : s'.counts = s.counts

/-- One survived event: what it records and what it keeps. -/
structure EventStep (e : Event) (s s' : State) : Prop where
  failed : s'.currentFailed = (s.currentFailed || e.isFailure)
  skipped : s'.skippedCurrent = (s.skippedCurrent || e.isSkip)
  haveJmp : s'.haveJmp = s.haveJmp
  rng : s'.rng = s.rng
  counts : s'.counts = s.counts

theorem RunSpec.leave {e : Event} {s s' : State} (step : EventStep e s s') :
    RunSpec [e] true s.rng s s' .jumped where
  failed := by rw [step.failed]; simp
  skipped := by rw [step.skipped]; simp
  haveJmp := step.haveJmp
  rng := step.rng
  exit := rfl
  counts := step.counts

theorem RunSpec.cons {e : Event} {events : List Event} {left : Bool} {rng : UInt64}
    {s s' s'' : State} {exit : Exit} (step : EventStep e s s')
    (rest : RunSpec events left rng s' s'' exit) :
    RunSpec (e :: events) left rng s s'' exit where
  failed := by rw [rest.failed, step.failed, List.any_cons, Bool.or_assoc]
  skipped := by rw [rest.skipped, step.skipped, List.any_cons, Bool.or_assoc]
  haveJmp := rest.haveJmp.trans step.haveJmp
  rng := rest.rng
  exit := rest.exit
  counts := rest.counts.trans step.counts

theorem Script.run_event (e : Event) (next : Script) (s : State) (survives : e.isDeath = false) :
    ∃ s', EventStep e s s' ∧
      (Script.event e next).run s =
        if e.leaves s.haveJmp then (s', .jumped) else next.run s' := by
  cases e with
  | passAssert =>
      exact ⟨ttPassAssert s, ⟨by simp [Event.isFailure, ttPassAssert],
        by simp [Event.isSkip, ttPassAssert], rfl, rfl, rfl⟩, rfl⟩
  | failAssert location details fatal =>
      obtain ⟨diag, recorded⟩ := failAssert_eq location details s
      have ran : (Script.event (.failAssert location details fatal) next).run s =
          if (fatal && s.haveJmp) = true then
            ({ s with assertions := s.assertions + 1, currentFailed := true, diag }, .jumped)
          else next.run { s with assertions := s.assertions + 1, currentFailed := true, diag } := by
        simp only [run, recorded]
      exact ⟨{ s with assertions := s.assertions + 1, currentFailed := true, diag },
        ⟨by simp [Event.isFailure], by simp [Event.isSkip], rfl, rfl, rfl⟩,
        ran⟩
  | skip reason =>
      exact ⟨{ s with skippedCurrent := true, skipReason := reason },
        ⟨by simp [Event.isFailure], by simp [Event.isSkip], rfl, rfl, rfl⟩,
        rfl⟩
  | die status => cases survives

theorem Script.run_spec (script : Script) (s : State)
    (survives : ∀ e ∈ (script.reach s.haveJmp s.rng).1, e.isDeath = false) :
    RunSpec (script.reach s.haveJmp s.rng).1 (script.reach s.haveJmp s.rng).2.1
      (script.reach s.haveJmp s.rng).2.2 s (script.run s).1 (script.run s).2 := by
  induction script generalizing s with
  | done => exact ⟨by simp [reach, run], by simp [reach, run], rfl, rfl, rfl, rfl⟩
  | event e next ih =>
      have alive : e.isDeath = false := by
        refine survives e ?_
        simp only [reach]
        split <;> simp
      obtain ⟨s', step, ran⟩ := Script.run_event e next s alive
      simp only [reach, ran] at survives ⊢
      by_cases leaves : e.leaves s.haveJmp = true
      · simp only [if_pos leaves]
        exact .leave step
      · simp only [if_neg leaves] at survives ⊢
        have inner := ih s'
        rw [step.haveJmp, step.rng] at inner
        exact .cons step (inner fun e member => survives e (.tail _ member))
  | rand next ih =>
      simp only [reach, run] at survives ⊢
      have inner := ih (ttRand s.rng).1
        (s.drew (.rand (ttRand s.rng).1) (ttRand s.rng).2) survives
      exact ⟨inner.failed, inner.skipped, inner.haveJmp, inner.rng, inner.exit, inner.counts⟩
  | randBelow bound next ih =>
      simp only [reach, run] at survives ⊢
      have inner := ih (ttRandBelow bound s.rng).1
        (s.drew (.below bound (ttRandBelow bound s.rng).1) (ttRandBelow bound s.rng).2) survives
      exact ⟨inner.failed, inner.skipped, inner.haveJmp, inner.rng, inner.exit, inner.counts⟩

theorem Script.reach_noJump (script : Script) (rng : UInt64)
    (survives : ∀ e ∈ (script.reach false rng).1, e.isDeath = false) :
    (script.reach false rng).2.1 = false := by
  induction script generalizing rng with
  | done => rfl
  | event e next ih =>
      have stays : e.leaves false = false := by
        cases e with
        | die status =>
            have dead := survives (.die status) (by simp [reach, Event.leaves])
            cases dead
        | passAssert | skip => rfl
        | failAssert location details fatal => exact Bool.and_false fatal
      simp only [reach, stays, Bool.false_eq_true, if_false] at survives ⊢
      exact ih rng fun e member => survives e (.tail _ member)
  | rand next ih => exact ih _ _ survives
  | randBelow bound next ih => exact ih _ _ survives

/-- `run_spec` with the reached events, the way out and the generator state named. -/
theorem Script.run_of_reach {script : Script} {s : State} {jmp : Bool} {start : UInt64}
    {events : List Event} {left : Bool} {rng : UInt64} (pad : s.haveJmp = jmp)
    (drawn : s.rng = start) (reaches : script.reach jmp start = (events, left, rng))
    (survives : ∀ e ∈ events, e.isDeath = false) :
    ∃ s', script.run s = (s', if left then .jumped else .returned) ∧
      RunSpec events left rng s s' (if left then .jumped else .returned) := by
  subst pad drawn
  have ran := script.run_spec s
  rw [reaches] at ran
  have spec := ran survives
  exact ⟨(script.run s).1, Prod.ext rfl spec.exit, spec.exit ▸ spec⟩

theorem TestFn.run_spec (fn : TestFn) (s : State)
    (survives : ∀ e ∈ (fn.reach s.rng).1, e.isDeath = false) :
    ∃ s', fn.run s = (s', .returned) ∧
      s'.currentFailed = (s.currentFailed || (fn.reach s.rng).1.any Event.isFailure) ∧
      s'.skippedCurrent = (s.skippedCurrent || (fn.reach s.rng).1.any Event.isSkip) ∧
      s'.rng = (fn.reach s.rng).2 ∧ s'.counts = s.counts := by
  cases fn with
  | plain body =>
      simp only [reach] at survives ⊢
      rcases reaches : body.reach true s.rng with ⟨events, left, rng⟩
      rw [reaches] at survives
      obtain ⟨s', ran, spec⟩ :=
        Script.run_of_reach (s := { s with haveJmp := true }) rfl rfl reaches survives
      refine ⟨{ s' with haveJmp := false }, ?_, spec.failed, spec.skipped, spec.rng, spec.counts⟩
      cases left with
      | false => simp only [run, ran, Bool.false_eq_true, if_false]
      | true => simp only [run, ran, if_true]
  | fixture setup body teardown =>
      simp only [reach] at survives ⊢
      rcases reachSetup : setup.reach true s.rng with ⟨setupEvents, left, rng⟩
      simp only [reachSetup] at survives ⊢
      cases left with
      | true =>
          obtain ⟨s', ran, spec⟩ :=
            Script.run_of_reach (s := { s with haveJmp := true }) rfl rfl reachSetup survives
          exact ⟨{ s' with haveJmp := false }, by simp only [run, ran, if_true], spec.failed,
            spec.skipped, spec.rng, spec.counts⟩
      | false =>
          rcases reachBody : body.reach true rng with ⟨bodyEvents, bodyLeft, bodyRng⟩
          rcases reachTeardown : teardown.reach false bodyRng with
            ⟨teardownEvents, teardownLeft, finalRng⟩
          simp only [reachBody, reachTeardown, Bool.false_eq_true, if_false,
            List.forall_mem_append] at survives ⊢
          obtain ⟨⟨setupAlive, bodyAlive⟩, teardownAlive⟩ := survives
          obtain ⟨s₁, setupRan, first⟩ :=
            Script.run_of_reach (s := { s with haveJmp := true }) rfl rfl reachSetup setupAlive
          obtain ⟨s₂, bodyRan, second⟩ :=
            Script.run_of_reach (s := s₁) first.haveJmp first.rng reachBody bodyAlive
          obtain ⟨s₃, teardownRan, third⟩ :=
            Script.run_of_reach (s := { s₂ with haveJmp := false }) rfl second.rng reachTeardown
              teardownAlive
          -- Without a landing pad only a death leaves a script early.
          have stays : teardownLeft = false := by
            have kept := teardown.reach_noJump bodyRng
            rw [reachTeardown] at kept
            exact kept teardownAlive
          refine ⟨s₃, ?_, ?_, ?_, third.rng,
            third.counts.trans (second.counts.trans first.counts)⟩
          · simp only [Bool.false_eq_true, if_false] at setupRan
            simp only [stays, Bool.false_eq_true, if_false] at teardownRan
            cases bodyLeft with
            | false =>
                simp only [Bool.false_eq_true, if_false] at bodyRan
                simp only [run, setupRan, bodyRan, teardownRan]
            | true =>
                simp only [if_true] at bodyRan
                simp only [run, setupRan, bodyRan, teardownRan]
          · simp only [third.failed, second.failed, first.failed, List.any_append, Bool.or_assoc]
          · simp only [third.skipped, second.skipped, first.skipped, List.any_append,
              Bool.or_assoc]

/-- A test that is no death test and ends without a crash or an exit. -/
def Test.Survives (t : Test) : Prop :=
  t.deathSignal = none ∧ ∀ rng, ∀ e ∈ (t.fn.reach rng).1, e.isDeath = false

/-- Some assertion of the test failed. -/
def Turn.fails (turn : Turn) : Bool := (turn.test.fn.reach turn.rng).1.any Event.isFailure

def Turn.skips (turn : Turn) : Bool := (turn.test.fn.reach turn.rng).1.any Event.isSkip

/-- Under `--isolate` a test is executed only when its process could be forked. -/
def Turn.executed (host : Host) (config : Config) (turn : Turn) : Bool :=
  !config.isolate || host.forks turn.number

/-- What `tt_exec_body` makes of the flags: the skip is looked at first. -/
def Turn.result (turn : Turn) : Result :=
  if turn.skips then .skip else if turn.fails then .fail else .pass

def Result.verdict : Result → Verdict
  | .pass => .ok
  | .fail => .notOk
  | .skip => .skip

def Turn.verdict (host : Host) (config : Config) (turn : Turn) : Verdict :=
  if turn.executed host config then turn.result.verdict else .notOk

/-- An isolated test draws from its own copy of the generator. -/
def Turn.rngAfter (config : Config) (turn : Turn) : UInt64 :=
  if config.isolate then turn.rng else (turn.test.fn.reach turn.rng).2

theorem ttExecBody_state (t : Test) (s : State) : (ttExecBody t s).1 = (t.fn.run s.forTest).1 := by
  simp only [ttExecBody]
  split
  · rename_i ended
    rw [ended]
  · rename_i ended
    rw [ended]
    split
    · rfl
    · split <;> rfl

theorem ttExecBody_spec (turn : Turn) (s : State) (survives : turn.test.Survives)
    (start : s.rng = turn.rng) :
    ∃ s', ttExecBody turn.test s = (s', .ok turn.result) ∧
      s'.rng = (turn.test.fn.reach turn.rng).2 ∧ s'.counts = s.counts := by
  have alive := survives.2 s.rng
  obtain ⟨s', ran, failed, skipped, rng, counts⟩ := turn.test.fn.run_spec s.forTest alive
  have failed : s'.currentFailed = turn.fails := by
    rw [failed, Turn.fails, ← start]
    exact Bool.false_or _
  have skipped : s'.skippedCurrent = turn.skips := by
    rw [skipped, Turn.skips, ← start]
    exact Bool.false_or _
  refine ⟨s', ?_, by rw [← start]; exact rng, counts⟩
  simp only [ttExecBody, ran, failed, skipped, Turn.result]
  split
  · rfl
  · split <;> rfl

end AgencC.Harness
