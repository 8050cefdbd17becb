import AgencC.Harness.Report

/-! What an execution of a test can depend on and what it leaves alone, whether
or not the test survives it, and the turns a run gives. -/

set_option autoImplicit false

namespace AgencC.Harness

/-- Diagnostics and assertions write neither the counters, the flags nor the
generator. -/
theorem failAssert_counts (location : CString) (details : List Detail) (s : State) :
    (details.foldl ttDetail (ttFailBegin location s)).counts = s.counts := by
  obtain ⟨diag, recorded⟩ := failAssert_eq location details s
  rw [recorded]
  rfl

theorem Script.run_counts (script : Script) (s : State) : (script.run s).1.counts = s.counts := by
  induction script generalizing s with
  | done => rfl
  | event e next ih =>
      cases e with
      | passAssert => exact ih _
      | failAssert location details fatal =>
          simp only [run]
          split
          · exact failAssert_counts location details s
          · exact (ih _).trans (failAssert_counts location details s)
      | skip reason =>
          simp only [run]
          split
          · rfl
          · exact ih _
      | die status => rfl
  | rand next ih => exact ih _ _
  | randBelow bound next ih => exact ih _ _

theorem TestFn.run_counts (fn : TestFn) (s : State) : (fn.run s).1.counts = s.counts := by
  cases fn with
  | plain body =>
      have ran := body.run_counts { s with haveJmp := true }
      simp only [run]
      split
      · rename_i ended; rw [ended] at ran; exact ran
      · rename_i s' _ _ ended; rw [ended] at ran; exact ran
  | fixture setup body teardown =>
      have first := setup.run_counts { s with haveJmp := true }
      simp only [run]
      split
      · rename_i ended; rw [ended] at first; exact first
      · rename_i ended; rw [ended] at first; exact first
      · rename_i s' ended
        rw [ended] at first
        have second := body.run_counts s'
        split
        · rename_i died; rw [died] at second; exact second.trans first
        · rename_i s'' _ _ left
          rw [left] at second
          exact (teardown.run_counts _).trans (second.trans first)

/-- The part of the state an execution reads, next to the landing pad. -/
structure State.Agree (s t : State) : Prop where
  rng : s.rng = t.rng
  drawn : s.drawn = t.drawn
  failed : s.currentFailed = t.currentFailed
  skipped : s.skippedCurrent = t.skippedCurrent

theorem State.Agree.drew {s t : State} (agree : s.Agree t) (draw : Draw) (rng : UInt64) :
    (s.drew draw rng).Agree (t.drew draw rng) :=
  ⟨rfl, congrArg (· ++ [draw]) agree.drawn, agree.failed, agree.skipped⟩

theorem State.Agree.failAssert {s t : State} (agree : s.Agree t) (location : CString)
    (details : List Detail) :
    (details.foldl ttDetail (ttFailBegin location s)).Agree
      (details.foldl ttDetail (ttFailBegin location t)) := by
  obtain ⟨diag, recorded⟩ := failAssert_eq location details s
  obtain ⟨diag', recorded'⟩ := failAssert_eq location details t
  rw [recorded, recorded']
  exact ⟨agree.rng, agree.drawn, rfl, agree.skipped⟩

theorem failAssert_haveJmp (location : CString) (details : List Detail) (s : State) :
    (details.foldl ttDetail (ttFailBegin location s)).haveJmp = s.haveJmp := by
  obtain ⟨diag, recorded⟩ := failAssert_eq location details s
  rw [recorded]

/-- Two executions that end alike. -/
structure EndsAlike (one other : State × Exit) : Prop where
  exit : one.2 = other.2
  agree : one.1.Agree other.1
  pad : one.1.haveJmp = other.1.haveJmp

theorem Script.run_agree (script : Script) {s t : State} (agree : s.Agree t)
    (pad : s.haveJmp = t.haveJmp) : EndsAlike (script.run s) (script.run t) := by
  induction script generalizing s t with
  | done => exact ⟨rfl, agree, pad⟩
  | event e next ih =>
      cases e with
      | passAssert => exact ih ⟨agree.rng, agree.drawn, agree.failed, agree.skipped⟩ pad
      | failAssert location details fatal =>
          have recorded := agree.failAssert location details
          have pads := failAssert_haveJmp location details
          have padded := (pads s).trans (pad.trans (pads t).symm)
          simp only [run, padded]
          split
          · exact ⟨rfl, recorded, padded⟩
          · exact ih recorded padded
      | skip reason =>
          have flagged : State.Agree { s with skippedCurrent := true, skipReason := reason }
              { t with skippedCurrent := true, skipReason := reason } :=
            ⟨agree.rng, agree.drawn, agree.failed, rfl⟩
          cases jmp : t.haveJmp with
          | true =>
              rw [jmp] at pad
              simp only [run, pad, jmp, if_true]
              exact ⟨rfl, ⟨agree.rng, agree.drawn, agree.failed, rfl⟩, rfl⟩
          | false =>
              have rest := ih flagged pad
              rw [jmp] at pad
              simpa only [run, pad, jmp, Bool.false_eq_true, if_false] using rest
      | die status => exact ⟨rfl, agree, pad⟩
  | rand next ih =>
      simp only [run, agree.rng]
      exact ih _ (agree.drew _ _) pad
  | randBelow bound next ih =>
      simp only [run, agree.rng]
      exact ih _ (agree.drew _ _) pad

/-- `run_agree` with the two ends named. -/
theorem Script.run_agree_of {script : Script} {s t s' t' : State} {exit exit' : Exit}
    (agree : s.Agree t) (pad : s.haveJmp = t.haveJmp) (ran : script.run s = (s', exit))
    (ran' : script.run t = (t', exit')) :
    exit = exit' ∧ s'.Agree t' ∧ s'.haveJmp = t'.haveJmp := by
  obtain ⟨exits, agrees, pads⟩ := script.run_agree agree pad
  rw [ran, ran'] at exits agrees pads
  exact ⟨exits, agrees, pads⟩

/-- The wrapper sets the landing pad itself, so it need not agree before. -/
theorem TestFn.run_agree (fn : TestFn) {s t : State} (agree : s.Agree t) :
    (fn.run s).2 = (fn.run t).2 ∧ (fn.run s).1.Agree (fn.run t).1 := by
  have start : State.Agree { s with haveJmp := true } { t with haveJmp := true } :=
    ⟨agree.rng, agree.drawn, agree.failed, agree.skipped⟩
  cases fn with
  | plain body =>
      rcases ran : body.run { s with haveJmp := true } with ⟨s', exit⟩
      rcases ran' : body.run { t with haveJmp := true } with ⟨t', exit'⟩
      obtain ⟨rfl, ended, _⟩ := Script.run_agree_of start rfl ran ran'
      simp only [run, ran, ran']
      cases exit with
      | died status => exact ⟨rfl, ended⟩
      | returned | jumped =>
          exact ⟨rfl, ended.rng, ended.drawn, ended.failed, ended.skipped⟩
  | fixture setup body teardown =>
      rcases ranSetup : setup.run { s with haveJmp := true } with ⟨s₁, exit⟩
      rcases ranSetup' : setup.run { t with haveJmp := true } with ⟨t₁, exit'⟩
      obtain ⟨rfl, first, pads⟩ := Script.run_agree_of start rfl ranSetup ranSetup'
      simp only [run, ranSetup, ranSetup']
      cases exit with
      | died status => exact ⟨rfl, first⟩
      | jumped => exact ⟨rfl, first.rng, first.drawn, first.failed, first.skipped⟩
      | returned =>
          rcases ranBody : body.run s₁ with ⟨s₂, exit⟩
          rcases ranBody' : body.run t₁ with ⟨t₂, exit'⟩
          obtain ⟨rfl, second, _⟩ := Script.run_agree_of first pads ranBody ranBody'
          simp only [ranBody, ranBody']
          cases exit with
          | died status => exact ⟨rfl, second⟩
          | returned | jumped =>
              obtain ⟨exits, agrees, _⟩ := teardown.run_agree
                (s := { s₂ with haveJmp := false }) (t := { t₂ with haveJmp := false })
                ⟨second.rng, second.drawn, second.failed, second.skipped⟩ rfl
              exact ⟨exits, agrees⟩

/-- The state of a process that has only been seeded. -/
def Turn.start (turn : Turn) : State := { rng := turn.rng }

/-- How the execution of a turn ends: the test's result, or the death of its process. -/
def Turn.outcome (turn : Turn) : Except WaitStatus Result := (ttExecBody turn.test turn.start).2

/-- The values a test draws when the generator stands at `rng`. -/
def TestFn.draws (fn : TestFn) (rng : UInt64) : List Draw := (fn.run { rng }).1.drawn

def Turn.draws (turn : Turn) : List Draw := turn.test.fn.draws turn.rng

/-- Whatever ran before, an execution is that of a fresh process at the turn's
generator state. -/
theorem ttExecBody_turn (turn : Turn) (s : State) (start : s.rng = turn.rng) :
    (ttExecBody turn.test s).2 = turn.outcome ∧
      (ttExecBody turn.test s).1.drawn = turn.draws ∧
      (ttExecBody turn.test s).1.rng = (ttExecBody turn.test turn.start).1.rng ∧
      (ttExecBody turn.test s).1.counts = s.counts := by
  have fresh : State.Agree s.forTest turn.start.forTest := ⟨start, rfl, rfl, rfl⟩
  have counts := turn.test.fn.run_counts s.forTest
  obtain ⟨exits, agree⟩ := turn.test.fn.run_agree fresh
  have drawn : turn.draws = (turn.test.fn.run turn.start.forTest).1.drawn := rfl
  simp only [Turn.outcome, drawn]
  rcases ran : turn.test.fn.run s.forTest with ⟨s', exit⟩
  rcases ran' : turn.test.fn.run turn.start.forTest with ⟨t', exit'⟩
  rw [ran] at counts
  rw [ran, ran'] at exits agree
  simp only at exits agree
  subst exits
  simp only [ttExecBody, ran, ran']
  cases exit with
  | died status => exact ⟨rfl, agree.drawn, agree.rng, counts⟩
  | returned | jumped =>
      simp only [agree.failed, agree.skipped]
      split
      · exact ⟨rfl, agree.drawn, agree.rng, counts⟩
      · split
        · exact ⟨rfl, agree.drawn, agree.rng, counts⟩
        · exact ⟨rfl, agree.drawn, agree.rng, counts⟩

end AgencC.Harness
