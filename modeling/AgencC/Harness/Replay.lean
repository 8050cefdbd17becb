import AgencC.Harness.Execution
import AgencC.Library.Lcg
import Mathlib.Data.UInt

/-! Which values a test draws. The generator belongs to the run and not to the
test: a test that runs in-process starts from the state its predecessors leave,
a forked one from the seed. -/

set_option autoImplicit false

namespace AgencC.Harness

/-- The generator state after `steps` draws. -/
def advance (steps : Nat) (rng : UInt64) : UInt64 := (fun old => (ttRand old).2)^[steps] rng

theorem advance_add (m n : Nat) (rng : UInt64) :
    advance (m + n) rng = advance n (advance m rng) := by
  rw [advance, Nat.add_comm, Function.iterate_add_apply]
  rfl

section Period

open scoped UInt64.CommRing

theorem ttRand_step : (fun old => (ttRand old).2) =
    Lcg.step (1 + 4 * 1591034055961698251) (1 + 2 * 721347520444481703) := rfl

theorem uint64_wraps : (2 : UInt64) ^ (63 + 1) = 0 := by decide +kernel

theorem uint64_top : (2 : UInt64) ^ 63 ≠ 0 := by decide +kernel

theorem uint64_card : Nat.card UInt64 = 2 ^ (63 + 1) := by
  have words : UInt64 ≃ Fin (2 ^ 64) := ⟨UInt64.toFin, UInt64.ofFin, fun _ => rfl, fun _ => rfl⟩
  rw [Nat.card_congr words, Nat.card_fin]

theorem advance_eq_iff (rng : UInt64) (m n : Nat) :
    advance m rng = advance n rng ↔ m ≡ n [MOD 2 ^ 64] := by
  unfold advance
  rw [ttRand_step]
  exact Lcg.iterate_eq_iterate_iff uint64_wraps uint64_top _ _ rng m n

theorem ttRand_top : (ttRand 0).1 ≠ (ttRand (0 + 2 ^ 63)).1 := by decide +kernel

/-- The drawn values tell the states of the generator apart. -/
theorem exists_draw_ne {rng other : UInt64} (differ : rng ≠ other) :
    ∃ k, (ttRand (advance k rng)).1 ≠ (ttRand (advance k other)).1 := by
  by_contra alike
  push Not at alike
  simp only [advance, ttRand_step] at alike
  obtain ⟨n, reached⟩ := Lcg.exists_iterate_eq uint64_wraps uint64_top uint64_card
    1591034055961698251 721347520444481703 rng other
  obtain ⟨k, zero⟩ := Lcg.exists_iterate_eq uint64_wraps uint64_top uint64_card
    1591034055961698251 721347520444481703 rng 0
  apply differ
  rw [← reached]
  symm
  apply Lcg.iterate_eq_of_outputs uint64_wraps uint64_top fun old => (ttRand old).1
  · intro k
    rw [Function.iterate_add_apply, reached]
    exact alike k
  · exact ⟨k, by rw [zero]; exact ttRand_top⟩

end Period

/-- The generator steps a draw takes. -/
def Draw.steps : Draw → Nat
  | .rand _ => 1
  | .below bound _ => if bound = 0 then 0 else 1

def steps (draws : List Draw) : Nat := (draws.map Draw.steps).sum

/-- The values the generator gives from one state on, and the state they leave it in. -/
inductive Emits : UInt64 → List Draw → UInt64 → Prop where
  | none {rng : UInt64} : Emits rng [] rng
  | rand {rng ended : UInt64} {draws : List Draw} :
      Emits (ttRand rng).2 draws ended → Emits rng (.rand (ttRand rng).1 :: draws) ended
  | randBelow {rng ended : UInt64} {bound : UInt32} {draws : List Draw} :
      Emits (ttRandBelow bound rng).2 draws ended →
      Emits rng (.below bound (ttRandBelow bound rng).1 :: draws) ended

theorem Emits.append {rng mid ended : UInt64} {draws more : List Draw}
    (first : Emits rng draws mid) (second : Emits mid more ended) :
    Emits rng (draws ++ more) ended := by
  induction first with
  | none => exact second
  | rand _ ih => exact .rand (ih second)
  | randBelow _ ih => exact .randBelow (ih second)

theorem ttRandBelow_advance (bound value : UInt32) (rng : UInt64) :
    (ttRandBelow bound rng).2 = advance (Draw.below bound value).steps rng := by
  by_cases zero : bound = 0
  · simp only [ttRandBelow, Draw.steps, if_pos zero]
    rfl
  · simp only [ttRandBelow, Draw.steps, if_neg zero]
    rfl

theorem Emits.advance {rng ended : UInt64} {draws : List Draw} (emits : Emits rng draws ended) :
    ended = advance (steps draws) rng := by
  induction emits with
  | none => rfl
  | rand _ ih =>
      rw [ih, steps, steps, List.map_cons, List.sum_cons, advance_add]
      rfl
  | randBelow _ ih =>
      rw [ih, steps, steps, List.map_cons, List.sum_cons, advance_add, ← ttRandBelow_advance]

/-- The state `s'` follows `s` with some further draws, which are the generator's. -/
structure Emitted (s s' : State) : Prop where
  rest : ∃ draws, s'.drawn = s.drawn ++ draws ∧ Emits s.rng draws s'.rng

theorem Emitted.none {s s' : State} (drawn : s'.drawn = s.drawn) (rng : s'.rng = s.rng) :
    Emitted s s' :=
  ⟨[], by rw [drawn, List.append_nil], rng ▸ .none⟩

theorem Emitted.trans {s s' s'' : State} (first : Emitted s s') (second : Emitted s' s'') :
    Emitted s s'' := by
  obtain ⟨draws, drawn, emits⟩ := first.rest
  obtain ⟨more, drawn', emits'⟩ := second.rest
  exact ⟨draws ++ more, by rw [drawn', drawn, List.append_assoc], emits.append emits'⟩

theorem Emitted.rand (s : State) : Emitted s (s.drew (.rand (ttRand s.rng).1) (ttRand s.rng).2) :=
  ⟨[.rand (ttRand s.rng).1], rfl, .rand .none⟩

theorem Emitted.randBelow (s : State) (bound : UInt32) :
    Emitted s (s.drew (.below bound (ttRandBelow bound s.rng).1) (ttRandBelow bound s.rng).2) :=
  ⟨[.below bound (ttRandBelow bound s.rng).1], rfl, .randBelow .none⟩

theorem Script.run_emitted (script : Script) (s : State) : Emitted s (script.run s).1 := by
  induction script generalizing s with
  | done => exact .none rfl rfl
  | event e next ih =>
      cases e with
      | passAssert => exact ⟨(ih (ttPassAssert s)).rest⟩
      | failAssert location details fatal =>
          obtain ⟨diag, recorded⟩ := failAssert_eq location details s
          simp only [run, recorded]
          split
          · exact .none rfl rfl
          · exact ⟨(ih _).rest⟩
      | skip reason =>
          simp only [run]
          split
          · exact .none rfl rfl
          · exact ⟨(ih _).rest⟩
      | die status => exact .none rfl rfl
  | rand next ih => exact .trans (.rand s) (ih _ _)
  | randBelow bound next ih => exact .trans (.randBelow s bound) (ih _ _)

theorem Script.run_emitted_of {script : Script} {s s' : State} {exit : Exit}
    (ran : script.run s = (s', exit)) : Emitted s s' := by
  have emitted := script.run_emitted s
  rw [ran] at emitted
  exact emitted

theorem TestFn.run_emitted (fn : TestFn) (s : State) : Emitted s (fn.run s).1 := by
  have start : Emitted s { s with haveJmp := true } := .none rfl rfl
  cases fn with
  | plain body =>
      rcases ran : body.run { s with haveJmp := true } with ⟨s', exit⟩
      have first := start.trans (Script.run_emitted_of ran)
      simp only [run, ran]
      cases exit with
      | died status => exact first
      | returned | jumped => exact first.trans (.none rfl rfl)
  | fixture setup body teardown =>
      rcases ranSetup : setup.run { s with haveJmp := true } with ⟨s₁, exit⟩
      have first := start.trans (Script.run_emitted_of ranSetup)
      simp only [run, ranSetup]
      cases exit with
      | died status => exact first
      | jumped => exact first.trans (.none rfl rfl)
      | returned =>
          rcases ranBody : body.run s₁ with ⟨s₂, exit⟩
          have second := first.trans (Script.run_emitted_of ranBody)
          simp only [ranBody]
          cases exit with
          | died status => exact second
          | returned | jumped =>
              exact second.trans ⟨(teardown.run_emitted { s₂ with haveJmp := false }).rest⟩

/-- The state `s'` follows `s` with some further draws. -/
structure Draws (s s' : State) : Prop where
  rest : ∃ draws, s'.drawn = s.drawn ++ draws ∧ s'.rng = advance (steps draws) s.rng

theorem TestFn.run_draws (fn : TestFn) (s : State) : Draws s (fn.run s).1 := by
  obtain ⟨draws, drawn, emits⟩ := (fn.run_emitted s).rest
  exact ⟨draws, drawn, emits.advance⟩

/-- What a turn draws is what the generator gives from the turn's state on. -/
theorem Turn.emits (turn : Turn) :
    Emits turn.rng turn.draws (advance (steps turn.draws) turn.rng) := by
  obtain ⟨draws, drawn, emits⟩ := (turn.test.fn.run_emitted turn.start).rest
  have drew : turn.draws = draws := drawn
  have ended := emits.advance
  rw [ended, ← drew] at emits
  exact emits

/-- After a turn the generator stands as many steps on as the test drew. -/
theorem ttExecBody_rng (turn : Turn) (s : State) (start : s.rng = turn.rng) :
    (ttExecBody turn.test s).1.rng = advance (steps turn.draws) turn.rng := by
  obtain ⟨draws, drawn, rng⟩ := (turn.test.fn.run_draws turn.start.forTest).rest
  have drew : turn.draws = draws := drawn
  rw [(ttExecBody_turn turn s start).2.2.1, drew, ttExecBody_state, rng]
  rfl

/-- Whether the turn's test runs in the process of the harness. -/
def Turn.inProcess (config : Config) (turn : Turn) : Bool :=
  turn.test.deathSignal.isNone && !config.isolate

/-- The steps a turn moves the generator of the run by. -/
def Turn.steps (config : Config) (turn : Turn) : Nat :=
  if turn.inProcess config then Harness.steps turn.draws else 0

theorem ttRunOne_rng {host : Host} {config : Config} (turn : Turn) {s after : State}
    {verdict : Verdict} (start : s.rng = turn.rng)
    (ran : ttRunOne host config turn.test turn.number s = .ok (after, verdict)) :
    after.rng = advance (turn.steps config) turn.rng := by
  simp only [ttRunOne] at ran
  cases death : turn.test.deathSignal with
  | some expected =>
      simp only [death, runDeathTest] at ran
      simp only [Turn.steps, Turn.inProcess, death, Option.isNone_some, Bool.false_and]
      split at ran
      · cases ran; exact start
      · cases ran; exact start
  | none =>
      cases isolate : config.isolate with
      | true =>
          simp only [death, isolate, runIsolated, if_true] at ran
          simp only [Turn.steps, Turn.inProcess, death, isolate, Bool.not_true, Bool.and_false]
          split at ran
          · cases ran; exact start
          · split at ran
            · cases ran; exact start
            · split at ran
              · cases ran; exact start
              · cases ran; exact start
      | false =>
          have moved := ttExecBody_rng turn s start
          simp only [death, isolate, runInProcess, Bool.false_eq_true, if_false] at ran
          simp only [Turn.steps, Turn.inProcess, death, isolate, Option.isNone_none,
            Bool.not_false, Bool.and_self, if_true]
          rcases ended : ttExecBody turn.test s with ⟨s', outcome⟩
          rw [ended] at moved
          cases outcome with
          | error status =>
              simp only [ended] at ran
              cases ran
          | ok result =>
              simp only [ended] at ran
              cases result with
              | pass | fail | skip =>
                  cases ran
                  exact moved

/-- The turns the loop of `tt_run_all` gives. A test that takes the harness down
has the last one. -/
def givenTurns (host : Host) (config : Config) : List Test → Nat → State → List Turn
  | [], _, _ => []
  | t :: rest, n, s =>
      if ttSelected config t then
        { test := t, number := n + 1, rng := s.rng } ::
          match ttRunOne host config t (n + 1) s with
          | .error _ => []
          | .ok (after, _) =>
              if config.failFast ∧ 0 < after.testsFailed then []
              else givenTurns host config rest (n + 1) after
      else givenTurns host config rest n s

/-- A run that comes to its end has recorded the turns it gave. -/
theorem ttRunList_given {host : Host} {config : Config} {list : List Test} {n m : Nat}
    {s s' : State} {records : List Record}
    (ran : ttRunList host config list n s = .ok (m, s', records)) :
    records.map Record.toTurn = givenTurns host config list n s := by
  replace ran := ttRunList_ran ran
  induction ran with
  | done => rfl
  | passed unselected _ ih => rw [givenTurns, if_neg unselected, ih]
  | stopped selected one stop =>
      simp only [givenTurns, if_pos selected, one, if_pos stop]
      rfl
  | next selected one goes _ ih =>
      simp only [givenTurns, if_pos selected, one, if_neg goes, List.map_cons, ih]

theorem givenTurns_rng {host : Host} {config : Config} {list : List Test} {n : Nat} {s : State}
    {before after : List Turn} {turn : Turn}
    (given : givenTurns host config list n s = before ++ turn :: after) :
    turn.rng = advance (before.map (Turn.steps config)).sum s.rng := by
  induction list generalizing n s before with
  | nil =>
      simp only [givenTurns] at given
      cases before with
      | nil => cases given
      | cons first others => cases given
  | cons t rest ih =>
      simp only [givenTurns] at given
      split at given
      · cases before with
        | nil =>
            cases given
            rfl
        | cons first others =>
            rw [List.cons_append, List.cons.injEq] at given
            obtain ⟨rfl, given⟩ := given
            split at given
            · cases others with
              | nil => cases given
              | cons => cases given
            · rename_i next verdict one
              split at given
              · cases others with
                | nil => cases given
                | cons => cases given
              · have start := ttRunOne_rng
                  { test := t, number := n + 1, rng := s.rng } rfl one
                rw [ih given, start, List.map_cons, List.sum_cons, advance_add]
      · exact ih given

/-- The turns of a run, in order. -/
def runTurns (host : Host) (qsort : Qsort) (argv : List CString) (registry : Registry) :
    List Turn :=
  let config := ttParseArgs host argv
  if config.listOnly then []
  else
    givenTurns host config (ttCollect qsort registry) 0
      (State.print { rng := config.seed } [.version, .seed config.seed])

/-- The steps the generator of the run has made when the turn after `before` begins. -/
def stepsBefore (config : Config) (before : List Turn) : Nat :=
  (before.map (Turn.steps config)).sum

theorem runTurns_rng {host : Host} {qsort : Qsort} {argv : List CString} {registry : Registry}
    {before after : List Turn} {turn : Turn}
    (given : runTurns host qsort argv registry = before ++ turn :: after) :
    turn.rng = advance (stepsBefore (ttParseArgs host argv) before)
      (ttParseArgs host argv).seed := by
  simp only [runTurns] at given
  split at given
  · cases before with
    | nil => cases given
    | cons first others => cases given
  · exact givenTurns_rng given

/-- A body that draws `count` times. -/
def drawing : Nat → Script
  | 0 => .done
  | count + 1 => .rand fun _ => drawing count

theorem drawing_run (count : Nat) (s : State) :
    ((drawing count).run s).1.drawn =
      s.drawn ++ (List.range count).map fun k => .rand (ttRand (advance k s.rng)).1 := by
  induction count generalizing s with
  | zero => exact (List.append_nil _).symm
  | succ count ih =>
      rw [List.range_succ_eq_map, List.map_cons, List.map_map]
      simp only [drawing, Script.run]
      rw [ih, State.drew, List.append_assoc]
      rfl

theorem drawing_draws (count : Nat) (rng : UInt64) :
    (TestFn.plain (drawing count)).draws rng =
      (List.range count).map fun k => .rand (ttRand (advance k rng)).1 := by
  have drawn := drawing_run count { rng, haveJmp := true }
  simp only [TestFn.draws, TestFn.run]
  split
  · rename_i ended; rw [ended] at drawn; exact drawn
  · rename_i ended; rw [ended] at drawn; exact drawn

/-- Every test draws the same values from two generator states only if they are equal. -/
theorem draws_eq_iff (rng other : UInt64) :
    (∀ fn : TestFn, fn.draws rng = fn.draws other) ↔ rng = other := by
  constructor
  · intro alike
    by_contra differ
    obtain ⟨k, apart⟩ := exists_draw_ne differ
    have same := alike (.plain (drawing (k + 1)))
    rw [drawing_draws, drawing_draws, List.map_inj_left] at same
    exact apart (Draw.rand.inj (same k (List.mem_range.mpr (Nat.lt_succ_self k))))
  · intro same fn
    rw [same]

/-- In two runs with one seed, a test draws the same values at both turns, whatever
its body, exactly when the tests executed in-process before it moved the
generator equally far. -/
theorem draws_replay_iff (host host' : Host) (qsort : Qsort) (argv argv' : List CString)
    (registry : Registry) (before before' after after' : List Turn) (turn turn' : Turn)
    (seed : (ttParseArgs host argv).seed = (ttParseArgs host' argv').seed)
    (given : runTurns host qsort argv registry = before ++ turn :: after)
    (given' : runTurns host' qsort argv' registry = before' ++ turn' :: after')
    (test : turn.test = turn'.test) :
    ((∀ fn : TestFn, fn.draws turn.rng = fn.draws turn'.rng) ↔
      stepsBefore (ttParseArgs host argv) before ≡
        stepsBefore (ttParseArgs host' argv') before' [MOD 2 ^ 64]) ∧
    (stepsBefore (ttParseArgs host argv) before ≡
        stepsBefore (ttParseArgs host' argv') before' [MOD 2 ^ 64] →
      turn.draws = turn'.draws) := by
  have states : (∀ fn : TestFn, fn.draws turn.rng = fn.draws turn'.rng) ↔
      stepsBefore (ttParseArgs host argv) before ≡
        stepsBefore (ttParseArgs host' argv') before' [MOD 2 ^ 64] := by
    rw [draws_eq_iff, runTurns_rng given, runTurns_rng given', seed, advance_eq_iff]
  refine ⟨states, fun level => ?_⟩
  rw [Turn.draws, Turn.draws, test]
  exact states.mpr level turn'.test.fn

/-- A test that draws once, alone in its line. -/
def drawingTest (name : Char) (line : Nat) : Test where
  suite := ['s']
  name := [name]
  file := ['f']
  line := line
  fn := .plain (drawing 1)
  deathSignal := none

def drawingRegistry : Registry := ⟨[drawingTest 'a' 1, drawingTest 'b' 2], []⟩

theorem drawingRegistry_collect :
    ttCollect .merge drawingRegistry = [drawingTest 'a' 1, drawingTest 'b' 2] := by
  apply List.mergeSort_of_pairwise
  decide

/-- The second test draws one value in the full run and another when it is rerun
alone, with the seed unchanged. -/
theorem draws_differ_under_filter :
    ∃ turn other turn' : Turn,
      runTurns { strtoull := fun _ => 0 } .merge [] drawingRegistry = [other, turn] ∧
      runTurns { strtoull := fun _ => 0 } .merge [optFilter ++ ['b']] drawingRegistry = [turn'] ∧
      turn.test = turn'.test ∧ turn.draws ≠ turn'.draws := by
  refine ⟨⟨drawingTest 'b' 2, 2, advance 1 0x9e3779b97f4a7c15⟩,
    ⟨drawingTest 'a' 1, 1, 0x9e3779b97f4a7c15⟩, ⟨drawingTest 'b' 2, 1, 0x9e3779b97f4a7c15⟩,
    ?_, ?_, rfl, by decide +kernel⟩
  · simp only [runTurns, drawingRegistry_collect]
    rfl
  · simp only [runTurns, drawingRegistry_collect]
    rfl

/-- Under `--isolate` the second test draws what it draws alone. -/
theorem draws_replay_isolated :
    ∃ turn other turn' : Turn,
      runTurns { strtoull := fun _ => 0 } .merge [optIsolate] drawingRegistry = [other, turn] ∧
      runTurns { strtoull := fun _ => 0 } .merge [optFilter ++ ['b']] drawingRegistry = [turn'] ∧
      turn.draws = turn'.draws := by
  have isolated : runTurns { strtoull := fun _ => 0 } .merge [optIsolate] drawingRegistry =
      [⟨drawingTest 'a' 1, 1, 0x9e3779b97f4a7c15⟩, ⟨drawingTest 'b' 2, 2, 0x9e3779b97f4a7c15⟩] := by
    simp only [runTurns, drawingRegistry_collect]
    rfl
  have alone : runTurns { strtoull := fun _ => 0 } .merge [optFilter ++ ['b']] drawingRegistry =
      [⟨drawingTest 'b' 2, 1, 0x9e3779b97f4a7c15⟩] := by
    simp only [runTurns, drawingRegistry_collect]
    rfl
  refine ⟨_, _, _, isolated, alone, ?_⟩
  exact (draws_replay_iff _ _ _ [optIsolate] [optFilter ++ ['b']] _
    [⟨drawingTest 'a' 1, 1, 0x9e3779b97f4a7c15⟩] [] [] [] _ _ rfl isolated alone rfl).2 rfl

end AgencC.Harness
