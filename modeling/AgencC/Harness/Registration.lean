import AgencC.Harness.Tap
import AgencC.Library.Truncation

/-! Which registrations reach the runner. The section table and `tt_register` go
through two arrays of fixed size; what fits is executed once, in some order. -/

set_option autoImplicit false

namespace AgencC.Harness

/-- The registrations the two arrays have room for. -/
def Registry.kept (registry : Registry) : List Test :=
  (registry.table ++ registry.registered.take manualCap).take listCap

theorem foldl_ttRegister (tests manual : List Test) (fits : manual.length ≤ manualCap) :
    tests.foldl ttRegister manual = manual ++ tests.take (manualCap - manual.length) := by
  induction tests generalizing manual with
  | nil => simp
  | cons t rest ih =>
      rw [List.foldl_cons, ttRegister]
      split
      · rename_i room
        have space : manualCap - manual.length = manualCap - (manual.length + 1) + 1 := by omega
        rw [ih _ (by rw [List.length_append]; exact room), space, List.take_succ_cons,
          List.append_assoc, List.length_append]
        rfl
      · rename_i full
        have space : manualCap - manual.length = 0 := by omega
        rw [ih _ fits, space]
        rfl

theorem ttCollect_perm (qsort : Qsort) (registry : Registry) :
    (ttCollect qsort registry).Perm registry.kept := by
  have filled : (registry.table.take listCap ++ registry.registered.foldl ttRegister []).take
      listCap = registry.kept := by
    rw [Library.take_append_take, foldl_ttRegister _ _ (Nat.zero_le _)]
    rfl
  simp only [ttCollect, filled]
  split
  · exact qsort.perm _
  · exact .refl _

/-- Everything is kept exactly when both arrays have room. -/
theorem Registry.kept_eq_iff (registry : Registry) :
    registry.kept = registry.table ++ registry.registered ↔
      registry.registered.length ≤ manualCap ∧
        registry.table.length + registry.registered.length ≤ listCap := by
  constructor
  · intro whole
    have lengths := congrArg List.length whole
    simp only [kept, List.length_take, List.length_append] at lengths
    omega
  · intro fits
    rw [kept, List.take_of_length_le fits.1, List.take_of_length_le]
    rw [List.length_append]
    exact fits.2

/-- Without `--fail-fast` the loop gives every selected test its turn. -/
theorem ttRunList_selected {host : Host} {config : Config} {list : List Test} {n m : Nat}
    {s s' : State} {records : List Record} (onward : config.failFast = false)
    (ran : ttRunList host config list n s = .ok (m, s', records)) :
    records.map (fun r => r.test) = list.filter (ttSelected config) := by
  replace ran := ttRunList_ran ran
  induction ran with
  | done => rfl
  | passed unselected _ ih => rw [List.filter_cons_of_neg unselected, ih]
  | stopped _ _ stop => exact Bool.noConfusion (onward.symm.trans stop.1)
  | next selected _ _ _ ih => rw [List.filter_cons_of_pos selected, List.map_cons, ih]

theorem ttRunList_all {host : Host} {config : Config} {list : List Test} {n m : Nat}
    {s s' : State} {records : List Record} (everything : config.filter = none)
    (onward : config.failFast = false)
    (ran : ttRunList host config list n s = .ok (m, s', records)) :
    records.map (fun r => r.test) = list := by
  rw [ttRunList_selected onward ran]
  exact List.filter_eq_self.mpr fun t _ => by rw [ttSelected, everything]

/-- Every kept registration is executed once, or listed once under `--list`. -/
structure RunsKept (config : Config) (registry : Registry) (result : RunResult) : Prop where
  executed : config.listOnly = false → (result.records.map fun r => r.test).Perm registry.kept
  run : config.listOnly = false → result.state.testsRun = registry.kept.length
  listed : config.listOnly = true → ∃ list : List Test, list.Perm registry.kept ∧
    result.state.out = list.map fun t => .listed t.key

theorem ttRunAll_kept (host : Host) (qsort : Qsort) (argv : List CString) (registry : Registry)
    (everything : (ttParseArgs host argv).filter = none)
    (onward : (ttParseArgs host argv).failFast = false)
    (alive : ∀ turn ∈ runTurns host qsort argv registry,
      turn.inProcess (ttParseArgs host argv) = true → ∃ result, turn.outcome = .ok result) :
    ∃ result, ttRunAll host qsort argv registry = .ok result ∧
      RunsKept (ttParseArgs host argv) registry result := by
  have perm := ttCollect_perm qsort registry
  simp only [ttRunAll]
  simp only [runTurns] at alive
  cases listOnly : (ttParseArgs host argv).listOnly with
  | true =>
      refine ⟨_, rfl, fun none => ?_, fun none => ?_, fun _ => ⟨_, perm, rfl⟩⟩
      · rw [listOnly] at none; cases none
      · rw [listOnly] at none; cases none
  | false =>
      rw [listOnly] at alive
      simp only [Bool.false_eq_true, if_false] at alive ⊢
      obtain ⟨m, s', records, ran⟩ := ttRunList_returns alive
      rw [ran]
      obtain ⟨tally, printed, _, _⟩ := ttRunList_loop (Tally.start _) (fun _ => rfl) ran
      have all := ttRunList_all everything onward ran
      refine ⟨_, rfl, fun _ => all ▸ perm, fun _ => ?_, fun some => ?_⟩
      · have numbers := tally.length_points
        rw [printed, List.length_append, List.length_map] at numbers
        have lengths := perm.length_eq
        rw [← all, List.length_map] at lengths
        exact tally.run.trans (numbers.symm.trans ((Nat.zero_add _).trans lengths))
      · rw [listOnly] at some; cases some

/-- A run without a filter and `--fail-fast` in which no test dies in-process
executes each of the registrations that fit in the arrays once, and these are
all of them exactly when both arrays have room. -/
theorem ttRunAll_runs_registered (host : Host) (qsort : Qsort) (argv : List CString)
    (registry : Registry) (everything : (ttParseArgs host argv).filter = none)
    (onward : (ttParseArgs host argv).failFast = false)
    (alive : ∀ turn ∈ runTurns host qsort argv registry,
      turn.inProcess (ttParseArgs host argv) = true → ∃ result, turn.outcome = .ok result) :
    (∃ result, ttRunAll host qsort argv registry = .ok result ∧
      RunsKept (ttParseArgs host argv) registry result) ∧
    (registry.kept = registry.table ++ registry.registered ↔
      registry.registered.length ≤ manualCap ∧
        registry.table.length + registry.registered.length ≤ listCap) :=
  ⟨ttRunAll_kept host qsort argv registry everything onward alive, registry.kept_eq_iff⟩

theorem mem_givenTurns {host : Host} {config : Config} {list : List Test} {n : Nat} {s : State}
    {turn : Turn} (given : turn ∈ givenTurns host config list n s) : turn.test ∈ list := by
  induction list generalizing n s with
  | nil => cases given
  | cons t rest ih =>
      simp only [givenTurns] at given
      split at given
      · cases given with
        | head => exact .head _
        | tail _ later =>
            split at later
            · cases later
            · split at later
              · cases later
              · exact .tail _ (ih later)
      · exact .tail _ (ih given)

/-- A test with an empty body. -/
def idleTest : Test where
  suite := ['s']
  name := ['i']
  file := ['f']
  line := 1
  fn := .plain .done
  deathSignal := none

theorem mem_runTurns {host : Host} {qsort : Qsort} {argv : List CString} {registry : Registry}
    {turn : Turn} (given : turn ∈ runTurns host qsort argv registry) :
    turn.test ∈ registry.table ++ registry.registered := by
  simp only [runTurns] at given
  split at given
  · cases given
  · exact mem_ttCollect qsort registry _ (mem_givenTurns given)

theorem idleTest_passes (host : Host) (qsort : Qsort) (argv : List CString) (count : Nat) :
    ∀ turn ∈ runTurns host qsort argv ⟨[], List.replicate count idleTest⟩,
      turn.inProcess (ttParseArgs host argv) = true → ∃ result, turn.outcome = .ok result := by
  intro turn given _
  have idle : turn.test = idleTest := List.eq_of_mem_replicate (mem_runTurns given)
  refine ⟨.pass, ?_⟩
  rw [Turn.outcome, idle]
  rfl

/-- With one registration more than `tt_register` has room for, a test is lost. -/
theorem ttRunAll_drops_registration :
    ∃ result, ttRunAll { strtoull := fun _ => 0 } .merge []
        ⟨[], List.replicate 1025 idleTest⟩ = .ok result ∧
      result.state.testsRun = 1024 ∧
      ¬ (result.records.map fun r => r.test).Perm (List.replicate 1025 idleTest) := by
  obtain ⟨result, ran, spec⟩ := ttRunAll_kept { strtoull := fun _ => 0 } .merge []
    ⟨[], List.replicate 1025 idleTest⟩ rfl rfl (idleTest_passes _ _ _ 1025)
  have length : Registry.kept ⟨[], List.replicate 1025 idleTest⟩ = List.replicate 1024 idleTest := by
    rw [Registry.kept, List.nil_append, List.take_replicate, List.take_replicate]
    rfl
  refine ⟨result, ran, ?_, fun all => ?_⟩
  · rw [spec.run rfl, length, List.length_replicate]
  · have lengths := all.length_eq
    rw [(spec.executed rfl).length_eq, length, List.length_replicate, List.length_replicate]
      at lengths
    cases lengths

/-- A passing and a failing test of the table and a registered one that is skipped are executed, or
listed. -/
theorem ttRunAll_runs_registered_three :
    (∃ result, ttRunAll { strtoull := fun _ => 0 } .merge []
        ⟨[idleTest, failingTest], [maskedTest]⟩ = .ok result ∧
      RunsKept {} ⟨[idleTest, failingTest], [maskedTest]⟩ result ∧ result.state.testsRun = 3) ∧
    ∃ result, ttRunAll { strtoull := fun _ => 0 } .merge [optList]
        ⟨[idleTest, failingTest], [maskedTest]⟩ = .ok result ∧
      RunsKept { listOnly := true } ⟨[idleTest, failingTest], [maskedTest]⟩ result ∧
      result.state.out.length = 3 := by
  have ends (argv : List CString) (turn : Turn)
      (given : turn ∈ runTurns { strtoull := fun _ => 0 } .merge argv
        ⟨[idleTest, failingTest], [maskedTest]⟩) : ∃ result, turn.outcome = .ok result := by
    have listed : turn.test ∈ [idleTest, failingTest, maskedTest] := mem_runTurns given
    simp only [List.mem_cons, List.not_mem_nil, or_false] at listed
    rcases listed with idle | failing | masked
    · exact ⟨.pass, by rw [Turn.outcome, idle]; rfl⟩
    · exact ⟨.fail, by rw [Turn.outcome, failing]; rfl⟩
    · exact ⟨.skip, by rw [Turn.outcome, masked]; rfl⟩
  obtain ⟨⟨result, ran, kept⟩, _⟩ := ttRunAll_runs_registered { strtoull := fun _ => 0 } .merge []
    ⟨[idleTest, failingTest], [maskedTest]⟩ rfl rfl fun turn given _ => ends [] turn given
  obtain ⟨⟨listing, printed, listed⟩, _⟩ := ttRunAll_runs_registered { strtoull := fun _ => 0 }
    .merge [optList] ⟨[idleTest, failingTest], [maskedTest]⟩ rfl rfl
    fun turn given _ => ends [optList] turn given
  refine ⟨⟨result, ran, kept, kept.run rfl⟩, listing, printed, listed, ?_⟩
  obtain ⟨list, perm, out⟩ := listed.listed rfl
  rw [out, List.length_map, perm.length_eq]
  rfl

end AgencC.Harness
