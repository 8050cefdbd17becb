import Mathlib.Data.List.Sort

/-! The test harness: scripts of test events, the wrappers with their landing
pad, in-process and forked execution, and the runner. Printed lines are kept as
structured TAP lines. A POSIX target is assumed, so forks are available. -/

set_option autoImplicit false

namespace AgencC.Harness

/-- A NUL-free C string, one entry for each byte. -/
abbrev CString := List Char

/-- How a process ended, as `waitpid` reports it. -/
inductive WaitStatus where
  | exited (code : Nat)
  | signaled (sig : Nat)
  deriving DecidableEq, Repr

/-- One rendered piece of failure detail. A note without text is one whose format is NULL or
empty. -/
inductive Detail where
  | diag (text : CString)
  | note (text : Option CString)
  deriving DecidableEq, Repr

/-- What a test function does to the harness. A failing assertion carries the
location line of `tt_fail_begin` and the details before `tt_fail_end`. -/
inductive Event where
  | passAssert
  | failAssert (location : CString) (details : List Detail) (fatal : Bool)
  | skip (reason : Option CString)
  | die (status : WaitStatus)
  deriving DecidableEq, Repr

/-- A finite test script; what follows a draw may depend on the drawn value. -/
inductive Script where
  | done
  | event (event : Event) (next : Script)
  | rand (next : UInt64 → Script)
  | randBelow (bound : UInt32) (next : UInt32 → Script)

/-- A value a test got from `tt_rand` or `tt_rand_below`. -/
inductive Draw where
  | rand (value : UInt64)
  | below (bound value : UInt32)
  deriving DecidableEq, Repr

inductive TestFn where
  | plain (body : Script)
  | fixture (setup body teardown : Script)

structure Test where
  suite : CString
  name : CString
  file : CString
  line : Nat
  fn : TestFn
  /-- The `signal` of a death test (`TT_FLAG_SIGNAL` set), if it is one. -/
  deathSignal : Option Nat

inductive TapLine where
  | version
  | seed (seed : UInt64)
  | ok (n : Nat) (test : CString × CString)
  | okDied (n : Nat) (test : CString × CString) (sig : Nat)
  | okSkip (n : Nat) (test : CString × CString) (reason : CString)
  | notOk (n : Nat) (test : CString × CString)
  | expectedSignal (expected : Nat) (got : Option Nat)
  | crashed (sig : Nat)
  | diag (line : CString)
  | bailOut
  | plan (n : Nat)
  | summary (passed failed skipped : Nat) (assertions : UInt32)
  | listed (test : CString × CString)
  deriving DecidableEq, Repr

/-- The fields of `tt_g` and `tt_c` a run changes, and the result stream. The
draws of the current test are recorded for the statements only. -/
structure State where
  testsRun : Nat := 0
  testsPassed : Nat := 0
  testsFailed : Nat := 0
  testsSkipped : Nat := 0
  assertions : UInt32 := 0
  currentFailed : Bool := false
  haveJmp : Bool := false
  skippedCurrent : Bool := false
  skipReason : Option CString := none
  diag : CString := []
  rng : UInt64 := 0
  out : List TapLine := []
  drawn : List Draw := []

def diagCap : Nat := 4096

/-- `tt_diag` on an already rendered chunk. -/
def ttDiag (chunk : CString) (s : State) : State :=
  if diagCap - 1 ≤ s.diag.length then s
  else
    let room := diagCap - s.diag.length
    if room ≤ chunk.length then { s with diag := s.diag ++ chunk.take (room - 1) }
    else { s with diag := s.diag ++ chunk }

/-- `sizeof(buf)` in `tt_note`. -/
def noteCap : Nat := 512

def ttNote (text : Option CString) (s : State) : State :=
  match text with
  | none => s
  | some text =>
      let s := ttDiag ['n', 'o', 't', 'e', ':', ' '] s
      let s := if 0 < text.length then ttDiag (text.take (noteCap - 1)) s else s
      ttDiag ['\n'] s

def ttPassAssert (s : State) : State := { s with assertions := s.assertions + 1 }

def ttFailBegin (location : CString) (s : State) : State :=
  ttDiag location { s with assertions := s.assertions + 1, currentFailed := true }

def ttDetail (s : State) : Detail → State
  | .diag text => ttDiag text s
  | .note text => ttNote text s

/-- `tt_rand`: the drawn value and the next generator state. -/
def ttRand (old : UInt64) : UInt64 × UInt64 :=
  let xorshifted : UInt32 := (((old >>> 18) ^^^ old) >>> 27).toUInt32
  let rot : UInt32 := (old >>> 59).toUInt32
  let value := (xorshifted >>> rot) ||| (xorshifted <<< ((0 - rot) &&& 31))
  -- The constants stand first, so that a step from an unknown state does not unfold.
  (value.toUInt64, 1442695040888963407 + 6364136223846793005 * old)

def ttRandBelow (bound : UInt32) (old : UInt64) : UInt32 × UInt64 :=
  if bound = 0 then (0, old)
  else (((ttRand old).1 % bound.toUInt64).toUInt32, (ttRand old).2)

def State.drew (s : State) (draw : Draw) (rng : UInt64) : State :=
  { s with rng, drawn := s.drawn ++ [draw] }

/-- How control leaves a script. -/
inductive Exit where
  | returned
  | jumped
  | died (status : WaitStatus)
  deriving DecidableEq, Repr

/-- Runs a script. A fatal failure or a skip jumps only while a landing pad is set. -/
def Script.run : Script → State → State × Exit
  | .done, s => (s, .returned)
  | .event .passAssert next, s => next.run (ttPassAssert s)
  | .event (.failAssert location details fatal) next, s =>
      let s := details.foldl ttDetail (ttFailBegin location s)
      if fatal && s.haveJmp then (s, .jumped) else next.run s
  | .event (.skip reason) next, s =>
      let s := { s with skippedCurrent := true, skipReason := reason }
      if s.haveJmp then (s, .jumped) else next.run s
  | .event (.die status) _, s => (s, .died status)
  | .rand next, s =>
      (next (ttRand s.rng).1).run (s.drew (.rand (ttRand s.rng).1) (ttRand s.rng).2)
  | .randBelow bound next, s =>
      (next (ttRandBelow bound s.rng).1).run
        (s.drew (.below bound (ttRandBelow bound s.rng).1) (ttRandBelow bound s.rng).2)

/-- The generated test wrapper. The final exit is `returned` unless the process died. -/
def TestFn.run : TestFn → State → State × Exit
  | .plain body, s =>
      match body.run { s with haveJmp := true } with
      | (s, .died status) => (s, .died status)
      | (s, _) => ({ s with haveJmp := false }, .returned)
  | .fixture setup body teardown, s =>
      match setup.run { s with haveJmp := true } with
      | (s, .died status) => (s, .died status)
      | (s, .jumped) => ({ s with haveJmp := false }, .returned)
      | (s, .returned) =>
          match body.run s with
          | (s, .died status) => (s, .died status)
          | (s, _) => teardown.run { s with haveJmp := false }

inductive Result where
  | pass
  | fail
  | skip
  deriving DecidableEq, Repr

/-- The value of `TT_PASS`, `TT_FAIL` and `TT_SKIP`. -/
def Result.code : Result → Nat
  | .pass => 0
  | .fail => 1
  | .skip => 2

/-- The state `tt_exec_body` starts a test in. -/
def State.forTest (s : State) : State :=
  { s with currentFailed := false, skippedCurrent := false, skipReason := none, diag := []
           drawn := [] }

def ttExecBody (t : Test) (s : State) : State × Except WaitStatus Result :=
  match t.fn.run s.forTest with
  | (s, .died status) => (s, .error status)
  | (s, _) =>
      if s.skippedCurrent then (s, .ok .skip)
      else if s.currentFailed then (s, .ok .fail)
      else (s, .ok .pass)

/-- The lines `tt_flush_diag` cuts the buffer into; `line` is the part since the
last newline, reversed. -/
def diagLines (line : CString) : CString → List CString
  | [] => if line = [] then [] else [line.reverse]
  | c :: rest => if c = '\n' then line.reverse :: diagLines [] rest else diagLines (c :: line) rest

def ttFlushDiag (s : State) : List TapLine := (diagLines [] s.diag).map .diag

/-- What the operating system decides in a run. -/
structure Host where
  /-- Whether the `fork` for test point `n` succeeds. -/
  forks : Nat → Bool := fun _ => true
  /-- Whether the report file can be opened. -/
  xmlOpens : Bool := true
  /-- `strtoull` with base 0. -/
  strtoull : CString → UInt64

structure Forked where
  result : Nat
  crashedSig : Nat
  lines : List TapLine

/-- `tt_exec_forked`. The child works on a copy of the state, so only its exit
status and its printed lines come back. -/
def ttExecForked (host : Host) (n : Nat) (t : Test) (s : State) : Forked :=
  if host.forks n then
    match ttExecBody t s with
    | (child, .ok result) =>
        { result := result.code, crashedSig := 0
          lines := if result = .fail then ttFlushDiag child else [] }
    | (_, .error (.exited code)) => { result := code % 256, crashedSig := 0, lines := [] }
    | (_, .error (.signaled sig)) => { result := Result.fail.code, crashedSig := sig, lines := [] }
  else { result := Result.fail.code, crashedSig := 0, lines := [] }

structure Config where
  filter : Option CString := none
  xmlPath : Option CString := none
  listOnly : Bool := false
  isolate : Bool := false
  failFast : Bool := false
  color : Bool := true
  seed : UInt64 := 0x9e3779b97f4a7c15
  deriving DecidableEq, Repr

/-- The printed test point of one executed test. -/
inductive Verdict where
  | ok
  | notOk
  | skip
  deriving DecidableEq, Repr

def State.print (s : State) (lines : List TapLine) : State := { s with out := s.out ++ lines }

def Test.key (t : Test) : CString × CString := (t.suite, t.name)

/-- The death-test branch of `tt_run_one`. -/
def runDeathTest (host : Host) (t : Test) (expected n : Nat) (s : State) : State × Verdict :=
  let forked := ttExecForked host n t s
  let s := (s.print forked.lines)
  let s := { s with testsRun := s.testsRun + 1 }
  if forked.result = Result.fail.code ∧ forked.crashedSig = expected then
    ({ s with testsPassed := s.testsPassed + 1 }.print
      [.okDied n t.key forked.crashedSig], .ok)
  else
    ({ s with testsFailed := s.testsFailed + 1 }.print
      [.notOk n t.key, .expectedSignal expected
        (if forked.crashedSig = 0 then none else some forked.crashedSig)], .notOk)

/-- The `--isolate` branch of `tt_run_one`. -/
def runIsolated (host : Host) (t : Test) (n : Nat) (s : State) : State × Verdict :=
  let forked := ttExecForked host n t s
  let s := (s.print forked.lines)
  let s := { s with testsRun := s.testsRun + 1 }
  if forked.crashedSig ≠ 0 then
    ({ s with testsFailed := s.testsFailed + 1 }.print
      [.notOk n t.key, .crashed forked.crashedSig], .notOk)
  else if forked.result = Result.skip.code then
    ({ s with testsSkipped := s.testsSkipped + 1 }.print [.okSkip n t.key []], .skip)
  else if forked.result = Result.pass.code then
    ({ s with testsPassed := s.testsPassed + 1 }.print [.ok n t.key], .ok)
  else
    ({ s with testsFailed := s.testsFailed + 1 }.print [.notOk n t.key], .notOk)

/-- The in-process branch of `tt_run_one`; a test that dies takes the harness with it. -/
def runInProcess (t : Test) (n : Nat) (s : State) : Except WaitStatus (State × Verdict) :=
  match ttExecBody t s with
  | (_, .error status) => .error status
  | (s, .ok result) =>
      let s := { s with testsRun := s.testsRun + 1 }
      match result with
      | .skip => .ok ({ s with testsSkipped := s.testsSkipped + 1 }.print
          [.okSkip n t.key (s.skipReason.getD [])], .skip)
      | .pass => .ok ({ s with testsPassed := s.testsPassed + 1 }.print [.ok n t.key], .ok)
      | .fail => .ok ({ s with testsFailed := s.testsFailed + 1 }.print
          (.notOk n t.key :: ttFlushDiag s), .notOk)

def ttRunOne (host : Host) (config : Config) (t : Test) (n : Nat) (s : State) :
    Except WaitStatus (State × Verdict) :=
  match t.deathSignal with
  | some expected => .ok (runDeathTest host t expected n s)
  | none =>
      if config.isolate then .ok (runIsolated host t n s) else runInProcess t n s

def manualCap : Nat := 1024

def listCap : Nat := manualCap + 4096

/-- The tests of the section table and the calls of `tt_register`. -/
structure Registry where
  table : List Test
  registered : List Test

def ttRegister (manual : List Test) (t : Test) : List Test :=
  if manual.length < manualCap then manual ++ [t] else manual

/-- The sign of `strcmp` on the file, then the order of the line numbers. -/
def ttCmpTests (a b : Test) : Ordering :=
  (compare (a.file.map Char.toNat) (b.file.map Char.toNat)).then (compare a.line b.line)

/-- The contract of `qsort` with `tt_cmp_tests`: equal tests come in any order. -/
structure Qsort where
  sort : List Test → List Test
  perm : ∀ list, (sort list).Perm list
  sorted : ∀ list, (sort list).Pairwise fun a b => (ttCmpTests a b).isLE

instance : Std.TransCmp ttCmpTests :=
  inferInstanceAs (Std.TransCmp (compareLex
    (compareOn fun t : Test => t.file.map Char.toNat) (compareOn Test.line)))

theorem ttCmpTests_isLE_trans (a b c : Test) (before : (ttCmpTests a b).isLE)
    (after : (ttCmpTests b c).isLE) : (ttCmpTests a c).isLE :=
  Std.TransCmp.isLE_trans before after

theorem ttCmpTests_isLE_total (a b : Test) :
    ((ttCmpTests a b).isLE || (ttCmpTests b a).isLE) = true := by
  rw [@Std.OrientedCmp.eq_swap _ ttCmpTests _ b a]
  cases ttCmpTests a b <;> rfl

/-- A stable merge sort meets the contract. -/
def Qsort.merge : Qsort where
  sort list := list.mergeSort fun a b => (ttCmpTests a b).isLE
  perm list := List.mergeSort_perm list _
  sorted list := @List.pairwise_mergeSort _ (fun a b => (ttCmpTests a b).isLE)
    ttCmpTests_isLE_trans ttCmpTests_isLE_total list

def ttCollect (qsort : Qsort) (registry : Registry) : List Test :=
  let manual := registry.registered.foldl ttRegister []
  let list := (registry.table.take listCap ++ manual).take listCap
  if 1 < list.length then qsort.sort list else list

/-- `strstr` on the key `tt_selected` prints into its 256-byte buffer. -/
def ttSelected (config : Config) (t : Test) : Bool :=
  match config.filter with
  | none => true
  | some filter => ((t.suite ++ '.' :: t.name).take 255).tails.any filter.isPrefixOf

def optFilter : CString := ['-', '-', 'f', 'i', 'l', 't', 'e', 'r', '=']
def optSeed : CString := ['-', '-', 's', 'e', 'e', 'd', '=']
def optXml : CString := ['-', '-', 'x', 'm', 'l', '=']
def optList : CString := ['-', '-', 'l', 'i', 's', 't']
def optIsolate : CString := ['-', '-', 'i', 's', 'o', 'l', 'a', 't', 'e']
def optFailFast : CString := ['-', '-', 'f', 'a', 'i', 'l', '-', 'f', 'a', 's', 't']
def optNoColor : CString := ['-', '-', 'n', 'o', '-', 'c', 'o', 'l', 'o', 'r']

def ttParseArg (host : Host) (config : Config) (a : CString) : Config :=
  if optFilter.isPrefixOf a then { config with filter := some (a.drop 9) }
  else if optSeed.isPrefixOf a then { config with seed := host.strtoull (a.drop 7) }
  else if optXml.isPrefixOf a then { config with xmlPath := some (a.drop 6) }
  else if a = optList then { config with listOnly := true }
  else if a = optIsolate then { config with isolate := true }
  else if a = optFailFast then { config with failFast := true }
  else if a = optNoColor then { config with color := false }
  else config

/-- `tt_parse_args`; `argv` leaves out the program name. -/
def ttParseArgs (host : Host) (argv : List CString) : Config :=
  argv.foldl (ttParseArg host) {}

/-- One turn of the runner's loop: the test, its number and the generator state
it starts from. -/
structure Turn where
  test : Test
  number : Nat
  rng : UInt64

structure Record extends Turn where
  verdict : Verdict

/-- The loop of `tt_run_all` over the collected tests, `n` test points printed so far. -/
def ttRunList (host : Host) (config : Config) :
    List Test → Nat → State → Except WaitStatus (Nat × State × List Record)
  | [], n, s => .ok (n, s, [])
  | t :: rest, n, s =>
      if ttSelected config t then do
        let (after, verdict) ← ttRunOne host config t (n + 1) s
        let record := { test := t, number := n + 1, rng := s.rng, verdict }
        if config.failFast ∧ 0 < after.testsFailed then
          .ok (n + 1, after.print [.bailOut], [record])
        else
          let (n, s, records) ← ttRunList host config rest (n + 1) after
          .ok (n, s, record :: records)
      else ttRunList host config rest n s

/-- The report of `tt_write_xml`. -/
structure XmlReport where
  path : CString
  tests : Nat
  failures : Nat
  skipped : Nat
  cases : List (CString × CString)
  deriving DecidableEq, Repr

def ttWriteXml (host : Host) (config : Config) (list : List Test) (s : State) :
    Option XmlReport :=
  match config.xmlPath with
  | some path =>
      if host.xmlOpens then
        some { path, tests := s.testsRun, failures := s.testsFailed, skipped := s.testsSkipped
               cases := list.map Test.key }
      else none
  | none => none

structure RunResult where
  exitCode : Nat
  state : State
  records : List Record
  xml : Option XmlReport

/-- `tt_run_all`; an error is the death of the harness process itself. -/
def ttRunAll (host : Host) (qsort : Qsort) (argv : List CString) (registry : Registry) :
    Except WaitStatus RunResult := do
  let config := ttParseArgs host argv
  let s : State := { rng := config.seed }
  let list := ttCollect qsort registry
  if config.listOnly then
    .ok { exitCode := 0, state := s.print (list.map fun t => .listed t.key), records := []
          xml := none }
  else
    let s := s.print [.version, .seed config.seed]
    let (n, s, records) ← ttRunList host config list 0 s
    let s := s.print [.plan n, .summary s.testsPassed s.testsFailed s.testsSkipped s.assertions]
    .ok { exitCode := if s.testsFailed = 0 then 0 else 1, state := s, records
          xml := ttWriteXml host config list s }

end AgencC.Harness
