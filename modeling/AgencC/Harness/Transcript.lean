import AgencC.Harness.Diagnostics
import AgencC.Harness.Junit
import AgencC.Library.TapReader

/-! The text of the result stream, and what a consumer of TAP streams makes of it. -/

set_option autoImplicit false

namespace AgencC.Harness

open AgencC.Library

/-- What `%s.%s` prints for a test. -/
def testName (key : CString × CString) : CString := key.1 ++ '.' :: key.2

/-- How the line of a failed death test ends. -/
def gotText : Option Nat → CString
  | some sig => "got signal ".toList ++ Nat.toDigits 10 sig
  | none => "test exited without dying".toList

/-- The line `TT_PRINTF` prints, without its newline. Under `--isolate` a skipped test gives no
reason. -/
def TapLine.text (isolate : Bool) : TapLine → CString
  | .version => "TAP version ".toList ++ Nat.toDigits 10 14
  | .seed value => "# seed ".toList ++ decimal value
  | .ok n test => "ok ".toList ++ pointText n (testName test) []
  | .okDied n test sig => "ok ".toList ++ pointText n (testName test)
      (" # died by signal ".toList ++ Nat.toDigits 10 sig ++ " as expected".toList)
  | .okSkip n test reason => "ok ".toList ++ pointText n (testName test)
      (" # SKIP".toList ++ if isolate then [] else ' ' :: reason)
  | .notOk n test => "not ok ".toList ++ pointText n (testName test) []
  | .expectedSignal expected got => "#   expected signal ".toList ++ Nat.toDigits 10 expected ++
      ", ".toList ++ gotText got
  | .crashed sig => "#   crashed: signal ".toList ++ Nat.toDigits 10 sig
  | .diag line => printedLine line
  | .bailOut => "Bail out! --fail-fast after first failure".toList
  | .plan n => "1..".toList ++ Nat.toDigits 10 n
  | .summary passed failed skipped assertions => "# ".toList ++ Nat.toDigits 10 passed ++
      " passed, ".toList ++ Nat.toDigits 10 failed ++ " failed, ".toList ++
      Nat.toDigits 10 skipped ++ " skipped, ".toList ++ Nat.toDigits 10 assertions.toNat ++
      " assertions".toList
  | .listed test => testName test

/-- The text a run has printed. -/
def transcript (config : Config) (out : List TapLine) : CString :=
  ended '\n' (out.map (TapLine.text config.isolate))

example : transcript {} [.okSkip 1 (['s'], ['i']) ['w'], .plan 1] =
    "ok 1 - s.i # SKIP w\n1..1\n".toList := by decide

/-- What a line stands for. -/
def TapLine.item : TapLine → TapItem
  | .version => .version 14
  | .ok n test => .point true n (testName test) false
  | .okDied n test _ => .point true n (testName test) false
  | .okSkip n test _ => .point true n (testName test) true
  | .notOk n test => .point false n (testName test) false
  | .bailOut => .bailOut
  | .plan n => .plan n
  | .listed test => .other (testName test)
  | line => .comment (line.text false).tail

/-- A name that neither ends its line nor begins a directive. -/
structure Plain (name : CString) : Prop where
  hash : '#' ∉ name
  newline : '\n' ∉ name

/-- A line of a run that its texts do not break. -/
def TapLine.Clean : TapLine → Prop
  | .ok _ test | .okDied _ test _ | .notOk _ test => Plain (testName test)
  | .okSkip _ test reason => Plain (testName test) ∧ '\n' ∉ reason
  | .diag line => '\n' ∉ line
  | .listed _ => False
  | _ => True

theorem newline_toDigits (n : Nat) : '\n' ∉ Nat.toDigits 10 n := fun member =>
  absurd (Nat.isDigit_of_mem_toDigits (by decide) (by decide) member) (by decide)

theorem newline_pointText (n : Nat) {name directive : CString} (plain : Plain name)
    (clean : '\n' ∉ directive) : '\n' ∉ pointText n name directive := by
  simp [pointText, newline_toDigits, plain.newline, clean]

theorem newline_gotText (got : Option Nat) : '\n' ∉ gotText got := by
  cases got with
  | some sig =>
      dsimp only [gotText]
      simp [newline_toDigits]
  | none => decide

theorem TapLine.Clean.newline {line : TapLine} (clean : line.Clean) (isolate : Bool) :
    '\n' ∉ line.text isolate := by
  cases line with
  | okSkip n test reason =>
      have directive : '\n' ∉ " # SKIP".toList ++ if isolate then [] else ' ' :: reason := by
        cases isolate with
        | true => simp
        | false => simp [clean.2]
      exact List.not_mem_append (by decide) (newline_pointText n clean.1 directive)
  | expectedSignal expected got =>
      dsimp only [text]
      simp [newline_gotText, newline_toDigits]
  | diag line => exact List.not_mem_append (by decide) clean
  | listed test => cases clean
  | ok n test | okDied n test sig | notOk n test =>
      dsimp only [text]
      simp [newline_pointText n clean, newline_toDigits]
  | version | seed | crashed | bailOut | plan | summary =>
      dsimp only [text]
      simp [decimal, newline_toDigits]

theorem TapLine.Clean.read {line : TapLine} (clean : line.Clean) (isolate : Bool) :
    readLine (line.text isolate) = line.item := by
  cases line with
  | version => exact readLine_version 14
  | ok n test => exact (readLine_ok _).trans (readPoint_plain true n clean.hash)
  | okDied n test sig => exact (readLine_ok _).trans (readPoint_directive true n _ clean.hash)
  | okSkip n test reason =>
      exact (readLine_ok _).trans (readPoint_directive true n _ clean.1.hash)
  | notOk n test => exact (readLine_notOk _).trans (readPoint_plain false n clean.hash)
  | bailOut => exact readLine_bailOut _
  | plan n => exact readLine_plan n
  | listed test => cases clean
  | seed | expectedSignal | crashed | diag | summary => exact readLine_comment _

/-- A stream of clean lines is read line by line. -/
theorem readTap_transcript (config : Config) {out : List TapLine}
    (clean : ∀ line ∈ out, line.Clean) :
    readTap (transcript config out) = out.map TapLine.item := by
  have lines : ∀ text ∈ out.map (TapLine.text config.isolate), '\n' ∉ text := by
    rw [List.forall_mem_map]
    exact fun line member => (clean line member).newline config.isolate
  rw [transcript, readTap, splitLines_ended lines, List.map_map]
  exact List.map_congr_left fun line member => (clean line member).read config.isolate

/-! What one turn prints. -/

/-- A skip reason that stays on its line. -/
def OneLine (reason : Option CString) : Prop := ∀ text ∈ reason, '\n' ∉ text

/-- Every skip of a script gives a reason of one line. -/
def Script.OneLine : Script → Prop
  | .done => True
  | .event (.skip reason) next => Harness.OneLine reason ∧ next.OneLine
  | .event _ next => next.OneLine
  | .rand next => ∀ value, (next value).OneLine
  | .randBelow _ next => ∀ value, (next value).OneLine

def TestFn.OneLine : TestFn → Prop
  | .plain body => body.OneLine
  | .fixture setup body teardown => setup.OneLine ∧ body.OneLine ∧ teardown.OneLine

/-- A test whose texts do not break the lines they are printed in. -/
structure Test.Printable (t : Test) : Prop where
  name : Plain (testName t.key)
  reasons : t.fn.OneLine

theorem Script.OneLine.run {script : Script} (oneLine : script.OneLine) {s : State}
    (clean : Harness.OneLine s.skipReason) : Harness.OneLine (script.run s).1.skipReason := by
  induction script generalizing s with
  | done => exact clean
  | event e next ih =>
      cases e with
      | passAssert => exact ih oneLine clean
      | failAssert location details fatal =>
          obtain ⟨diag, recorded⟩ := failAssert_eq location details s
          simp only [Script.run, recorded]
          split
          · exact clean
          · exact ih oneLine clean
      | skip reason =>
          simp only [Script.run]
          split
          · exact oneLine.1
          · exact ih oneLine.2 oneLine.1
      | die status => exact clean
  | rand next ih => exact ih _ (oneLine _) clean
  | randBelow bound next ih => exact ih _ (oneLine _) clean

theorem TestFn.OneLine.run {fn : TestFn} (oneLine : fn.OneLine) {s : State}
    (clean : Harness.OneLine s.skipReason) : Harness.OneLine (fn.run s).1.skipReason := by
  cases fn with
  | plain body =>
      have ran := Script.OneLine.run oneLine (s := { s with haveJmp := true }) clean
      simp only [TestFn.run]
      split
      · rename_i ended
        rw [ended] at ran
        exact ran
      · rename_i ended
        rw [ended] at ran
        exact ran
  | fixture setup body teardown =>
      obtain ⟨one, two, three⟩ := oneLine
      have first := one.run (s := { s with haveJmp := true }) clean
      simp only [TestFn.run]
      split
      · rename_i ended
        rw [ended] at first
        exact first
      · rename_i ended
        rw [ended] at first
        exact first
      · rename_i s' ended
        rw [ended] at first
        have second := two.run (s := s') first
        split
        · rename_i died
          rw [died] at second
          exact second
        · rename_i left
          rw [left] at second
          exact three.run second

/-- A line that tells more of a test point. -/
inductive Remark : TapLine → Prop where
  | diag {line : CString} (clean : '\n' ∉ line) : Remark (.diag line)
  | expectedSignal {expected : Nat} {got : Option Nat} : Remark (.expectedSignal expected got)
  | crashed {sig : Nat} : Remark (.crashed sig)

/-- The test point of a turn. -/
inductive PointOf (n : Nat) (key : CString × CString) : Verdict → TapLine → Prop where
  | ok : PointOf n key .ok (.ok n key)
  | died {sig : Nat} : PointOf n key .ok (.okDied n key sig)
  | skipped {reason : CString} (clean : '\n' ∉ reason) :
      PointOf n key .skip (.okSkip n key reason)
  | notOk : PointOf n key .notOk (.notOk n key)

/-- The lines of a turn: what its child has printed, its point and what follows on it. -/
inductive Told (n : Nat) (key : CString × CString) (verdict : Verdict) : List TapLine → Prop where
  | lines {before after : List TapLine} {point : TapLine}
      (child : ∀ line ∈ before, Remark line) (points : PointOf n key verdict point)
      (more : ∀ line ∈ after, Remark line) : Told n key verdict (before ++ point :: after)

theorem ttFlushDiag_remarks (s : State) : ∀ line ∈ ttFlushDiag s, Remark line := by
  rw [ttFlushDiag, List.forall_mem_map]
  exact fun line member => .diag (diagLines_clean List.not_mem_nil s.diag line member)

theorem ttExecForked_remarks (host : Host) (n : Nat) (t : Test) (s : State) :
    ∀ line ∈ (ttExecForked host n t s).lines, Remark line := by
  simp only [ttExecForked]
  split
  · split
    · split
      · exact ttFlushDiag_remarks _
      · exact fun line member => absurd member List.not_mem_nil
    · exact fun line member => absurd member List.not_mem_nil
    · exact fun line member => absurd member List.not_mem_nil
  · exact fun line member => absurd member List.not_mem_nil

/-- The turn from `s` to `after` has printed its lines. -/
def Tells (n : Nat) (key : CString × CString) (verdict : Verdict) (s after : State) : Prop :=
  ∃ lines, after.out = s.out ++ lines ∧ Told n key verdict lines

/-- A branch of `tt_run_one` prints its point after what the child has printed. -/
theorem Tells.of_child {n : Nat} {key : CString × CString} {verdict : Verdict} {s after : State}
    {child more : List TapLine} {point : TapLine}
    (out : after.out = s.out ++ child ++ point :: more) (remarks : ∀ line ∈ child, Remark line)
    (points : PointOf n key verdict point) (follows : ∀ line ∈ more, Remark line) :
    Tells n key verdict s after := by
  rw [List.append_assoc] at out
  exact ⟨_, out, .lines remarks points follows⟩

theorem no_remarks : ∀ line ∈ ([] : List TapLine), Remark line :=
  fun _ member => absurd member List.not_mem_nil

theorem runDeathTest_tells (host : Host) (t : Test) (expected n : Nat) (s : State) :
    Tells n t.key (runDeathTest host t expected n s).2 s (runDeathTest host t expected n s).1 := by
  have remarks := ttExecForked_remarks host n t s
  simp only [runDeathTest, State.print]
  split
  · exact .of_child rfl remarks .died no_remarks
  · exact .of_child rfl remarks .notOk (List.forall_mem_singleton.mpr .expectedSignal)

theorem runIsolated_tells (host : Host) (t : Test) (n : Nat) (s : State) :
    Tells n t.key (runIsolated host t n s).2 s (runIsolated host t n s).1 := by
  have remarks := ttExecForked_remarks host n t s
  simp only [runIsolated, State.print]
  split
  · exact .of_child rfl remarks .notOk (List.forall_mem_singleton.mpr .crashed)
  · split
    · exact .of_child rfl remarks (.skipped List.not_mem_nil) no_remarks
    · split
      · exact .of_child rfl remarks .ok no_remarks
      · exact .of_child rfl remarks .notOk no_remarks

theorem ttExecBody_reason {t : Test} (printable : t.Printable) (s : State) :
    OneLine (ttExecBody t s).1.skipReason := by
  rw [ttExecBody_state]
  exact printable.reasons.run fun text none => absurd none (Option.not_mem_none text)

theorem runInProcess_tells {t : Test} (printable : t.Printable) {n : Nat} {s after : State}
    {verdict : Verdict} (ran : runInProcess t n s = .ok (after, verdict)) :
    Tells n t.key verdict s after := by
  have reason := ttExecBody_reason printable s
  have counts := t.fn.run_counts s.forTest
  rw [← ttExecBody_state] at counts
  rcases ended : ttExecBody t s with ⟨s', outcome⟩
  rw [ended] at reason counts
  have out : s'.out = s.out ++ [] := by
    rw [List.append_nil]
    exact congrArg (fun counts => counts.2.2.2.2) counts
  cases outcome with
  | error status =>
      simp only [runInProcess, ended] at ran
      cases ran
  | ok result =>
      cases result with
      | pass =>
          simp only [runInProcess, ended] at ran
          cases ran
          exact .of_child (congrArg (· ++ _) out) no_remarks .ok no_remarks
      | skip =>
          have clean : '\n' ∉ s'.skipReason.getD [] := by
            cases given : s'.skipReason with
            | none => exact List.not_mem_nil
            | some text => exact reason text given
          simp only [runInProcess, ended] at ran
          cases ran
          exact .of_child (congrArg (· ++ _) out) no_remarks (.skipped clean) no_remarks
      | fail =>
          simp only [runInProcess, ended] at ran
          cases ran
          exact .of_child (congrArg (· ++ _) out) no_remarks .notOk (ttFlushDiag_remarks _)

theorem ttRunOne_tells {host : Host} {config : Config} {t : Test} (printable : t.Printable)
    {n : Nat} {s after : State} {verdict : Verdict}
    (ran : ttRunOne host config t n s = .ok (after, verdict)) : Tells n t.key verdict s after := by
  simp only [ttRunOne] at ran
  split at ran
  · rename_i expected _
    have tells := runDeathTest_tells host t expected n s
    rw [Except.ok.injEq] at ran
    rwa [ran] at tells
  · split at ran
    · have tells := runIsolated_tells host t n s
      rw [Except.ok.injEq] at ran
      rwa [ran] at tells
    · exact runInProcess_tells printable ran

/-! The lines of a whole run. -/

/-- The lines the loop prints for the turns it records. Under `--fail-fast` a failure is the
last of them, and the stream is bailed out. -/
inductive Narrated (config : Config) : List Record → List TapLine → Prop where
  | done : Narrated config [] []
  | stopped {record : Record} {lines : List TapLine}
      (told : Told record.number record.test.key record.verdict lines)
      (stop : config.failFast = true ∧ record.verdict = .notOk) :
      Narrated config [record] (lines ++ [.bailOut])
  | next {record : Record} {records : List Record} {lines more : List TapLine}
      (told : Told record.number record.test.key record.verdict lines)
      (goes : config.failFast = true → record.verdict ≠ .notOk)
      (later : Narrated config records more) :
      Narrated config (record :: records) (lines ++ more)

theorem ListRan.narrated {host : Host} {config : Config} {list : List Test} {n m : Nat}
    {s s' : State} {records : List Record} (printable : ∀ t ∈ list, t.Printable)
    (clean : config.failFast = true → s.testsFailed = 0)
    (ran : ListRan host config list n s m s' records) :
    ∃ lines, s'.out = s.out ++ lines ∧ Narrated config records lines := by
  induction ran with
  | done => exact ⟨[], (List.append_nil _).symm, .done⟩
  | passed _ _ ih => exact ih (fun t member => printable t (.tail _ member)) clean
  | @stopped t rest n s after verdict _ one stop =>
      obtain ⟨lines, out, told⟩ := ttRunOne_tells (printable t (.head _)) one
      have failed := (ttRunOne_adds one).failed
      rw [clean stop.1, Nat.zero_add] at failed
      have failing : verdict = .notOk := by
        by_contra passing
        rw [if_neg passing] at failed
        exact Nat.lt_irrefl 0 (failed ▸ stop.2)
      refine ⟨lines ++ [.bailOut], ?_, .stopped told ⟨stop.1, failing⟩⟩
      rw [State.print, out, List.append_assoc]
  | @next t rest n m s after s' verdict others _ one goes _ ih =>
      obtain ⟨lines, out, told⟩ := ttRunOne_tells (printable t (.head _)) one
      obtain ⟨more, later, narrated⟩ :=
        ih (fun t member => printable t (.tail _ member)) (clean_of_goes goes)
      refine ⟨lines ++ more, by rw [later, out, List.append_assoc], .next told ?_ narrated⟩
      intro failFast failing
      have failed := (ttRunOne_adds one).failed
      rw [clean_of_goes goes failFast, clean failFast, if_pos failing] at failed
      exact absurd failed Nat.zero_ne_one

/-! What is read of a run. -/

/-- The test point a consumer should find for an executed test. -/
def Record.tapPoint (r : Record) : Bool × Nat × CString × Bool :=
  (decide (r.verdict ≠ .notOk), r.number, testName r.test.key, decide (r.verdict = .skip))

/-- What is read of a part of the stream. -/
structure Reads (records : List Record) (plans : List Nat) (bails : Prop) (lines : List TapLine) :
    Prop where
  clean : ∀ line ∈ lines, line.Clean
  points : (lines.map TapLine.item).filterMap TapItem.point? = records.map Record.tapPoint
  plans : (lines.map TapLine.item).filterMap TapItem.plan? = plans
  bailOut : .bailOut ∈ lines.map TapLine.item ↔ bails

theorem Reads.append {records others : List Record} {plans more : List Nat} {bails later : Prop}
    {first second : List TapLine} (start : Reads records plans bails first)
    (rest : Reads others more later second) :
    Reads (records ++ others) (plans ++ more) (bails ∨ later) (first ++ second) where
  clean := List.forall_mem_append.mpr ⟨start.clean, rest.clean⟩
  points := by
    rw [List.map_append, List.filterMap_append, start.points, rest.points, List.map_append]
  plans := by rw [List.map_append, List.filterMap_append, start.plans, rest.plans]
  bailOut := by rw [List.map_append, List.mem_append, start.bailOut, rest.bailOut]

theorem Remark.clean {line : TapLine} (remark : Remark line) : line.Clean := by
  cases remark with
  | diag clean => exact clean
  | expectedSignal | crashed => trivial

theorem Remark.item {line : TapLine} (remark : Remark line) :
    ∃ text, line.item = .comment text := by
  cases remark with
  | diag | expectedSignal | crashed => exact ⟨_, rfl⟩

theorem remarks_reads {lines : List TapLine} (remarks : ∀ line ∈ lines, Remark line) :
    Reads [] [] False lines where
  clean line member := (remarks line member).clean
  points := by
    rw [List.filterMap_map]
    refine List.filterMap_eq_nil_iff.mpr fun line member => ?_
    obtain ⟨text, item⟩ := (remarks line member).item
    rw [Function.comp_apply, item]
    rfl
  plans := by
    rw [List.filterMap_map]
    refine List.filterMap_eq_nil_iff.mpr fun line member => ?_
    obtain ⟨text, item⟩ := (remarks line member).item
    rw [Function.comp_apply, item]
    rfl
  bailOut := by
    refine iff_of_false (fun member => ?_) id
    obtain ⟨line, member, same⟩ := List.mem_map.mp member
    obtain ⟨text, item⟩ := (remarks line member).item
    rw [item] at same
    cases same

theorem PointOf.reads {record : Record} {point : TapLine}
    (points : PointOf record.number record.test.key record.verdict point)
    (plain : Plain (testName record.test.key)) : Reads [record] [] False [point] := by
  rcases record with ⟨turn, verdict⟩
  cases points with
  | ok | died | notOk =>
      exact ⟨List.forall_mem_singleton.mpr plain, rfl, rfl,
        iff_of_false (by simp [TapLine.item]) id⟩
  | skipped clean =>
      exact ⟨List.forall_mem_singleton.mpr ⟨plain, clean⟩, rfl, rfl,
        iff_of_false (by simp [TapLine.item]) id⟩

theorem Told.reads {record : Record} {lines : List TapLine}
    (told : Told record.number record.test.key record.verdict lines)
    (plain : Plain (testName record.test.key)) : Reads [record] [] False lines := by
  cases told with
  | @lines before after point child points more =>
      have all := ((remarks_reads child).append (points.reads plain)).append (remarks_reads more)
      simpa only [List.append_assoc, List.nil_append, List.append_nil, List.singleton_append,
        or_self] using all

theorem bailOut_reads : Reads [] [] True [.bailOut] :=
  ⟨List.forall_mem_singleton.mpr trivial, rfl, rfl, iff_of_true (.head _) trivial⟩

theorem Narrated.reads {config : Config} {records : List Record} {lines : List TapLine}
    (narrated : Narrated config records lines)
    (plain : ∀ r ∈ records, Plain (testName r.test.key)) :
    Reads records [] (config.failFast = true ∧ ∃ r ∈ records, r.verdict = .notOk) lines := by
  induction narrated with
  | done => exact ⟨nofun, rfl, rfl, by simp⟩
  | @stopped record lines told stop =>
      have all := (told.reads (plain record (.head _))).append bailOut_reads
      have bails : (False ∨ True) =
          (config.failFast = true ∧ ∃ r ∈ [record], r.verdict = .notOk) :=
        propext (iff_of_true (.inr trivial) ⟨stop.1, record, .head _, stop.2⟩)
      rwa [bails] at all
  | @next record records lines more told goes later ih =>
      have all := (told.reads (plain record (.head _))).append
        (ih fun r member => plain r (.tail _ member))
      have bails : (False ∨ config.failFast = true ∧ ∃ r ∈ records, r.verdict = .notOk) =
          (config.failFast = true ∧ ∃ r ∈ record :: records, r.verdict = .notOk) := by
        rw [false_or, List.exists_mem_cons_iff, propext_iff]
        refine and_congr_right fun failFast => ?_
        exact ⟨.inr, fun either => either.resolve_left (goes failFast)⟩
      rwa [bails] at all

/-- A consumer of the printed text finds the executed tests in their order, a plan that counts
them, how the run ended, and the seed to run it again with. -/
structure Readable (config : Config) (result : RunResult) (items : List TapItem) : Prop where
  version : items.head? = some (.version 14)
  seed : ∃ digits, items.tail.head? = some (.comment (" seed ".toList ++ digits)) ∧
    strtoull digits = config.seed
  points : items.filterMap TapItem.point? = result.records.map Record.tapPoint
  plan : items.filterMap TapItem.plan? = [result.records.length]
  bailOut : .bailOut ∈ items ↔ config.failFast = true ∧ ∃ r ∈ result.records, r.verdict = .notOk
  exit : result.exitCode = 0 ↔
    ∀ point ∈ items.filterMap TapItem.point?, point.1 = true

theorem exitCode_read {s : State} {records : List Record} {m : Nat} (tally : Tally m s)
    (printed : points s.out = records.map Record.point) :
    (if s.testsFailed = 0 then 0 else 1 : Nat) = 0 ↔
      ∀ point ∈ records.map Record.tapPoint, point.1 = true := by
  rw [exitCode_eq_zero_iff, tally.failed, printed, List.countP_eq_zero, List.forall_mem_map,
    List.forall_mem_map]
  refine forall₂_congr fun r _ => ?_
  rw [Record.point, Record.tapPoint, decide_eq_true_iff, decide_eq_true_iff]

theorem start_reads (seed : UInt64) : Reads [] [] False [.version, .seed seed] :=
  ⟨by simp [TapLine.Clean], rfl, rfl, by simp [TapLine.item]⟩

theorem end_reads (n passed failed skipped : Nat) (assertions : UInt32) :
    Reads [] [n] False [.plan n, .summary passed failed skipped assertions] :=
  ⟨by simp [TapLine.Clean], rfl, rfl, by simp [TapLine.item]⟩

end AgencC.Harness
