import AgencC.Harness.Isolation
import AgencC.Harness.Registration

/-! Where control goes in a test: the frames of the generated wrappers, the landing pad in `tt_g`
and the jumps to it. The walk here goes where the runner goes, and marks what it passes. -/

set_option autoImplicit false

namespace AgencC.Harness

/-- The functions a wrapper calls. -/
inductive Phase where
  | setup
  | body
  | teardown
  deriving DecidableEq, Repr

inductive Mark where
  | setjmp (frame : Nat)
  | entered (phase : Phase)
  | ran (phase : Phase) (event : Event)
  | finished (phase : Phase)
  | longjmp (frame : Nat)
  | returned (frame : Nat)
  deriving DecidableEq, Repr

/-- A process that runs tests. Wrapper calls are numbered in order. -/
structure Control where
  state : State
  /-- The wrapper calls that have not returned, innermost first. -/
  frames : List Nat
  calls : Nat
  /-- The call that set `tt_g.test_jmp`. -/
  testJmp : Option Nat
  /-- What the current test has passed. -/
  marks : List Mark

/-- A `longjmp` that C gives no meaning, or one out of a teardown, which would run it again. -/
inductive JumpFault where
  | unset
  | gone (frame : Nat)
  | again (frame : Nat)
  deriving DecidableEq, Repr

/-- How control leaves a function. -/
inductive Flow where
  | returned
  | jumped (frame : Nat)
  | died (status : WaitStatus)
  deriving DecidableEq, Repr

namespace Control

def mark (mark : Mark) (c : Control) : Control := { c with marks := c.marks ++ [mark] }

/-- A statement of `phase` was executed. -/
def ran (phase : Phase) (event : Event) (state : State) (c : Control) : Control :=
  { c with state, marks := c.marks ++ [.ran phase event] }

/-- A wrapper is called, its `setjmp` returns 0, and `have_jmp` is set. -/
def call (c : Control) : Control where
  state := { c.state with haveJmp := true }
  frames := c.calls :: c.frames
  calls := c.calls + 1
  testJmp := some c.calls
  marks := c.marks ++ [.setjmp c.calls]

def disarm (c : Control) : Control := { c with state := { c.state with haveJmp := false } }

/-- The wrapper returns. -/
def leave (frame : Nat) (c : Control) : Control :=
  { c with frames := c.frames.tail, marks := c.marks ++ [.returned frame] }

/-- `longjmp(tt_g.test_jmp, 1)`. -/
def longjmp (c : Control) : Except JumpFault (Control × Flow) :=
  match c.testJmp with
  | none => .error .unset
  | some frame =>
      if frame ∈ c.frames then .ok (c.mark (.longjmp frame), .jumped frame) else .error (.gone frame)

end Control

def Script.walk (phase : Phase) : Script → Control → Except JumpFault (Control × Flow)
  | .done, c => .ok (c.mark (.finished phase), .returned)
  | .event .passAssert next, c => next.walk phase (c.ran phase .passAssert (ttPassAssert c.state))
  | .event (.failAssert location details fatal) next, c =>
      let c := c.ran phase (.failAssert location details fatal)
        (details.foldl ttDetail (ttFailBegin location c.state))
      if fatal && c.state.haveJmp then c.longjmp else next.walk phase c
  | .event (.skip reason) next, c =>
      let c := c.ran phase (.skip reason)
        { c.state with skippedCurrent := true, skipReason := reason }
      if c.state.haveJmp then c.longjmp else next.walk phase c
  | .event (.die status) _, c => .ok (c.ran phase (.die status) c.state, .died status)
  | .rand next, c =>
      (next (ttRand c.state.rng).1).walk phase
        { c with state := c.state.drew (.rand (ttRand c.state.rng).1) (ttRand c.state.rng).2 }
  | .randBelow bound next, c =>
      (next (ttRandBelow bound c.state.rng).1).walk phase
        { c with
          state := c.state.drew (.below bound (ttRandBelow bound c.state.rng).1)
            (ttRandBelow bound c.state.rng).2 }

/-- The generated wrapper. What jumps to its frame lands after the guarded part. -/
def TestFn.walk : TestFn → Control → Except JumpFault (Control × Flow)
  | .plain body, c => do
      let frame := c.calls
      let (c, flow) ← body.walk .body (c.call.mark (.entered .body))
      if flow = .returned ∨ flow = .jumped frame then .ok (c.disarm.leave frame, .returned)
      else .ok (c, flow)
  | .fixture setup body teardown, c => do
      let frame := c.calls
      let (c, flow) ← setup.walk .setup (c.call.mark (.entered .setup))
      let setupDone := decide (flow = .returned)
      let (c, flow) ←
        if setupDone then body.walk .body (c.mark (.entered .body)) else .ok (c, flow)
      if flow = .returned ∨ flow = .jumped frame then
        if setupDone then do
          let (c, flow) ← teardown.walk .teardown (c.disarm.mark (.entered .teardown))
          match flow with
          | .returned => .ok (c.leave frame, .returned)
          | .jumped target => .error (.again target)
          | .died status => .ok (c, .died status)
        else .ok (c.disarm.leave frame, .returned)
      else .ok (c, flow)

/-- One turn of the runner's loop as walked: the process between the tests before it, and the
marks of the test. -/
structure Walked where
  turn : Turn
  start : Control
  marks : List Mark

/-- The execution of a test, in whichever process it is. -/
def Turn.walk (host : Host) (config : Config) (turn : Turn) (start : Control) :
    Except JumpFault Control :=
  if turn.executed host config then
    (turn.test.fn.walk { start with state := start.state.forTest }).map Prod.fst
  else .ok start

/-- The loop of `tt_run_all`. A forked child walks a copy. -/
def walkList (host : Host) (config : Config) :
    List Test → Nat → Control → Except JumpFault (List Walked)
  | [], _, _ => .ok []
  | t :: rest, n, c =>
      if ttSelected config t then do
        let turn : Turn := { test := t, number := n + 1, rng := c.state.rng }
        let start := { c with marks := [] }
        let walked ← turn.walk host config start
        let first : Walked := { turn, start, marks := walked.marks }
        match ttRunOne host config t (n + 1) c.state with
        | .error _ => .ok [first]
        | .ok (after, _) =>
            if config.failFast ∧ 0 < after.testsFailed then .ok [first]
            else do
              let c := if config.isolate then start else walked
              let others ← walkList host config rest (n + 1) { c with state := after }
              .ok (first :: others)
      else walkList host config rest n c

/-- `tt_run_all`. -/
def walkAll (host : Host) (qsort : Qsort) (argv : List CString) (registry : Registry) :
    Except JumpFault (List Walked) :=
  let config := ttParseArgs host argv
  if config.listOnly then .ok []
  else
    walkList host config (ttCollect qsort registry) 0
      { state := State.print { rng := config.seed } [.version, .seed config.seed], frames := []
        calls := 0, testJmp := none, marks := [] }

/-! What a walk marks. -/

/-- The marks of a function that goes through `events`. -/
def trace (phase : Phase) (frame : Nat) (events : List Event) (left : Bool) : List Mark :=
  events.map (.ran phase) ++ [if left then .longjmp frame else .finished phase]

/-- The marks of a test whose wrapper call has the number `frame`. -/
def TestFn.marks (frame : Nat) : TestFn → UInt64 → List Mark
  | .plain body, rng =>
      let (events, left, _) := body.reach true rng
      .setjmp frame :: .entered .body :: trace .body frame events left ++ [.returned frame]
  | .fixture setup body teardown, rng =>
      let (events, left, rng) := setup.reach true rng
      let (bodyEvents, bodyLeft, rng) := body.reach true rng
      let (teardownEvents, _, _) := teardown.reach false rng
      .setjmp frame :: .entered .setup :: trace .setup frame events left ++
        (if left then []
        else
          .entered .body :: trace .body frame bodyEvents bodyLeft ++
            .entered .teardown :: trace .teardown frame teardownEvents false) ++
        [.returned frame]

/-- The pad is that of an active frame, if it is set. -/
def Control.Armed (frame : Nat) (c : Control) : Prop :=
  c.state.haveJmp = true → c.testJmp = some frame ∧ frame ∈ c.frames

/-- A function went through `events` and did what it does in the runner. -/
structure Control.Walks (script : Script) (phase : Phase) (frame : Nat) (events : List Event)
    (left : Bool) (c c' : Control) (flow : Flow) : Prop where
  walked : script.walk phase c = .ok (c', flow)
  state : c'.state = (script.run c.state).1
  frames : c'.frames = c.frames
  calls : c'.calls = c.calls
  testJmp : c'.testJmp = c.testJmp
  marks : c'.marks = c.marks ++ trace phase frame events left
  flow : flow = if left then .jumped frame else .returned

section
variable {phase : Phase} {frame : Nat}

theorem Control.longjmp_of {c : Control} (pad : c.testJmp = some frame) (active : frame ∈ c.frames) :
    c.longjmp = .ok (c.mark (.longjmp frame), .jumped frame) := by
  rw [longjmp, pad]
  exact if_pos active

/-- One statement that leaves nothing, and the rest. -/
theorem Control.Walks.cons {script next : Script} {e : Event} {state : State} {c c' : Control}
    {events : List Event} {left : Bool} {flow : Flow}
    (walk : script.walk phase c = next.walk phase (c.ran phase e state))
    (run : script.run c.state = next.run state)
    (rest : Walks next phase frame events left (c.ran phase e state) c' flow) :
    Walks script phase frame (e :: events) left c c' flow where
  walked := walk.trans rest.walked
  state := rest.state.trans (congrArg Prod.fst run.symm)
  frames := rest.frames
  calls := rest.calls
  testJmp := rest.testJmp
  marks := by
    rw [rest.marks, Control.ran, List.append_assoc]
    rfl
  flow := rest.flow

theorem Control.Walks.jump {script : Script} {e : Event} {state : State} {c : Control} {exit : Exit}
    (walk : script.walk phase c = (c.ran phase e state).longjmp)
    (run : script.run c.state = (state, exit)) (pad : c.testJmp = some frame)
    (active : frame ∈ c.frames) :
    Walks script phase frame [e] true c ((c.ran phase e state).mark (.longjmp frame))
      (.jumped frame) where
  walked := walk.trans (Control.longjmp_of pad active)
  state := (congrArg Prod.fst run).symm
  frames := rfl
  calls := rfl
  testJmp := rfl
  marks := List.append_assoc _ _ _
  flow := rfl

variable (phase) in
/-- A function of a test that survives goes through the events it reaches. -/
theorem Script.walk_spec (script : Script) (c : Control) (armed : c.Armed frame)
    (survives : ∀ e ∈ (script.reach c.state.haveJmp c.state.rng).1, e.isDeath = false) :
    ∃ c' flow, Control.Walks script phase frame (script.reach c.state.haveJmp c.state.rng).1
      (script.reach c.state.haveJmp c.state.rng).2.1 c c' flow := by
  induction script generalizing c with
  | done => exact ⟨_, _, rfl, rfl, rfl, rfl, rfl, rfl, rfl⟩
  | event e next ih =>
      cases e with
      | passAssert =>
          have leaves : Event.leaves c.state.haveJmp .passAssert = false := rfl
          simp only [reach, leaves, Bool.false_eq_true, if_false] at survives ⊢
          obtain ⟨c', flow, rest⟩ := ih (c.ran phase .passAssert (ttPassAssert c.state)) armed
            fun e member => survives e (.tail _ member)
          exact ⟨c', flow, .cons rfl rfl rest⟩
      | failAssert location details fatal =>
          obtain ⟨diag, recorded⟩ := failAssert_eq location details c.state
          generalize next_state : details.foldl ttDetail (ttFailBegin location c.state) = state at recorded
          have pad : state.haveJmp = c.state.haveJmp := by rw [recorded]
          have rng : state.rng = c.state.rng := by rw [recorded]
          have leaves : Event.leaves c.state.haveJmp (.failAssert location details fatal) =
              (fatal && c.state.haveJmp) := rfl
          have walk : (Script.event (.failAssert location details fatal) next).walk phase c =
              if fatal && c.state.haveJmp then
                (c.ran phase (.failAssert location details fatal) state).longjmp
              else next.walk phase (c.ran phase (.failAssert location details fatal) state) := by
            simp only [Script.walk, next_state, Control.ran, pad]
          have run : (Script.event (.failAssert location details fatal) next).run c.state =
              if fatal && c.state.haveJmp then (state, .jumped) else next.run state := by
            simp only [Script.run, next_state, pad]
          simp only [reach, leaves] at survives ⊢
          by_cases jumps : (fatal && c.state.haveJmp) = true
          · rw [if_pos jumps] at walk run
            simp only [if_pos jumps]
            obtain ⟨set, active⟩ := armed (Bool.and_eq_true_iff.mp jumps).2
            exact ⟨_, _, .jump walk run set active⟩
          · rw [if_neg jumps] at walk run
            simp only [if_neg jumps] at survives ⊢
            have inner := ih (c.ran phase (.failAssert location details fatal) state)
              (fun set => armed (pad.symm.trans set))
            rw [show (c.ran phase (.failAssert location details fatal) state).state = state from rfl,
              pad, rng] at inner
            obtain ⟨c', flow, rest⟩ := inner fun e member => survives e (.tail _ member)
            exact ⟨c', flow, .cons walk run rest⟩
      | skip reason =>
          have leaves : Event.leaves c.state.haveJmp (.skip reason) = c.state.haveJmp := rfl
          simp only [reach, leaves] at survives ⊢
          by_cases jumps : c.state.haveJmp = true
          · simp only [if_pos jumps]
            obtain ⟨set, active⟩ := armed jumps
            exact ⟨_, _, .jump (if_pos jumps) (if_pos jumps) set active⟩
          · simp only [if_neg jumps] at survives ⊢
            obtain ⟨c', flow, rest⟩ := ih (c.ran phase (.skip reason)
              { c.state with skippedCurrent := true, skipReason := reason }) armed
              fun e member => survives e (.tail _ member)
            exact ⟨c', flow, .cons (if_neg jumps) (if_neg jumps) rest⟩
      | die status =>
          have dead := survives (.die status) (by simp [reach, Event.leaves])
          cases dead
  | rand next ih =>
      obtain ⟨c', flow, rest⟩ := ih _
        { c with state := c.state.drew (.rand (ttRand c.state.rng).1) (ttRand c.state.rng).2 }
        armed survives
      exact ⟨c', flow, rest.walked, rest.state, rest.frames, rest.calls, rest.testJmp, rest.marks,
        rest.flow⟩
  | randBelow bound next ih =>
      obtain ⟨c', flow, rest⟩ := ih _
        { c with
          state := c.state.drew (.below bound (ttRandBelow bound c.state.rng).1)
            (ttRandBelow bound c.state.rng).2 } armed survives
      exact ⟨c', flow, rest.walked, rest.state, rest.frames, rest.calls, rest.testJmp, rest.marks,
        rest.flow⟩

variable (phase frame) in
/-- `walk_spec` with the reached events, the way out and the generator state named. -/
theorem Script.walk_of_reach {script : Script} {c : Control} {jmp : Bool} {start : UInt64}
    {events : List Event} {left : Bool} {rng : UInt64} (armed : c.Armed frame)
    (pad : c.state.haveJmp = jmp) (drawn : c.state.rng = start)
    (reaches : script.reach jmp start = (events, left, rng))
    (survives : ∀ e ∈ events, e.isDeath = false) :
    ∃ c', Control.Walks script phase frame events left c c'
        (if left then .jumped frame else .returned) ∧
      script.run c.state = (c'.state, if left then .jumped else .returned) ∧
      c'.state.haveJmp = jmp ∧ c'.state.rng = rng := by
  have reaches' : script.reach c.state.haveJmp c.state.rng = (events, left, rng) := by
    rw [pad, drawn, reaches]
  obtain ⟨s', ran, spec⟩ := Script.run_of_reach pad drawn reaches survives
  obtain ⟨c', flow, walks⟩ := script.walk_spec phase c armed (by rwa [reaches'])
  rw [reaches'] at walks
  have same : c'.state = s' := by rw [walks.state, ran]
  refine ⟨c', walks.flow ▸ walks, ?_, ?_, ?_⟩
  · rw [ran, same]
  · rw [same, spec.haveJmp, pad]
  · rw [same, spec.rng]

end

/-- A wrapper returned, where its test survived. -/
structure Control.Returns (fn : TestFn) (c c' : Control) : Prop where
  walked : fn.walk c = .ok (c', .returned)
  run : fn.run c.state = (c'.state, .returned)
  frames : c'.frames = c.frames
  disarmed : c'.state.haveJmp = false
  marks : c'.marks = c.marks ++ fn.marks c.calls c.state.rng

/-- However a guarded function is left, control is in the wrapper again. -/
theorem lands (left : Bool) (frame : Nat) :
    (if left then Flow.jumped frame else .returned) = .returned ∨
      (if left then Flow.jumped frame else .returned) = .jumped frame := by
  cases left with
  | true => exact .inr rfl
  | false => exact .inl rfl

theorem TestFn.walk_plain (body : Script) (c : Control)
    (survives : ∀ e ∈ (body.reach true c.state.rng).1, e.isDeath = false) :
    ∃ c', Control.Returns (.plain body) c c' := by
  rcases reached : body.reach true c.state.rng with ⟨events, left, rng⟩
  rw [reached] at survives
  obtain ⟨c', walks, ran, _, _⟩ := Script.walk_of_reach .body c.calls
    (c := c.call.mark (.entered .body)) (fun _ => ⟨rfl, .head _⟩) rfl rfl reached survives
  refine ⟨c'.disarm.leave c.calls, ?_, ?_, ?_, rfl, ?_⟩
  · rw [TestFn.walk, walks.walked]
    exact if_pos (lands left c.calls)
  · have ran : body.run { c.state with haveJmp := true } = _ := ran
    rw [TestFn.run, ran]
    cases left with
    | true | false => rfl
  · change c'.frames.tail = c.frames
    rw [walks.frames]
    rfl
  · change c'.marks ++ [.returned c.calls] = _
    rw [walks.marks, TestFn.marks, reached]
    simp [Control.mark, Control.call]

theorem TestFn.walk_fixture (setup body teardown : Script) (c : Control)
    (survives : ∀ e ∈ ((TestFn.fixture setup body teardown).reach c.state.rng).1,
      e.isDeath = false) : ∃ c', Control.Returns (.fixture setup body teardown) c c' := by
  simp only [TestFn.reach] at survives
  rcases reached : setup.reach true c.state.rng with ⟨events, left, rng⟩
  rcases reachedBody : body.reach true rng with ⟨bodyEvents, bodyLeft, bodyRng⟩
  rcases reachedTeardown : teardown.reach false bodyRng with ⟨tornEvents, tornLeft, tornRng⟩
  simp only [reached, reachedBody, reachedTeardown] at survives
  have setupAlive : ∀ e ∈ events, e.isDeath = false := by
    cases left with
    | true => exact survives
    | false =>
        exact fun e member => survives e (List.mem_append_left _ (List.mem_append_left _ member))
  obtain ⟨c₁, walks, ran, armed₁, rng₁⟩ := Script.walk_of_reach .setup c.calls
    (c := c.call.mark (.entered .setup)) (fun _ => ⟨rfl, .head _⟩) rfl rfl
    reached setupAlive
  have ran : setup.run { c.state with haveJmp := true } = _ := ran
  cases left with
  | true =>
      refine ⟨c₁.disarm.leave c.calls, ?_, ?_, ?_, rfl, ?_⟩
      · rw [TestFn.walk, walks.walked]
        exact if_pos (.inr rfl)
      · rw [TestFn.run, ran]
        rfl
      · change c₁.frames.tail = c.frames
        rw [walks.frames]
        rfl
      · change c₁.marks ++ [.returned c.calls] = _
        rw [walks.marks, TestFn.marks, reached]
        simp [Control.mark, Control.call]
  | false =>
      simp only [Bool.false_eq_true, if_false, List.forall_mem_append] at survives
      obtain ⟨⟨_, bodyAlive⟩, tornAlive⟩ := survives
      have frames₁ : c₁.frames = c.calls :: c.frames := walks.frames
      have pad₁ : c₁.testJmp = some c.calls := walks.testJmp
      obtain ⟨c₂, walks₂, ran₂, _, rng₂⟩ := Script.walk_of_reach .body c.calls
        (c := c₁.mark (.entered .body))
        (fun _ => ⟨pad₁, frames₁ ▸ .head _⟩) armed₁ rng₁ reachedBody bodyAlive
      have ran₂ : body.run c₁.state = _ := ran₂
      have frames₂ : c₂.frames = c.calls :: c.frames := walks₂.frames.trans frames₁
      obtain ⟨c₃, walks₃, ran₃, disarmed, _⟩ := Script.walk_of_reach .teardown c.calls
        (c := c₂.disarm.mark (.entered .teardown))
        (fun set => Bool.noConfusion set) rfl rng₂ reachedTeardown tornAlive
      have ran₃ : teardown.run { c₂.state with haveJmp := false } = _ := ran₃
      have stays : tornLeft = false := by
        have kept := teardown.reach_noJump bodyRng
        rw [reachedTeardown] at kept
        exact kept tornAlive
      subst stays
      refine ⟨c₃.leave c.calls, ?_, ?_, ?_, disarmed, ?_⟩
      · simp only [TestFn.walk, walks.walked, bind, Except.bind, Bool.false_eq_true, if_false,
          decide_true, if_true, walks₂.walked]
        rw [if_pos (lands bodyLeft c.calls), walks₃.walked]
        rfl
      · cases bodyLeft with
        | true => simp only [TestFn.run, ran, ran₂, ran₃, Bool.false_eq_true, if_false, if_true]; rfl
        | false => simp only [TestFn.run, ran, ran₂, ran₃, Bool.false_eq_true, if_false]; rfl
      · change c₃.frames.tail = c.frames
        rw [walks₃.frames]
        change c₂.frames.tail = c.frames
        rw [frames₂]
        rfl
      · change c₃.marks ++ [.returned c.calls] = _
        rw [walks₃.marks]
        change c₂.marks ++ [.entered .teardown] ++ _ ++ _ = _
        rw [walks₂.marks]
        change c₁.marks ++ [.entered .body] ++ _ ++ _ ++ _ ++ _ = _
        rw [walks.marks]
        simp only [TestFn.marks, reached, reachedBody, reachedTeardown]
        simp [Control.mark, Control.call]

theorem TestFn.walk_spec (fn : TestFn) (c : Control)
    (survives : ∀ e ∈ (fn.reach c.state.rng).1, e.isDeath = false) :
    ∃ c', Control.Returns fn c c' := by
  cases fn with
  | plain body => exact TestFn.walk_plain body c survives
  | fixture setup body teardown => exact TestFn.walk_fixture setup body teardown c survives

/-! What the marks of a test say. -/

namespace Mark

/-- No jump may follow: the wrapper has returned, or is in the teardown. -/
def unarmed : Mark → Bool
  | .returned _ | .entered .teardown | .ran .teardown _ | .finished .teardown => true
  | _ => false

def jumps : Mark → Bool
  | .longjmp _ => true
  | _ => false

/-- A fatal failure or a skip in a setup or a body. -/
def leaves : Mark → Bool
  | .ran .setup e | .ran .body e => e.leaves true
  | _ => false

/-- A statement of a setup or a body. -/
def guarded : Mark → Bool
  | .ran .setup _ | .ran .body _ => true
  | _ => false

end Mark

/-- Every jump goes to the frame of the test's own wrapper while that is active, none from a
teardown, and after a fatal failure or a skip no statement of a setup or a body runs. -/
structure Landing (marks : List Mark) : Prop where
  pad : ∃ frame, marks.head? = some (.setjmp frame) ∧ ∀ target, .longjmp target ∈ marks → target = frame
  jumps : marks.Pairwise fun earlier later => earlier.unarmed = true → later.jumps = false
  stops : marks.Pairwise fun earlier later => earlier.leaves = true → later.guarded = false

/-- The teardown of a fixture runs once, to its end, if the setup ran to its end, and else not at
all; and what keeps a setup from its end is a fatal failure or a skip in it. -/
def TestFn.TornDown (marks : List Mark) : TestFn → Prop
  | .plain _ => .entered .teardown ∉ marks
  | .fixture _ _ _ =>
      marks.count (.entered .teardown) = (if .finished .setup ∈ marks then 1 else 0) ∧
      marks.count (.finished .teardown) = (if .finished .setup ∈ marks then 1 else 0) ∧
      (.finished .setup ∈ marks ↔ ∀ e, .ran .setup e ∈ marks → e.leaves true = false)

/-- Only the last event a script reaches leaves it. -/
theorem Script.reach_leaves (script : Script) (jmp : Bool) (rng : UInt64) :
    (script.reach jmp rng).1.Pairwise (fun earlier _ => earlier.leaves jmp = false) ∧
      ((script.reach jmp rng).2.1 = true ↔ ∃ e ∈ (script.reach jmp rng).1, e.leaves jmp = true) := by
  induction script generalizing rng with
  | done => exact ⟨.nil, by simp [reach]⟩
  | event e next ih =>
      obtain ⟨ordered, left⟩ := ih rng
      simp only [reach]
      by_cases leaves : e.leaves jmp = true
      · simp only [if_pos leaves]
        exact ⟨List.pairwise_singleton _ _, by simp [leaves]⟩
      · simp only [if_neg leaves]
        refine ⟨List.pairwise_cons.mpr ⟨fun _ _ => Bool.eq_false_iff.mpr leaves, ordered⟩, ?_⟩
        rw [left]
        simp [leaves]
  | rand next ih => exact ih _ _
  | randBelow bound next ih => exact ih _ _

/-- A list that `p` passes by up to its middle, and `q` from there on. -/
theorem pairwise_of_parts {p q : Mark → Bool} {marks : List Mark} (xs middle ys : List Mark)
    (parts : marks = xs ++ middle ++ ys) (calm : ∀ m ∈ xs, p m = false)
    (ordered : middle.Pairwise fun earlier later => p earlier = true → q later = false)
    (quiet : ∀ m ∈ ys, q m = false) :
    marks.Pairwise fun earlier later => p earlier = true → q later = false := by
  subst parts
  have first : (xs ++ middle).Pairwise fun earlier later => p earlier = true → q later = false := by
    refine List.pairwise_append.mpr ⟨?_, ordered, ?_⟩
    · refine List.pairwise_of_forall_mem_list fun earlier member _ _ passed => ?_
      rw [calm earlier member] at passed
      cases passed
    · intro earlier member _ _ passed
      rw [calm earlier member] at passed
      cases passed
  refine List.pairwise_append.mpr ⟨first, ?_, fun _ _ later member _ => quiet later member⟩
  exact List.pairwise_of_forall_mem_list fun _ _ later member _ => quiet later member

/-- The statements of one function, of which only the last leaves it. -/
theorem stops_of_ordered {phase : Phase} {events : List Event}
    (ordered : events.Pairwise fun earlier _ => earlier.leaves true = false) :
    (events.map (Mark.ran phase)).Pairwise fun earlier later =>
      earlier.leaves = true → later.guarded = false := by
  refine List.pairwise_map.mpr (ordered.imp fun stays leaves => ?_)
  cases phase with
  | setup | body => exact absurd leaves (by simp [Mark.leaves, stays])
  | teardown => cases leaves

theorem forall_trace {P : Mark → Prop} {phase : Phase} {frame : Nat} {events : List Event}
    {left : Bool} (ran : ∀ e, P (.ran phase e)) (jumped : left = true → P (.longjmp frame))
    (finished : left = false → P (.finished phase)) : ∀ m ∈ trace phase frame events left, P m := by
  intro m member
  cases List.mem_append.mp member with
  | inl statement =>
      obtain ⟨e, _, rfl⟩ := List.mem_map.mp statement
      exact ran e
  | inr last =>
      cases List.mem_singleton.mp last
      cases left with
      | true => exact jumped rfl
      | false => exact finished rfl

theorem trace_targets (phase : Phase) (frame : Nat) (events : List Event) (left : Bool) :
    ∀ m ∈ trace phase frame events left, ∀ target, m = .longjmp target → target = frame :=
  forall_trace (fun _ _ other => nomatch other) (fun _ _ same => (Mark.longjmp.inj same).symm)
    fun _ _ other => nomatch other

theorem trace_armed {phase : Phase} (guarded : phase ≠ .teardown) (frame : Nat)
    (events : List Event) (left : Bool) :
    ∀ m ∈ trace phase frame events left, m.unarmed = false := by
  cases phase with
  | teardown => exact absurd rfl guarded
  | setup | body => exact forall_trace (fun _ => rfl) (fun _ => rfl) fun _ => rfl

theorem count_entered_trace (phase entered : Phase) (frame : Nat) (events : List Event)
    (left : Bool) : (trace phase frame events left).count (.entered entered) = 0 := by
  refine List.count_eq_zero.mpr fun member => ?_
  have other : ∀ m ∈ trace phase frame events left, m ≠ .entered entered :=
    forall_trace (fun _ other => nomatch other) (fun _ other => nomatch other)
      fun _ other => nomatch other
  exact other _ member rfl

theorem count_finished_trace (phase finished : Phase) (frame : Nat) (events : List Event)
    (left : Bool) : (trace phase frame events left).count (.finished finished) =
      if left = false ∧ phase = finished then 1 else 0 := by
  have statements : (events.map (Mark.ran phase)).count (.finished finished) = 0 := by
    refine List.count_eq_zero.mpr fun member => ?_
    obtain ⟨e, _, other⟩ := List.mem_map.mp member
    cases other
  rw [trace, List.count_append, statements, Nat.zero_add, List.count_singleton]
  cases left <;> simp

section
variable (frame : Nat) (rng : UInt64)

theorem TestFn.marks_plain (body : Script) :
    Landing ((TestFn.plain body).marks frame rng) ∧
      (TestFn.plain body).TornDown ((TestFn.plain body).marks frame rng) := by
  obtain ⟨ordered, _⟩ := body.reach_leaves true rng
  rcases reached : body.reach true rng with ⟨events, left, after⟩
  rw [reached] at ordered
  simp only [TestFn.marks, reached, TornDown]
  refine ⟨⟨⟨frame, rfl, fun target member => ?_⟩, ?_, ?_⟩, ?_⟩
  · simp only [List.mem_append, List.mem_cons, reduceCtorEq, List.not_mem_nil, false_or, or_false]
      at member
    exact trace_targets .body frame events left _ member _ rfl
  · refine pairwise_of_parts (.setjmp frame :: .entered .body :: trace .body frame events left) []
      [.returned frame] (by simp) ?_ .nil (List.forall_mem_singleton.mpr rfl)
    exact List.forall_mem_cons.mpr ⟨rfl, List.forall_mem_cons.mpr ⟨rfl,
      trace_armed (by decide) frame events left⟩⟩
  · refine pairwise_of_parts [.setjmp frame, .entered .body] (events.map (.ran .body))
      [if left then .longjmp frame else .finished .body, .returned frame] (by simp [trace])
      (List.forall_mem_cons.mpr ⟨rfl, List.forall_mem_singleton.mpr rfl⟩) (stops_of_ordered ordered)
      (List.forall_mem_cons.mpr ⟨?_, List.forall_mem_singleton.mpr rfl⟩)
    cases left with
    | true | false => rfl
  · refine List.count_eq_zero.mp ?_
    simp [count_entered_trace]

/-- A setup that was left early. -/
theorem marks_cut {events : List Event}
    (ordered : events.Pairwise fun earlier _ => earlier.leaves true = false)
    (leaves : ∃ e ∈ events, e.leaves true = true) (setup body teardown : Script) :
    Landing (.setjmp frame :: .entered .setup :: trace .setup frame events true ++
        [.returned frame]) ∧
      (TestFn.fixture setup body teardown).TornDown
        (.setjmp frame :: .entered .setup :: trace .setup frame events true ++
          [.returned frame]) := by
  refine ⟨⟨⟨frame, rfl, fun target member => ?_⟩, ?_, ?_⟩, ?_⟩
  · simp only [List.mem_append, List.mem_cons, reduceCtorEq, List.not_mem_nil, false_or, or_false]
      at member
    exact trace_targets .setup frame events true _ member _ rfl
  · refine pairwise_of_parts (.setjmp frame :: .entered .setup :: trace .setup frame events true) []
      [.returned frame] (by simp) ?_ .nil (List.forall_mem_singleton.mpr rfl)
    exact List.forall_mem_cons.mpr ⟨rfl, List.forall_mem_cons.mpr ⟨rfl,
      trace_armed (by decide) frame events true⟩⟩
  · exact pairwise_of_parts [.setjmp frame, .entered .setup] (events.map (.ran .setup))
      [.longjmp frame, .returned frame] (by simp [trace])
      (List.forall_mem_cons.mpr ⟨rfl, List.forall_mem_singleton.mpr rfl⟩) (stops_of_ordered ordered)
      (List.forall_mem_cons.mpr ⟨rfl, List.forall_mem_singleton.mpr rfl⟩)
  · have unfinished : .finished .setup ∉
        .setjmp frame :: .entered .setup :: trace .setup frame events true ++ [.returned frame] := by
      refine List.count_eq_zero.mp ?_
      simp [count_finished_trace]
    refine ⟨?_, ?_, ?_⟩
    · rw [if_neg unfinished]
      simp [count_entered_trace]
    · rw [if_neg unfinished]
      simp [count_finished_trace]
    · refine iff_of_false unfinished fun stays => ?_
      obtain ⟨e, member, left⟩ := leaves
      have ran : .ran .setup e ∈
          .setjmp frame :: .entered .setup :: trace .setup frame events true ++ [.returned frame] := by
        simp [trace, member]
      rw [stays e ran] at left
      cases left

/-- A setup that ran to its end, the body and the teardown after it. -/
theorem marks_whole {events bodyEvents : List Event} (bodyLeft : Bool) (tornEvents : List Event)
    (stays : ∀ e ∈ events, e.leaves true = false)
    (ordered : bodyEvents.Pairwise fun earlier _ => earlier.leaves true = false)
    (setup body teardown : Script) :
    Landing (.setjmp frame :: .entered .setup :: trace .setup frame events false ++
        (.entered .body :: trace .body frame bodyEvents bodyLeft ++
          .entered .teardown :: trace .teardown frame tornEvents false) ++ [.returned frame]) ∧
      (TestFn.fixture setup body teardown).TornDown
        (.setjmp frame :: .entered .setup :: trace .setup frame events false ++
          (.entered .body :: trace .body frame bodyEvents bodyLeft ++
            .entered .teardown :: trace .teardown frame tornEvents false) ++ [.returned frame]) := by
  refine ⟨⟨⟨frame, rfl, fun target member => ?_⟩, ?_, ?_⟩, ?_⟩
  · simp only [List.mem_append, List.mem_cons, reduceCtorEq, List.not_mem_nil, false_or, or_false]
      at member
    rcases member with setup | body | teardown
    · exact trace_targets .setup frame events false _ setup _ rfl
    · exact trace_targets .body frame bodyEvents bodyLeft _ body _ rfl
    · exact trace_targets .teardown frame tornEvents false _ teardown _ rfl
  · refine pairwise_of_parts
      (.setjmp frame :: .entered .setup :: trace .setup frame events false ++
        .entered .body :: trace .body frame bodyEvents bodyLeft) []
      (.entered .teardown :: trace .teardown frame tornEvents false ++ [.returned frame]) (by simp)
      ?_ .nil ?_
    · exact List.forall_mem_append.mpr ⟨List.forall_mem_cons.mpr ⟨rfl, List.forall_mem_cons.mpr
        ⟨rfl, trace_armed (by decide) frame events false⟩⟩, List.forall_mem_cons.mpr
        ⟨rfl, trace_armed (by decide) frame bodyEvents bodyLeft⟩⟩
    · exact List.forall_mem_append.mpr ⟨List.forall_mem_cons.mpr ⟨rfl, forall_trace (fun _ => rfl)
        (fun left => nomatch left) fun _ => rfl⟩, List.forall_mem_singleton.mpr rfl⟩
  · refine pairwise_of_parts
      (.setjmp frame :: .entered .setup :: trace .setup frame events false ++ [.entered .body])
      (bodyEvents.map (.ran .body))
      ((if bodyLeft then .longjmp frame else .finished .body) :: .entered .teardown ::
        trace .teardown frame tornEvents false ++ [.returned frame]) (by simp [trace]) ?_
      (stops_of_ordered ordered) ?_
    · refine List.forall_mem_append.mpr ⟨List.forall_mem_cons.mpr ⟨rfl, List.forall_mem_cons.mpr
        ⟨rfl, ?_⟩⟩, List.forall_mem_singleton.mpr rfl⟩
      refine List.forall_mem_append.mpr ⟨fun m member => ?_, List.forall_mem_singleton.mpr rfl⟩
      obtain ⟨e, listed, rfl⟩ := List.mem_map.mp member
      exact stays e listed
    · refine List.forall_mem_append.mpr ⟨List.forall_mem_cons.mpr ⟨?_, List.forall_mem_cons.mpr
        ⟨rfl, forall_trace (fun _ => rfl) (fun left => nomatch left) fun _ => rfl⟩⟩,
        List.forall_mem_singleton.mpr rfl⟩
      cases bodyLeft with
      | true | false => rfl
  · have finished : .finished .setup ∈
        .setjmp frame :: .entered .setup :: trace .setup frame events false ++
          (.entered .body :: trace .body frame bodyEvents bodyLeft ++
            .entered .teardown :: trace .teardown frame tornEvents false) ++ [.returned frame] := by
      simp [trace]
    refine ⟨?_, ?_, ?_⟩
    · rw [if_pos finished]
      simp [count_entered_trace]
    · rw [if_pos finished]
      simp [count_finished_trace]
    · refine iff_of_true finished fun e member => stays e ?_
      have ran : e ∈ events ∨
          .ran .setup e = if bodyLeft then Mark.longjmp frame else .finished .body := by
        simpa [trace] using member
      cases ran with
      | inl listed => exact listed
      | inr other => cases bodyLeft <;> cases other

theorem TestFn.marks_spec (fn : TestFn) :
    Landing (fn.marks frame rng) ∧ fn.TornDown (fn.marks frame rng) := by
  cases fn with
  | plain body => exact TestFn.marks_plain frame rng body
  | fixture setup body teardown =>
      obtain ⟨ordered, leaves⟩ := setup.reach_leaves true rng
      rcases reached : setup.reach true rng with ⟨events, left, after⟩
      rw [reached] at ordered leaves
      simp only [TestFn.marks, reached]
      cases left with
      | true =>
          simp only [if_true, List.append_nil]
          exact marks_cut frame ordered (leaves.mp rfl) setup body teardown
      | false =>
          have stays : ∀ e ∈ events, e.leaves true = false := fun e member =>
            Bool.eq_false_iff.mpr fun left => Bool.noConfusion (leaves.mpr ⟨e, member, left⟩)
          simp only [Bool.false_eq_true, if_false]
          exact marks_whole frame _ _ stays (body.reach_leaves true after).1 setup body teardown

end

/-! The run. -/

/-- No landing pad is left after a test. -/
theorem ttRunOne_disarmed {host : Host} {config : Config} {t : Test} {n : Nat} {s after : State}
    {verdict : Verdict} (survives : t.Survives) (disarmed : s.haveJmp = false)
    (ran : ttRunOne host config t n s = .ok (after, verdict)) : after.haveJmp = false := by
  simp only [ttRunOne, survives.1] at ran
  cases isolate : config.isolate with
  | true =>
      simp only [isolate, if_true, runIsolated] at ran
      split at ran
      · cases ran
        exact disarmed
      · split at ran
        · cases ran
          exact disarmed
        · split at ran
          · cases ran
            exact disarmed
          · cases ran
            exact disarmed
  | false =>
      obtain ⟨c, returns⟩ := t.fn.walk_spec
        { state := s.forTest, frames := [], calls := 0, testJmp := none, marks := [] }
        (survives.2 s.rng)
      have left : (ttExecBody t s).1.haveJmp = false := by
        rw [ttExecBody_state]
        exact returns.run ▸ returns.disarmed
      rcases ended : ttExecBody t s with ⟨s', outcome⟩
      rw [ended] at left
      simp only [isolate, Bool.false_eq_true, if_false, runInProcess, ended] at ran
      cases outcome with
      | error status => cases ran
      | ok result =>
          cases result with
          | pass | fail | skip =>
              cases ran
              exact left

/-- Between the tests before this one there was no frame and no landing pad; and if it was executed,
the walk went where its scripts go, left the state they leave, and its marks are in order. -/
structure Walked.Lands (host : Host) (config : Config) (w : Walked) : Prop where
  idle : w.start.frames = []
  disarmed : w.start.state.haveJmp = false
  drawn : w.start.state.rng = w.turn.rng
  reached : w.turn.executed host config = true →
    w.marks = w.turn.test.fn.marks w.start.calls w.turn.rng
  ran : w.turn.executed host config = true →
    ∃ after, w.turn.walk host config w.start = .ok after ∧ after.marks = w.marks ∧
      w.turn.test.fn.run w.start.state.forTest = (after.state, .returned)
  landing : w.turn.executed host config = true → Landing w.marks
  tornDown : w.turn.executed host config = true → w.turn.test.fn.TornDown w.marks

theorem Turn.walk_spec (host : Host) (config : Config) (turn : Turn) (survives : turn.test.Survives)
    (start : Control) (idle : start.frames = []) (disarmed : start.state.haveJmp = false)
    (drawn : start.state.rng = turn.rng) (fresh : start.marks = []) :
    ∃ walked, turn.walk host config start = .ok walked ∧ walked.frames = [] ∧
      Walked.Lands host config { turn, start, marks := walked.marks } := by
  by_cases executed : turn.executed host config = true
  · obtain ⟨c', returns⟩ := turn.test.fn.walk_spec { start with state := start.state.forTest }
      (survives.2 start.state.rng)
    have marks := turn.test.fn.marks_spec start.calls turn.rng
    have same : c'.marks = turn.test.fn.marks start.calls turn.rng := by
      rw [returns.marks, fresh, ← drawn]
      rfl
    rw [← same] at marks
    have walked : turn.walk host config start = .ok c' := by
      rw [Turn.walk, if_pos executed, returns.walked]
      rfl
    exact ⟨c', walked, returns.frames.trans idle, idle, disarmed, drawn, fun _ => same,
      fun _ => ⟨c', walked, rfl, returns.run⟩, fun _ => marks.1, fun _ => marks.2⟩
  · exact ⟨start, if_neg executed, idle, idle, disarmed, drawn, fun ran => absurd ran executed,
      fun ran => absurd ran executed, fun ran => absurd ran executed,
      fun ran => absurd ran executed⟩

theorem walkList_spec (host : Host) (config : Config) {list : List Test}
    (survives : ∀ t ∈ list, t.Survives) {n : Nat} {c : Control} (idle : c.frames = [])
    (disarmed : c.state.haveJmp = false) :
    ∃ walked, walkList host config list n c = .ok walked ∧
      walked.map Walked.turn = givenTurns host config list n c.state ∧
      ∀ w ∈ walked, w.Lands host config := by
  induction list generalizing n c with
  | nil => exact ⟨[], rfl, rfl, List.forall_mem_nil _⟩
  | cons t rest ih =>
      have later : ∀ t ∈ rest, t.Survives := fun t member => survives t (.tail _ member)
      simp only [walkList, givenTurns]
      by_cases selected : ttSelected config t = true
      · simp only [if_pos selected]
        obtain ⟨walked, ran, left, lands⟩ := Turn.walk_spec host config
          { test := t, number := n + 1, rng := c.state.rng } (survives t (.head _))
          { c with marks := [] } idle disarmed rfl rfl
        simp only [ran, bind, Except.bind]
        cases one : ttRunOne host config t (n + 1) c.state with
        | error status => exact ⟨_, rfl, rfl, List.forall_mem_singleton.mpr lands⟩
        | ok result =>
            obtain ⟨after, verdict⟩ := result
            dsimp only
            by_cases stop : config.failFast = true ∧ 0 < after.testsFailed
            · simp only [if_pos stop]
              exact ⟨_, rfl, rfl, List.forall_mem_singleton.mpr lands⟩
            · simp only [if_neg stop]
              have idle' : (if config.isolate = true then { c with marks := [] }
                  else walked).frames = [] := by
                split
                · exact idle
                · exact left
              obtain ⟨others, more, turns, landed⟩ := ih later (n := n + 1)
                (c := { (if config.isolate = true then { c with marks := [] } else walked) with
                  state := after })
                idle' (ttRunOne_disarmed (survives t (.head _)) disarmed one)
              simp only [more]
              exact ⟨_, rfl, congrArg (_ :: ·) turns, List.forall_mem_cons.mpr ⟨lands, landed⟩⟩
      · simp only [if_neg selected]
        exact ih later idle disarmed

/-- Whatever passes, fails or is skipped in the setups, bodies and teardowns, control goes where the
executed scripts go, every jump of a run lands in the wrapper of its own test, every fixture that
was set up is torn down once, and without `--fail-fast` every selected test gets its turn. -/
theorem ttRunAll_lands (host : Host) (qsort : Qsort) (argv : List CString) (registry : Registry)
    (survives : ∀ t ∈ registry.table ++ registry.registered, t.Survives) :
    ∃ result walked,
      ttRunAll host qsort argv registry = .ok result ∧
      walkAll host qsort argv registry = .ok walked ∧
      walked.map Walked.turn = result.records.map Record.toTurn ∧
      (∀ w ∈ walked, w.Lands host (ttParseArgs host argv)) ∧
      ((ttParseArgs host argv).listOnly = false → (ttParseArgs host argv).failFast = false →
        result.records.map (fun r => r.test) =
          (ttCollect qsort registry).filter (ttSelected (ttParseArgs host argv))) := by
  have collected : ∀ t ∈ ttCollect qsort registry, t.Survives :=
    fun t member => survives t (mem_ttCollect qsort registry t member)
  simp only [ttRunAll, walkAll]
  by_cases listOnly : (ttParseArgs host argv).listOnly = true
  · simp only [if_pos listOnly]
    exact ⟨_, _, rfl, rfl, rfl, List.forall_mem_nil _, fun off => absurd listOnly (by simp [off])⟩
  · simp only [if_neg listOnly]
    obtain ⟨m, s', ran, _⟩ := ttRunList_spec host (ttParseArgs host argv)
      (ttCollect qsort registry) 0
      (State.print { rng := (ttParseArgs host argv).seed }
        [.version, .seed (ttParseArgs host argv).seed]) collected fun _ => rfl
    obtain ⟨walked, walks, turns, lands⟩ := walkList_spec host (ttParseArgs host argv)
      collected (n := 0)
      (c := { state := State.print { rng := (ttParseArgs host argv).seed }
                [.version, .seed (ttParseArgs host argv).seed]
              frames := [], calls := 0, testJmp := none, marks := [] }) rfl rfl
    have given := ttRunList_given ran
    have selected := fun onward => ttRunList_selected onward ran
    rw [ran, walks]
    exact ⟨_, _, rfl, rfl, turns.trans given.symm, lands, fun _ => selected⟩

/-- A failing test, and a fixture whose body and teardown fail. -/
theorem ttRunAll_lands_scripted :
    ∃ result walked,
      ttRunAll { strtoull := fun _ => 0 } .merge [] ⟨[failingTest], [scriptedTest]⟩ = .ok result ∧
      walkAll { strtoull := fun _ => 0 } .merge [] ⟨[failingTest], [scriptedTest]⟩ = .ok walked ∧
      ∀ w ∈ walked, w.Lands { strtoull := fun _ => 0 } {} := by
  have survives : ∀ t ∈ [failingTest] ++ [scriptedTest], t.Survives := by
    intro t member
    rcases List.mem_cons.mp member with rfl | later
    · exact ⟨rfl, fun rng => by
        simp [failingTest, TestFn.reach, Script.reach, Event.leaves, Event.isDeath]⟩
    · cases List.mem_singleton.mp later
      exact ⟨rfl, fun rng => by
        simp [scriptedTest, TestFn.reach, Script.reach, Event.leaves, Event.isDeath]⟩
  obtain ⟨result, walked, ran, walks, _, lands, _⟩ := ttRunAll_lands { strtoull := fun _ => 0 }
    .merge [] ⟨[failingTest], [scriptedTest]⟩ survives
  exact ⟨result, walked, ran, walks, lands⟩

end AgencC.Harness
