import AgencC.Arena.Depth
import AgencC.Arena.Reallocation

/-! A call that fails changes nothing but the status, and then nothing succeeds until the status
is cleared. -/

set_option autoImplicit false

namespace AgencC.Arena

open Library

variable {σ : Type} {build : Build} {parent : AllocT σ} {Out : World σ → List Region → Prop}

/-- The calls that may return an allocation. -/
def Op.Allocating : Op σ → Prop
  | .allocate _ | .realloc _ _ _ _ | .xrealloc _ _ _ _ => True
  | _ => False

/-- The calls that clear the status. -/
def Op.Clearing : Op σ → Prop
  | .clearError | .reset | .deinit => True
  | _ => False

/-! An arena with an error. -/

section
variable {s : State σ}

theorem allocDefault_latched (failed : s.arena.status ≠ .ok) (size : Nat) :
    allocDefault build size s = .ok (0, s) :=
  if_pos (by simp [State.canServe, failed])

theorem allocImpl_latched (failed : s.arena.status ≠ .ok) (count size align : Nat) :
    allocImpl build count size align s = .ok (0, s) :=
  if_pos (by simp [State.canServe, failed])

theorem Request.run_latched (failed : s.arena.status ≠ .ok) (request : Request) :
    request.run build s = .ok (0, s) := by
  cases request with
  | alloc size => exact allocDefault_latched failed size
  | allocZeroed size =>
      exact bind_eq_ok.mpr ⟨_, allocDefault_latched failed size, if_neg (not_not_intro rfl)⟩
  | allocN count size align => exact allocImpl_latched failed count size align
  | allocNZeroed count size align =>
      exact bind_eq_ok.mpr ⟨_, allocImpl_latched failed count size align,
        if_neg (not_not_intro rfl)⟩
  | memdup src size => exact if_pos (by simp [State.canServe, failed])
  | xalloc size align => exact allocImpl_latched failed 1 size align

theorem realloc_latched (failed : s.arena.status ≠ .ok) (ptr oldSize newSize align : Nat) :
    realloc build ptr oldSize newSize align s = .ok (0, s) :=
  if_pos (by simp [State.canServe, failed])

end

/-- An arena with an error refuses every allocating call, and nothing changes. -/
theorem Session.step_latched {s : Session σ} (failed : s.state.arena.status ≠ .ok) {op : Op σ}
    (allocating : op.Allocating) : s.step build op = .ok (0, s) := by
  cases op with
  | allocate request =>
      exact bind_eq_ok.mpr ⟨_, Request.run_latched failed request, rfl⟩
  | realloc ptr oldSize newSize align | xrealloc ptr oldSize newSize align =>
      exact bind_eq_ok.mpr ⟨_, realloc_latched failed ptr oldSize newSize align, rfl⟩
  | _ => exact allocating.elim

/-- A call that does not clear the status of an arena with an error leaves it alone. -/
theorem Account.Effect.latched {t t' : Account σ} {op : Op σ} {ptr : Nat}
    (ran : t.step build op = .ok (ptr, t')) (failed : t.image.status ≠ .ok)
    (keeping : ¬ op.Clearing) (effect : t.Effect build parent Out op t') :
    t'.image.status = t.image.status := by
  cases effect with
  | advanced advancing advances =>
      cases op with
      | allocate request =>
          obtain ⟨⟨fresh, image⟩, called, same⟩ := bind_eq_ok.mp ran
          cases same
          cases Request.image_allocates called with
          | rejected ready some none => exact absurd ready failed
          | served product served rewritten unserved =>
              cases (if_pos failed).symm.trans served
              obtain ⟨world, rfl, _⟩ := rewritten
              rfl
      | realloc ptr oldSize newSize align | xrealloc ptr oldSize newSize align =>
          obtain ⟨⟨fresh, image⟩, called, same⟩ := bind_eq_ok.mp ran
          cases (if_pos failed).symm.trans called
          cases same
          rfl
      | xfree ptr size align =>
          cases ran
          dsimp only
          split
          · rfl
          · unfold Image.xfree
            split <;> rfl
      | clearError => exact absurd trivial keeping
      | _ => exact advancing.elim
  | trimmed trimmed => exact trimmed.status
  | begun => rfl
  | ended inner grown marks same unwound lit => exact unwound.status
  | reset rewound => exact absurd trivial keeping
  | deinit ran renewed => exact absurd trivial keeping
  | elsewhere world => rfl

theorem Session.Shows.status {s : Session σ} {t : Account σ} (shows : s.Shows t) :
    s.state.arena.status = t.image.status := by
  rw [shows.1.arena]
  rfl

theorem Session.run_latched (conforms : parent.Conforms Out) {s s' : Session σ} {t : Account σ}
    (shows : s.Shows t) (kept : t.Kept build parent Out) (failed : s.state.arena.status ≠ .ok)
    {ops : List (Op σ)} {ptrs : List Nat}
    (allowed : s.Allows build (fun s op => op.Legal Out s ∧ ¬ op.Clearing) ops)
    (ran : s.run build ops = .ok (ptrs, s')) :
    s'.state.arena.status = s.state.arena.status := by
  have kept := Session.run_induction
    (fun now => now.state.arena.status = s.state.arena.status ∧
      ∃ t, now.Shows t ∧ t.Kept build parent Out) ?_ ⟨rfl, t, shows, kept⟩ allowed ran
  · exact kept.1
  · intro now op ptr next holds may stepped
    obtain ⟨before, t, shows, kept⟩ := holds
    obtain ⟨t', followed, shows', kept', effect⟩ :=
      Session.step_follows conforms shows kept may.1 stepped
    refine ⟨?_, t', shows', kept'⟩
    rw [shows'.status, effect.latched followed (shows.status ▸ before ▸ failed) may.2,
      ← shows.status, before]

/-! A call that fails. -/

/-- The status of a verdict. -/
def Verdict.status : Verdict → Status
  | .argument => .errArg
  | .overflow | .unplaceable => .errOverflow
  | .exhausted | .growth => .errAlloc
  | .nothing | .current => .ok

/-- The status of a call that fails in this state. -/
def Op.failure (build : Build) (s : State σ) : Op σ → Status
  | .allocate request =>
      match request with
      | .memdup src size =>
          if src = 0 ∧ size ≠ 0 then .errArg
          else (verdict build s.arena.fixed s.room 1 size 0).status
      | _ => (verdict build s.arena.fixed s.room 1 request.total request.align).status
  | .realloc _ _ newSize align | .xrealloc _ _ newSize align =>
      if newSize = 0 then .errArg else (verdict build s.arena.fixed s.room 1 newSize align).status
  | _ => .ok

/-- The status is another one. At most the parent refused one request; what it left alone is as it
was. -/
structure State.Failed (s : State σ) (status : Status) (s' : State σ) : Prop where
  failure : status ≠ .ok
  arena : s'.arena = { s.arena with status }
  blocks : ∀ block, s'.blocks.lookup block = s.blocks.lookup block
  kept : s.world.Keeps s.regions s'.world
  asked : s'.world = s.world ∨ status = .errAlloc ∧ ∃ size,
    s.arena.parent.xalloc size 0 s.world = .ok (0, s'.world)

section
variable {s s' : State σ} {a a' : Image σ}

theorem State.Failed.of_alike (ready : s.arena.status = .ok) {status : Status}
    (failure : status ≠ .ok) (alike : (s.fail status).Alike s') : s.Failed status s' := by
  have failed : s.fail status = { s with arena := { s.arena with status } } := if_pos ready
  rw [failed] at alike
  refine ⟨failure, alike.arena, alike.blocks, ?_, .inl alike.world⟩
  rw [alike.world]
  exact .refl _ _

/-- An allocation that returns NULL for more than nothing has failed, as its verdict says. -/
theorem State.Answers.failed (ready : s.arena.status = .ok) {free : List Cell} {total align : Nat}
    {v : Verdict} (answers : s.Answers build free total align 0 s' v) (some : v ≠ .nothing)
    (kept : s.world.Keeps s.regions s'.world) : s.Failed v.status s' := by
  have header : blockHdr = 32 := rfl
  cases v with
  | argument | overflow | unplaceable | exhausted =>
      exact .of_alike ready (fun impossible => nomatch impossible) answers.2
  | nothing => exact absurd rfl some
  | current =>
      obtain ⟨place, member, null, _⟩ := answers
      obtain ⟨h, _, rfl⟩ := Option.map_eq_some_iff.mp member
      dsimp only at null
      omega
  | growth =>
      generalize answer : 0 = ptr at answers
      cases answers with
      | reused smaller c others listed first large current moved status unasked =>
          unfold Cell.data at answer
          omega
      | obtained none given asked current moved status => omega
      | refused none asked arena world blocks =>
          exact ⟨fun impossible => (nomatch impossible), arena, blocks, kept,
            .inr ⟨rfl, _, world ▸ asked⟩⟩

theorem verdict_total (fixed : Bool) (room : Option (Nat × Nat)) {count size total : Nat}
    (product : count * size = total) (align : Nat) :
    verdict build fixed room count size align = verdict build fixed room 1 total align := by
  subst product
  unfold verdict
  rw [Nat.one_mul]

/-- What a call that asks for nothing comes to, it says itself. -/
theorem verdict_nothing {fixed : Bool} {room : Option (Nat × Nat)} {count size align : Nat}
    (nothing : verdict build fixed room count size align = .nothing) : count * size = 0 := by
  unfold verdict at nothing
  split at nothing
  · cases nothing
  · split at nothing
    · case isTrue empty => exact empty
    · split at nothing
      · cases nothing
      · split at nothing
        · cases nothing
        · split at nothing
          · cases nothing
          · split at nothing <;> cases nothing

theorem Image.Sane.allocImpl_failed (conforms : parent.Conforms Out)
    (sane : a.Sane build parent Out) (shows : s.Shows a) (ready : s.arena.status = .ok)
    {count size total align : Nat} (product : count * size = total) (some : total ≠ 0)
    (word : align ≤ sizeMax) (ran : a.allocImpl build count size align = .ok (0, a'))
    (shows' : s'.Shows a') :
    s.Failed (verdict build s.arena.fixed s.room 1 total align).status s' := by
  have able : a.status = .ok := by
    rw [shows.arena] at ready
    exact ready
  have fixed : s.arena.fixed = a.fixed := by rw [shows.arena]; rfl
  have answers := sane.toOwned.allocImpl_answers shows able count size word ran shows'
  obtain ⟨_, _, again, _, outcome⟩ := sane.allocImpl conforms count size word
  cases ran.symm.trans again
  have keeps : s.world.Keeps s.regions s'.world := by
    cases outcome with
    | inl refused =>
        obtain ⟨_, status, world, rfl, refusal⟩ := refused
        rw [shows.world, shows'.world]
        exact fun r member => refusal.keeps r (shows.regions.mem_iff.mp member)
    | inr served => exact absurd rfl served.2.2.2.nonzero
  rw [← fixed] at answers
  rw [← verdict_total s.arena.fixed s.room product align]
  exact answers.failed ready (fun nothing => some (product ▸ verdict_nothing nothing)) keeps

theorem verdict_invalid (fixed : Bool) (room : Option (Nat × Nat)) (count size : Nat) {align : Nat}
    (word : align ≤ sizeMax) (invalid : alignValid align = false) :
    verdict build fixed room count size align = .argument := by
  have known : alignValid align = true ↔ align = 0 ∨ ∃ k ≤ 16, align = 2 ^ k := alignValid_iff word
  refine if_pos fun plain => ?_
  rw [known.mpr plain] at invalid
  cases invalid

theorem Image.lastAt_null (size : Nat) : a.lastAt build 0 size = none := by
  cases last : a.lastAt build 0 size with
  | none => rfl
  | some found =>
      have above : found.1.addr + 32 ≤ 0 := (Image.lastAt_some last).2.1
      omega

theorem Image.resizeLast_null (oldSize newSize : Nat) :
    a.resizeLast build 0 oldSize newSize = none := by
  rw [Image.resizeLast, Image.lastAt_null]

theorem Image.allocNZeroed_refused {count size align : Nat}
    (ran : a.allocNZeroed build count size align = .ok (0, a')) :
    a.allocImpl build count size align = .ok (0, a') := by
  obtain ⟨⟨fresh, b⟩, served, rest⟩ := bind_eq_ok.mp ran
  by_cases null : fresh = 0
  · cases (if_pos null).symm.trans rest
    rw [served, null]
  · cases (if_neg null).symm.trans rest
    exact absurd rfl null

theorem Image.memdup_refused (able : a.status = .ok) {src size : Nat}
    (ran : a.memdup build src size = .ok (0, a')) :
    (src = 0 ∧ size ≠ 0) ∧ a' = a.fail .errArg ∨
      ¬ (src = 0 ∧ size ≠ 0) ∧ a.allocImpl build 1 size 0 = .ok (0, a') := by
  rw [Image.memdup, if_neg (not_not_intro able)] at ran
  by_cases missing : src = 0 ∧ size ≠ 0
  · cases (if_pos missing).symm.trans ran
    exact .inl ⟨missing, rfl⟩
  · obtain ⟨⟨fresh, b⟩, served, rest⟩ := bind_eq_ok.mp ((if_neg missing).symm.trans ran)
    by_cases null : fresh = 0
    · cases (if_pos null).symm.trans rest
      exact .inr ⟨missing, by rw [served, null]⟩
    · cases (if_neg null).symm.trans rest
      exact absurd rfl null

theorem Image.Sane.request_failed (conforms : parent.Conforms Out)
    (sane : a.Sane build parent Out) (shows : s.Shows a) (ready : s.arena.status = .ok)
    {request : Request} (some : request.total ≠ 0) (word : request.align ≤ sizeMax)
    (ran : request.image build a = .ok (0, a')) (shows' : s'.Shows a') :
    s.Failed (Op.failure build s (.allocate request)) s' := by
  have able : a.status = .ok := by
    rw [shows.arena] at ready
    exact ready
  cases request with
  | alloc size =>
      exact sane.allocImpl_failed conforms shows ready (Nat.one_mul size) some word ran shows'
  | allocZeroed size =>
      exact sane.allocImpl_failed conforms shows ready (Nat.one_mul size) some word
        (Image.allocNZeroed_refused ran) shows'
  | allocN count size align =>
      exact sane.allocImpl_failed conforms shows ready rfl some word ran shows'
  | allocNZeroed count size align =>
      exact sane.allocImpl_failed conforms shows ready rfl some word
        (Image.allocNZeroed_refused ran) shows'
  | memdup src size =>
      rw [Op.failure]
      cases Image.memdup_refused able ran with
      | inl rejected =>
          obtain ⟨missing, rfl⟩ := rejected
          rw [if_pos missing]
          exact .of_alike ready (fun impossible => nomatch impossible)
            ((shows.fail .errArg).alike shows')
      | inr refused =>
          rw [if_neg refused.1]
          exact sane.allocImpl_failed conforms shows ready (Nat.one_mul size) some word refused.2 shows'
  | xalloc size align =>
      exact sane.allocImpl_failed conforms shows ready (Nat.one_mul size) some word ran shows'

theorem Image.Sane.realloc_failed (conforms : parent.Conforms Out)
    (sane : a.Sane build parent Out) (shows : s.Shows a) (ready : s.arena.status = .ok)
    {ptr oldSize newSize align : Nat} (word : align ≤ sizeMax)
    (ran : a.realloc build ptr oldSize newSize align = .ok (0, a')) (shows' : s'.Shows a') :
    s.Failed (if newSize = 0 then .errArg
      else (verdict build s.arena.fixed s.room 1 newSize align).status) s' := by
  have able : a.status = .ok := by
    rw [shows.arena] at ready
    exact ready
  have reallocates := Image.realloc_reallocates ran
  generalize answer : 0 = fresh at reallocates
  cases reallocates with
  | resized _ done =>
      subst answer
      cases (Image.resizeLast_null oldSize newSize).symm.trans done
  | moved demanded served unserved after =>
      subst answer
      have same := unserved rfl
      subst same
      rw [if_neg (demanded able)]
      exact sane.allocImpl_failed conforms shows ready (Nat.one_mul newSize) (demanded able) word served
        shows'
  | rejected _ wrong =>
      have status : (if newSize = 0 then Status.errArg
          else (verdict build s.arena.fixed s.room 1 newSize align).status) = .errArg := by
        split
        · rfl
        · case isFalse some =>
            rw [verdict_invalid s.arena.fixed s.room 1 newSize word (wrong.resolve_right some)]
            rfl
      rw [status]
      exact .of_alike ready (fun impossible => nomatch impossible)
        ((shows.fail .errArg).alike shows')

end

/-- A call that asks for something; of `arena_realloc`, any call. -/
def Op.Demanding : Op σ → Prop
  | .allocate request => request.total ≠ 0
  | .realloc _ _ _ _ | .xrealloc _ _ _ _ => True
  | _ => False

/-- A call that fails in an arena with no error leaves everything but the status as it was. -/
theorem Session.step_failed (conforms : parent.Conforms Out) {s s' : Session σ} {t : Account σ}
    (shows : s.Shows t) (kept : t.Kept build parent Out) (ready : s.state.arena.status = .ok)
    {op : Op σ} (legal : op.Legal Out s) (demanding : op.Demanding)
    (ran : s.step build op = .ok (0, s')) :
    s.state.Failed (op.failure build s.state) s'.state ∧ s'.books = s.books := by
  obtain ⟨t', followed, shows', _, _⟩ := Session.step_follows conforms shows kept legal ran
  have kept : t.image.Kept build parent Out t.books := kept
  cases op with
  | allocate request =>
      obtain ⟨⟨fresh, image⟩, called, same⟩ := bind_eq_ok.mp followed
      cases same
      refine ⟨kept.sane.request_failed conforms shows.1 ready demanding legal called shows'.1, ?_⟩
      rw [shows'.2, shows.2]
      change Books.allocated 0 request.total request.align image.world.bytes t.books = t.books
      exact if_pos rfl
  | realloc ptr oldSize newSize align | xrealloc ptr oldSize newSize align =>
      obtain ⟨⟨fresh, image⟩, called, same⟩ := bind_eq_ok.mp followed
      cases same
      refine ⟨kept.sane.realloc_failed conforms shows.1 ready legal.1 called shows'.1, ?_⟩
      rw [shows'.2, shows.2]
      change Books.reallocated ptr oldSize newSize align 0 image.world.bytes t.books = t.books
      exact if_pos rfl
  | _ => exact demanding.elim

/-- After any legal run, a call that fails changes the status and nothing else. From then on, until
the status is cleared, every allocating call returns NULL, whatever the parent would do, and changes
nothing. -/
theorem Session.run_failures (conforms : parent.Conforms Out) {s₀ s : Session σ}
    (started : s₀.Started build parent Out) {ops : List (Op σ)} {ptrs : List Nat}
    (allowed : s₀.Allows build (fun s op => op.Legal Out s) ops)
    (reached : s₀.run build ops = .ok (ptrs, s)) :
    (s.state.arena.status = .ok → ∀ (op : Op σ) (s' : Session σ), op.Legal Out s → op.Demanding →
      s.step build op = .ok (0, s') →
      s.state.Failed (op.failure build s.state) s'.state ∧ s'.books = s.books) ∧
    (s.state.arena.status ≠ .ok → ∀ (later : List (Op σ)) (ptrs : List Nat) (s' : Session σ),
      s.Allows build (fun s op => op.Legal Out s ∧ ¬ op.Clearing) later →
      s.run build later = .ok (ptrs, s') →
      s'.state.arena.status = s.state.arena.status ∧
      ∀ (op : Op σ), op.Allocating → ∀ p : AllocT σ,
        Session.step build { s' with state := s'.state.under p } op =
          .ok (0, { s' with state := s'.state.under p })) := by
  obtain ⟨t, shows, kept⟩ := Session.run_kept conforms started allowed reached
  refine ⟨fun ready op s' legal demanding ran =>
    Session.step_failed conforms shows kept ready legal demanding ran, ?_⟩
  intro failed later ptrs s' allowed ran
  have same := Session.run_latched conforms shows kept failed allowed ran
  refine ⟨same, fun op allocating p => Session.step_latched ?_ allocating⟩
  exact fun ready => failed (same ▸ ready)

theorem Session.run_failures_overflow :
    ∃ ptrs s s', Session.rising.run .sanitized [.allocate (.alloc 100)] = .ok (ptrs, s) ∧
      s.step .sanitized (.allocate (.allocN (2 ^ 32) (2 ^ 32) 0)) = .ok (0, s') ∧
      s.state.Failed .errOverflow s'.state := by
  have conforms := risingParent_conforms 0x100000 (by decide)
  have reached : Session.rising.run .sanitized [.allocate (.alloc 100)] = .ok _ := rfl
  have allowed : Session.rising.Allows .sanitized (fun s op => op.Legal (RisingOut 0x100000) s)
      [.allocate (.alloc 100)] := .cons rfl (Nat.zero_le _) trivial
  have failures := Session.run_failures conforms (Session.rising_started _) allowed reached
  refine ⟨_, _, _, reached, rfl, ?_⟩
  exact (failures.1 rfl (.allocate (.allocN (2 ^ 32) (2 ^ 32) 0)) _ (Nat.zero_le _)
    (show 2 ^ 32 * 2 ^ 32 ≠ 0 by decide) rfl).1

end AgencC.Arena
