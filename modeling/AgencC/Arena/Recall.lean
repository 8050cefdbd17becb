import AgencC.Arena.Sparing

/-! What a call does to an arena and to its client's ledgers, whatever bytes are on record. -/

set_option autoImplicit false

namespace AgencC.Arena

open Library

variable {σ : Type}

def Books.recall (contents : Nat → UInt8) (b : Books) : Books := { b with contents }

def Session.recall (contents : Nat → UInt8) (s : Session σ) : Session σ :=
  { s with books := s.books.recall contents }

/-- The bytes of `x` are those on record. -/
def Session.Recorded (s : Session σ) (x : Span) : Prop :=
  ∀ q, x.Covers q → s.state.world.bytes q = s.books.contents q

namespace Books

variable {b : Books} {contents : Nat → UInt8}

/-- The same ledgers for other contents, which are right where those were, if `known`. -/
def Recalls (b b' : Books) (contents : Nat → UInt8) (known : Prop) (after : Books) : Prop :=
  ∃ contents', after = b'.recall contents' ∧
    (known → ∀ x ∈ b'.live, (x ∈ b.live → ∀ q, x.Covers q → contents q = b.contents q) →
      ∀ q, x.Covers q → contents' q = b'.contents q)

/-- Where nothing is put on record. -/
theorem Recalls.same {b' : Books} {known : Prop} (live : ∀ x ∈ b'.live, x ∈ b.live)
    (same : b'.contents = b.contents) : b.Recalls b' contents known (b'.recall contents) :=
  ⟨contents, rfl, fun _ x member agree q covers => by rw [same, agree (live x member) q covers]⟩

theorem allocated_recall (contents : Nat → UInt8) (ptr size align : Nat) (bytes : Nat → UInt8)
    (known : Prop) :
    b.Recalls (b.allocated ptr size align bytes) contents known
      ((b.recall contents).allocated ptr size align bytes) := by
  unfold allocated
  by_cases null : ptr = 0
  · rw [if_pos null, if_pos null]
    exact .same (fun _ => id) rfl
  · rw [if_neg null, if_neg null]
    refine ⟨_, rfl, fun _ x member agree q covers => ?_⟩
    by_cases inside : Span.Covers { addr := ptr, size, align } q
    · exact (carry_fresh inside inside.1).trans (carry_fresh inside inside.1).symm
    · refine (carry_outside inside).trans (Eq.trans ?_ (carry_outside inside).symm)
      cases mem_live_add.mp member with
      | inl same => exact absurd (same ▸ covers) inside
      | inr earlier => exact agree earlier q covers

theorem reallocated_recall (contents : Nat → UInt8) (ptr oldSize newSize align fresh : Nat) (bytes : Nat → UInt8) :
    b.Recalls (b.reallocated ptr oldSize newSize align fresh bytes) contents
      (fresh ≠ 0 → ∀ q, Span.Covers { addr := ptr, size := oldSize, align } q →
        contents q = b.contents q)
      ((b.recall contents).reallocated ptr oldSize newSize align fresh bytes) := by
  by_cases refused : fresh = 0
  · unfold reallocated
    rw [if_pos refused, if_pos refused]
    exact .same (fun _ => id) rfl
  · by_cases null : ptr = 0
    · unfold reallocated
      rw [if_neg refused, if_neg refused, if_pos null, if_pos null]
      exact allocated_recall contents fresh newSize align bytes _
    · obtain ⟨live, outer, recorded⟩ :=
        b.reallocated_live oldSize newSize align null refused bytes
      obtain ⟨live', outer', recorded'⟩ :=
        (b.recall contents).reallocated_live oldSize newSize align null refused bytes
      refine ⟨((b.recall contents).reallocated ptr oldSize newSize align fresh bytes).contents, ?_, ?_⟩
      · unfold reallocated
        rw [if_neg refused, if_neg refused, if_neg null, if_neg null]
        split <;> rfl
      · intro known x member agree q covers
        rw [recorded, recorded']
        by_cases inside : Span.Covers { addr := fresh, size := newSize, align } q
        · by_cases before : q < fresh + min oldSize newSize
          · rw [carry_kept inside before, carry_kept inside before]
            have low : fresh ≤ q := inside.1
            refine known refused _ ⟨Nat.le_add_right _ _, ?_⟩
            dsimp only
            omega
          · rw [carry_fresh inside (Nat.le_of_not_lt before),
              carry_fresh inside (Nat.le_of_not_lt before)]
        · rw [carry_outside inside, carry_outside inside]
          refine agree ?_ q covers
          cases mem_live.mp member with
          | inl here =>
              rw [live] at here
              cases here with
              | head => exact absurd covers inside
              | tail _ earlier => exact mem_live.mpr (.inl (List.mem_of_mem_erase earlier))
          | inr later => exact mem_live.mpr (.inr (outer ▸ later))

theorem freed_live_subset (ptr size align : Nat) (ignored : Bool) :
    ∀ x ∈ (b.freed ptr size align ignored).live, x ∈ b.live := by
  intro x member
  unfold freed at member
  by_cases null : ptr = 0
  · rwa [if_pos null] at member
  · rw [if_neg null] at member
    cases ignored <;> exact mem_live_of_drop b.contents member

theorem freed_recall (contents : Nat → UInt8) (ptr size align : Nat) (ignored : Bool) :
    b.Recalls (b.freed ptr size align ignored) contents True
      ((b.recall contents).freed ptr size align ignored) := by
  have same : (b.freed ptr size align ignored).contents = b.contents := by
    unfold freed
    split <;> rfl
  have after : (b.recall contents).freed ptr size align ignored =
      (b.freed ptr size align ignored).recall contents := by
    unfold freed
    split
    · rfl
    · cases ignored <;> rfl
  rw [after]
  exact .same (freed_live_subset ptr size align ignored) same

end Books

section
variable {build : Build} {parent : AllocT σ} {Out : World σ → List Region → Prop}

theorem Session.step_tempEnd_none {s : Session σ} (none : s.books.outer = []) :
    s.step build .tempEnd = .ok (0, s) := by
  rw [Session.step, none]

theorem Session.step_tempEnd_some {s : Session σ} {temp : TempT} {outer : Ledger} {rest : Suspended}
    (inner : s.books.outer = (temp, outer) :: rest) :
    s.step build .tempEnd = tempEnd build temp s.state >>= fun state =>
      .ok (0, { state, books := s.books.ended outer rest }) := by
  rw [Session.step, inner]

/-- A call does the same to an arena and the ledgers, whatever is on record. -/
theorem Session.step_recall {s s' : Session σ} {op : Op σ} {ptr : Nat} (contents : Nat → UInt8)
    (ran : s.step build op = .ok (ptr, s')) :
    ∃ contents', (s.recall contents).step build op = .ok (ptr, s'.recall contents') ∧
      ((∀ x, op.span = some x → ptr ≠ 0 → ∀ q, x.Covers q → contents q = s.books.contents q) →
        ∀ x ∈ s'.books.live, (x ∈ s.books.live → ∀ q, x.Covers q → contents q = s.books.contents q) →
        ∀ q, x.Covers q → contents' q = s'.books.contents q) := by
  cases op with
  | allocate request =>
      obtain ⟨⟨_, state⟩, called, same⟩ := bind_eq_ok.mp ran
      cases same
      obtain ⟨contents', after, agree⟩ := Books.allocated_recall (b := s.books) contents
        ptr request.total request.align state.world.bytes True
      refine ⟨contents', bind_eq_ok.mpr ⟨_, called, ?_⟩, fun _ => agree trivial⟩
      exact congrArg (fun books => Except.ok (ptr, Session.mk state books)) after
  | realloc given oldSize newSize align | xrealloc given oldSize newSize align =>
      obtain ⟨⟨_, state⟩, called, same⟩ := bind_eq_ok.mp ran
      cases same
      obtain ⟨contents', after, agree⟩ := Books.reallocated_recall (b := s.books)
        contents given oldSize newSize align ptr state.world.bytes
      refine ⟨contents', bind_eq_ok.mpr ⟨_, called, ?_⟩, fun known => agree (known _ rfl)⟩
      exact congrArg (fun books => Except.ok (ptr, Session.mk state books)) after
  | xfree given size align =>
      obtain ⟨state, called, same⟩ := bind_eq_ok.mp ran
      cases same
      obtain ⟨contents', after, agree⟩ := Books.freed_recall (b := s.books) contents
        given size align (state.arena.used = s.state.arena.used)
      refine ⟨contents', bind_eq_ok.mpr ⟨_, called, ?_⟩, fun _ => agree trivial⟩
      exact congrArg (fun books => Except.ok (0, Session.mk state books)) after
  | tempBegin =>
      obtain ⟨⟨temp, state⟩, called, same⟩ := bind_eq_ok.mp ran
      cases same
      refine ⟨contents, bind_eq_ok.mpr ⟨_, called, rfl⟩, fun _ x member agree => agree ?_⟩
      exact (List.mem_append.mp member).resolve_left (List.not_mem_nil)
  | tempEnd =>
      cases inner : s.books.outer with
      | nil =>
          cases (Session.step_tempEnd_none inner).symm.trans ran
          exact ⟨contents, Session.step_tempEnd_none inner, fun _ x member agree => agree member⟩
      | cons entry rest =>
          obtain ⟨temp, outer⟩ := entry
          obtain ⟨state, called, same⟩ :=
            bind_eq_ok.mp ((Session.step_tempEnd_some inner).symm.trans ran)
          cases same
          refine ⟨contents, (Session.step_tempEnd_some (s := s.recall contents) inner).trans
            (bind_eq_ok.mpr ⟨_, called, rfl⟩), fun _ x member agree => agree ?_⟩
          rw [Books.mem_live, inner]
          exact .inr member
  | reset | deinit =>
      obtain ⟨state, called, same⟩ := bind_eq_ok.mp ran
      cases same
      refine ⟨contents, bind_eq_ok.mpr ⟨_, called, rfl⟩, fun _ x member => ?_⟩
      cases member
  | trim =>
      obtain ⟨state, called, same⟩ := bind_eq_ok.mp ran
      cases same
      exact ⟨contents, bind_eq_ok.mpr ⟨_, called, rfl⟩, fun _ x member agree => agree member⟩
  | clearError =>
      cases ran
      exact ⟨contents, rfl, fun _ x member agree => agree member⟩
  | elsewhere world =>
      cases ran
      exact ⟨world.bytes, rfl, fun _ x member _ q _ => rfl⟩

variable (build parent Out) in
/-- The arena keeps the ledgers of its client, whatever is on record. -/
def Session.Settled (s : Session σ) : Prop :=
  ∃ a : Image σ, s.state.Shows a ∧
    a.Kept build parent Out (s.books.recall s.state.world.bytes)

theorem Image.Kept.recall {a : Image σ} {b : Books} (kept : a.Kept build parent Out b) :
    a.Kept build parent Out (b.recall a.world.bytes) where
  sane := kept.sane
  lie := kept.lie
  current := kept.current
  written _ _ _ _ := rfl
  quiet := kept.quiet

theorem Op.Legal.recall {s : Session σ} {op : Op σ} (legal : op.Legal Out s)
    (contents : Nat → UInt8) : op.Legal Out (s.recall contents) := by
  cases op with
  | elsewhere world => exact ⟨legal.out, legal.poisoned⟩
  | _ => exact legal

/-- An account of the arena, for the bytes as they are. -/
theorem Session.Settled.account {s : Session σ} (settled : s.Settled build parent Out) :
    ∃ t : Account σ, (s.recall s.state.world.bytes).Shows t ∧ t.Kept build parent Out ∧
      t.books = s.books.recall s.state.world.bytes := by
  obtain ⟨a, shows, kept⟩ := settled
  exact ⟨{ image := a, books := s.books.recall s.state.world.bytes }, ⟨shows, rfl⟩, kept, rfl⟩

/-- What a call that is taken leaves of the record. -/
theorem Session.Settled.step (conforms : parent.Conforms Out) {s s' : Session σ}
    (settled : s.Settled build parent Out) {op : Op σ} (legal : op.Legal Out s) {ptr : Nat}
    (ran : s.step build op = .ok (ptr, s')) :
    s'.Settled build parent Out ∧
      ((∀ x, op.span = some x → ptr ≠ 0 → s.Recorded x) → ∀ x ∈ s'.books.live,
        (x ∈ s.books.live → s.Recorded x) → s'.Recorded x) ∧
      (op.Plain → ∀ x ∈ s.books.live, op.span ≠ some x → ∀ q, x.Covers q →
        s'.state.world.bytes q = s.state.world.bytes q ∧
          s'.state.world.poisoned q = s.state.world.poisoned q) := by
  obtain ⟨t, shows, kept, books⟩ := settled.account
  obtain ⟨contents, ran', agree⟩ := Session.step_recall s.state.world.bytes ran
  have legal := legal.recall s.state.world.bytes
  obtain ⟨t', followed, shows', kept', _⟩ := Session.step_follows conforms shows kept legal ran'
  have before : s.state.world = t.image.world := shows.1.world
  have after : s'.state.world = t'.image.world := shows'.1.world
  have books' : s'.books.recall contents = t'.books := shows'.2
  have kept' : t'.image.Kept build parent Out (s'.books.recall contents) := by
    rw [books']
    exact kept'
  refine ⟨⟨t'.image, shows'.1, ?_⟩, fun known x member earlier q covers => ?_, ?_⟩
  · rw [after]
    exact kept'.recall
  · rw [after, ← agree known x member earlier q covers]
    exact kept'.written x member q covers
  · intro plain x member other q covers
    rw [after, before]
    exact kept.spares conforms shows legal plain followed (books ▸ member) other covers

/-- A call on single allocations returns. -/
theorem Session.Settled.returns (conforms : parent.Conforms Out) {s : Session σ}
    (settled : s.Settled build parent Out) {op : Op σ} (legal : op.Legal Out s)
    (plain : op.Plain) : ∃ ptr s', s.step build op = .ok (ptr, s') := by
  obtain ⟨t, shows, kept, _⟩ := settled.account
  have level : t.Level build op := by
    cases op with
    | tempEnd => exact plain.elim
    | _ => trivial
  obtain ⟨ptr, s', _, ran, _⟩ :=
    Session.step_refines conforms shows kept (legal.recall s.state.world.bytes) level
  obtain ⟨contents, again, _⟩ := Session.step_recall s.books.contents ran
  exact ⟨ptr, _, again⟩

/-- What is live and was not given to the call stays live, in its scope. -/
theorem Session.step_live {s s' : Session σ} {op : Op σ} (plain : op.Plain) {ptr : Nat}
    (ran : s.step build op = .ok (ptr, s')) :
    s'.books.outer = s.books.outer ∧
      ∀ x ∈ s.books.scope.live, op.span ≠ some x → x ∈ s'.books.scope.live := by
  have allocated : ∀ (size align : Nat) (bytes : Nat → UInt8),
      (s.books.allocated ptr size align bytes).outer = s.books.outer ∧
        ∀ x ∈ s.books.scope.live, x ∈ (s.books.allocated ptr size align bytes).scope.live := by
    intro size align bytes
    unfold Books.allocated
    split
    · exact ⟨rfl, fun _ => id⟩
    · exact ⟨rfl, fun _ => List.mem_cons_of_mem _⟩
  cases op with
  | allocate request =>
      obtain ⟨⟨_, state⟩, called, same⟩ := bind_eq_ok.mp ran
      cases same
      obtain ⟨outer, live⟩ := allocated request.total request.align state.world.bytes
      exact ⟨outer, fun x member _ => live x member⟩
  | realloc given oldSize newSize align | xrealloc given oldSize newSize align =>
      obtain ⟨⟨_, state⟩, called, same⟩ := bind_eq_ok.mp ran
      cases same
      dsimp only
      by_cases refused : ptr = 0
      · rw [Books.reallocated, if_pos refused]
        exact ⟨rfl, fun _ member _ => member⟩
      · by_cases null : given = 0
        · rw [Books.reallocated, if_neg refused, if_pos null]
          obtain ⟨outer, live⟩ := allocated newSize align state.world.bytes
          exact ⟨outer, fun x member _ => live x member⟩
        · obtain ⟨live, outer, _⟩ :=
            s.books.reallocated_live oldSize newSize align null refused state.world.bytes
          refine ⟨outer, fun x member other => ?_⟩
          rw [live]
          refine .tail _ ((List.mem_erase_of_ne fun same => other ?_).mpr member)
          exact congrArg some same.symm
  | xfree given size align =>
      obtain ⟨state, called, same⟩ := bind_eq_ok.mp ran
      cases same
      dsimp only
      by_cases null : given = 0
      · rw [Books.freed, if_pos null]
        exact ⟨rfl, fun _ member _ => member⟩
      · refine ⟨?_, fun x member other => ?_⟩
        · rw [Books.freed, if_neg null]
          split <;> rfl
        · rw [s.books.freed_live null]
          exact (List.mem_erase_of_ne fun same => other (congrArg some same.symm)).mpr member
  | trim =>
      obtain ⟨state, called, same⟩ := bind_eq_ok.mp ran
      cases same
      exact ⟨rfl, fun _ member _ => member⟩
  | clearError =>
      cases ran
      exact ⟨rfl, fun _ member _ => member⟩
  | tempBegin | tempEnd | reset | deinit | elsewhere _ => exact plain.elim

end

end AgencC.Arena
