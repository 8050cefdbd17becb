import AgencC.Arena.Poisoning

/-! How many scopes are open, and the 32-bit counter that `arena_temp_end` checks. -/

set_option autoImplicit false

namespace AgencC.Arena

open Library

variable {σ : Type} {build : Build} {parent : AllocT σ} {Out : World σ → List Region → Prop}

/-- The counter does not wrap. -/
def Op.Shallow (s : Session σ) : Op σ → Prop
  | .tempBegin => s.books.outer.length + 1 < 2 ^ 32
  | _ => True

/-- Each snapshot has the number of the scope it began. -/
def Numbered : Suspended → Prop
  | [] => True
  | (temp, _) :: rest => temp.depth = rest.length + 1 ∧ Numbered rest

structure Account.Deep (t : Account σ) : Prop where
  bound : t.books.outer.length < 2 ^ 32
  depth : t.image.tempDepth = t.books.outer.length
  numbered : Numbered t.books.outer

theorem Account.Deep.level {t : Account σ} (deep : t.Deep) (op : Op σ) : t.Level build op := by
  cases op with
  | tempEnd =>
      refine .inr fun entry first => ?_
      have numbered := deep.numbered
      rw [deep.depth]
      cases outer : t.books.outer with
      | nil =>
          rw [outer] at first
          cases first
      | cons top rest =>
          rw [outer] at first numbered
          cases first
          exact numbered.1
  | _ => trivial

theorem Account.Deep.closed {image : Image σ} {b : Books} (none : image.tempDepth = 0) :
    Account.Deep { image, books := b.closed } :=
  ⟨Nat.two_pow_pos 32, none, trivial⟩

/-- Each call but a begin at the limit keeps the depths. -/
theorem Account.Effect.deep {s : Session σ} {t t' : Account σ} {op : Op σ} (shows : s.Shows t)
    (deep : t.Deep) (shallow : op.Shallow s) (effect : t.Effect build parent Out op t') :
    t'.Deep := by
  have bound := deep.bound
  cases effect with
  | @advanced _ t' advancing advances =>
      have outer := advances.outer
      exact ⟨outer ▸ bound, advances.tempDepth.trans (outer ▸ deep.depth), outer ▸ deep.numbered⟩
  | trimmed trimmed => exact ⟨bound, trimmed.tempDepth.trans deep.depth, deep.numbered⟩
  | begun =>
      have room : t.books.outer.length + 1 < 2 ^ 32 := shows.2 ▸ shallow
      have next : (t.image.tempDepth + 1) % 2 ^ 32 = t.books.outer.length + 1 := by
        rw [deep.depth]
        exact Nat.mod_eq_of_lt room
      exact ⟨room, next, next, deep.numbered⟩
  | @ended temp outer rest image inner grown marks same unwound lit =>
      have numbered := deep.numbered
      have depth := deep.depth
      rw [inner] at numbered bound depth
      refine ⟨Nat.lt_of_succ_lt bound, ?_, numbered.2⟩
      rw [unwound.tempDepth, depth]
      rfl
  | reset rewound => exact .closed rewound.tempDepth
  | deinit ran renewed =>
      obtain ⟨world, same⟩ := renewed
      subst same
      exact .closed rfl
  | elsewhere world => exact ⟨bound, deep.depth, deep.numbered⟩

theorem Session.Started.deep {s : Session σ} (started : s.Started build parent Out) {t : Account σ}
    (shows : s.Shows t) : t.Deep := by
  have outer : t.books.outer = [] := by
    rw [← shows.2]
    cases started <;> rfl
  have depth : t.image.tempDepth = 0 := by
    rw [← shows.level]
    cases started with
    | init => rfl
    | sized minBlock maxBlock world contents out =>
        unfold initSized
        split <;> rfl
    | fixed buffer size world contents null nothing fits done =>
        obtain ⟨a, shown, _, _, none, _⟩ := initFixed_shows fits done
        rw [shown.arena]
        exact none
  refine ⟨?_, ?_, ?_⟩
  · rw [outer]
    exact Nat.two_pow_pos 32
  · rw [outer, depth]
    rfl
  · rw [outer]
    trivial

/-- A legal run in which no scope is begun with 2 ^ 32 - 1 scopes open always returns: no assertion
fails, no access is out of bounds, and every loop ends. -/
theorem Session.run_total (conforms : parent.Conforms Out) {s : Session σ}
    (started : s.Started build parent Out) {ops : List (Op σ)}
    (allowed : s.Allows build (fun s op => op.Legal Out s ∧ op.Shallow s) ops) :
    ∃ ptrs s', s.run build ops = .ok (ptrs, s') := by
  obtain ⟨t, shows, kept⟩ := started.kept conforms
  have ran := Session.run_progress
    (fun s => ∃ t, s.Shows t ∧ t.Kept build parent Out ∧ t.Deep) ?_
    ⟨t, shows, kept, started.deep shows⟩ allowed
  · obtain ⟨ptrs, s', ran, _⟩ := ran
    exact ⟨ptrs, s', ran⟩
  · intro s op holds may
    obtain ⟨t, shows, kept, deep⟩ := holds
    obtain ⟨ptr, s', _, ran, _⟩ :=
      Session.step_refines conforms shows kept may.1 (deep.level op)
    obtain ⟨t', _, shows', kept', effect⟩ := Session.step_follows conforms shows kept may.1 ran
    exact ⟨ptr, s', ran, t', shows', kept', effect.deep shows deep may.2⟩

theorem Session.run_total_scope :
    ∃ ptrs s', Session.rising.run .sanitized scopeCalls = .ok (ptrs, s') := by
  have conforms := risingParent_conforms 0x100000 (by decide)
  have word : 64 ≤ sizeMax := by decide
  have shallow : 0 + 1 < 2 ^ 32 := by decide
  refine Session.run_total conforms (Session.rising_started _) ?_
  refine .cons rfl ⟨Nat.zero_le _, trivial⟩ (.cons rfl ⟨trivial, shallow⟩
    (.cons rfl ⟨word, trivial⟩ (.cons rfl ⟨⟨word, .inr (.head _)⟩, trivial⟩ ?_)))
  exact .cons rfl ⟨List.cons_ne_nil _ _, trivial⟩ trivial

/-! A counter that has wrapped. -/

/-- The snapshots of `n` scopes of an empty arena. -/
def emptyScopes : Nat → Suspended
  | 0 => []
  | n + 1 =>
      ({ block := 0, blockUsed := 0, used := 0, generation := 0, depth := (n + 1) % 2 ^ 32 }, .empty)
        :: emptyScopes n

/-- An empty arena with `n` open scopes, where the counter says `depth`. -/
def Session.scoped (n depth : Nat) : Session Nat where
  state :=
    { Session.rising.state with
      arena := { Session.rising.state.arena with tempDepth := depth } }
  books := { Session.rising.books with outer := emptyScopes n }

theorem Session.scoped_begin (build : Build) (n : Nat) :
    (Session.scoped n (n % 2 ^ 32)).step build .tempBegin =
      .ok (0, Session.scoped (n + 1) ((n + 1) % 2 ^ 32)) := by
  have next : (n % 2 ^ 32 + 1) % 2 ^ 32 = (n + 1) % 2 ^ 32 := Nat.mod_add_mod _ _ _
  have begun : tempBegin (Session.scoped n (n % 2 ^ 32)).state =
      .ok ({ block := 0, blockUsed := 0, used := 0, generation := 0
             depth := (n % 2 ^ 32 + 1) % 2 ^ 32 },
        (Session.scoped n ((n % 2 ^ 32 + 1) % 2 ^ 32)).state) := rfl
  rw [Session.step, begun, next]
  rfl

theorem Session.scoped_run (build : Build) (n m : Nat) :
    (Session.scoped m (m % 2 ^ 32)).run build (List.replicate n .tempBegin) =
      .ok (List.replicate n 0, Session.scoped (m + n) ((m + n) % 2 ^ 32)) := by
  induction n generalizing m with
  | zero => rfl
  | succ n ih =>
      have later := ih (m + 1)
      rw [Nat.add_right_comm] at later
      rw [List.replicate_succ, Session.run, Session.scoped_begin, ok_bind]
      exact congrArg (· >>= _) later

theorem Session.scoped_allows {build : Build} {Out : World Nat → List Region → Prop}
    {ops : List (Op Nat)} (n m : Nat)
    (allowed : (Session.scoped (m + n) ((m + n) % 2 ^ 32)).Allows build
      (fun s op => op.Legal Out s) ops) :
    (Session.scoped m (m % 2 ^ 32)).Allows build (fun s op => op.Legal Out s)
      (List.replicate n .tempBegin ++ ops) := by
  induction n generalizing m with
  | zero => exact allowed
  | succ n ih =>
      exact .cons (Session.scoped_begin build m) trivial
        (ih (m + 1) (by rw [Nat.add_right_comm]; exact allowed))

/-- The counter is left at 0 by the end of a scope that wrapped it. -/
theorem Session.scoped_end (n : Nat) (wraps : (n + 1) % 2 ^ 32 = 0) :
    (Session.scoped (n + 1) ((n + 1) % 2 ^ 32)).step .sanitized .tempEnd =
      .ok (0, Session.scoped n 0) := by
  have top : emptyScopes (n + 1) =
      ({ block := 0, blockUsed := 0, used := 0, generation := 0, depth := (n + 1) % 2 ^ 32 }, .empty)
        :: emptyScopes n := rfl
  rw [wraps] at top ⊢
  have ended : tempEnd .sanitized
      { block := 0, blockUsed := 0, used := 0, generation := 0, depth := 0 }
      (Session.scoped (n + 1) 0).state = .ok (Session.scoped n 0).state := rfl
  have outer : (Session.scoped (n + 1) 0).books.outer = _ := top
  rw [Session.step, outer]
  dsimp only
  rw [ended]
  rfl

theorem Session.scoped_stops (n : Nat) (counts : (n + 1) % 2 ^ 32 ≠ 0) :
    (Session.scoped (n + 1) 0).step .sanitized .tempEnd =
      .error (.assertion "temp.depth == a->temp_depth") := by
  have outer : (Session.scoped (n + 1) 0).books.outer =
      ({ block := 0, blockUsed := 0, used := 0, generation := 0, depth := (n + 1) % 2 ^ 32 }, .empty)
        :: emptyScopes n := rfl
  rw [Session.step, outer]
  dsimp only
  have checked : Build.sanitized.check ((n + 1) % 2 ^ 32 = 0) "temp.depth == a->temp_depth" =
      .error (.assertion "temp.depth == a->temp_depth") := if_neg counts
  have stopped : tempEnd .sanitized
      { block := 0, blockUsed := 0, used := 0, generation := 0, depth := (n + 1) % 2 ^ 32 }
      (Session.scoped (n + 1) 0).state =
        .error (.assertion "temp.depth == a->temp_depth") := by
    have generation : Build.sanitized.check (0 = (Session.scoped (n + 1) 0).state.arena.generation)
        "temp.generation == a->generation" = .ok () := rfl
    unfold tempEnd
    dsimp only
    rw [generation, ok_bind]
    exact congrArg (· >>= _) checked
  rw [stopped]
  rfl

/-- After 2 ^ 32 nested begins, the second end stops at its depth check. -/
theorem Session.run_wraps :
    ∃ ops : List (Op Nat),
      Session.rising.Allows .sanitized (fun s op => op.Legal (RisingOut 0x100000) s) ops ∧
        Session.rising.run .sanitized ops = .error (.assertion "temp.depth == a->temp_depth") := by
  have limit : 4294967294 + 1 + 1 = 2 ^ 32 := rfl
  generalize 4294967294 = n at limit
  have wraps : (n + 1 + 1) % 2 ^ 32 = 0 := by rw [limit]; exact Nat.mod_self _
  have counts : (n + 1) % 2 ^ 32 ≠ 0 := by omega
  have first := Session.scoped_end (n + 1) wraps
  have second := Session.scoped_stops n counts
  refine ⟨List.replicate (n + 1 + 1) .tempBegin ++ [.tempEnd, .tempEnd], ?_, ?_⟩
  · refine Session.scoped_allows (n + 1 + 1) 0 ?_
    rw [Nat.zero_add]
    refine .cons first (List.cons_ne_nil _ _) ⟨List.cons_ne_nil _ _, fun ptr s' ran => ?_⟩
    cases second.symm.trans ran
  · have begun := Session.scoped_run .sanitized (n + 1 + 1) 0
    rw [Nat.zero_add] at begun
    refine (Session.run_append begun _).trans ?_
    rw [Session.run, first, ok_bind]
    exact congrArg (fun run => (run >>= _) >>= _) (congrArg (· >>= _) second)

end AgencC.Arena
