import AgencC.Arena.Echoes
import AgencC.Arena.Resetting
import AgencC.Arena.Rewind

/-! A workload that is run again after a rewind gets the same addresses, and asks for nothing. -/

set_option autoImplicit false

namespace AgencC.Arena

open Library

variable {σ : Type} {build : Build} {parent : AllocT σ} {Out : World σ → List Region → Prop}

/-- The calls of a workload. -/
def Op.Working : Op σ → Prop
  | .allocate _ | .realloc _ _ _ _ | .xrealloc _ _ _ _ | .xfree _ _ _ => True
  | _ => False

/-! The books of two runs. -/

section
variable {b b' : Books}

theorem Books.allocated_congr (same : b'.scope.live = b.scope.live) (ptr size align : Nat)
    (bytes bytes' : Nat → UInt8) : (b'.allocated ptr size align bytes').scope.live =
      (b.allocated ptr size align bytes).scope.live := by
  rw [Books.allocated, Books.allocated]
  split
  · exact same
  · exact congrArg (List.cons _) same

theorem Books.reallocated_congr (same : b'.scope.live = b.scope.live)
    (ptr oldSize newSize align fresh : Nat) (bytes bytes' : Nat → UInt8) :
    (b'.reallocated ptr oldSize newSize align fresh bytes').scope.live =
      (b.reallocated ptr oldSize newSize align fresh bytes).scope.live := by
  by_cases null : fresh = 0
  · rw [Books.reallocated, Books.reallocated, if_pos null, if_pos null]
    exact same
  · by_cases missing : ptr = 0
    · rw [Books.reallocated, Books.reallocated, if_neg null, if_pos missing, if_neg null,
        if_pos missing]
      exact Books.allocated_congr same fresh newSize align bytes bytes'
    · rw [(b'.reallocated_live oldSize newSize align missing null bytes').1,
        (b.reallocated_live oldSize newSize align missing null bytes).1, same]

theorem Books.freed_congr (same : b'.scope.live = b.scope.live) (ptr size align : Nat)
    (ignored ignored' : Bool) : (b'.freed ptr size align ignored').scope.live =
      (b.freed ptr size align ignored).scope.live := by
  by_cases null : ptr = 0
  · rw [Books.freed, Books.freed, if_pos null, if_pos null]
    exact same
  · rw [b'.freed_live null, b.freed_live null, same]

end

/-- The images echo, and the same is live. -/
structure Account.Echoes (t : Account σ) (pending rest : List Cell) (u : Account σ) : Prop where
  image : t.image.Echoes pending rest u.image
  live : u.books.scope.live = t.books.scope.live

/-- The call enters these blocks, and where they are there already it returns the same. -/
def Account.Echoed (build : Build) (t : Account σ) (op : Op σ) (ptr : Nat) (t' : Account σ) : Prop :=
  ∃ entered : List Cell,
    t'.image.chain.map Cell.bare = entered.reverse ++ t.image.chain.map Cell.bare ∧
      ∀ (u : Account σ) (pending rest : List Cell), t.Echoes (entered ++ pending) rest u →
        ∃ u', u.step build op = .ok (ptr, u') ∧ t'.Echoes pending rest u' ∧
          u.image.Unasked u'.image

/-- What an image's call echoes, the account's does. -/
theorem Image.Echoed.account {t : Account σ} {op : Op σ} {ptr : Nat} {image : Image σ}
    {books : Books} {call : Image σ → Except Fault (Nat × Image σ)}
    (echoed : t.image.Echoed call ptr image)
    (follows : ∀ (u : Account σ) (image : Image σ), call u.image = .ok (ptr, image) →
      u.books.scope.live = t.books.scope.live → ∃ after, u.step build op =
        .ok (ptr, { image, books := after }) ∧ after.scope.live = books.scope.live) :
    t.Echoed build op ptr { image, books } := by
  obtain ⟨entered, chain, again⟩ := echoed
  refine ⟨entered, chain, fun u pending rest echoes => ?_⟩
  obtain ⟨image', ran, echoes', unasked⟩ := again u.image pending rest echoes.image
  obtain ⟨after, stepped, live⟩ := follows u image' ran echoes.live
  exact ⟨_, stepped, ⟨echoes', live⟩, unasked⟩

theorem Account.step_echoed (conforms : parent.Conforms Out) {s : Session σ} {t t' : Account σ}
    (shows : s.Shows t) (kept : t.Kept build parent Out) {op : Op σ} {ptr : Nat}
    (working : op.Working) (legal : op.Legal Out s) (ran : t.step build op = .ok (ptr, t'))
    (same : t'.image.status = t.image.status) : t.Echoed build op ptr t' := by
  have kept : t.image.Kept build parent Out t.books := kept
  have placed : ∀ {p size align : Nat}, { addr := p, size, align } ∈ t.books.scope.live →
      p ≠ 0 → t.image.chain ≠ [] := by
    intro p size align member given
    obtain ⟨c, listed, _⟩ := ((kept.resizable (.inr member)).2 given).1
    exact List.ne_nil_of_mem listed
  cases op with
  | allocate request =>
      obtain ⟨⟨fresh, image⟩, called, same⟩ := bind_eq_ok.mp ran
      cases same
      refine (kept.sane.request_echoed conforms legal called same).account fun u after ran live => ?_
      exact ⟨_, bind_eq_ok.mpr ⟨_, ran, rfl⟩, Books.allocated_congr live _ _ _ _ _⟩
  | realloc p oldSize newSize align | xrealloc p oldSize newSize align =>
      obtain ⟨⟨fresh, image⟩, called, same⟩ := bind_eq_ok.mp ran
      cases same
      have held : p ≠ 0 → t.image.chain ≠ [] := by
        intro given
        cases legal.2 with
        | inl null => exact absurd null.1 given
        | inr member => exact placed (shows.2 ▸ member) given
      refine (kept.sane.realloc_echoed conforms legal.1 held called same).account
        fun u after ran live => ?_
      exact ⟨_, bind_eq_ok.mpr ⟨_, ran, rfl⟩, Books.reallocated_congr live _ _ _ _ _ _ _⟩
  | xfree p size align =>
      cases ran
      by_cases null : p = 0
      · have idle : t.image.Echoed (fun image => .ok (0, image)) 0 t.image :=
          .idle fun b pending rest echoes => rfl
        rw [if_pos null]
        refine idle.account fun u after ran live => ?_
        cases ran
        refine ⟨u.books.freed p size align (u.image.used = u.image.used), ?_,
          Books.freed_congr live p size align _ _⟩
        rw [Account.step, if_pos null]
      · have held := placed (shows.2 ▸ legal.resolve_left null) null
        rw [if_neg null]
        refine (Image.xfree_echoed held).account fun u after ran live => ?_
        cases ran
        refine ⟨u.books.freed p size align ((u.image.xfree build p size).used = u.image.used), ?_,
          Books.freed_congr live p size align _ _⟩
        rw [Account.step, if_neg null]
  | _ => exact working.elim

theorem Op.Working.keeps_status {op : Op σ} (working : op.Working) : ¬ op.Clearing := by
  cases op with
  | allocate _ | realloc _ _ _ _ | xrealloc _ _ _ _ | xfree _ _ _ => exact id
  | _ => exact working.elim

/-- Where no call of a workload fails, each of them leaves the status as it was. -/
theorem Session.step_status (conforms : parent.Conforms Out) {s m s' : Session σ} {t t₁ : Account σ}
    (shows : s.Shows t) (shows₁ : m.Shows t₁) (kept₁ : t₁.Kept build parent Out) {op : Op σ} {ptr : Nat}
    (stepped : t.step build op = .ok (ptr, t₁)) (effect : t.Effect build parent Out op t₁)
    (working : op.Working) {ops : List (Op σ)} {ptrs : List Nat}
    (allowed : m.Allows build (fun s op => op.Legal Out s ∧ ¬ op.Clearing) ops)
    (ran : m.run build ops = .ok (ptrs, s'))
    (same : s'.state.arena.status = s.state.arena.status) :
    t₁.image.status = t.image.status := by
  by_cases failed : t₁.image.status = .ok
  · by_cases before : t.image.status = .ok
    · rw [failed, before]
    · exact effect.latched stepped before working.keeps_status
  · have last := Session.run_latched conforms shows₁ kept₁ (shows₁.status ▸ failed) allowed ran
    rw [← shows₁.status, ← shows.status, ← same, last]

theorem Account.Effect.working_fixed {t t' : Account σ} {op : Op σ}
    (effect : t.Effect build parent Out op t') (working : op.Working) :
    t'.image.fixed = t.image.fixed := by
  cases effect with
  | advanced advancing advances => exact advances.fixed
  | _ => exact working.elim

/-- A workload enters some blocks, and where they are there already it returns the same. -/
theorem Session.run_echoed (conforms : parent.Conforms Out) {work : List (Op σ)}
    (working : ∀ op ∈ work, op.Working) {s s' : Session σ} {t : Account σ} (shows : s.Shows t)
    (kept : t.Kept build parent Out) {ptrs : List Nat}
    (allowed : s.Allows build (fun s op => op.Legal Out s) work)
    (ran : s.run build work = .ok (ptrs, s'))
    (same : s'.state.arena.status = s.state.arena.status) :
    ∃ t' entered, s'.Shows t' ∧ t'.Kept build parent Out ∧ t'.image.fixed = t.image.fixed ∧
      t'.image.chain.map Cell.bare = entered.reverse ++ t.image.chain.map Cell.bare ∧
      ∀ (z : Session σ) (u : Account σ) (pending rest : List Cell), z.Shows u →
        u.Kept build parent Out → t.Echoes (entered ++ pending) rest u →
        ∃ z' u', z.Allows build (fun s op => op.Legal Out s) work ∧
          z.run build work = .ok (ptrs, z') ∧ z'.Shows u' ∧ u'.Kept build parent Out ∧
          t'.Echoes pending rest u' ∧ u.image.Unasked u'.image := by
  induction work generalizing s t ptrs with
  | nil =>
      cases ran
      exact ⟨t, [], shows, kept, rfl, rfl, fun z u pending rest shown kept echoes =>
        ⟨z, u, trivial, rfl, shown, kept, echoes, .refl _⟩⟩
  | cons op work ih =>
      obtain ⟨⟨ptr, m⟩, first, rest⟩ := bind_eq_ok.mp ran
      obtain ⟨⟨others, last⟩, looped, answer⟩ := bind_eq_ok.mp rest
      cases answer
      obtain ⟨legal, later⟩ := allowed
      have later := later ptr m first
      have acts : op.Working := working op (.head _)
      have act : ∀ op ∈ work, op.Working := fun op member => working op (.tail _ member)
      obtain ⟨t₁, stepped, shows₁, kept₁, effect⟩ :=
        Session.step_follows conforms shows kept legal first
      have status : t₁.image.status = t.image.status :=
        Session.step_status conforms shows shows₁ kept₁ stepped effect acts
          (later.imp fun _ op member legal => ⟨legal, (act op member).keeps_status⟩) looped same
      have middle : s'.state.arena.status = m.state.arena.status := by
        rw [same, shows.status, shows₁.status, status]
      obtain ⟨entered, chain, again⟩ := Account.step_echoed conforms shows kept acts legal stepped status
      obtain ⟨t', entered', shows', kept', fixed', chain', again'⟩ :=
        ih act shows₁ kept₁ later looped middle
      refine ⟨t', entered ++ entered', shows', kept', fixed'.trans (effect.working_fixed acts), ?_,
        fun z u pending rest shown keeps echoes => ?_⟩
      · rw [chain', chain, List.reverse_append, List.append_assoc]
      · rw [List.append_assoc] at echoes
        obtain ⟨u₁, took, echoes₁, unasked⟩ := again u _ rest echoes
        have legal' : op.Legal Out z := by
          have live : z.books.scope.live = s.books.scope.live := by
            rw [shown.2, shows.2]
            exact echoes.live
          cases op with
          | allocate request => exact legal
          | realloc _ _ _ _ | xrealloc _ _ _ _ | xfree _ _ _ =>
              rw [Op.Legal, live]
              exact legal
          | _ => exact acts.elim
        have level : u.Level build op := by
          cases op with
          | tempEnd => exact acts.elim
          | _ => trivial
        obtain ⟨fresh, z₁, _, steps, took', _⟩ :=
          Session.step_refines conforms shown keeps legal' level
        cases took.symm.trans took'
        obtain ⟨_, took', shown₁, keeps₁, _⟩ := Session.step_follows conforms shown keeps legal' steps
        cases took.symm.trans took'
        obtain ⟨z', u', may, runs, shown', keeps', echoes', unasked'⟩ :=
          again' z₁ u₁ pending rest shown₁ keeps₁ echoes₁
        exact ⟨z', u', .cons steps legal' may,
          bind_eq_ok.mpr ⟨_, steps, bind_eq_ok.mpr ⟨_, runs, rfl⟩⟩, shown', keeps', echoes',
          unasked.trans unasked'⟩

/-! What a rewind leaves. -/

section
variable {a a' : Image σ}

theorem Image.discard_unasked {cells : List Cell} (normal : ∀ c ∈ cells, c.oversize = false)
    (ran : a.discard build cells = .ok a') : a.Unasked a' := by
  induction cells generalizing a with
  | nil =>
      cases ran
      exact .refl _
  | cons c cs ih =>
      have kind : ¬ c.oversize = true := by
        rw [normal c (.head _)]
        exact Bool.false_ne_true
      have rest : (a.retire build c).discard build cs = .ok a' := (if_neg kind).symm.trans ran
      have retired : a.Unasked (a.retire build c) :=
        ⟨(World.dead_touched build c.data c.used a.world).parent, rfl⟩
      exact retired.trans (ih (fun d member => normal d (.tail _ member)) rest)

theorem Image.tempEnd_unasked {temp : TempT}
    (normal : ∀ c ∈ a.chain.takeWhile (·.addr ≠ temp.block), c.oversize = false)
    (ran : a.tempEnd build temp = .ok a') : a.Unasked a' := by
  obtain ⟨b, dropped, same⟩ := bind_eq_ok.mp ran
  cases same
  refine (Image.discard_unasked normal dropped).trans ?_
  cases a.chain.dropWhile (·.addr ≠ temp.block) with
  | nil => exact .refl b
  | cons c cs => exact ⟨(World.dead_touched build _ _ b.world).parent, rfl⟩

theorem Image.reset_unasked
    (normal : ∀ c ∈ a.chain.filter (oldestNormal a.chain ≠ some ·), c.oversize = false)
    (ran : a.reset build = .ok a') : a.Unasked a' := by
  obtain ⟨b, dropped, same⟩ := bind_eq_ok.mp ran
  cases same
  refine (Image.discard_unasked normal dropped).trans ⟨?_, rfl⟩
  cases oldestNormal a.chain with
  | none => rfl
  | some c => exact (World.dead_touched build c.data c.used b.world).parent

/-- The blocks above the base, as they will be on the free list. -/
theorem retired_entered {xs entered : List Cell} (bare : xs.map Cell.bare = entered.reverse)
    (normal : ∀ c ∈ entered, c.oversize = false) :
    (∀ c ∈ xs, c.oversize = false) ∧ retired xs = entered := by
  have kinds : ∀ c ∈ xs, c.oversize = false := by
    intro c member
    have listed : c.bare ∈ entered.reverse := bare ▸ List.mem_map_of_mem member
    exact normal c.bare (List.mem_reverse.mp listed)
  refine ⟨kinds, ?_⟩
  rw [retired_eq, List.filter_eq_self.mpr fun c member => by rw [kinds c member]; rfl, bare,
    List.reverse_reverse]

end

/-- The end of a scope in which these blocks were entered. -/
theorem Session.scope_closes (conforms : parent.Conforms Out) {z : Session σ} {t now : Account σ}
    (shown : z.Shows now) (keeps : now.Kept build parent Out) (above : t.Above build now)
    (outer : now.books.outer = (t.image.tempBegin.1, t.books.scope) :: t.books.outer)
    (depth : now.image.tempDepth = t.image.tempBegin.2.tempDepth) {entered : List Cell}
    (chain : now.image.chain.map Cell.bare = entered.reverse ++ t.image.chain.map Cell.bare)
    (normal : ∀ c ∈ entered, c.oversize = false) :
    ∃ z' after, z.step build .tempEnd = .ok (0, z') ∧ z'.Shows after ∧
      after.Kept build parent Out ∧ after.image.chain = t.image.chain ∧
      after.image.free = entered ++ now.image.free ∧ after.image.status = now.image.status ∧
      after.image.fixed = now.image.fixed ∧ now.image.Unasked after.image := by
  have keeps' : now.image.Kept build parent Out now.books := keeps
  have legal : Op.Legal Out z .tempEnd := by
    rw [Op.Legal, shown.2, outer]
    exact List.cons_ne_nil _ _
  have level : now.Level build .tempEnd := by
    refine .inr fun entry member => ?_
    rw [outer] at member
    cases member
    exact depth.symm
  obtain ⟨ptr, z', _, ran, _, _⟩ := Session.step_refines conforms shown keeps legal level
  cases Session.tempEnd_null ran
  obtain ⟨after, followed, shown', kept', effect⟩ :=
    Session.step_follows conforms shown keeps legal ran
  obtain ⟨_, ground⟩ := above.nested.exact (congrArg List.length outer)
  cases effect with
  | advanced advancing advances => exact advancing.elim
  | @ended temp ledger rest image inner grown marks same unwound lit =>
      have entry := outer.symm.trans inner
      injection entry with top under
      injection top with snapshot scope
      subst snapshot
      have base : image.chain = t.image.chain :=
        marks.unique ⟨rfl, rfl⟩ keeps'.sane.toOwned grown ground.grown
      obtain ⟨xs, ys, split, later, _, start⟩ := keeps'.sane.toOwned.unwinds grown
      have taken := (marks.split split later start).1
      have below : ys.length = t.image.chain.length := by
        rw [← base]
        cases start with
        | inl bare => rw [bare.1, bare.2]
        | inr raised =>
            obtain ⟨c, cs, used, first, second, _⟩ := raised
            rw [first, second]
            rfl
      have bare : ∀ {xs ys : List Cell}, now.image.chain = xs ++ ys →
          ys.length = t.image.chain.length → xs.map Cell.bare = entered.reverse := by
        intro xs ys split below
        rw [split, List.map_append] at chain
        refine (List.append_inj' chain ?_).1
        rw [List.length_map, List.length_map, below]
      obtain ⟨kinds, _⟩ := retired_entered (bare split below) normal
      obtain ⟨xs', ys', split', below', free⟩ := unwound.free
      rw [(retired_entered (bare split' (below'.trans (congrArg _ base))) normal).2] at free
      rw [Account.step, inner] at followed
      obtain ⟨image', ended, same'⟩ := bind_eq_ok.mp followed
      cases same'
      exact ⟨z', _, ran, shown', kept', base, free, unwound.status, unwound.fixed,
        Image.tempEnd_unasked (taken ▸ kinds) ended⟩

/-- A reset of a chain of these blocks over the base. -/
theorem Session.reset_closes (conforms : parent.Conforms Out) {z : Session σ} {now : Account σ}
    (shown : z.Shows now) (keeps : now.Kept build parent Out) {whole : List Cell}
    (chain : now.image.chain.map Cell.bare = whole) (normal : ∀ c ∈ whole, c.oversize = false) :
    ∃ z' after, z.step build .reset = .ok (0, z') ∧ z'.Shows after ∧ after.Kept build parent Out ∧
      after.image.chain = whole.getLast?.toList ∧
      after.image.free = whole.dropLast.reverse ++ now.image.free ∧ after.image.status = .ok ∧
      after.image.fixed = now.image.fixed ∧ after.books.scope.live = [] ∧
      now.image.Unasked after.image := by
  have keeps' : now.image.Kept build parent Out now.books := keeps
  have kinds : ∀ c ∈ now.image.chain, c.oversize = false := by
    intro c member
    exact normal c.bare (chain ▸ List.mem_map_of_mem member)
  have legal : Op.Legal Out z .reset := trivial
  have level : now.Level build .reset := trivial
  obtain ⟨ptr, z', _, ran, _, _⟩ := Session.step_refines conforms shown keeps legal level
  obtain ⟨after, followed, shown', kept', effect⟩ :=
    Session.step_follows conforms shown keeps legal ran
  cases effect with
  | advanced advancing advances => exact advancing.elim
  | @reset image rewound =>
      obtain ⟨image', again, same⟩ := bind_eq_ok.mp followed
      cases same
      obtain ⟨_, _, same⟩ := bind_eq_ok.mp ran
      cases same
      obtain ⟨chain', free⟩ := rewound.lists keeps'.sane.toOwned
      rw [List.filter_eq_self.mpr fun c member => by rw [kinds c member]; rfl] at chain' free
      have unasked := Image.reset_unasked
        (fun c member => kinds c (List.mem_of_mem_filter member)) again
      refine ⟨_, _, ran, shown', kept', ?_, ?_, rewound.status, rewound.fixed, rfl, unasked⟩
      · rw [chain', ← chain, List.getLast?_map]
        cases now.image.chain.getLast? <;> rfl
      · rw [free, ← chain, List.map_dropLast]

theorem Session.Shows.unique {s : Session σ} {t t' : Account σ} (shows : s.Shows t)
    (shows' : s.Shows t') : t = t' := by
  have image := shows.1.unique shows'.1
  have books := shows.2.symm.trans shows'.2
  cases t
  cases t'
  cases image
  cases books
  rfl

/-- A workload in a scope of its own stays in it. -/
theorem Session.work_above (conforms : parent.Conforms Out) {z z₀ z₁ : Session σ} {u u₁ : Account σ}
    (shown : z.Shows u)
    (shown₀ : z₀.Shows { image := u.image.tempBegin.2, books := u.books.begun u.image.tempBegin.1 })
    (keeps₀ : Account.Kept build parent Out
      { image := u.image.tempBegin.2, books := u.books.begun u.image.tempBegin.1 })
    {work : List (Op σ)} (working : ∀ op ∈ work, op.Working)
    (allowed : z₀.Allows build (fun s op => op.Legal Out s) work) {ptrs : List Nat}
    (ran : z₀.run build work = .ok (ptrs, z₁)) (shown₁ : z₁.Shows u₁) :
    u.Above build u₁ ∧ u₁.books.outer = (u.image.tempBegin.1, u.books.scope) :: u.books.outer ∧
      u₁.image.tempDepth = u.image.tempBegin.2.tempDepth := by
  have inside : z₀.Allows build (fun now op => op.Inside Out z now ∧ op.Working) work := by
    refine allowed.imp fun now op member legal => ?_
    have acts := working op member
    cases op with
    | allocate _ | realloc _ _ _ _ | xrealloc _ _ _ _ | xfree _ _ _ =>
        exact ⟨⟨legal, trivial, trivial, (fun impossible => nomatch impossible),
          (fun _ impossible => nomatch impossible)⟩, trivial⟩
    | _ => exact acts.elim
  obtain ⟨u', shown', _, above, outer, depth⟩ := Session.run_account
    (fun now => u.Above build now ∧
      now.books.outer = (u.image.tempBegin.1, u.books.scope) :: u.books.outer ∧
      now.image.tempDepth = u.image.tempBegin.2.tempDepth)
    conforms (fun may => may.1.legal)
    (fun shows kept held may effect => by
      refine ⟨held.1.step shown shows kept may.1 effect, ?_⟩
      cases effect with
      | advanced advancing advances =>
          exact ⟨advances.outer.trans held.2.1, advances.tempDepth.trans held.2.2⟩
      | _ => exact may.2.elim)
    shown₀ keeps₀ ⟨.start u, rfl, rfl⟩ inside ran
  cases shown₁.unique shown'
  exact ⟨above, outer, depth⟩

/-- What one call does again and again, many do. -/
theorem Session.run_again (Holds : Account σ → Prop) {ops : List (Op σ)} {results : List Nat}
    (once : ∀ (z : Session σ) (u : Account σ), z.Shows u → u.Kept build parent Out → Holds u →
      ∃ z' u', z.run build ops = .ok (results, z') ∧ z'.Shows u' ∧ u'.Kept build parent Out ∧
        Holds u' ∧ u.image.Unasked u'.image)
    (n : Nat) {z : Session σ} {u : Account σ} (shown : z.Shows u) (keeps : u.Kept build parent Out)
    (holds : Holds u) :
    ∃ z' u', z.run build (List.replicate n ops).flatten =
        .ok ((List.replicate n results).flatten, z') ∧
      z'.Shows u' ∧ Holds u' ∧ u.image.Unasked u'.image := by
  induction n generalizing z u with
  | zero => exact ⟨z, u, rfl, shown, holds, .refl _⟩
  | succ n ih =>
      obtain ⟨z₁, u₁, ran, shown₁, keeps₁, holds₁, unasked⟩ := once z u shown keeps holds
      obtain ⟨z', u', rest, shown', holds', unasked'⟩ := ih shown₁ keeps₁ holds₁
      refine ⟨z', u', ?_, shown', holds', unasked.trans unasked'⟩
      rw [List.replicate_succ, List.flatten_cons, Session.run_append ran, rest]
      rfl

/-! Cycles. -/

/-- A way to rewind: the end of a scope, or a reset. -/
inductive Rewind where
  | scope
  | reset
  deriving DecidableEq, Repr

/-- A workload and the rewind after it, with the scope it needs. -/
def Rewind.cycle (work : List (Op σ)) : Rewind → List (Op σ)
  | .scope => .tempBegin :: (work ++ [.tempEnd])
  | .reset => work ++ [.reset]

/-- A workload that is rewound by resets starts after one. -/
def Rewind.Follows (before : List (Op σ)) : Rewind → Prop
  | .scope => True
  | .reset => ∃ earlier, before = earlier ++ [.reset]

/-- A legal call that does not fail and makes no oversize block. -/
structure Op.Smooth (build : Build) (Out : World σ → List Region → Prop) (s : Session σ)
    (op : Op σ) : Prop where
  legal : op.Legal Out s
  succeeds : op.Working → ∀ ptr s', s.step build op = .ok (ptr, s') →
    s'.state.arena.status = s.state.arena.status
  normal : op.Working → ∀ ptr s', s.step build op = .ok (ptr, s') →
    ∀ c ∈ s'.state.pieces, c.oversize = true → c ∈ s.state.pieces

/-- What further cycles leave as the first one left it. -/
structure Session.Flat (s s' : Session (Recorded σ)) : Prop where
  lists : ∃ chain free, s.state.Lists chain free ∧ s'.state.Lists chain free
  committed : s'.state.arena.committed = s.state.arena.committed
  unasked : s'.state.world.calls = s.state.world.calls

theorem Session.run_split {first later : List (Op σ)} {s s'' : Session σ} {results : List Nat}
    (ran : s.run build (first ++ later) = .ok (results, s'')) :
    ∃ ptrs s' rest, s.run build first = .ok (ptrs, s') ∧ s'.run build later = .ok (rest, s'') ∧
      results = ptrs ++ rest := by
  induction first generalizing s results with
  | nil => exact ⟨[], s, results, rfl, ran, rfl⟩
  | cons op ops ih =>
      obtain ⟨⟨ptr, m⟩, stepped, rest⟩ := bind_eq_ok.mp ran
      obtain ⟨⟨others, last⟩, looped, same⟩ := bind_eq_ok.mp rest
      cases same
      obtain ⟨ptrs, s', after, ran', ran'', rfl⟩ := ih looped
      exact ⟨ptr :: ptrs, s', after, bind_eq_ok.mpr ⟨_, stepped, bind_eq_ok.mpr ⟨_, ran', rfl⟩⟩,
        ran'', rfl⟩

theorem Session.Allows.split {May : Session σ → Op σ → Prop} {first later : List (Op σ)}
    {s s' : Session σ} {ptrs : List Nat} (allowed : s.Allows build May (first ++ later))
    (ran : s.run build first = .ok (ptrs, s')) :
    s.Allows build May first ∧ s'.Allows build May later := by
  induction first generalizing s ptrs with
  | nil =>
      cases ran
      exact ⟨trivial, allowed⟩
  | cons op ops ih =>
      obtain ⟨⟨ptr, m⟩, stepped, rest⟩ := bind_eq_ok.mp ran
      obtain ⟨⟨others, last⟩, looped, same⟩ := bind_eq_ok.mp rest
      cases same
      obtain ⟨before, after⟩ := ih (allowed.2 ptr m stepped) looped
      exact ⟨.cons stepped allowed.1 before, after⟩

/-- What smooth calls make of the status and of oversize blocks, a smooth workload does. -/
theorem Session.work_smooth {s s' : Session σ} {work : List (Op σ)}
    (working : ∀ op ∈ work, op.Working) {ptrs : List Nat}
    (smooth : s.Allows build (Op.Smooth build Out) work) (ran : s.run build work = .ok (ptrs, s')) :
    s'.state.arena.status = s.state.arena.status ∧
      ∀ c ∈ s'.state.pieces, c.oversize = true → c ∈ s.state.pieces := by
  have both : s.Allows build (fun s op => op.Smooth build Out s ∧ op.Working) work :=
    smooth.imp fun _ op member may => ⟨may, working op member⟩
  refine Session.run_induction
    (fun now => now.state.arena.status = s.state.arena.status ∧
      ∀ c ∈ now.state.pieces, c.oversize = true → c ∈ s.state.pieces) ?_
    ⟨rfl, fun _ member _ => member⟩ both ran
  intro now op ptr next holds may stepped
  refine ⟨(may.1.succeeds may.2 ptr next stepped).trans holds.1, fun c member kind => ?_⟩
  exact holds.2 c (may.1.normal may.2 ptr next stepped c member kind) kind

/-- Where no new block is oversize, none of those entered is. -/
theorem Image.Owned.entered_normal {a a' : Image σ} (owned : a.Owned build parent Out)
    (owned' : a'.Owned build parent Out) {entered : List Cell}
    (chain : a'.chain.map Cell.bare = entered.reverse ++ a.chain.map Cell.bare)
    (old : ∀ c ∈ a'.pieces, c.oversize = true → c ∈ a.pieces) :
    ∀ c ∈ entered, c.oversize = false := by
  intro c member
  cases kind : c.oversize with
  | false => rfl
  | true =>
      have listed : c ∈ a'.chain.map Cell.bare :=
        chain ▸ List.mem_append_left _ (List.mem_reverse.mpr member)
      have held : c ∈ a.pieces := by
        refine old c ?_ kind
        rw [Image.pieces, Image.cells, List.map_append]
        exact List.mem_append_left _ listed
      rw [Image.pieces, Image.cells, List.map_append] at held
      cases List.mem_append.mp held with
      | inr spare =>
          obtain ⟨d, free, rfl⟩ := List.mem_map.mp spare
          cases kind.symm.trans (owned.empty d free).2
      | inl again =>
          have distinct : (a'.chain.map Cell.bare).Nodup := by
            have addresses : ((a'.chain.map Cell.bare).map Cell.addr).Nodup := by
              rw [List.map_map]
              exact ((List.map_append ▸ owned'.distinct).of_append_left)
            exact addresses.of_map
          rw [chain] at distinct
          exact absurd rfl
            ((List.nodup_append.mp distinct).2.2 c (List.mem_reverse.mpr member) c again)

/-- A workload and what it enters, from a session that keeps its books. -/
theorem Session.work_echoed (conforms : parent.Conforms Out) {work : List (Op σ)}
    (working : ∀ op ∈ work, op.Working) {s s' : Session σ} {t : Account σ} (shows : s.Shows t)
    (kept : t.Kept build parent Out) {ptrs : List Nat}
    (smooth : s.Allows build (Op.Smooth build Out) work)
    (ran : s.run build work = .ok (ptrs, s')) :
    ∃ t' entered, s'.Shows t' ∧ t'.Kept build parent Out ∧ t'.image.fixed = t.image.fixed ∧
      t'.image.chain.map Cell.bare = entered.reverse ++ t.image.chain.map Cell.bare ∧
      (∀ c ∈ entered, c.oversize = false) ∧
      ∀ (z : Session σ) (u : Account σ), z.Shows u → u.Kept build parent Out →
        t.Echoes entered t'.image.free u →
        ∃ z' u', z.Allows build (fun s op => op.Legal Out s) work ∧
          z.run build work = .ok (ptrs, z') ∧ z'.Shows u' ∧ u'.Kept build parent Out ∧
          u'.image.chain = t'.image.chain ∧ u'.image.free = t'.image.free ∧
          u'.image.status = t'.image.status ∧ u'.image.fixed = t'.image.fixed ∧
          u.image.Unasked u'.image := by
  obtain ⟨status, old⟩ := Session.work_smooth working smooth ran
  obtain ⟨t', entered, shows', kept', fixed, chain, again⟩ := Session.run_echoed conforms working
    shows kept (smooth.imp fun _ _ _ may => may.legal) ran status
  refine ⟨t', entered, shows', kept', fixed, chain, ?_, fun z u shown keeps echoes => ?_⟩
  · refine (Image.Kept.sane kept).toOwned.entered_normal (Image.Kept.sane kept').toOwned chain ?_
    intro c member kind
    exact shows.1.pieces.mem_iff.mp (old c (shows'.1.pieces.mem_iff.mpr member) kind)
  · rw [← List.append_nil entered] at echoes
    obtain ⟨z', u', may, runs, shown', keeps', echoes', unasked⟩ :=
      again z u [] t'.image.free shown keeps echoes
    refine ⟨z', u', may, runs, shown', keeps', ?_⟩
    cases echoes'.image.lists with
    | inl lists =>
        exact ⟨lists.1, lists.2, echoes'.image.status, echoes'.image.fixed, unasked⟩
    | inr lists =>
        obtain ⟨_, _, _, impossible, _⟩ := lists
        cases impossible

theorem Session.scope_begins (conforms : parent.Conforms Out) {z : Session σ} {u : Account σ}
    (shown : z.Shows u) (keeps : u.Kept build parent Out) :
    ∃ z₀ : Session σ, z.step build .tempBegin = .ok (0, z₀) ∧
      z₀.Shows { image := u.image.tempBegin.2, books := u.books.begun u.image.tempBegin.1 } ∧
      Account.Kept build parent Out
        { image := u.image.tempBegin.2, books := u.books.begun u.image.tempBegin.1 } := by
  have legal : Op.Legal Out z .tempBegin := trivial
  have level : u.Level build .tempBegin := trivial
  obtain ⟨ptr, z₀, u₀, begun, took, _⟩ := Session.step_refines conforms shown keeps legal level
  cases took
  obtain ⟨u₀, took, shown₀, keeps₀, _⟩ := Session.step_follows conforms shown keeps legal begun
  cases took
  exact ⟨z₀, begun, shown₀, keeps₀⟩

/-- The two lists of `u`, and what else a workload depends on. -/
structure Account.Settled (chain free : List Cell) (status : Status) (fixed : Bool) (u : Account σ) :
    Prop where
  chain : u.image.chain = chain
  free : u.image.free = free
  status : u.image.status = status
  fixed : u.image.fixed = fixed

/-- Cycles in a scope. -/
theorem Session.scope_flat (conforms : parent.Conforms Out) {work : List (Op σ)}
    (working : ∀ op ∈ work, op.Working) {s s₁ : Session σ} {t : Account σ} (shows : s.Shows t)
    (kept : t.Kept build parent Out)
    (smooth : s.Allows build (Op.Smooth build Out) (Rewind.scope.cycle work)) {results : List Nat}
    (ran : s.run build (Rewind.scope.cycle work) = .ok (results, s₁)) (n : Nat) :
    ∃ t₁ s₂ t₂, s₁.Shows t₁ ∧
      s₁.run build (List.replicate n (Rewind.scope.cycle work)).flatten =
        .ok ((List.replicate n results).flatten, s₂) ∧
      s₂.Shows t₂ ∧ t₂.image.chain = t₁.image.chain ∧ t₂.image.free = t₁.image.free ∧
      t₁.image.Unasked t₂.image := by
  obtain ⟨s₀, begun, shows₀, kept₀⟩ := Session.scope_begins conforms shows kept
  obtain ⟨⟨_, _⟩, again, rest⟩ := bind_eq_ok.mp ran
  cases begun.symm.trans again
  obtain ⟨⟨_, _⟩, rest, answer⟩ := bind_eq_ok.mp rest
  cases answer
  have smooth := smooth.2 0 s₀ begun
  obtain ⟨ptrs, m, last, worked, closing, rfl⟩ := Session.run_split rest
  have smooth := (smooth.split worked).1
  obtain ⟨⟨_, _⟩, closed, rest⟩ := bind_eq_ok.mp closing
  cases rest
  obtain ⟨t', entered, shows', kept', _, chain, normal, again⟩ :=
    Session.work_echoed conforms working shows₀ kept₀ smooth worked
  have legal : s₀.Allows build (fun s op => op.Legal Out s) work := smooth.imp fun _ _ _ may => may.legal
  -- The end of a scope in which the workload ran.
  have ends : ∀ {z z₀ z₁ : Session σ} {u u₁ : Account σ}, z.Shows u → u.image.chain = t.image.chain →
      z₀.Shows { image := u.image.tempBegin.2, books := u.books.begun u.image.tempBegin.1 } →
      Account.Kept build parent Out
        { image := u.image.tempBegin.2, books := u.books.begun u.image.tempBegin.1 } →
      z₀.Allows build (fun s op => op.Legal Out s) work → z₀.run build work = .ok (ptrs, z₁) →
      z₁.Shows u₁ → u₁.Kept build parent Out → u₁.image.chain = t'.image.chain →
      ∃ z' u', z₁.step build .tempEnd = .ok (0, z') ∧ z'.Shows u' ∧ u'.Kept build parent Out ∧
        u'.Settled t.image.chain (entered ++ u₁.image.free) u₁.image.status u.image.fixed ∧
        u₁.image.Unasked u'.image := by
    intro z z₀ z₁ u u₁ shown level shown₀ keeps₀ may runs shown₁ keeps₁ same
    obtain ⟨above, outer, depth⟩ :=
      Session.work_above conforms shown shown₀ keeps₀ working may runs shown₁
    obtain ⟨z', u', closes, shown', keeps', chain', free, status, fixed, unasked⟩ :=
      Session.scope_closes conforms shown₁ keeps₁ above outer depth
        (by rw [same, level]; exact chain) normal
    exact ⟨z', u', closes, shown', keeps',
      ⟨chain'.trans level, free, status, fixed.trans above.fixed⟩, unasked⟩
  obtain ⟨s', t₁, closed', shows₁, kept₁, settled, _⟩ :=
    ends shows rfl shows₀ kept₀ legal worked shows' kept' rfl
  cases closed.symm.trans closed'
  have status : t'.image.status = t.image.status := by
    have same := (Session.work_smooth working smooth worked).1
    rw [shows'.status, shows₀.status] at same
    exact same
  rw [status] at settled
  have once : ∀ (z : Session σ) (u : Account σ), z.Shows u → u.Kept build parent Out →
      u.Settled t.image.chain (entered ++ t'.image.free) t.image.status t.image.fixed →
      ∃ z' u', z.run build (Rewind.scope.cycle work) = .ok (0 :: (ptrs ++ [0]), z') ∧ z'.Shows u' ∧
        u'.Kept build parent Out ∧
        u'.Settled t.image.chain (entered ++ t'.image.free) t.image.status t.image.fixed ∧
        u.image.Unasked u'.image := by
    intro z u shown keeps holds
    obtain ⟨z₀, begins, shown₀, keeps₀⟩ := Session.scope_begins conforms shown keeps
    obtain ⟨z₁, u₁, may, runs, shown₁, keeps₁, same, free, status', _, calm⟩ :=
      again z₀ _ shown₀ keeps₀ ⟨⟨.inl ⟨holds.chain, holds.free⟩, holds.status, holds.fixed⟩, rfl⟩
    obtain ⟨z', u', closes, shown', keeps', settles, calm'⟩ :=
      ends shown holds.chain shown₀ keeps₀ may runs shown₁ keeps₁ same
    rw [free, status', status, holds.fixed] at settles
    have ended : z₀.run build (work ++ [.tempEnd]) = .ok (ptrs ++ [0], z') := by
      rw [Session.run_append runs, Session.run, closes]
      rfl
    exact ⟨z', u', bind_eq_ok.mpr ⟨_, begins, bind_eq_ok.mpr ⟨_, ended, rfl⟩⟩, shown', keeps',
      settles, calm.trans calm'⟩
  obtain ⟨s₂, t₂, ran, shows₂, settled₂, unasked⟩ :=
    Session.run_again _ once n shows₁ kept₁ settled
  exact ⟨t₁, s₂, t₂, shows₁, ran, shows₂, settled₂.chain.trans settled.chain.symm,
    settled₂.free.trans settled.free.symm, unasked⟩

/-- Cycles that end in a reset, after a reset. -/
theorem Session.reset_flat (conforms : parent.Conforms Out) {work : List (Op σ)}
    (working : ∀ op ∈ work, op.Working) {s s₁ : Session σ} {t : Account σ} (shows : s.Shows t)
    (kept : t.Kept build parent Out) (single : t.image.chain.length ≤ 1)
    (bare : t.image.chain.map Cell.bare = t.image.chain)
    (usual : ∀ c ∈ t.image.chain, c.oversize = false) (ready : t.image.status = .ok)
    (nothing : t.books.scope.live = [])
    (smooth : s.Allows build (Op.Smooth build Out) (Rewind.reset.cycle work)) {results : List Nat}
    (ran : s.run build (Rewind.reset.cycle work) = .ok (results, s₁)) (n : Nat) :
    ∃ t₁ s₂ t₂, s₁.Shows t₁ ∧
      s₁.run build (List.replicate n (Rewind.reset.cycle work)).flatten =
        .ok ((List.replicate n results).flatten, s₂) ∧
      s₂.Shows t₂ ∧ t₂.image.chain = t₁.image.chain ∧ t₂.image.free = t₁.image.free ∧
      t₁.image.Unasked t₂.image := by
  obtain ⟨ptrs, m, last, worked, closing, rfl⟩ := Session.run_split ran
  have smooth := (smooth.split worked).1
  obtain ⟨⟨_, _⟩, closed, rest⟩ := bind_eq_ok.mp closing
  cases rest
  obtain ⟨t', entered, shows', kept', fixed, chain, normal, again⟩ :=
    Session.work_echoed conforms working shows kept smooth worked
  rw [bare] at chain
  have whole : ∀ c ∈ entered.reverse ++ t.image.chain, c.oversize = false := by
    intro c member
    cases List.mem_append.mp member with
    | inl new => exact normal c (List.mem_reverse.mp new)
    | inr old => exact usual c old
  obtain ⟨s', t₁, closed', shows₁, kept₁, chain₁, free₁, status₁, fixed₁, live₁, _⟩ :=
    Session.reset_closes conforms shows' kept' chain whole
  cases closed.symm.trans closed'
  -- Whatever the base was, the arena has what the workload entered first.
  have echoes : ∀ {u : Account σ}, u.image.chain = (entered.reverse ++ t.image.chain).getLast?.toList →
      u.image.free = (entered.reverse ++ t.image.chain).dropLast.reverse ++ t'.image.free →
      u.image.status = .ok → u.image.fixed = t.image.fixed → u.books.scope.live = [] →
      t.Echoes entered t'.image.free u := by
    intro u chain free status fixed live
    refine ⟨⟨?_, status.trans ready.symm, fixed⟩, live.trans nothing.symm⟩
    cases base : t.image.chain with
    | nil =>
        rw [base, List.append_nil] at chain free
        cases entered with
        | nil => exact .inl ⟨chain, free⟩
        | cons c later =>
            rw [List.reverse_cons, List.getLast?_append_cons] at chain
            rw [List.reverse_cons, List.dropLast_concat, List.reverse_reverse] at free
            exact .inr ⟨rfl, c, later, rfl, chain, free⟩
    | cons c cs =>
        rw [base] at single chain free
        cases cs with
        | cons d ds => exact absurd single (by simp)
        | nil =>
            rw [List.getLast?_append_cons] at chain
            rw [List.dropLast_concat, List.reverse_reverse] at free
            exact .inl ⟨chain, free⟩
  have once : ∀ (z : Session σ) (u : Account σ), z.Shows u → u.Kept build parent Out →
      u.Settled (entered.reverse ++ t.image.chain).getLast?.toList
          ((entered.reverse ++ t.image.chain).dropLast.reverse ++ t'.image.free) .ok t.image.fixed ∧
        u.books.scope.live = [] →
      ∃ z' u', z.run build (Rewind.reset.cycle work) = .ok (ptrs ++ [0], z') ∧ z'.Shows u' ∧
        u'.Kept build parent Out ∧
        (u'.Settled (entered.reverse ++ t.image.chain).getLast?.toList
            ((entered.reverse ++ t.image.chain).dropLast.reverse ++ t'.image.free) .ok
            t.image.fixed ∧
          u'.books.scope.live = []) ∧ u.image.Unasked u'.image := by
    intro z u shown keeps holds
    obtain ⟨settled, live⟩ := holds
    obtain ⟨z₁, u₁, _, runs, shown₁, keeps₁, same, free, _, fixed', calm⟩ := again z u shown keeps
      (echoes settled.chain settled.free settled.status settled.fixed live)
    obtain ⟨z', u', closes, shown', keeps', chain₂, free₂, status₂, fixed₂, live₂, calm'⟩ :=
      Session.reset_closes conforms shown₁ keeps₁ (same ▸ chain) whole
    rw [free] at free₂
    refine ⟨z', u', ?_, shown', keeps',
      ⟨⟨chain₂, free₂, status₂, fixed₂.trans (fixed'.trans fixed)⟩, live₂⟩, calm.trans calm'⟩
    rw [Rewind.cycle, Session.run_append runs, Session.run, closes]
    rfl
  obtain ⟨s₂, t₂, ran, shows₂, holds, unasked⟩ := Session.run_again _ once n shows₁ kept₁
    ⟨⟨chain₁, free₁, status₁, fixed₁.trans fixed⟩, live₁⟩
  exact ⟨t₁, s₂, t₂, shows₁, ran, shows₂, holds.1.chain.trans chain₁.symm,
    holds.1.free.trans free₁.symm, unasked⟩

/-- After any legal run, a workload in a scope, or after a reset, is rewound and run again any number
of times: each time it returns the same addresses, the parent is not asked for anything, and the
lists and what is held are as the first time left them. -/
theorem Session.cycles_flat (conforms : parent.Conforms Out) {s₀ s s₁ : Session (Recorded σ)}
    (started : s₀.Started build parent.logged (LogOut Out)) {before : List (Op (Recorded σ))}
    {ptrs results : List Nat}
    (allowed : s₀.Allows build (fun s op => op.Legal (LogOut Out) s) before)
    (reached : s₀.run build before = .ok (ptrs, s)) (rewind : Rewind)
    (follows : rewind.Follows before) {work : List (Op (Recorded σ))}
    (working : ∀ op ∈ work, op.Working)
    (smooth : s.Allows build (Op.Smooth build (LogOut Out)) (rewind.cycle work))
    (ran : s.run build (rewind.cycle work) = .ok (results, s₁)) (n : Nat) :
    ∃ s₂, s₁.run build (List.replicate n (rewind.cycle work)).flatten =
        .ok ((List.replicate n results).flatten, s₂) ∧ s₁.Flat s₂ := by
  obtain ⟨t, shows, kept⟩ := Session.run_kept conforms.logged started allowed reached
  have flat : ∃ t₁ s₂ t₂, s₁.Shows t₁ ∧ s₁.run build (List.replicate n (rewind.cycle work)).flatten =
        .ok ((List.replicate n results).flatten, s₂) ∧
      s₂.Shows t₂ ∧ t₂.image.chain = t₁.image.chain ∧ t₂.image.free = t₁.image.free ∧
      t₁.image.Unasked t₂.image := by
    cases rewind with
    | scope => exact Session.scope_flat conforms.logged working shows kept smooth ran n
    | reset =>
        obtain ⟨earlier, rfl⟩ := follows
        obtain ⟨_, s', _, reached', closing, _⟩ := Session.run_split reached
        obtain ⟨⟨_, _⟩, closed, rest⟩ := bind_eq_ok.mp closing
        cases rest
        obtain ⟨t', shows', kept'⟩ :=
          Session.run_kept conforms.logged started (allowed.split reached').1 reached'
        have legal : Op.Legal (LogOut Out) s' .reset := trivial
        obtain ⟨t'', _, shows'', _, effect⟩ :=
          Session.step_follows conforms.logged shows' kept' legal closed
        cases shows.unique shows''
        cases effect with
        | advanced advancing advances => exact advancing.elim
        | @reset image rewound =>
            have chain := rewound.chain
            have kinds : ∀ c ∈ image.chain, c.oversize = false := by
              intro c member
              rw [chain] at member
              obtain ⟨d, oldest, rfl⟩ := List.mem_map.mp member
              exact (oldestNormal_some (Option.mem_toList.mp oldest)).2
            refine Session.reset_flat conforms.logged working shows kept ?_ ?_ kinds rewound.status
              rfl smooth ran n
            · dsimp only
              rw [chain, List.length_map]
              exact Option.length_toList_le
            · dsimp only
              rw [chain, List.map_map]
              rfl
  obtain ⟨t₁, s₂, t₂, shows₁, ran', shows₂, chain, free, unasked⟩ := flat
  refine ⟨s₂, ran', ⟨t₁.image.chain, t₁.image.free, shows₁.1.lists, ?_⟩, ?_, ?_⟩
  · rw [← chain, ← free]
    exact shows₂.1.lists
  · rw [shows₂.1.arena, shows₁.1.arena]
    exact unasked.2
  · rw [shows₂.1.world, shows₁.1.world]
    exact congrArg Prod.snd unasked.1

theorem Session.cycles_flat_scope :
    ∃ results s₁ s₂, Session.recorded.run .sanitized
        (Rewind.scope.cycle [.allocate (.alloc 100), .allocate (.alloc 4000)]) = .ok (results, s₁) ∧
      s₁.run .sanitized (List.replicate 2
          (Rewind.scope.cycle [.allocate (.alloc 100), .allocate (.alloc 4000)])).flatten =
        .ok ((List.replicate 2 results).flatten, s₂) ∧ s₁.Flat s₂ := by
  have conforms := risingParent_conforms 0x100000 (by decide)
  have start : Session.recorded.run .sanitized [] = .ok ([], Session.recorded) := rfl
  have allowed : Session.recorded.Allows .sanitized
      (fun s op => op.Legal (LogOut (RisingOut 0x100000)) s) [] := trivial
  have ran : Session.recorded.run .sanitized
    (Rewind.scope.cycle [.allocate (.alloc 100), .allocate (.alloc 4000)]) = .ok _ := rfl
  have smooth : Session.recorded.Allows .sanitized (Op.Smooth .sanitized (LogOut (RisingOut 0x100000)))
      (Rewind.scope.cycle [.allocate (.alloc 100), .allocate (.alloc 4000)]) := by
    refine .cons rfl ⟨trivial, fun idle => idle.elim, fun idle => idle.elim⟩ (.cons rfl ?_
      (.cons rfl ?_ (.cons rfl ⟨List.cons_ne_nil _ _, fun idle => idle.elim, fun idle => idle.elim⟩
        trivial)))
    · refine ⟨Nat.zero_le _, fun _ ptr s' ran => ?_, fun _ ptr s' ran => ?_⟩
      · cases ran
        rfl
      · cases ran
        decide
    · refine ⟨Nat.zero_le _, fun _ ptr s' ran => ?_, fun _ ptr s' ran => ?_⟩
      · cases ran
        rfl
      · cases ran
        decide
  obtain ⟨s₂, again, flat⟩ := Session.cycles_flat conforms (Session.recorded_started _) allowed start
    .scope trivial (by simp [Op.Working]) smooth ran 2
  exact ⟨_, _, s₂, ran, again, flat⟩

end AgencC.Arena
