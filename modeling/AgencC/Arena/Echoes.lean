import AgencC.Arena.Failure
import AgencC.Arena.Placing

/-! Two arenas with the same chain, one of which finds on its free list what the other had to look
for, do the same. -/

set_option autoImplicit false

namespace AgencC.Arena

open Library

variable {σ : Type} {build : Build} {parent : AllocT σ} {Out : World σ → List Region → Prop}

/-- The parent is as it was, and has what it had. -/
def Image.Unasked (a a' : Image σ) : Prop :=
  a'.world.parent = a.world.parent ∧ a'.committed = a.committed

theorem Image.Unasked.refl (a : Image σ) : a.Unasked a := ⟨rfl, rfl⟩

theorem Image.Unasked.trans {a a' a'' : Image σ} (first : a.Unasked a') (second : a'.Unasked a'') :
    a.Unasked a'' :=
  ⟨second.1.trans first.1, second.2.trans first.2⟩

/-- `b` has the chain of `a`, and first on its free list the blocks that `a` is going to enter. Where
`a` has entered no block yet, `b` may have the first of them already. -/
structure Image.Echoes (a : Image σ) (pending rest : List Cell) (b : Image σ) : Prop where
  lists : b.chain = a.chain ∧ b.free = pending ++ rest ∨
    a.chain = [] ∧ ∃ c later, pending = c :: later ∧ b.chain = [c] ∧ b.free = later ++ rest
  status : b.status = a.status
  fixed : b.fixed = a.fixed

/-- The call that takes `a` to `a'` enters these blocks, and an arena that has them returns the same
from `call`, and does not ask its parent. -/
def Image.Echoed (call : Image σ → Except Fault (Nat × Image σ)) (a : Image σ) (ptr : Nat)
    (a' : Image σ) : Prop :=
  ∃ entered : List Cell, a'.chain.map Cell.bare = entered.reverse ++ a.chain.map Cell.bare ∧
    ∀ (b : Image σ) (pending rest : List Cell), a.Echoes (entered ++ pending) rest b →
      ∃ b', call b = .ok (ptr, b') ∧ a'.Echoes pending rest b' ∧ b.Unasked b'

section
variable {a a' : Image σ}

/-- A call that changes nothing, and nothing where another arena echoes this one either. -/
theorem Image.Echoed.idle {call : Image σ → Except Fault (Nat × Image σ)} {ptr : Nat}
    (nothing : ∀ b pending rest, a.Echoes pending rest b → call b = .ok (ptr, b)) :
    a.Echoed call ptr a :=
  ⟨[], rfl, fun b pending rest echoes => ⟨b, nothing b pending rest echoes, echoes, .refl b⟩⟩

theorem Cell.bare_eq {c : Cell} (empty : c.used = 0) : c.bare = c := by
  cases c
  cases empty
  rfl

theorem Image.fail_status {status : Status} (ready : a.status = .ok) :
    (a.fail status).status = status := by
  rw [Image.fail, if_pos ready]

/-- A call that returns NULL and does not fail finds nothing to do. -/
theorem Image.Owned.allocImpl_idle (conforms : parent.Conforms Out)
    (owned : a.Owned build parent Out) {count size align : Nat} (word : align ≤ sizeMax)
    (ran : a.allocImpl build count size align = .ok (0, a')) (same : a'.status = a.status) :
    a' = a ∧ ∀ b : Image σ, b.status = a.status →
      b.allocImpl build count size align = .ok (0, b) := by
  have failing : ∀ {status : Status} (b : Image σ), a.status = .ok → status ≠ .ok →
      b.status = a.status → a' = b.fail status → False := by
    intro status b ready failed before after
    rw [after, Image.fail_status (before.trans ready), ready] at same
    exact failed same
  obtain ⟨r, again, reply⟩ := owned.allocImpl conforms count size word
  have answer := Except.ok.inj (ran.symm.trans again)
  cases reply with
  | latched failed =>
      refine ⟨congrArg Prod.snd answer, fun b status => if_pos ?_⟩
      rw [status]
      exact failed
  | invalid ready invalid =>
      exact (failing a ready (by decide) rfl (congrArg Prod.snd answer)).elim
  | overflow ready valid large =>
      exact (failing a ready (by decide) rfl (congrArg Prod.snd answer)).elim
  | nothing ready valid empty =>
      refine ⟨congrArg Prod.snd answer, fun b status => ?_⟩
      rw [Image.allocImpl, if_neg (not_not_intro (status.trans ready)), valid, if_neg (by decide)]
      exact if_pos (Nat.mul_eq_zero.mp empty)
  | outcome ready valid some small outcome =>
      cases outcome with
      | refused refusal failed =>
          refine (failing _ ready failed ?_ (congrArg Prod.snd answer)).elim
          rfl
      | @served c cs b enters room =>
          have null : 0 = c.addr + 32 + c.used + c.pad (alignEffective build align) :=
            congrArg Prod.fst answer
          omega

theorem Image.allocCore_opens {b : Image σ} {size align : Nat} {c : Cell} {rest : List Cell}
    (opens : a.Opens build size align c) (bound : blockHdr + c.cap ≤ ptrdiffMax)
    (chain : b.chain = a.chain) (fixed : b.fixed = a.fixed) (free : b.free = c :: rest) :
    b.allocCore build size align =
      .ok (Image.serve build size align c a.chain { b with free := rest }) := by
  have growing : ¬ b.fixed = true := by
    rw [fixed, opens.growing]
    exact Bool.false_ne_true
  have large := opens.large
  have grown : b.grow build size align =
      .ok (Image.serve build size align c a.chain { b with free := rest }) := by
    have taken : takeFit (build.need size align) b.free = some (c, rest) := by
      rw [free, takeFit, if_pos large]
    rw [Image.grow, if_neg growing, if_neg (by omega), taken, chain]
  rw [← grown, Image.allocCore]
  cases before : b.chain with
  | nil => rfl
  | cons d ds => exact if_pos (opens.full d (by rw [← chain, before]; rfl))

theorem Image.serve_unasked (size align : Nat) (c : Cell) (cs : List Cell) (b : Image σ) :
    b.Unasked (b.serve build size align c cs).2 :=
  ⟨(World.live_touched build _ size b.world).parent, rfl⟩

theorem Image.Stacks.echoes {x : Span} {c : Cell} {cs pending rest : List Cell} {b : Image σ}
    (stacked : a.Stacks build x c cs a') (free : b.free = pending ++ rest)
    (status : b.status = a.status) (fixed : b.fixed = a.fixed) :
    a'.Echoes pending rest (b.serve build x.size (alignEffective build x.align) c cs).2 where
  lists := .inl ⟨stacked.chain.symm, free⟩
  status := status.trans stacked.status.symm
  fixed := fixed.trans stacked.fixed.symm

theorem Image.Sane.allocImpl_echoed (conforms : parent.Conforms Out)
    (sane : a.Sane build parent Out) {count size align ptr : Nat} (word : align ≤ sizeMax)
    (ran : a.allocImpl build count size align = .ok (ptr, a')) (same : a'.status = a.status) :
    a.Echoed (fun b => b.allocImpl build count size align) ptr a' := by
  by_cases null : ptr = 0
  · subst null
    obtain ⟨rfl, idle⟩ := sane.toOwned.allocImpl_idle conforms word ran same
    exact .idle fun b pending rest echoes => idle b echoes.status
  · obtain ⟨ready, valid, some, core⟩ := Image.allocImpl_core null ran
    obtain ⟨c, cs, stacked⟩ := sane.toOwned.stacked conforms word null ran
    have bound : blockHdr + c.cap ≤ ptrdiffMax := by
      obtain ⟨_, _, again, sane', _⟩ := sane.allocImpl conforms count size word
      cases ran.symm.trans again
      have sized := sane'.sized (c.bump build (count * size) (alignEffective build align))
      exact sized (List.mem_append_left _ (stacked.chain ▸ List.mem_cons_self))
    have served : ∀ b : Image σ,
        b.serve build (count * size) (alignEffective build align) c cs =
          (ptr, (b.serve build (count * size) (alignEffective build align) c cs).2) :=
      fun b => congrArg (·, _) stacked.place.symm
    cases stacked.before with
    | inl chain =>
        refine ⟨[], by rw [stacked.chain, chain]; rfl, fun b pending rest echoes => ?_⟩
        cases echoes.lists with
        | inl lists =>
            have fits := Image.allocCore_fits (lists.1.trans chain) stacked.room
            refine ⟨_, (core b (echoes.status.trans ready)).trans (fits.trans (congrArg _ (served b))),
              stacked.echoes lists.2 echoes.status echoes.fixed,
              Image.serve_unasked _ _ c cs b⟩
        | inr lists => cases chain.symm.trans lists.1
    | inr new =>
        obtain ⟨chain, opens⟩ := new
        have bare : c.bare = c := Cell.bare_eq opens.empty
        refine ⟨[c], by rw [stacked.chain, chain]; exact congrArg (· :: _) bare,
          fun b pending rest echoes => ?_⟩
        cases echoes.lists with
        | inl lists =>
            have opened := Image.allocCore_opens opens bound lists.1 echoes.fixed lists.2
            rw [chain] at opened
            refine ⟨_, (core b (echoes.status.trans ready)).trans (opened.trans (congrArg _ (served _))),
              stacked.echoes rfl echoes.status echoes.fixed,
              Image.serve_unasked _ _ c cs { b with free := pending ++ rest }⟩
        | inr lists =>
            obtain ⟨bottom, d, later, first, current, free⟩ := lists
            cases first
            have none : cs = [] := chain.symm.trans bottom
            subst none
            have fits := Image.allocCore_fits current stacked.room
            refine ⟨_, (core b (echoes.status.trans ready)).trans (fits.trans (congrArg _ (served b))),
              stacked.echoes free echoes.status echoes.fixed,
              Image.serve_unasked _ _ c [] b⟩

/-! What an allocating call does after it has its block. -/

/-- Neither list has changed. -/
structure Image.Touched (a a' : Image σ) : Prop where
  chain : a'.chain = a.chain
  free : a'.free = a.free
  status : a'.status = a.status
  fixed : a'.fixed = a.fixed
  unasked : a.Unasked a'

theorem Image.Touched.refl (a : Image σ) : a.Touched a := ⟨rfl, rfl, rfl, rfl, .refl a⟩

theorem Image.Touched.of_world {world : World σ} (parent : world.parent = a.world.parent) :
    a.Touched { a with world } :=
  ⟨rfl, rfl, rfl, rfl, parent, rfl⟩

theorem Image.Touched.echoes {b b' : Image σ} {pending rest : List Cell} (left : a.Touched a')
    (right : b.Touched b') (echoes : a.Echoes pending rest b) : a'.Echoes pending rest b' where
  lists := by
    rw [left.chain, right.chain, right.free]
    exact echoes.lists
  status := right.status.trans (echoes.status.trans left.status.symm)
  fixed := right.fixed.trans (echoes.fixed.trans left.fixed.symm)

theorem Image.Echoed.touched {call after : Image σ → Except Fault (Nat × Image σ)} {ptr : Nat}
    {b : Image σ} (echoed : a.Echoed call ptr b) (touched : b.Touched a')
    (same : ∀ c pending rest c', a.Echoes pending rest c → call c = .ok (ptr, c') →
      ∃ c'', after c = .ok (ptr, c'') ∧ c'.Touched c'') :
    a.Echoed after ptr a' := by
  obtain ⟨entered, chain, again⟩ := echoed
  refine ⟨entered, by rw [touched.chain, chain], fun c pending rest echoes => ?_⟩
  obtain ⟨c', ran, echoes', unasked⟩ := again c pending rest echoes
  obtain ⟨c'', ran', touched'⟩ := same c _ rest c' echoes ran
  exact ⟨c'', ran', touched.echoes touched' echoes', unasked.trans touched'.unasked⟩

theorem Image.Sane.allocNZeroed_echoed (conforms : parent.Conforms Out)
    (sane : a.Sane build parent Out) {count size align ptr : Nat} (word : align ≤ sizeMax)
    (ran : a.allocNZeroed build count size align = .ok (ptr, a')) (same : a'.status = a.status) :
    a.Echoed (fun b => b.allocNZeroed build count size align) ptr a' := by
  obtain ⟨⟨fresh, b⟩, served, rest⟩ := bind_eq_ok.mp ran
  by_cases null : fresh = 0
  · cases (if_pos null).symm.trans rest
    subst null
    refine (sane.allocImpl_echoed conforms word served same).touched (.refl _) ?_
    intro c pending rest c' _ served
    exact ⟨c', bind_eq_ok.mpr ⟨_, served, if_pos rfl⟩, .refl c'⟩
  · cases (if_neg null).symm.trans rest
    refine (sane.allocImpl_echoed conforms word served same).touched (.of_world rfl) ?_
    intro c pending rest c' _ served
    exact ⟨_, bind_eq_ok.mpr ⟨_, served, if_neg null⟩, .of_world rfl⟩

theorem Image.Sane.memdup_echoed (conforms : parent.Conforms Out)
    (sane : a.Sane build parent Out) {src size ptr : Nat}
    (ran : a.memdup build src size = .ok (ptr, a')) (same : a'.status = a.status) :
    a.Echoed (fun b => b.memdup build src size) ptr a' := by
  by_cases ready : a.status = .ok
  · rw [Image.memdup, if_neg (not_not_intro ready)] at ran
    by_cases missing : src = 0 ∧ size ≠ 0
    · cases (if_pos missing).symm.trans ran
      rw [Image.fail_status ready, ready] at same
      cases same
    · have copied : ∀ {c c' : Image σ} {pending rest : List Cell}, a.Echoes pending rest c →
          c.allocImpl build 1 size 0 = .ok (ptr, c') → c.memdup build src size =
            if ptr = 0 then .ok (0, c') else .ok (ptr, c'.memcpy ptr src size) := by
        intro c c' pending rest echoes served
        rw [Image.memdup, if_neg (not_not_intro (echoes.status.trans ready)), if_neg missing, served]
        rfl
      obtain ⟨⟨fresh, b⟩, served, rest⟩ := bind_eq_ok.mp ((if_neg missing).symm.trans ran)
      by_cases null : fresh = 0
      · cases (if_pos null).symm.trans rest
        subst null
        refine (sane.allocImpl_echoed conforms (Nat.zero_le _) served same).touched (.refl _) ?_
        intro c pending rest c' echoes served
        exact ⟨c', (copied echoes served).trans (if_pos rfl), .refl c'⟩
      · cases (if_neg null).symm.trans rest
        refine (sane.allocImpl_echoed conforms (Nat.zero_le _) served same).touched
          (.of_world rfl) ?_
        intro c pending rest c' echoes served
        exact ⟨_, (copied echoes served).trans (if_neg null), .of_world rfl⟩
  · cases (if_pos ready).symm.trans ran
    exact .idle fun b pending rest echoes => if_pos (echoes.status.symm ▸ ready)

theorem Image.Sane.request_echoed (conforms : parent.Conforms Out)
    (sane : a.Sane build parent Out) {request : Request} {ptr : Nat}
    (word : request.align ≤ sizeMax) (ran : request.image build a = .ok (ptr, a'))
    (same : a'.status = a.status) : a.Echoed (request.image build) ptr a' := by
  cases request with
  | alloc size => exact sane.allocImpl_echoed conforms word ran same
  | allocZeroed size => exact sane.allocNZeroed_echoed conforms word ran same
  | allocN count size align => exact sane.allocImpl_echoed conforms word ran same
  | allocNZeroed count size align => exact sane.allocNZeroed_echoed conforms word ran same
  | memdup src size => exact sane.memdup_echoed conforms ran same
  | xalloc size align => exact sane.allocImpl_echoed conforms word ran same

/-! Resizing and freeing. -/

theorem Image.lastAt_congr {b : Image σ} (chain : b.chain = a.chain) (ptr size : Nat) :
    b.lastAt build ptr size = a.lastAt build ptr size := by
  rw [Image.lastAt, Image.lastAt, chain]

/-- Where the newest cursor moved, both arenas still have one chain. -/
theorem Image.Echoed.moved {call : Image σ → Except Fault (Nat × Image σ)} {ptr : Nat} {c d : Cell}
    {cs : List Cell} (chain : a.chain = c :: cs) (bare : d.bare = c.bare)
    (after : a'.chain = d :: cs) (status : a'.status = a.status) (fixed : a'.fixed = a.fixed)
    (same : ∀ b : Image σ, b.chain = a.chain → b.status = a.status → ∃ b', call b = .ok (ptr, b') ∧
      b'.chain = d :: cs ∧ b'.free = b.free ∧ b'.status = b.status ∧ b'.fixed = b.fixed ∧
      b.Unasked b') :
    a.Echoed call ptr a' := by
  refine ⟨[], by rw [after, chain, List.map_cons, bare]; rfl, fun b pending rest echoes => ?_⟩
  cases echoes.lists with
  | inl lists =>
      obtain ⟨b', ran, chain', free, status', fixed', unasked⟩ := same b lists.1 echoes.status
      refine ⟨b', ran, ⟨.inl ⟨chain'.trans after.symm, free.trans lists.2⟩, ?_, ?_⟩, unasked⟩
      · exact status'.trans (echoes.status.trans status.symm)
      · exact fixed'.trans (echoes.fixed.trans fixed.symm)
  | inr lists => cases chain.symm.trans lists.1

theorem Image.Echoes.same_chain {b : Image σ} {pending rest : List Cell}
    (echoes : a.Echoes pending rest b) (some : a.chain ≠ []) : b.chain = a.chain := by
  cases echoes.lists with
  | inl lists => exact lists.1
  | inr lists => exact absurd lists.1 some

theorem Image.resizeLast_echoed {ptr oldSize newSize : Nat}
    {call : Image σ → Except Fault (Nat × Image σ)}
    (resized : a.resizeLast build ptr oldSize newSize = some a')
    (same : ∀ b b' : Image σ, b.status = a.status →
      b.resizeLast build ptr oldSize newSize = some b' → call b = .ok (ptr, b')) :
    a.Echoed call ptr a' := by
  rw [Image.resizeLast] at resized
  cases last : a.lastAt build ptr oldSize with
  | none =>
      rw [last] at resized
      cases resized
  | some found =>
      obtain ⟨c, cs⟩ := found
      have chain := (Image.lastAt_some last).1
      have follows : ∀ {b : Image σ}, b.chain = a.chain →
          b.lastAt build ptr oldSize = some (c, cs) :=
        fun same => (Image.lastAt_congr same ptr oldSize).trans last
      rw [last] at resized
      dsimp only at resized
      by_cases smaller : newSize ≤ oldSize
      · cases (if_pos smaller).symm.trans resized
        refine .moved (d := { c with used := c.used - (oldSize - newSize) }) chain rfl rfl rfl rfl ?_
        intro b level status
        refine ⟨b.shrinkLast build ptr oldSize newSize c cs, same b _ status ?_, rfl, rfl, rfl, rfl,
          (World.dead_touched build _ _ b.world).parent, rfl⟩
        rw [Image.resizeLast, follows level]
        exact if_pos smaller
      · rw [if_neg smaller] at resized
        by_cases full : c.cap - c.used < newSize - oldSize
        · cases (if_pos full).symm.trans resized
        · cases (if_neg full).symm.trans resized
          refine .moved (d := { c with used := c.used + (newSize - oldSize) }) chain rfl rfl rfl rfl ?_
          intro b level status
          refine ⟨b.growLast build ptr oldSize newSize c cs, same b _ status ?_, rfl, rfl, rfl, rfl,
            (World.live_touched build _ _ b.world).parent, rfl⟩
          rw [Image.resizeLast, follows level]
          exact (if_neg smaller).trans (if_neg full)

theorem Image.resizeLast_stuck {b : Image σ} {ptr oldSize newSize : Nat}
    (chain : b.chain = a.chain) (stuck : a.resizeLast build ptr oldSize newSize = none) :
    b.resizeLast build ptr oldSize newSize = none := by
  rw [Image.resizeLast, Image.lastAt_congr chain]
  rw [Image.resizeLast] at stuck
  cases last : a.lastAt build ptr oldSize with
  | none => rfl
  | some found =>
      rw [last] at stuck
      dsimp only at stuck ⊢
      split at stuck
      · cases stuck
      · case isFalse larger =>
          rw [if_neg larger]
          split at stuck
          · case isTrue full => exact if_pos full
          · cases stuck

section
variable {ptr oldSize newSize align : Nat} (ready : a.status = .ok)
  (valid : ¬ (!alignValid align) = true) (some : newSize ≠ 0)

include ready valid some

theorem Image.realloc_of_null (null : ptr = 0) :
    a.realloc build ptr oldSize newSize align = a.allocImpl build 1 newSize align := by
  unfold Image.realloc
  rw [if_neg (not_not_intro ready), if_neg valid, if_neg some]
  exact if_pos null

theorem Image.realloc_of_given (given : ptr ≠ 0) (small : ¬ ptrdiffMax < newSize) :
    (∀ b, a.resizeLast build ptr oldSize newSize = .some b →
        a.realloc build ptr oldSize newSize align = .ok (ptr, b)) ∧
      (a.resizeLast build ptr oldSize newSize = none →
        a.realloc build ptr oldSize newSize align =
          a.reallocMove build ptr oldSize newSize align) := by
  unfold Image.realloc
  rw [if_neg (not_not_intro ready), if_neg valid, if_neg some, if_neg given, if_neg small]
  constructor
  · intro b resized
    simp only [resized]
  · intro stuck
    simp only [stuck]

end

theorem Image.Sane.realloc_echoed (conforms : parent.Conforms Out)
    (sane : a.Sane build parent Out) {ptr oldSize newSize align fresh : Nat}
    (word : align ≤ sizeMax) (held : ptr ≠ 0 → a.chain ≠ [])
    (ran : a.realloc build ptr oldSize newSize align = .ok (fresh, a'))
    (same : a'.status = a.status) :
    a.Echoed (fun b => b.realloc build ptr oldSize newSize align) fresh a' := by
  have failing : ∀ {status : Status}, a.status = .ok → status ≠ .ok → a' = a.fail status →
      False := by
    intro status ready failed after
    rw [after, Image.fail_status ready, ready] at same
    exact failed same
  by_cases ready : a.status = .ok
  · rw [Image.realloc, if_neg (not_not_intro ready)] at ran
    by_cases invalid : (!alignValid align) = true
    · cases (if_pos invalid).symm.trans ran
      exact (failing ready (by decide) rfl).elim
    · rw [if_neg invalid] at ran
      by_cases empty : newSize = 0
      · cases (if_pos empty).symm.trans ran
        exact (failing ready (by decide) rfl).elim
      · rw [if_neg empty] at ran
        by_cases null : ptr = 0
        · have served := (if_pos null).symm.trans ran
          refine (sane.allocImpl_echoed conforms word served same).touched (.refl _) ?_
          intro c pending rest c' echoes served
          have plain : c.realloc build ptr oldSize newSize align =
              c.allocImpl build 1 newSize align :=
            Image.realloc_of_null (echoes.status.trans ready) invalid empty null
          exact ⟨c', plain.trans served, .refl c'⟩
        · rw [if_neg null] at ran
          by_cases large : ptrdiffMax < newSize
          · cases (if_pos large).symm.trans ran
            exact (failing ready (by decide) rfl).elim
          · rw [if_neg large] at ran
            cases resized : a.resizeLast build ptr oldSize newSize with
            | some b =>
                rw [resized] at ran
                cases ran
                refine Image.resizeLast_echoed resized fun b b' status resized => ?_
                exact (Image.realloc_of_given (status.trans ready) invalid empty null large).1 b' resized
            | none =>
                rw [resized] at ran
                have moves : ∀ {b : Image σ} {pending rest : List Cell}, a.Echoes pending rest b →
                    b.realloc build ptr oldSize newSize align =
                      b.reallocMove build ptr oldSize newSize align := by
                  intro b pending rest echoes
                  exact (Image.realloc_of_given (echoes.status.trans ready) invalid empty null
                    large).2 (Image.resizeLast_stuck (echoes.same_chain (held null)) resized)
                obtain ⟨⟨given, b⟩, served, rest⟩ := bind_eq_ok.mp ran
                by_cases refused : given = 0
                · cases (if_pos refused).symm.trans rest
                  subst refused
                  refine (sane.allocImpl_echoed conforms word served same).touched (.refl _) ?_
                  intro c pending rest c' echoes served
                  refine ⟨c', (moves echoes).trans ?_, .refl c'⟩
                  exact bind_eq_ok.mpr ⟨_, served, if_pos rfl⟩
                · cases (if_neg refused).symm.trans rest
                  refine (sane.allocImpl_echoed conforms word served same).touched
                    ⟨rfl, rfl, rfl, rfl, (World.dead_touched build _ _ _).parent, rfl⟩ ?_
                  intro c pending rest c' echoes served
                  refine ⟨c'.abandon build ptr oldSize fresh newSize, (moves echoes).trans ?_,
                    rfl, rfl, rfl, rfl, (World.dead_touched build _ _ _).parent, rfl⟩
                  exact bind_eq_ok.mpr ⟨_, served, if_neg refused⟩
  · cases (if_pos ready).symm.trans ran
    exact .idle fun b pending rest echoes => if_pos (echoes.status.symm ▸ ready)

/-- An arena that echoes another one frees what it frees. -/
theorem Image.xfree_echoed {ptr size : Nat} (held : a.chain ≠ []) :
    a.Echoed (fun b => .ok (0, b.xfree build ptr size)) 0 (a.xfree build ptr size) := by
  cases last : a.lastAt build ptr size with
  | none =>
      have same : ∀ {b : Image σ}, b.chain = a.chain → b.xfree build ptr size = b := by
        intro b level
        rw [Image.xfree, Image.lastAt_congr level, last]
      rw [same rfl]
      exact .idle fun b pending rest echoes => by rw [same (echoes.same_chain held)]
  | some found =>
      obtain ⟨c, cs⟩ := found
      have rolls : ∀ {b : Image σ}, b.chain = a.chain →
          b.xfree build ptr size = b.rollBack build ptr size c cs := by
        intro b level
        rw [Image.xfree, Image.lastAt_congr level, last]
      rw [rolls rfl]
      refine .moved (d := { c with used := ptr - c.data }) (Image.lastAt_some last).1 rfl rfl rfl rfl ?_
      intro b level _
      exact ⟨b.rollBack build ptr size c cs, by rw [rolls level], rfl, rfl, rfl, rfl,
        (World.dead_touched build _ _ b.world).parent, rfl⟩

end

end AgencC.Arena
