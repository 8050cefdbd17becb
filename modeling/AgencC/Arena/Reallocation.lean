import AgencC.Arena.Borrowing
import AgencC.Arena.Integrity
import AgencC.Arena.Requests

/-! What `arena_realloc` keeps of an allocation, and when it leaves it in place. -/

set_option autoImplicit false

namespace AgencC.Arena

open Library

variable {σ : Type} {build : Build} {parent : AllocT σ} {Out : World σ → List Region → Prop}

/-- A NULL pointer is a plain allocation. -/
theorem realloc_null (build : Build) {newSize align : Nat} (some : newSize ≠ 0) (s : State σ) :
    realloc build 0 0 newSize align s = allocN build 1 newSize align s := by
  unfold realloc allocN allocImpl
  split
  · rfl
  · split
    · rfl
    · rw [Build.check_of build (.inr rfl), ok_bind]
      rfl

theorem Books.freed_live (b : Books) {ptr : Nat} (given : ptr ≠ 0) (size align : Nat)
    (ignored : Bool) : (b.freed ptr size align ignored).scope.live =
      b.scope.live.erase { addr := ptr, size, align } := by
  rw [Books.freed, if_neg given]
  cases ignored <;> rfl

/-- The current scope's live allocations after one was resized or moved. -/
theorem Books.reallocated_live (b : Books) {ptr fresh : Nat} (oldSize newSize align : Nat)
    (given : ptr ≠ 0) (served : fresh ≠ 0) (bytes : Nat → UInt8) :
    (b.reallocated ptr oldSize newSize align fresh bytes).scope.live =
        { addr := fresh, size := newSize, align } ::
          b.scope.live.erase { addr := ptr, size := oldSize, align } ∧
      (b.reallocated ptr oldSize newSize align fresh bytes).outer = b.outer ∧
      (b.reallocated ptr oldSize newSize align fresh bytes).contents =
        carry b.contents bytes ptr (min oldSize newSize) { addr := fresh, size := newSize, align } := by
  rw [Books.reallocated, if_neg served, if_neg given]
  by_cases same : fresh = ptr
  · rw [if_pos same]
    exact ⟨rfl, rfl, rfl⟩
  · rw [if_neg same]
    refine ⟨List.erase_cons_tail ?_, rfl, rfl⟩
    simp [same]

/-- What a reallocation does with the allocation `x` of `s`. -/
structure Session.Reallocated (build : Build) (s : Session σ) (x : Span) (newSize fresh : Nat)
    (s' : Session σ) : Prop where
  live : { addr := fresh, size := newSize, align := x.align } ∈ s'.books.scope.live
  aligned : alignEffective build x.align ∣ fresh
  carried : ∀ i < min x.size newSize,
    s'.state.world.bytes (fresh + i) = s.state.world.bytes (x.addr + i)
  others : ∀ y ∈ s.books.live, y ≠ x → y ∈ s'.books.live ∧
    y.extent.Apart ⟨fresh, newSize⟩ ∧
    ∀ p, y.Covers p → s'.state.world.bytes p = s.state.world.bytes p

/-- What a reallocation that fails leaves. -/
structure Session.Unmoved (s : Session σ) (s' : Session σ) : Prop where
  books : s'.books = s.books
  bytes : ∀ y ∈ s.books.live, ∀ p, y.Covers p →
    s'.state.world.bytes p = s.state.world.bytes p

theorem Account.Kept.reallocates {s s' : Session σ} {t t' : Account σ} (shows : s.Shows t)
    (shows' : s'.Shows t') (kept : t.Kept build parent Out) (kept' : t'.Kept build parent Out)
    {ptr oldSize newSize align fresh : Nat}
    (member : { addr := ptr, size := oldSize, align } ∈ s.books.scope.live) (given : ptr ≠ 0)
    (books : t'.books = t.books.reallocated ptr oldSize newSize align fresh t'.image.world.bytes) :
    (fresh ≠ 0 → s.Reallocated build { addr := ptr, size := oldSize, align } newSize fresh s') ∧
      (fresh = 0 → s.Unmoved s') := by
  have kept : t.image.Kept build parent Out t.books := kept
  have kept' : t'.image.Kept build parent Out t'.books := kept'
  have before : ∀ p, s.state.world.bytes p = t.image.world.bytes p := fun p => by rw [shows.1.world]
  have after : ∀ p, s'.state.world.bytes p = t'.image.world.bytes p := fun p => by
    rw [shows'.1.world]
  rw [shows.2] at member
  have held : (⟨ptr, oldSize, align⟩ : Span) ∈ t.books.live := Books.mem_live.mpr (.inl member)
  constructor
  · intro served
    obtain ⟨live, outer, contents⟩ := t.books.reallocated_live oldSize newSize align given
      served t'.image.world.bytes
    rw [← books] at live outer contents
    have whole : t'.books.live = { addr := fresh, size := newSize, align } ::
        (t.books.scope.live.erase { addr := ptr, size := oldSize, align } ++ t.books.suspended) := by
      rw [Books.live, Books.ledgers, List.flatMap_cons, live, outer]
      rfl
    have apart := kept'.live_apart
    rw [whole, List.map_cons] at apart
    have separate := (List.pairwise_cons.mp apart).1
    have mine : (⟨fresh, newSize, align⟩ : Span) ∈ t'.books.live := whole ▸ .head _
    refine
      { live := by rw [shows'.2, live]; exact .head _
        aligned := (kept'.lie.aligned _ mine).1
        carried := fun i small => ?_
        others := fun y listed other => ?_ }
    · have inside : i < newSize := Nat.lt_of_lt_of_le small (Nat.min_le_right _ _)
      have source : i < oldSize := Nat.lt_of_lt_of_le small (Nat.min_le_left _ _)
      have covers : Span.Covers ⟨fresh, newSize, align⟩ (fresh + i) :=
        ⟨Nat.le_add_right _ _, Nat.add_lt_add_left inside _⟩
      rw [after, before, kept'.written _ mine _ covers, contents,
        carry_kept covers (Nat.add_lt_add_left small _), Nat.add_sub_cancel_left]
      exact (kept.written _ held _ ⟨Nat.le_add_right _ _, Nat.add_lt_add_left source _⟩).symm
    · rw [shows.2] at listed
      have rest : y ∈ t.books.scope.live.erase { addr := ptr, size := oldSize, align } ++
          t.books.suspended := by
        cases Books.mem_live.mp listed with
        | inl here =>
            exact List.mem_append_left _ ((List.mem_erase_of_ne other).mpr here)
        | inr later => exact List.mem_append_right _ later
      have member' : y ∈ t'.books.live := whole ▸ .tail _ rest
      have away := (separate _ (List.mem_map_of_mem rest)).symm
      refine ⟨shows'.2 ▸ member', away, fun p covers => ?_⟩
      have outside : ¬ Span.Covers ⟨fresh, newSize, align⟩ p := away.not_covers covers
      rw [after, before, kept'.written y member' p covers, contents, carry_outside outside]
      exact (kept.written y listed p covers).symm
  · intro refused
    have same : t'.books = t.books := by
      rw [books, Books.reallocated, if_pos refused]
    refine ⟨by rw [shows'.2, shows.2, same], fun y listed p covers => ?_⟩
    rw [shows.2] at listed
    rw [after, before, kept'.written y (same ▸ listed) p covers, same]
    exact (kept.written y listed p covers).symm

/-- What is live in the current scope is not NULL. -/
theorem Image.Kept.given {a : Image σ} {b : Books} (kept : a.Kept build parent Out b) {x : Span}
    (member : x ∈ b.scope.live) : x.addr ≠ 0 := by
  intro null
  have empty : x.size = 0 := (kept.resizable (.inr member)).1 null
  have listed : x ∈ b.live := Books.mem_live.mpr (.inl member)
  have filled := (kept.lie.placed x (Books.mem_spans_of_lit (Books.mem_lit_of_live listed))).2
  omega

/-- After any legal run, a reallocation of a live allocation keeps its bytes, wherever it ends up,
and one that fails changes nothing. Of NULL, it is an allocation. -/
theorem Session.realloc_intact (conforms : parent.Conforms Out) {s₀ s : Session σ}
    (started : s₀.Started build parent Out) {ops : List (Op σ)} {ptrs : List Nat}
    (allowed : s₀.Allows build (fun s op => op.Legal Out s) ops)
    (reached : s₀.run build ops = .ok (ptrs, s)) :
    (∀ x ∈ s.books.scope.live, ∀ newSize, x.align ≤ sizeMax →
      ∃ fresh s', s.step build (.realloc x.addr x.size newSize x.align) = .ok (fresh, s') ∧
        (fresh ≠ 0 → s.Reallocated build x newSize fresh s') ∧ (fresh = 0 → s.Unmoved s')) ∧
      ∀ newSize align, newSize ≠ 0 →
        realloc build 0 0 newSize align s.state = allocN build 1 newSize align s.state := by
  refine ⟨fun x member newSize word => ?_, fun newSize align some => realloc_null build some s.state⟩
  obtain ⟨t, shows, kept⟩ := Session.run_kept conforms started allowed reached
  have legal : Op.Legal Out s (.realloc x.addr x.size newSize x.align) := ⟨word, .inr member⟩
  have level : t.Level build (.realloc x.addr x.size newSize x.align) := trivial
  obtain ⟨fresh, s', t', ran, _, _⟩ := Session.step_refines conforms shows kept legal level
  obtain ⟨t', followed, shows', kept', _⟩ := Session.step_follows conforms shows kept legal ran
  have given : x.addr ≠ 0 := Image.Kept.given kept (shows.2 ▸ member)
  have books : t'.books =
      t.books.reallocated x.addr x.size newSize x.align fresh t'.image.world.bytes := by
    obtain ⟨⟨_, image⟩, _, same⟩ := bind_eq_ok.mp followed
    cases same
    rfl
  exact ⟨fresh, s', ran, Account.Kept.reallocates shows shows' kept kept' member given books⟩

theorem Session.realloc_intact_moved :
    ∃ ptrs s s', Session.rising.run .sanitized [.allocate (.alloc 100)] = .ok (ptrs, s) ∧
      s.step .sanitized (.realloc 4128 100 9000 0) = .ok (8224, s') ∧
      s.Reallocated .sanitized { addr := 4128, size := 100, align := 0 } 9000 8224 s' := by
  have conforms := risingParent_conforms 0x100000 (by decide)
  have reached : Session.rising.run .sanitized [.allocate (.alloc 100)] = .ok _ := rfl
  have allowed : Session.rising.Allows .sanitized (fun s op => op.Legal (RisingOut 0x100000) s)
      [.allocate (.alloc 100)] := .cons rfl (Nat.zero_le _) trivial
  obtain ⟨fresh, s', ran, moved, _⟩ := (Session.realloc_intact conforms (Session.rising_started _)
    allowed reached).1 { addr := 4128, size := 100, align := 0 } (.head _) 9000 (Nat.zero_le _)
  obtain rfl : fresh = 8224 :=
    Except.ok.inj ((congrArg (Except.map Prod.fst) ran).symm.trans rfl)
  exact ⟨_, _, s', reached, ran, moved (by decide)⟩

/-! Resizing in place does not involve the parent. -/

section
variable {s s' : State σ} (p : AllocT σ)

theorem State.setHeader_under {block : Nat} {h : Block} (done : s.setHeader block h = .ok s') :
    (s.under p).setHeader block h = .ok (s'.under p) := by
  unfold State.setHeader at done
  split at done
  · case isTrue stored =>
      cases done
      exact if_pos stored
  · cases done

theorem memset_under {ptr len : Nat} {value : UInt8} (done : memset ptr value len s = .ok s') :
    memset ptr value len (s.under p) = .ok (s'.under p) := by
  obtain ⟨_, inside, same⟩ := bind_eq_ok.mp done
  cases same
  exact bind_eq_ok.mpr ⟨_, inside, rfl⟩

/-- What a build does only when it is enabled. -/
theorem enabled_under {enabled : Bool} {step step' : Except Fault (State σ)}
    (under : ∀ after, step = .ok after → step' = .ok (after.under p))
    (done : (if enabled then step else .ok s) = .ok s') :
    (if enabled then step' else .ok (s.under p)) = .ok (s'.under p) := by
  cases enabled with
  | true => exact under s' done
  | false =>
      cases done
      rfl

theorem setPoison_under {ptr len : Nat} {poisoned : Bool} (after : State σ)
    (done : (do
      s.dataAccess ptr len
      .ok { s with world := s.world.setPoison ptr len poisoned }) = .ok after) :
    (do
      (s.under p).dataAccess ptr len
      .ok { s.under p with world := (s.under p).world.setPoison ptr len poisoned }) =
        (.ok (after.under p) : Except Fault (State σ)) := by
  obtain ⟨_, inside, same⟩ := bind_eq_ok.mp done
  cases same
  exact bind_eq_ok.mpr ⟨_, inside, rfl⟩

theorem unpoison_under {ptr len : Nat} (done : unpoison build ptr len s = .ok s') :
    unpoison build ptr len (s.under p) = .ok (s'.under p) :=
  enabled_under p (setPoison_under p) done

theorem poison_under {ptr len : Nat} (done : poison build ptr len s = .ok s') :
    poison build ptr len (s.under p) = .ok (s'.under p) :=
  enabled_under p (setPoison_under p) done

theorem fillAlloc_under {ptr len : Nat} (done : fillAlloc build ptr len s = .ok s') :
    fillAlloc build ptr len (s.under p) = .ok (s'.under p) :=
  enabled_under p (fun _ filled => memset_under p filled) done

theorem fillDead_under {ptr len : Nat} (done : fillDead build ptr len s = .ok s') :
    fillDead build ptr len (s.under p) = .ok (s'.under p) :=
  enabled_under p (fun _ filled => memset_under p filled) done

theorem markDead_under {block keep deadEnd : Nat} (done : markDead build block keep deadEnd s = .ok s') :
    markDead build block keep deadEnd (s.under p) = .ok (s'.under p) := by
  obtain ⟨data, found, rest⟩ := bind_eq_ok.mp done
  refine bind_eq_ok.mpr ⟨data, found, ?_⟩
  split at rest
  · case isTrue empty =>
      cases rest
      exact if_pos empty
  · case isFalse some =>
      obtain ⟨middle, filled, rest⟩ := bind_eq_ok.mp rest
      exact (if_neg some).trans (bind_eq_ok.mpr ⟨_, fillDead_under p filled, poison_under p rest⟩)

theorem tryResizeLast_under {ptr oldSize newSize : Nat} {resized : Option Nat}
    (done : tryResizeLast build ptr oldSize newSize s = .ok (resized, s')) :
    tryResizeLast build ptr oldSize newSize (s.under p) = .ok (resized, s'.under p) := by
  obtain ⟨last, asked, rest⟩ := bind_eq_ok.mp done
  refine bind_eq_ok.mpr ⟨last, asked, ?_⟩
  cases last with
  | none =>
      cases rest
      rfl
  | some offset =>
      obtain ⟨h, found, rest⟩ := bind_eq_ok.mp rest
      refine bind_eq_ok.mpr ⟨h, found, ?_⟩
      dsimp only at rest ⊢
      by_cases smaller : newSize ≤ oldSize
      · rw [if_pos smaller] at rest ⊢
        obtain ⟨used, lowered, rest⟩ := bind_eq_ok.mp rest
        obtain ⟨middle, stored, rest⟩ := bind_eq_ok.mp rest
        obtain ⟨live, counted, rest⟩ := bind_eq_ok.mp rest
        obtain ⟨last, marked, rest⟩ := bind_eq_ok.mp rest
        cases rest
        exact bind_eq_ok.mpr ⟨used, lowered, bind_eq_ok.mpr ⟨_, State.setHeader_under p stored,
          bind_eq_ok.mpr ⟨live, counted, bind_eq_ok.mpr ⟨_, markDead_under p marked, rfl⟩⟩⟩⟩
      · rw [if_neg smaller] at rest ⊢
        obtain ⟨room, left, rest⟩ := bind_eq_ok.mp rest
        refine bind_eq_ok.mpr ⟨room, left, ?_⟩
        by_cases full : room < newSize - oldSize
        · rw [if_pos full] at rest ⊢
          cases rest
          rfl
        · rw [if_neg full] at rest ⊢
          obtain ⟨used, raised, rest⟩ := bind_eq_ok.mp rest
          obtain ⟨middle, stored, rest⟩ := bind_eq_ok.mp rest
          obtain ⟨arena, counted, rest⟩ := bind_eq_ok.mp rest
          obtain ⟨lit, cleared, rest⟩ := bind_eq_ok.mp rest
          obtain ⟨last, filled, rest⟩ := bind_eq_ok.mp rest
          cases rest
          obtain ⟨live, added, same⟩ := bind_eq_ok.mp counted
          cases same
          have counted : (middle.under p).arena.addUsed build (newSize - oldSize) = .ok _ :=
            bind_eq_ok.mpr ⟨live, added, rfl⟩
          exact bind_eq_ok.mpr ⟨used, raised, bind_eq_ok.mpr ⟨_, State.setHeader_under p stored,
            bind_eq_ok.mpr ⟨_, counted, bind_eq_ok.mpr ⟨_, unpoison_under p cleared,
              bind_eq_ok.mpr ⟨_, fillAlloc_under p filled, rfl⟩⟩⟩⟩⟩

end

/-- The call returns the pointer it was given, whatever the parent would do. -/
def State.Stays (build : Build) (s : State σ) (x : Span) (newSize : Nat) : Prop :=
  ∃ s' : State σ, ∀ p : AllocT σ,
    realloc build x.addr x.size newSize x.align (s.under p) = .ok (x.addr, s'.under p)

/-- An allocation that fits where it is: a smaller size, or what the block still has room for. -/
def Block.Admits (build : Build) (block : Block) (addr : Nat) (x : Span) (newSize : Nat) : Prop :=
  newSize ≤ x.size ∨ x.addr + newSize + build.redzone ≤ addr + blockHdr + block.cap

section
variable {a : Image σ} {s : State σ} {x : Span}

/-- The current block of an arena and the rest of its chain. -/
theorem State.Shows.head (shows : s.Shows a) {block : Block}
    (found : s.blocks.lookup s.arena.current = some block) :
    ∃ c cs, a.chain = c :: cs ∧ c.addr = s.arena.current ∧ c.used = block.used ∧ c.cap = block.cap := by
  have linked := shows.blocks.linked
  have current := shows.current
  cases chain : a.chain with
  | nil =>
      have absent : s.blocks.lookup s.arena.current = none := by
        refine shows.blocks.lookup_none fun c member => ?_
        rw [current, chain]
        exact (shows.blocks.found (by simpa using member)).1
      cases absent.symm.trans found
  | cons c cs =>
      rw [chain] at linked current
      have here : s.blocks.lookup c.addr = some _ := linked.2.1
      rw [show s.arena.current = c.addr from current, here] at found
      cases found
      exact ⟨c, cs, rfl, current.symm, rfl, rfl⟩

theorem Image.lastAt_of {c : Cell} {cs : List Cell} {ptr size : Nat} (chain : a.chain = c :: cs)
    (above : c.data ≤ ptr) (ends : ptr + build.footprint size = c.cursor) :
    a.lastAt build ptr size = some (c, cs) := by
  rw [Image.lastAt, chain]
  exact if_pos ⟨above, ends⟩

/-- Where an allocation ends at the cursor, it is resized in place. -/
theorem Image.Kept.resizes {b : Books} (kept : a.Kept build parent Out b)
    {c : Cell} {cs : List Cell} (chain : a.chain = c :: cs) (above : c.data ≤ x.addr)
    (ends : x.addr + build.footprint x.size = c.cursor) {newSize : Nat}
    (fits : newSize ≤ x.size ∨ x.addr + newSize + build.redzone ≤ c.data + c.cap) :
    newSize ≤ ptrdiffMax ∧ ∃ a', a.resizeLast build x.addr x.size newSize = some a' := by
  have sized := kept.sane.sized c (State.Shows.mem_chain chain)
  have below := kept.sane.fits c (State.Shows.mem_chain chain)
  have footprint : build.footprint x.size = x.size + build.redzone := rfl
  have cursor : c.cursor = c.data + c.used := rfl
  refine ⟨by omega, ?_⟩
  rw [Image.resizeLast, Image.lastAt_of chain above ends]
  dsimp only
  by_cases smaller : newSize ≤ x.size
  · exact ⟨_, if_pos smaller⟩
  · rw [if_neg smaller, if_neg (by omega)]
    exact ⟨_, rfl⟩

/-- A reallocation that moves does not come back to where it was. -/
theorem Image.Kept.moves {b : Books} (conforms : parent.Conforms Out)
    (kept : a.Kept build parent Out b) (member : x ∈ b.scope.live) (word : x.align ≤ sizeMax)
    {newSize fresh : Nat} {a' : Image σ} (same : fresh = x.addr)
    (ran : a.realloc build x.addr x.size newSize x.align = .ok (fresh, a')) :
    ∃ c cs, a.chain = c :: cs ∧ x.addr + build.footprint x.size = c.cursor := by
  have given := kept.given member
  have listed : x ∈ b.live := Books.mem_live.mpr (.inl member)
  cases Image.realloc_reallocates ran with
  | resized ready done =>
      unfold Image.resizeLast at done
      cases last : a.lastAt build x.addr x.size with
      | none =>
          rw [last] at done
          cases done
      | some found =>
          obtain ⟨c, cs⟩ := found
          obtain ⟨chain, _, ends⟩ := Image.lastAt_some last
          exact ⟨c, cs, chain, ends⟩
  | moved demanded served unserved after =>
      obtain ⟨_, _, again, _, outcome⟩ := kept.sane.allocImpl conforms 1 newSize word
      cases served.symm.trans again
      cases outcome with
      | inl refused => exact absurd (same.symm.trans refused.1) given
      | inr took =>
          obtain ⟨_, some, _, took⟩ := took
          rw [same] at took
          have filled := (kept.lie.placed x (Books.mem_spans_of_lit (Books.mem_lit_of_live listed))).2
          refine absurd ?_ (took.fresh x.addr (Nat.le_refl _) ?_)
          · exact kept.lit_below (Books.mem_lit_of_live listed)
              ⟨Nat.le_refl _, Nat.lt_add_of_pos_right filled⟩
          · exact Nat.lt_add_of_pos_right (Build.footprint_pos some)
  | rejected ready wrong => exact absurd same.symm given

end

/-- After any legal run with no error, an allocation of the current block for which there is room
stays where it is exactly when it ends at the cursor. -/
theorem Session.realloc_stays (conforms : parent.Conforms Out) {s₀ s : Session σ}
    (started : s₀.Started build parent Out) {ops : List (Op σ)} {ptrs : List Nat}
    (allowed : s₀.Allows build (fun s op => op.Legal Out s) ops)
    (reached : s₀.run build ops = .ok (ptrs, s)) (ready : s.state.arena.status = .ok) {x : Span}
    (member : x ∈ s.books.scope.live) (word : x.align ≤ sizeMax)
    (valid : alignValid x.align = true) {block : Block}
    (found : s.state.blocks.lookup s.state.arena.current = some block)
    (here : s.state.arena.current + blockHdr ≤ x.addr) {newSize : Nat} (some : 0 < newSize)
    (fits : block.Admits build s.state.arena.current x newSize) :
    s.state.Stays build x newSize ↔
      x.addr + x.size + build.redzone = s.state.arena.current + blockHdr + block.used := by
  obtain ⟨t, shows, kept⟩ := Session.run_kept conforms started allowed reached
  have kept : t.image.Kept build parent Out t.books := kept
  rw [shows.2] at member
  obtain ⟨c, cs, chain, addr, used, cap⟩ := shows.1.head found
  have given := kept.given member
  have resizable := kept.resizable (.inr member)
  have able : t.image.status = .ok := by
    rw [shows.1.arena] at ready
    exact ready
  have cursor : c.cursor = s.state.arena.current + blockHdr + block.used := by
    rw [Cell.cursor, addr, used]
  have own : s.state.under s.state.arena.parent = s.state := rfl
  constructor
  · intro stays
    obtain ⟨s', stays⟩ := stays
    obtain ⟨fresh, _, a', ran, ran', _⟩ := realloc_refines conforms shows.1 kept.sane newSize word
      resizable.1 resizable.2
    cases (own ▸ stays s.state.arena.parent).symm.trans ran
    obtain ⟨d, ds, chain', ends⟩ := kept.moves conforms member word rfl ran'
    cases chain.symm.trans chain'
    rw [← cursor]
    exact (Nat.add_assoc _ _ _).trans ends
  · intro ends
    have ends : x.addr + build.footprint x.size = c.cursor :=
      (Nat.add_assoc _ _ _).symm.trans (ends.trans cursor.symm)
    have data : c.data = s.state.arena.current + blockHdr := congrArg (· + blockHdr) addr
    have room : newSize ≤ x.size ∨ x.addr + newSize + build.redzone ≤ c.data + c.cap := by
      rw [data, cap]
      exact fits
    obtain ⟨small, a', resized⟩ := kept.resizes chain (data ▸ here) ends room
    cases tryResizeLast_refines conforms shows.1 kept.sane given (resizable.2 given).2 newSize with
    | inl moves => cases moves.1.symm.trans resized
    | inr stays =>
        obtain ⟨_, s', _, ran, _⟩ := stays
        refine ⟨s', fun p => ?_⟩
        have able : s.state.canServe = true := decide_eq_true ready
        have servable : (s.state.under p).canServe = true := able
        unfold realloc
        rw [servable, valid, Build.check_of build (.inl given), tryResizeLast_under p ran,
          if_neg (by decide), if_neg (by decide), if_neg (by omega), ok_bind, if_neg given,
          if_neg (by omega)]
        rfl

theorem Session.realloc_stays_last :
    ∃ ptrs s, Session.rising.run .sanitized [.allocate (.alloc 100)] = .ok (ptrs, s) ∧
      s.state.Stays .sanitized { addr := 4128, size := 100, align := 0 } 50 := by
  have conforms := risingParent_conforms 0x100000 (by decide)
  have reached : Session.rising.run .sanitized [.allocate (.alloc 100)] = .ok _ := rfl
  have allowed : Session.rising.Allows .sanitized (fun s op => op.Legal (RisingOut 0x100000) s)
      [.allocate (.alloc 100)] := .cons rfl (Nat.zero_le _) trivial
  have room : ∀ {s : State Nat} {block : Block}, s.room = some (4244, 3948) →
      s.blocks.lookup s.arena.current = some block →
      4128 + 100 + Build.sanitized.redzone = s.arena.current + blockHdr + block.used := by
    intro s block room found
    rw [State.room, found] at room
    injection room with place
    exact (congrArg Prod.fst place).symm
  have here : 4096 + blockHdr ≤ 4128 := by decide
  have stays := Session.realloc_stays conforms (Session.rising_started _) allowed reached rfl
    (x := { addr := 4128, size := 100, align := 0 }) (.head _) (Nat.zero_le _) (by decide) rfl here
    (show 0 < 50 by decide) (.inl (by decide))
  exact ⟨_, _, reached, stays.mpr (room rfl rfl)⟩

/-- The only live allocation of an arena in a buffer is not shrunk in place: an aligned allocation
after it was freed, but not the padding before that. The move fails. -/
theorem Session.realloc_moves_shrunk :
    ∃ (state : State Nat) (s s' : Session Nat),
      initFixed .sanitized 4096 256 risingWorld = .ok state ∧
        Session.Started .sanitized (allocNull Nat) NoneOut
          { state, books := .start risingWorld.bytes } ∧
        Session.Allows .sanitized (fun s op => op.Legal NoneOut s)
          { state, books := .start risingWorld.bytes }
          [.allocate (.alloc 100), .allocate (.xalloc 8 64), .xfree 4288 8 64] ∧
        Session.run .sanitized { state, books := .start risingWorld.bytes }
          [.allocate (.alloc 100), .allocate (.xalloc 8 64), .xfree 4288 8 64] =
            .ok ([4128, 4288, 0], s) ∧
        s.state.arena.status = .ok ∧
        s.books.live = [{ addr := 4128, size := 100, align := 0 }] ∧
        s.state.room = some (4288, 64) ∧
        s.step .sanitized (.realloc 4128 100 50 0) = .ok (0, s') ∧
        s'.state.arena.status = .errAlloc := by
  have word : 64 ≤ sizeMax := by decide
  have done : initFixed .sanitized 4096 256 risingWorld = .ok _ := rfl
  refine ⟨_, _, _, done, .fixed 4096 256 risingWorld _ rfl (fun _ => rfl) (by decide) done, ?_, rfl,
    rfl, rfl, rfl, rfl, rfl⟩
  exact .cons rfl (Nat.zero_le _) (.cons rfl word (.cons rfl (.inr (.head _)) trivial))

end AgencC.Arena
