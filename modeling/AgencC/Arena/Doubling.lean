import AgencC.Arena.Movements
import AgencC.Arena.Requests
import AgencC.Arena.Resetting

/-! How large the blocks are that an arena gets from its parent, and when it asks for one. -/

set_option autoImplicit false

namespace AgencC.Arena

open Library

variable {σ : Type} {build : Build} {parent : AllocT σ} {Out : World σ → List Region → Prop}

/-! When an allocation asks. -/

/-- What an allocation of `total` bytes at `align` asks of the parent, and what comes of it. -/
inductive Image.Asks (build : Build) (total align : Nat) (a : Image (Recorded σ)) :
    Image (Recorded σ) → Prop where
  | unasked {a' : Image (Recorded σ)} (calls : a'.world.calls = a.world.calls) :
      Asks build total align a a'
  | refused {a' : Image (Recorded σ)}
      (full : ∀ c ∈ a.chain.head?, c.cap < c.used + (c.pad align + build.footprint total))
      (none : ∀ d ∈ a.free, d.cap < build.need total align)
      (calls : a'.world.calls =
        .xalloc (max a.nextBlock (blockHdr + build.need total align)) 0 0 :: a.world.calls)
      (pieces : a'.pieces = a.pieces) (sizes : a'.sizes = a.sizes) : Asks build total align a a'
  | given {a' : Image (Recorded σ)} (c : Cell)
      (full : ∀ c ∈ a.chain.head?, c.cap < c.used + (c.pad align + build.footprint total))
      (none : ∀ d ∈ a.free, d.cap < build.need total align) (nonnull : c.addr ≠ 0)
      (calls : a'.world.calls =
        .xalloc (max a.nextBlock (blockHdr + build.need total align)) 0 c.addr :: a.world.calls)
      (pieces : a'.pieces = c.bare :: a.pieces)
      (size : blockHdr + c.cap = max a.nextBlock (blockHdr + build.need total align))
      (kind : c.oversize = decide (a.nextBlock < blockHdr + build.need total align)) :
      Asks build total align a a'

section
variable {a a' : Image (Recorded σ)}

theorem World.live_calls (p len : Nat) (w : World (Recorded σ)) :
    (w.live build p len).calls = w.calls :=
  congrArg Prod.snd (World.live_touched build p len w).parent

theorem Image.grow_asks (holder : a.parent = parent.logged) {total align ptr : Nat}
    (full : ∀ c ∈ a.chain.head?, c.cap < c.used + (c.pad align + build.footprint total))
    (ran : a.grow build total align = .ok (ptr, a')) : a.Asks build total align a' := by
  unfold Image.grow at ran
  by_cases fixed : a.fixed = true
  · cases (if_pos fixed).symm.trans ran
    exact .unasked (congrArg World.calls (a.fail_world _))
  · rw [if_neg fixed] at ran
    by_cases large : ptrdiffMax - blockHdr < build.need total align
    · cases (if_pos large).symm.trans ran
      exact .unasked (congrArg World.calls (a.fail_world _))
    · rw [if_neg large] at ran
      cases found : takeFit (build.need total align) a.free with
      | some taken =>
          rw [found] at ran
          cases ran
          exact .unasked (World.live_calls _ _ _)
      | none =>
          have none := takeFit_none found
          rw [found] at ran
          obtain ⟨⟨taken, b⟩, obtained, rest⟩ := bind_eq_ok.mp ran
          obtain ⟨⟨block, world⟩, asked, outcome⟩ := bind_eq_ok.mp obtained
          rw [holder] at asked
          obtain ⟨⟨_, inner⟩, _, noted⟩ := bind_eq_ok.mp asked
          cases noted
          by_cases null : block = 0
          · cases (if_pos null).symm.trans outcome
            cases rest
            subst null
            refine .refused full none ?_ ?_ ?_ <;> (unfold Image.fail; split <;> rfl)
          · cases (if_neg null).symm.trans outcome
            cases rest
            refine .given
              { addr := block, cap := max a.nextBlock (blockHdr + build.need total align) - blockHdr
                used := 0
                oversize := max a.nextBlock (blockHdr + build.need total align) ≠ a.nextBlock }
              full none null ?_ rfl ?_ ?_
            · refine (World.live_calls _ _ _).trans ?_
              exact congrArg Prod.snd (World.shade_touched build _ _ _).parent
            · exact Nat.add_sub_cancel' (Nat.le_trans (Nat.le_add_right _ _) (Nat.le_max_right _ _))
            · exact decide_eq_decide.mpr (by omega)

theorem Image.allocImpl_asks (holder : a.parent = parent.logged) {count size align ptr : Nat}
    (ran : a.allocImpl build count size align = .ok (ptr, a')) :
    a.Asks build (count * size) (alignEffective build align) a' := by
  have failed : ∀ status, a.Asks build (count * size) (alignEffective build align) (a.fail status) :=
    fun status => .unasked (congrArg World.calls (a.fail_world _))
  unfold Image.allocImpl at ran
  split at ran
  · cases ran
    exact .unasked rfl
  · split at ran
    · cases ran
      exact failed _
    · split at ran
      · cases ran
        exact .unasked rfl
      · split at ran
        · cases ran
          exact failed _
        · unfold Image.allocCore at ran
          cases chain : a.chain with
          | nil =>
              rw [chain] at ran
              refine Image.grow_asks holder ?_ ran
              rw [chain]
              exact fun _ member => nomatch member
          | cons c cs =>
              rw [chain] at ran
              by_cases full : c.cap < c.used +
                  (c.pad (alignEffective build align) + build.footprint (count * size))
              · refine Image.grow_asks holder ?_ ((if_pos full).symm.trans ran)
                rw [chain]
                rintro _ ⟨⟩
                exact full
              · cases (if_neg full).symm.trans ran
                exact .unasked (World.live_calls _ _ _)

/-- What leaves the calls, the blocks and the policy alone changes no answer. -/
theorem Image.Asks.followed {a'' : Image (Recorded σ)} {total align : Nat}
    (asks : a.Asks build total align a') (calls : a''.world.calls = a'.world.calls)
    (pieces : a''.pieces = a'.pieces) (sizes : a''.sizes = a'.sizes) :
    a.Asks build total align a'' := by
  cases asks with
  | unasked before => exact .unasked (calls.trans before)
  | refused full none before pieces' sizes' =>
      exact .refused full none (calls.trans before) (pieces.trans pieces') (sizes.trans sizes')
  | given c full none nonnull before pieces' size kind =>
      exact .given c full none nonnull (calls.trans before) (pieces.trans pieces') size kind

theorem Image.Allocates.asks (holder : a.parent = parent.logged) {total align ptr : Nat}
    (allocates : a.Allocates build total align ptr a') :
    a.Asks build total (alignEffective build align) a' := by
  cases allocates with
  | served product ran rewritten unserved =>
      obtain ⟨world, rfl, same⟩ := rewritten
      have asks := Image.allocImpl_asks holder ran
      rw [product] at asks
      exact asks.followed (congrArg Prod.snd same) rfl rfl
  | rejected ready some none => exact .unasked (congrArg World.calls (a.fail_world _))

theorem Image.resizeLast_calls {ptr oldSize newSize : Nat}
    (done : a.resizeLast build ptr oldSize newSize = some a') :
    a'.world.calls = a.world.calls :=
  congrArg Prod.snd (Image.resizeLast_parent done)

theorem Image.Reallocates.asks (holder : a.parent = parent.logged)
    {ptr oldSize newSize align fresh : Nat}
    (reallocates : a.Reallocates build ptr oldSize newSize align fresh a') :
    a.Asks build newSize (alignEffective build align) a' := by
  cases reallocates with
  | resized ready done => exact .unasked (Image.resizeLast_calls done)
  | moved some ran unserved after =>
      have asks := Image.allocImpl_asks holder ran
      rw [Nat.one_mul] at asks
      cases after with
      | inl same => exact same ▸ asks
      | inr moved =>
          subst moved
          refine asks.followed (congrArg Prod.snd ?_) rfl rfl
          exact (World.dead_touched build ptr oldSize _).parent
  | rejected ready wrong => exact .unasked (congrArg World.calls (a.fail_world _))

/-! The other calls ask for nothing. -/

/-- The calls made since `before` give blocks back. -/
def Released (before after : List Call) : Prop :=
  ∃ cells : List Cell, after = cells.map Cell.release ++ before

theorem Released.none {before after : List Call} (same : after = before) : Released before after :=
  ⟨[], same⟩

theorem Image.xfree_calls (ptr size : Nat) :
    (a.xfree build ptr size).world.calls = a.world.calls :=
  congrArg Prod.snd (a.xfree_parent ptr size)

theorem Image.tempEnd_released (holder : a.parent = parent.logged) {temp : TempT}
    (ran : a.tempEnd build temp = .ok a') : Released a.world.calls a'.world.calls := by
  obtain ⟨b, dropped, same⟩ := bind_eq_ok.mp ran
  cases same
  have calls := Image.discard_calls holder dropped
  rw [← List.map_reverse] at calls
  exact ⟨_, (congrArg Prod.snd (b.cut_parent _ _)).trans calls⟩

theorem Image.deinit_released (holder : a.parent = parent.logged) (growing : a.fixed = false)
    (ran : a.deinit build = .ok a') : Released a.world.calls a'.world.calls := by
  unfold Image.deinit at ran
  rw [growing, if_neg Bool.false_ne_true] at ran
  obtain ⟨b, released, same⟩ := bind_eq_ok.mp ran
  cases same
  have calls := Image.releaseAll_calls holder released
  rw [← List.map_reverse] at calls
  exact ⟨_, calls⟩

end

/-- What a call asks for: so many bytes, at this alignment. -/
def Op.wanted : Op σ → Option (Nat × Nat)
  | .allocate request => some (request.total, request.align)
  | .realloc _ _ newSize align | .xrealloc _ _ newSize align => some (newSize, align)
  | _ => none

/-- A call asks its parent for what it wants, or gives blocks back. -/
theorem Account.step_asks {t t' : Account (Recorded σ)} {s : Session (Recorded σ)} (shows : s.Shows t)
    (holder : t.image.parent = parent.logged) (growing : t.image.fixed = false)
    {op : Op (Recorded σ)} (unrecorded : op.Unrecorded s) {ptr : Nat}
    (ran : t.step build op = .ok (ptr, t')) :
    (∃ wanted ∈ op.wanted, t.image.Asks build wanted.1 (alignEffective build wanted.2) t'.image) ∨
      Released t.image.world.calls t'.image.world.calls := by
  cases op with
  | allocate request =>
      obtain ⟨⟨fresh, image⟩, called, same⟩ := bind_eq_ok.mp ran
      cases same
      exact .inl ⟨_, rfl, (Request.image_allocates called).asks holder⟩
  | realloc ptr oldSize newSize align | xrealloc ptr oldSize newSize align =>
      obtain ⟨⟨fresh, image⟩, called, same⟩ := bind_eq_ok.mp ran
      cases same
      exact .inl ⟨_, rfl, (Image.realloc_reallocates called).asks holder⟩
  | xfree ptr size align =>
      cases ran
      refine .inr (.none ?_)
      dsimp only
      split
      · rfl
      · exact Image.xfree_calls ptr size
  | tempBegin =>
      cases ran
      exact .inr (.none rfl)
  | tempEnd =>
      rw [Account.step] at ran
      cases inner : t.books.outer with
      | nil =>
          rw [inner] at ran
          cases ran
          exact .inr (.none rfl)
      | cons entry rest =>
          rw [inner] at ran
          obtain ⟨image, called, same⟩ := bind_eq_ok.mp ran
          cases same
          exact .inr (Image.tempEnd_released holder called)
  | reset =>
      obtain ⟨image, called, same⟩ := bind_eq_ok.mp ran
      cases same
      have calls := Image.reset_calls holder called
      rw [← List.map_reverse] at calls
      exact .inr ⟨_, calls⟩
  | trim =>
      obtain ⟨image, called, same⟩ := bind_eq_ok.mp ran
      cases same
      have calls := (Image.trim_calls holder growing called).1
      rw [← List.map_reverse] at calls
      exact .inr ⟨_, calls⟩
  | clearError =>
      cases ran
      exact .inr (.none rfl)
  | deinit =>
      obtain ⟨image, called, same⟩ := bind_eq_ok.mp ran
      cases same
      exact .inr (Image.deinit_released holder growing called)
  | elsewhere world =>
      cases ran
      exact .inr (.none (shows.1.world ▸ unrecorded))

/-! What a call obtains. -/

/-- The blocks a call obtained, and the policy after it. -/
inductive Image.Obtained (a a' : Image σ) : List Cell → Prop where
  | none (held : a'.pieces ⊆ a.pieces) (sizes : a'.sizes = a.sizes) : Obtained a a' []
  | normal (c : Cell) (pieces : a'.pieces.Perm (c :: a.pieces)) (kind : c.oversize = false)
      (size : blockHdr + c.cap = a.nextBlock)
      (sizes : a'.sizes = (a.minBlock, a.maxBlock, min a.maxBlock (a.nextBlock * 2))) :
      Obtained a a' [c]
  | oversize (c : Cell) (pieces : a'.pieces.Perm (c :: a.pieces)) (kind : c.oversize = true)
      (sizes : a'.sizes = a.sizes) : Obtained a a' [c]

theorem Image.Supplied.obtained {a a' : Image σ} (supplied : a.Supplied a') :
    ∃ cells, a.Obtained a' cells := by
  cases supplied with
  | held pieces sizes => exact ⟨_, .none pieces.subset sizes⟩
  | normal c pieces size kind sizes => exact ⟨_, .normal c pieces kind size sizes⟩
  | oversize c pieces size kind sizes => exact ⟨_, .oversize c pieces kind sizes⟩

theorem retired_pieces (cells : List Cell) :
    (retired cells).map Cell.bare ⊆ cells.map Cell.bare := by
  rw [retired_eq, List.map_reverse, map_bare_bare]
  exact List.Subset.trans (List.reverse_perm _).subset (List.map_subset _ List.filter_sublist.subset)

/-- The end of a scope holds no block that was not held in it. -/
theorem Image.Unwound.pieces {a a' : Image σ} {temp : TempT} {base : List Cell}
    (unwound : a.Unwound temp base a') (grown : Grown base a.chain) : a'.pieces ⊆ a.pieces := by
  obtain ⟨entered, rest, chain, whole, free⟩ := unwound.free
  rw [chain] at grown
  rw [Image.pieces, Image.pieces, Image.cells, Image.cells, unwound.chain, free, chain,
    List.map_append, ← grown.bare whole, List.map_append, List.map_append, List.map_append]
  refine List.append_subset.mpr ⟨?_, List.append_subset.mpr ⟨?_, ?_⟩⟩
  · exact List.Subset.trans (List.subset_append_right _ _) (List.subset_append_left _ _)
  · exact List.Subset.trans (retired_pieces entered)
      (List.Subset.trans (List.subset_append_left _ _) (List.subset_append_left _ _))
  · exact List.subset_append_right _ _

theorem Image.Rewound.pieces {a a' : Image σ} (rewound : a.Rewound a') : a'.pieces ⊆ a.pieces := by
  rw [Image.pieces, Image.pieces, Image.cells, Image.cells, rewound.chain, rewound.free,
    List.map_append, List.map_append, List.map_append]
  refine List.append_subset.mpr ⟨?_, List.append_subset.mpr ⟨?_, List.subset_append_right _ _⟩⟩
  · cases oldest : oldestNormal a.chain with
    | none => exact List.nil_subset _
    | some c =>
        have member := (oldestNormal_some oldest).1
        refine List.cons_subset.mpr ⟨?_, List.nil_subset _⟩
        exact List.mem_append_left _ (List.mem_map.mpr ⟨c, member, rfl⟩)
  · refine List.Subset.trans (retired_pieces _) ?_
    exact List.Subset.trans (List.map_subset _ List.filter_sublist.subset) (List.subset_append_left _ _)

theorem Account.Effect.obtained {t t' : Account σ} {op : Op σ} (staying : op ≠ .deinit)
    (effect : t.Effect build parent Out op t') :
    ∃ cells, t.image.Obtained t'.image cells := by
  cases effect with
  | advanced advancing advances => exact advances.supplied.obtained
  | @trimmed image trimmed =>
      refine ⟨_, .none ?_ trimmed.sizes⟩
      rw [Image.pieces, Image.pieces, Image.cells, Image.cells, trimmed.chain, List.map_append,
        List.map_append]
      exact List.append_subset.mpr ⟨List.subset_append_left _ _,
        List.Subset.trans (List.map_subset _ trimmed.spare) (List.subset_append_right _ _)⟩
  | begun => exact ⟨_, .none (List.Subset.refl _) rfl⟩
  | ended inner grown marks same unwound lit =>
      exact ⟨_, .none (unwound.pieces grown) unwound.sizes⟩
  | reset rewound => exact ⟨_, .none rewound.pieces rewound.sizes⟩
  | deinit ran renewed => exact absurd rfl staying
  | elsewhere world => exact ⟨_, .none (List.Subset.refl _) rfl⟩

/-- The blocks a call obtained are those it moved in. -/
theorem Image.Obtained.moved {s s' : State σ} {a a' : Image σ} {cells : List Cell}
    (obtained : a.Obtained a' cells) (shows : s.Shows a) (shows' : s'.Shows a') :
    s'.less s = cells := by
  have one : ∀ c : Cell, a'.pieces.Perm (c :: a.pieces) → s'.less s = [c] := by
    intro c pieces
    have whole := shows'.pieces.trans (pieces.trans (shows.pieces.symm.cons c))
    have absent := (List.nodup_cons.mp (whole.nodup_iff.mp s'.pieces_distinct)).1
    refine List.perm_singleton.mp ((whole.filter _).trans (.of_eq ?_))
    rw [List.filter_cons_of_pos (by simpa using absent)]
    refine congrArg (c :: ·) (List.filter_eq_nil_iff.mpr fun d member => ?_)
    exact fun gone => of_decide_eq_true gone member
  cases obtained with
  | none held sizes =>
      refine List.filter_eq_nil_iff.mpr fun d member gone => of_decide_eq_true gone ?_
      exact shows.pieces.mem_iff.mpr (held (shows'.pieces.mem_iff.mp member))
  | normal c pieces kind size sizes => exact one c pieces
  | oversize c pieces kind sizes => exact one c pieces

theorem Op.moved_obtained (op : Op σ) (s s' : State σ) : (op.moved s s').obtained = s'.less s := by
  cases op <;> rfl

/-! The sizes of the normal blocks. -/

/-- The `k`th size from `first` on, doubling up to `last`. -/
def blockSize (first last k : Nat) : Nat := min (first * 2 ^ k) last

theorem blockSize_zero {first last : Nat} (order : first ≤ last) : blockSize first last 0 = first := by
  rw [blockSize, Nat.pow_zero, Nat.mul_one, Nat.min_eq_left order]

/-- Going on from the second size is going on with the next size. -/
theorem blockSize_next (first last k : Nat) :
    blockSize (min last (first * 2)) last k = blockSize first last (k + 1) := by
  have step : first * 2 * 2 ^ k = first * 2 ^ (k + 1) := by
    rw [Nat.pow_succ', Nat.mul_assoc]
  unfold blockSize
  rw [← Nat.mul_min_mul_right, step]
  have grows : last ≤ last * 2 ^ k := Nat.le_mul_of_pos_right last (Nat.two_pow_pos k)
  omega

/-- Each normal block has the next size, and the policy is the size after the last. -/
structure Doubles (first last : Nat) (cells : List Cell) (next : Nat) : Prop where
  sizes : ∀ k c, (cells.filter (!·.oversize))[k]? = some c → blockHdr + c.cap = blockSize first last k
  next : next = blockSize first last (cells.filter (!·.oversize)).length

theorem Doubles.oversize {first last next : Nat} {cells : List Cell} {c : Cell}
    (kind : c.oversize = true) (later : Doubles first last cells next) :
    Doubles first last (c :: cells) next := by
  have same : (c :: cells).filter (!·.oversize) = cells.filter (!·.oversize) :=
    List.filter_cons_of_neg (by simp [kind])
  refine ⟨?_, ?_⟩
  · rw [same]
    exact later.sizes
  · rw [same]
    exact later.next

theorem Doubles.normal {first last next : Nat} {cells : List Cell} {c : Cell}
    (order : first ≤ last) (kind : c.oversize = false) (size : blockHdr + c.cap = first)
    (later : Doubles (min last (first * 2)) last cells next) :
    Doubles first last (c :: cells) next := by
  have more : (c :: cells).filter (!·.oversize) = c :: cells.filter (!·.oversize) :=
    List.filter_cons_of_pos (by simp [kind])
  refine ⟨fun k d found => ?_, ?_⟩
  · rw [more] at found
    cases k with
    | zero =>
        cases found
        rw [size, blockSize_zero order]
    | succ k =>
        rw [later.sizes k d found]
        exact blockSize_next first last k
  · rw [more, List.length_cons, later.next]
    exact blockSize_next _ _ _

/-- A legal call that does not give up the arena; what others ask of the parent is not recorded. -/
structure Op.Keeping (Out : World σ → List Region → Prop) (s : Session (Recorded σ))
    (op : Op (Recorded σ)) : Prop where
  legal : op.Legal (LogOut Out) s
  unrecorded : op.Unrecorded s
  staying : op ≠ .deinit

/-- A run obtains normal blocks of the sizes that the policy has next. -/
theorem Session.run_doubles {May : Session σ → Op σ → Prop} (conforms : parent.Conforms Out)
    (legal : ∀ {s op}, May s op → op.Legal Out s ∧ op ≠ .deinit) {ops : List (Op σ)}
    {s s' : Session σ} {t : Account σ} {ptrs : List Nat} (shows : s.Shows t)
    (kept : t.Kept build parent Out) (growing : t.image.fixed = false)
    (allowed : s.Allows build May ops) (ran : s.run build ops = .ok (ptrs, s')) :
    s'.state.arena.maxBlock = s.state.arena.maxBlock ∧
      Doubles s.state.arena.nextBlock s.state.arena.maxBlock (s.movements build ops).obtained
        s'.state.arena.nextBlock := by
  have policy : ∀ {s : Session σ} {t : Account σ}, s.Shows t →
      s.state.arena.nextBlock = t.image.nextBlock ∧ s.state.arena.maxBlock = t.image.maxBlock := by
    intro s t shows
    rw [shows.1.arena]
    exact ⟨rfl, rfl⟩
  have ordered : ∀ {s : Session σ} {t : Account σ}, s.Shows t → t.Kept build parent Out →
      t.image.fixed = false → s.state.arena.nextBlock ≤ s.state.arena.maxBlock := by
    intro s t shows kept growing
    rw [(policy shows).1, (policy shows).2]
    exact ((Image.Kept.sane kept).policy growing).2.1
  induction ops generalizing s t ptrs with
  | nil =>
      cases ran
      exact ⟨rfl, fun k c found => (nomatch found), (blockSize_zero (ordered shows kept growing)).symm⟩
  | cons op ops ih =>
      obtain ⟨⟨ptr, middle⟩, first, rest⟩ := bind_eq_ok.mp ran
      obtain ⟨⟨others, last⟩, looped, same⟩ := bind_eq_ok.mp rest
      cases same
      have may := legal allowed.1
      obtain ⟨t', _, shows', kept', effect⟩ := Session.step_follows conforms shows kept may.1 first
      have growing' : t'.image.fixed = false := effect.growing growing
      obtain ⟨cells, obtained⟩ := effect.obtained may.2
      have moved := obtained.moved shows.1 shows'.1
      obtain ⟨kept'', later⟩ := ih shows' kept' growing' (allowed.2 ptr middle first) looped
      rw [Session.movements_cons first]
      change _ ∧ Doubles _ _ ((op.moved s.state middle.state).obtained ++ _) _
      rw [Op.moved_obtained, moved]
      obtain ⟨next, most⟩ := policy shows
      obtain ⟨next', most'⟩ := policy shows'
      rw [most'] at kept''
      rw [next', most'] at later
      have sized : ∀ {n}, t'.image.sizes = (t.image.minBlock, t.image.maxBlock, n) →
          t'.image.maxBlock = t.image.maxBlock ∧ t'.image.nextBlock = n := by
        intro n sizes
        exact ⟨congrArg (·.2.1) sizes, congrArg (·.2.2) sizes⟩
      rw [next, most]
      cases obtained with
      | none held sizes =>
          obtain ⟨top, same⟩ := sized sizes
          rw [top, same] at later
          exact ⟨kept''.trans top, later⟩
      | normal c pieces kind size sizes =>
          obtain ⟨top, same⟩ := sized sizes
          rw [top, same] at later
          exact ⟨kept''.trans top,
            later.normal ((Image.Kept.sane kept).policy growing).2.1 kind size⟩
      | oversize c pieces kind sizes =>
          obtain ⟨top, same⟩ := sized sizes
          rw [top, same] at later
          exact ⟨kept''.trans top, later.oversize kind⟩

/-- When an arena asks its parent for a block, where `need` bytes of data would hold the request
wherever the block lies, and what becomes of it. -/
structure State.Asked (build : Build) (s : State σ) (free : List Cell) (total align size block : Nat)
    (s' : State σ) : Prop where
  full : ¬ ∃ place ∈ s.room, padding place.1 align + total + build.redzone ≤ place.2
  none : ∀ d ∈ free, d.cap < build.need total align
  asked : size = max s.arena.nextBlock (blockHdr + build.need total align)
  refused : block = 0 → s'.arena.nextBlock = s.arena.nextBlock ∧ s'.pieces.Perm s.pieces
  given : block ≠ 0 → ∃ c, s'.pieces.Perm (c :: s.pieces) ∧ c.addr = block ∧
    blockHdr + c.cap = size ∧
    (c.oversize = true ↔ s.arena.nextBlock < blockHdr + build.need total align)

/-- What a call has asked of the parent, if anything. -/
def Session.AsksFor (build : Build) (s : Session (Recorded σ)) (free : List Cell)
    (op : Op (Recorded σ)) (s' : Session (Recorded σ)) : Prop :=
  ∃ new, s'.state.world.calls = new ++ s.state.world.calls ∧
    ∀ size align block, .xalloc size align block ∈ new →
      new = [.xalloc size align block] ∧ align = 0 ∧ ∃ wanted ∈ op.wanted,
        s.state.Asked build free wanted.1 (alignEffective build wanted.2) size block s'.state

theorem Image.Asks.asked {s s' : State (Recorded σ)} {a a' : Image (Recorded σ)}
    (owned : a.Owned build parent.logged (LogOut Out)) (shows : s.Shows a) (shows' : s'.Shows a')
    {total align : Nat} (asks : a.Asks build total align a') :
    ∃ new, s'.world.calls = new ++ s.world.calls ∧
      ∀ size at_ block, .xalloc size at_ block ∈ new → new = [.xalloc size at_ block] ∧ at_ = 0 ∧
        s.Asked build a.free total align size block s' := by
  have next : s.arena.nextBlock = a.nextBlock := by rw [shows.arena]; rfl
  have calls : ∀ {new}, a'.world.calls = new ++ a.world.calls →
      s'.world.calls = new ++ s.world.calls := by
    intro new same
    rw [shows'.world, shows.world]
    exact same
  have crowded : (∀ c ∈ a.chain.head?, c.cap < c.used + (c.pad align + build.footprint total)) →
      ¬ ∃ place ∈ s.room, padding place.1 align + total + build.redzone ≤ place.2 := by
    intro full
    rw [shows.room]
    rintro ⟨_, member, enough⟩
    obtain ⟨c, head, rfl⟩ := Option.map_eq_some_iff.mp member
    have full := full c head
    have fits : c.used ≤ c.cap := by
      refine owned.fits c (List.mem_append_left _ ?_)
      exact List.mem_of_mem_head? head
    have pad : padding c.cursor align = c.pad align := rfl
    have footprint : build.footprint total = total + build.redzone := rfl
    dsimp only at enough
    omega
  cases asks with
  | unasked same => exact ⟨[], calls same, fun _ _ _ member => nomatch member⟩
  | refused full none same pieces sizes =>
      refine ⟨[_], calls same, fun size at_ block member => ?_⟩
      cases List.mem_singleton.mp member
      refine ⟨rfl, rfl, crowded full, none, by rw [next], fun _ => ⟨?_, ?_⟩, fun some => absurd rfl some⟩
      · rw [next, shows'.arena]
        exact congrArg (·.2.2) sizes
      · exact shows'.pieces.trans ((List.Perm.of_eq pieces).trans shows.pieces.symm)
  | given c full none nonnull same pieces size kind =>
      refine ⟨[_], calls same, fun size' at_ block member => ?_⟩
      cases List.mem_singleton.mp member
      refine ⟨rfl, rfl, crowded full, none, by rw [next], fun null => absurd null nonnull, fun _ => ?_⟩
      refine ⟨c.bare, ?_, rfl, size, ?_⟩
      · exact shows'.pieces.trans ((List.Perm.of_eq pieces).trans (shows.pieces.symm.cons _))
      · rw [next]
        change c.oversize = true ↔ _
        rw [kind, decide_eq_true_iff]

theorem Released.asks_nothing {before after : List Call} (released : Released before after) :
    ∃ new, after = new ++ before ∧
      ∀ size align block, Call.xalloc size align block ∉ new := by
  obtain ⟨cells, same⟩ := released
  refine ⟨_, same, fun size align block member => ?_⟩
  obtain ⟨c, _, other⟩ := List.mem_map.mp member
  cases other

/-- Over any run of an arena set up with a block policy, the normal blocks it obtains double in size
up to the maximum, whatever else happens. It asks its parent only where neither the current block
nor a free one will do, and for more than the policy says only where the request needs more. -/
theorem Session.blocks_double (conforms : parent.Conforms Out) {minBlock maxBlock : Nat}
    (floor : fixedOverhead ≤ minBlock) (order : minBlock ≤ maxBlock) (top : maxBlock ≤ ptrdiffMax)
    {world : World (Recorded σ)} {contents : Nat → UInt8} (out : LogOut Out world [])
    {ops : List (Op (Recorded σ))} {ptrs : List Nat} {s : Session (Recorded σ)}
    (allowed : Session.Allows build (Op.Keeping Out)
      { state := (initSized parent.logged minBlock maxBlock world).2, books := .start contents } ops)
    (ran : Session.run build
      { state := (initSized parent.logged minBlock maxBlock world).2, books := .start contents } ops =
        .ok (ptrs, s)) :
    let obtained := (Session.movements build
      { state := (initSized parent.logged minBlock maxBlock world).2, books := .start contents }
        ops).obtained.filter (!·.oversize)
    (∀ k c, obtained[k]? = some c → blockHdr + c.cap = min (minBlock * 2 ^ k) maxBlock) ∧
      s.state.arena.nextBlock = min (minBlock * 2 ^ obtained.length) maxBlock ∧
      s.state.arena.nextBlock * 2 ≤ sizeMax ∧
      ∃ chain free, s.state.Lists chain free ∧ ∀ op ptr s', op.Keeping Out s →
        s.step build op = .ok (ptr, s') → s.AsksFor build free op s' := by
  have sizes : ¬ (minBlock < fixedOverhead ∨ maxBlock < minBlock ∨ ptrdiffMax < maxBlock) := by omega
  have started : Session.Started build parent.logged (LogOut Out) _ :=
    .sized minBlock maxBlock world contents out
  obtain ⟨t, shows, kept⟩ := started.kept conforms.logged
  have policy : (initSized parent.logged minBlock maxBlock world).2.arena.nextBlock = minBlock ∧
      (initSized parent.logged minBlock maxBlock world).2.arena.maxBlock = maxBlock ∧
      (initSized parent.logged minBlock maxBlock world).2.arena.fixed = false := by
    rw [initSized, if_neg sizes]
    exact ⟨rfl, rfl, rfl⟩
  have growing : t.image.fixed = false := by
    have fixed := policy.2.2
    rw [shows.1.arena] at fixed
    exact fixed
  obtain ⟨same, doubles⟩ := Session.run_doubles conforms.logged
    (fun may => ⟨may.legal, may.staying⟩) shows kept growing allowed ran
  rw [policy.2.1] at same doubles
  rw [policy.1] at doubles
  obtain ⟨t', shows', kept', growing'⟩ :=
    Session.run_growing conforms.logged shows kept growing Op.Keeping.legal allowed ran
  have owned := (Image.Kept.sane kept').toOwned
  have wide : ptrdiffMax * 2 ≤ sizeMax := by decide
  refine ⟨doubles.sizes, doubles.next, ?_, t'.image.chain, t'.image.free, shows'.1.lists, ?_⟩
  · have below : s.state.arena.nextBlock ≤ maxBlock := by
      rw [doubles.next]
      exact Nat.min_le_right _ _
    exact Nat.le_trans (Nat.mul_le_mul_right 2 (Nat.le_trans below top)) wide
  · intro op ptr s' may stepped
    obtain ⟨t'', followed, shows'', _, _⟩ :=
      Session.step_follows conforms.logged shows' kept' may.legal stepped
    cases Account.step_asks shows' owned.parent growing' may.unrecorded followed with
    | inl asked =>
        obtain ⟨wanted, member, asks⟩ := asked
        obtain ⟨new, calls, only⟩ := asks.asked owned shows'.1 shows''.1
        refine ⟨new, calls, fun size align block listed => ?_⟩
        obtain ⟨one, zero, asked⟩ := only size align block listed
        exact ⟨one, zero, wanted, member, asked⟩
    | inr released =>
        obtain ⟨new, calls, nothing⟩ := released.asks_nothing
        refine ⟨new, ?_, fun size align block listed => absurd listed (nothing size align block)⟩
        rw [shows''.1.world, shows'.1.world]
        exact calls

/-- An arena of a parent that logs, with blocks of 256 to 1024 bytes. -/
def Session.paged : Session (Recorded Nat) where
  state := (initSized (risingParent 0x100000).logged 256 1024 (risingWorld.record [])).2
  books := .start risingWorld.bytes

/-- Of three requests the second needs a block of its own, so the third gets the second size. -/
theorem Session.blocks_double_oversize :
    ∃ s, Session.paged.run .sanitized
        [.allocate (.alloc 100), .allocate (.alloc 9000), .allocate (.alloc 200)] =
          .ok ([4128, 4384, 13456], s) ∧
      (Session.paged.movements .sanitized
        [.allocate (.alloc 100), .allocate (.alloc 9000), .allocate (.alloc 200)]).obtained =
          [{ addr := 4096, cap := 224, used := 0, oversize := false },
            { addr := 4352, cap := 9031, used := 0, oversize := true },
            { addr := 13424, cap := 480, used := 0, oversize := false }] ∧
      blockHdr + 224 = min (256 * 2 ^ 0) 1024 ∧ blockHdr + 480 = min (256 * 2 ^ 1) 1024 ∧
      s.state.arena.nextBlock = min (256 * 2 ^ 2) 1024 := by
  have conforms := risingParent_conforms 0x100000 (by decide)
  have out : LogOut (RisingOut 0x100000) (risingWorld.record []) [] :=
    ⟨risingWorld_out, [], rfl, .refl _⟩
  have ran : Session.paged.run .sanitized
      [.allocate (.alloc 100), .allocate (.alloc 9000), .allocate (.alloc 200)] = .ok _ := rfl
  have legal : ∀ (s : Session (Recorded Nat)) (size : Nat),
      Op.Keeping (RisingOut 0x100000) s (.allocate (.alloc size)) :=
    fun _ _ => ⟨Nat.zero_le _, trivial, fun other => nomatch other⟩
  have allowed : Session.paged.Allows .sanitized (Op.Keeping (RisingOut 0x100000))
      [.allocate (.alloc 100), .allocate (.alloc 9000), .allocate (.alloc 200)] :=
    .cons rfl (legal _ _) (.cons rfl (legal _ _) (.cons rfl (legal _ _) trivial))
  obtain ⟨sizes, next, _⟩ :=
    Session.blocks_double conforms (by decide) (by decide) (by decide) out allowed ran
  have obtained : (Session.paged.movements .sanitized
      [.allocate (.alloc 100), .allocate (.alloc 9000), .allocate (.alloc 200)]).obtained =
        [{ addr := 4096, cap := 224, used := 0, oversize := false },
          { addr := 4352, cap := 9031, used := 0, oversize := true },
          { addr := 13424, cap := 480, used := 0, oversize := false }] := by decide +kernel
  change ∀ k c, ((Session.paged.movements .sanitized _).obtained.filter _)[k]? = some c → _ at sizes
  rw [obtained] at sizes
  exact ⟨_, ran, obtained, sizes 0 _ rfl, sizes 1 _ rfl, next⟩

end AgencC.Arena
