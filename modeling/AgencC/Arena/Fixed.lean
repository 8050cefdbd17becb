import AgencC.Arena.Doubling
import AgencC.Arena.Failure

/-! An arena in a buffer: whatever the size and the start of the buffer, it stays inside. -/

set_option autoImplicit false

namespace AgencC.Arena

open Library

variable {σ : Type} {build : Build} {parent : AllocT σ} {Out : World σ → List Region → Prop}

/-- The bytes a call asks for, and their alignment. -/
def Op.asks : Op σ → Option (Nat × Nat)
  | .allocate request => some (request.total, request.align)
  | .realloc _ _ newSize align | .xrealloc _ _ newSize align => some (newSize, align)
  | _ => none

/-- A call asks for `size` bytes at `align`, neither none nor more than `PTRDIFF_MAX`, and nothing
else is wrong with it. -/
structure Op.Requests (op : Op σ) (size align : Nat) : Prop where
  asks : op.asks = some (size, align)
  some : size ≠ 0
  bound : size ≤ ptrdiffMax
  valid : align = 0 ∨ ∃ k ≤ 16, align = 2 ^ k
  source : ∀ src len, op = .allocate (.memdup src len) → src ≠ 0

/-- What the headers of an arena say lies in the buffer, and so does every cursor. -/
structure State.Confined (buffer size : Nat) (s : State σ) : Prop where
  blocks : ∀ block h, s.blocks.lookup block = some h →
    buffer ≤ block ∧ h.used ≤ h.cap ∧ block + blockHdr + h.cap ≤ buffer + size
  used : s.arena.used ≤ size

/-- `[ptr, ptr + len)` lies in the buffer, and no header in it. -/
structure State.Offers (buffer size : Nat) (s : State σ) (ptr len : Nat) : Prop where
  inside : buffer ≤ ptr ∧ ptr + len ≤ buffer + size
  clear : ∀ block ∈ s.blocks, Region.Apart ⟨ptr, len⟩ ⟨block, blockHdr⟩

/-! What a fixed arena holds. -/

/-- No call short of a deinit brings a block into a fixed arena. -/
theorem Account.Effect.held {t t' : Account σ} {op : Op σ} (kept : t.Kept build parent Out)
    (fixed : t.image.fixed = true) (staying : op ≠ .deinit)
    (effect : t.Effect build parent Out op t') :
    t'.image.fixed = true ∧ t'.image.pieces ⊆ t.image.pieces := by
  have kept : t.image.Kept build parent Out t.books := kept
  cases effect with
  | advanced advancing advances =>
      have after : t'.image.fixed = true := advances.fixed.trans fixed
      have same : t'.image.pieces.length = t.image.pieces.length := by
        rw [Image.pieces, Image.pieces, Image.cells, Image.cells, (kept.sane.buffer fixed).1,
          (advances.kept.sane.buffer after).1, List.append_nil, List.append_nil, List.length_map,
          List.length_map]
        exact (advances.steady fixed).length
      refine ⟨after, ?_⟩
      cases advances.supplied with
      | held pieces sizes => exact pieces.subset
      | normal c pieces size kind sizes | oversize c pieces size kind sizes =>
          have more := pieces.length_eq
          rw [List.length_cons] at more
          omega
  | trimmed trimmed =>
      refine ⟨trimmed.fixed.trans fixed, ?_⟩
      rw [Image.pieces, Image.pieces, Image.cells, Image.cells, trimmed.chain]
      exact List.map_subset _ (List.append_subset.mpr ⟨List.subset_append_left _ _,
        List.Subset.trans trimmed.spare (List.subset_append_right _ _)⟩)
  | begun => exact ⟨fixed, List.Subset.refl _⟩
  | ended inner grown marks same unwound lit =>
      exact ⟨unwound.fixed.trans fixed, unwound.pieces grown⟩
  | reset rewound => exact ⟨rewound.fixed.trans fixed, rewound.pieces⟩
  | deinit ran renewed => exact absurd rfl staying
  | elsewhere world => exact ⟨fixed, List.Subset.refl _⟩

theorem State.Shows.stored {s : State σ} {a : Image σ} (shows : s.Shows a) {block : Nat} {h : Block}
    (found : s.blocks.lookup block = some h) :
    ∃ c ∈ a.cells, c.addr = block ∧ c.cap = h.cap ∧ c.used = h.used := by
  have stored : block ∈ s.blocks := AList.lookup_isSome.mp (by rw [found]; rfl)
  obtain ⟨c, listed, same⟩ := shows.blocks.only block stored
  obtain ⟨_, link, header⟩ := shows.blocks.found listed
  rw [same, found] at header
  cases header
  exact ⟨c, by simpa [Image.cells] using listed, same, rfl, rfl⟩

/-- The arena is fixed, and holds nothing but what lies in its buffer. -/
structure Image.Boxed (buffer size : Nat) (a : Image σ) : Prop where
  fixed : a.fixed = true
  committed : a.committed = size
  inside : ∀ c ∈ a.pieces, buffer ≤ c.addr ∧ c.addr + blockHdr + c.cap ≤ buffer + size

section
variable {buffer size : Nat} {s : Session σ} {t : Account σ}

theorem Image.Boxed.cell {a : Image σ} (boxed : a.Boxed buffer size) {c : Cell} (listed : c ∈ a.cells) :
    buffer ≤ c.addr ∧ c.addr + blockHdr + c.cap ≤ buffer + size :=
  boxed.inside c.bare (List.mem_map_of_mem listed)

theorem Account.Effect.boxed {t' : Account σ} {op : Op σ} (kept : t.Kept build parent Out)
    (boxed : t.image.Boxed buffer size) (staying : op ≠ .deinit)
    (effect : t.Effect build parent Out op t') : t'.image.Boxed buffer size := by
  obtain ⟨fixed, pieces⟩ := effect.held kept boxed.fixed staying
  exact ⟨fixed, (effect.committed fixed).2.trans boxed.committed, fun c member =>
    boxed.inside c (pieces member)⟩

theorem Image.Boxed.confined (boxed : t.image.Boxed buffer size) (shows : s.Shows t)
    (kept : t.Kept build parent Out) : s.state.Confined buffer size where
  blocks block h found := by
    have kept : t.image.Kept build parent Out t.books := kept
    obtain ⟨c, listed, rfl, cap, used⟩ := shows.1.stored found
    obtain ⟨above, below⟩ := boxed.cell listed
    rw [← cap, ← used]
    exact ⟨above, kept.sane.fits c listed, below⟩
  used := by
    have kept : t.image.Kept build parent Out t.books := kept
    rw [shows.used, ← boxed.committed]
    exact kept.sane.used_le_committed

/-- Whatever is live lies in the buffer. -/
theorem Image.Boxed.offers (boxed : t.image.Boxed buffer size) (shows : s.Shows t)
    (kept : t.Kept build parent Out) {x : Span} (member : x ∈ s.books.live) :
    s.state.Offers buffer size x.addr x.size where
  inside := by
    have intact := kept.intact shows
    obtain ⟨c, chained, fits, above, below⟩ := intact.placed x member
    obtain ⟨low, high⟩ := boxed.cell (List.mem_append_left _ chained)
    unfold Cell.data at above
    unfold Cell.cursor at below
    omega
  clear block stored := by
    have intact := kept.intact shows
    obtain ⟨c, listed, rfl⟩ := shows.1.blocks.only block stored
    exact intact.beside x member c (by simpa using listed)

end

/-! What a request comes to. -/

section
variable {op : Op σ} {size align : Nat}

theorem Op.Requests.demanding (requests : op.Requests size align) : op.Demanding := by
  have asks := requests.asks
  cases op with
  | allocate request =>
      cases asks
      exact requests.some
  | realloc ptr oldSize newSize align | xrealloc ptr oldSize newSize align => trivial
  | _ => cases asks

theorem Op.Requests.failure (requests : op.Requests size align) (s : State σ) :
    op.failure build s = (verdict build s.arena.fixed s.room 1 size align).status := by
  have asks := requests.asks
  cases op with
  | allocate request =>
      cases request with
      | memdup src len =>
          cases asks
          exact if_neg fun missing => requests.source src len rfl missing.1
      | _ =>
          cases asks
          rfl
  | realloc ptr oldSize newSize align | xrealloc ptr oldSize newSize align =>
      cases asks
      exact if_neg requests.some
  | _ => cases asks

/-- What is asked for is live once it is there. -/
theorem Op.Requests.live (requests : op.Requests size align) {s s' : Session σ} {ptr : Nat}
    (ran : s.step build op = .ok (ptr, s')) (served : ptr ≠ 0) :
    { addr := ptr, size, align } ∈ s'.books.live := by
  have asks := requests.asks
  have fresh : ∀ bytes : Nat → UInt8,
      { addr := ptr, size, align } ∈ (s.books.allocated ptr size align bytes).live := by
    intro bytes
    rw [Books.allocated, if_neg served]
    exact Books.mem_live_add.mpr (.inl rfl)
  cases op with
  | allocate request =>
      obtain ⟨⟨_, state⟩, _, same⟩ := bind_eq_ok.mp ran
      cases same
      cases asks
      exact fresh state.world.bytes
  | realloc given oldSize newSize align | xrealloc given oldSize newSize align =>
      obtain ⟨⟨_, state⟩, _, same⟩ := bind_eq_ok.mp ran
      cases same
      cases asks
      by_cases null : given = 0
      · dsimp only
        rw [Books.reallocated, if_neg served, if_pos null]
        exact fresh state.world.bytes
      · refine Books.mem_live.mpr (.inl ?_)
        rw [(s.books.reallocated_live oldSize size align null served state.world.bytes).1]
        exact .head _
  | _ => cases asks

theorem Op.Requests.verdict (requests : op.Requests size align) (fixed : Bool)
    (room : Option (Nat × Nat)) :
    Arena.verdict build fixed room 1 size align =
      if ∃ place ∈ room, padding place.1 (alignEffective build align) + size + build.redzone ≤ place.2
      then .current
      else if fixed then .exhausted
      else if ptrdiffMax - blockHdr < size + (alignEffective build align - 1) + build.redzone then
        .unplaceable
      else .growth := by
  unfold Arena.verdict
  rw [Nat.one_mul, if_neg (not_not_intro requests.valid), if_neg requests.some,
    if_neg (Nat.not_lt.mpr requests.bound)]

end

/-- The current block has room. -/
def State.Roomy (build : Build) (s : State σ) (size align : Nat) : Prop :=
  ∃ place ∈ s.room, padding place.1 (alignEffective build align) + size + build.redzone ≤ place.2

section
variable {buffer size : Nat} {s : Session σ} {t : Account σ} {op : Op σ} {len align : Nat}

theorem Op.Requests.other (requests : op.Requests len align) : op ≠ .tempEnd ∧ op ≠ .deinit := by
  have asks := requests.asks
  constructor <;>
  · intro same
    subst same
    cases asks

/-- A request that finds no room is refused as it should be. -/
theorem Session.request_refused (conforms : parent.Conforms Out) (shows : s.Shows t)
    (kept : t.Kept build parent Out) (fixed : t.image.fixed = true)
    (ready : s.state.arena.status = .ok) (legal : op.Legal Out s) (requests : op.Requests len align)
    {s' : Session σ} (ran : s.step build op = .ok (0, s')) :
    ¬ s.state.Roomy build len align ∧ s'.state.arena.status = .errAlloc := by
  have failed := (Session.step_failed conforms shows kept ready legal requests.demanding ran).1
  have same : s.state.arena.fixed = true := by
    rw [shows.1.arena]
    exact fixed
  rw [requests.failure, same, requests.verdict true s.state.room] at failed
  by_cases roomy : s.state.Roomy build len align
  · rw [if_pos (show ∃ place ∈ s.state.room, _ from roomy)] at failed
    exact absurd rfl failed.failure
  · rw [if_neg (show ¬ ∃ place ∈ s.state.room, _ from roomy)] at failed
    exact ⟨roomy, by rw [failed.arena]; rfl⟩

/-- A request in a buffer is served inside it, or there is no room. -/
theorem Session.request_boxed (conforms : parent.Conforms Out) (shows : s.Shows t)
    (kept : t.Kept build parent Out) (boxed : t.image.Boxed buffer size)
    (ready : s.state.arena.status = .ok) (legal : op.Legal Out s) (requests : op.Requests len align) :
    ∃ ptr s', s.step build op = .ok (ptr, s') ∧
      (ptr ≠ 0 ∧ alignEffective build align ∣ ptr ∧ s'.state.Offers buffer size ptr len ∨
        ptr = 0 ∧ ¬ s.state.Roomy build len align ∧ s'.state.arena.status = .errAlloc) := by
  cases Session.step_total conforms shows kept legal with
  | inr stopped => exact absurd stopped.1 requests.other.1
  | inl returned =>
      obtain ⟨ptr, s', ran⟩ := returned
      refine ⟨ptr, s', ran, ?_⟩
      by_cases null : ptr = 0
      · subst null
        exact .inr ⟨rfl, Session.request_refused conforms shows kept boxed.fixed ready legal requests ran⟩
      · obtain ⟨t', _, shows', kept', effect⟩ := Session.step_follows conforms shows kept legal ran
        have boxed' := effect.boxed kept boxed requests.other.2
        have member := requests.live ran null
        have intact := kept'.intact shows'
        exact .inl ⟨null, intact.aligned _ member, boxed'.offers shows' kept' member⟩

end

theorem Image.inBuffer_boxed (buffer size : Nat) (world : World σ) :
    (Image.inBuffer build buffer size world).Boxed buffer size := by
  unfold Image.inBuffer
  split
  · case isTrue room =>
      refine ⟨rfl, rfl, List.forall_mem_singleton.mpr ?_⟩
      change buffer ≤ buffer + padding buffer blockAlign ∧
        buffer + padding buffer blockAlign + blockHdr + (size - padding buffer blockAlign - blockHdr) ≤
          buffer + size
      omega
  · exact ⟨rfl, rfl, List.forall_mem_nil _⟩

/-- The header is aligned, so that no alignment up to the default one costs more than 8 bytes. -/
theorem padding_header (buffer : Nat) {align : Nat} (power : ∃ k ≤ 4, align = 2 ^ k) :
    padding (buffer + padding buffer blockAlign + blockHdr) align ≤ blockAlign := by
  have aligned : blockAlign ∣ buffer + padding buffer blockAlign := dvd_add_padding (by decide)
  have header : blockHdr = 32 := rfl
  have word : blockAlign = 8 := rfl
  obtain ⟨k, small, rfl⟩ := power
  obtain ⟨words, whole⟩ := aligned
  rw [whole, header, word, padding]
  have cases : k = 0 ∨ k = 1 ∨ k = 2 ∨ k = 3 ∨ k = 4 := by omega
  rcases cases with rfl | rfl | rfl | rfl | rfl <;> omega

theorem alignEffective_small {align : Nat} (plain : build.asan = false)
    (valid : align = 0 ∨ ∃ k ≤ 16, align = 2 ^ k) (small : align ≤ defaultAlign) :
    ∃ k ≤ 4, alignEffective build align = 2 ^ k := by
  rw [alignEffective, plain, Bool.false_and, if_neg Bool.false_ne_true]
  cases valid with
  | inl none => exact ⟨4, Nat.le_refl _, if_pos none⟩
  | inr power =>
      obtain ⟨k, _, rfl⟩ := power
      have pos := Nat.two_pow_pos k
      exact ⟨k, (Nat.pow_le_pow_iff_right (by decide)).mp (show 2 ^ k ≤ 2 ^ 4 from small),
        if_neg (by omega)⟩

/-- A new arena in a buffer has room for all but `ARENA_FIXED_OVERHEAD` bytes of it. -/
theorem Image.inBuffer_roomy {buffer size len align : Nat} {world : World σ} {state : State σ}
    (plain : build.asan = false) (shows : state.Shows (.inBuffer build buffer size world))
    (large : fixedOverhead < size) (bound : len ≤ size - fixedOverhead)
    (valid : align = 0 ∨ ∃ k ≤ 16, align = 2 ^ k) (small : align ≤ defaultAlign) :
    state.Roomy build len align := by
  have start : padding buffer blockAlign < blockAlign := padding_lt (by decide)
  have gap := padding_header buffer (alignEffective_small plain valid small)
  have redzone : build.redzone = 0 := by rw [Build.redzone, plain]; rfl
  have overhead : fixedOverhead = 64 := rfl
  have header : blockHdr = 32 := rfl
  have word : blockAlign = 8 := rfl
  have room := shows.room
  rw [Image.inBuffer, if_pos (by omega)] at room
  refine ⟨_, room, ?_⟩
  change padding (buffer + padding buffer blockAlign + blockHdr) (alignEffective build align) + len +
    build.redzone ≤ size - padding buffer blockAlign - blockHdr - 0
  omega

/-- An arena in a buffer of any legal size, wherever it starts, stays inside in every legal run
short of a deinit: no header, no cursor and no allocation lies outside, and a request that finds no
room is refused. A new one serves any one request that leaves `ARENA_FIXED_OVERHEAD` bytes. -/
theorem initFixed_confined (build : Build) {buffer size : Nat} (given : buffer ≠ 0)
    (some : 0 < size) (small : size ≤ ptrdiffMax) (fits : buffer + size ≤ sizeMax)
    (world : World σ) (contents : Nat → UInt8) :
    ∃ state, initFixed build buffer size world = .ok state ∧
      (fixedOverhead < size → build.asan = false → ∀ (op : Op σ) (len align : Nat),
        op.Legal NoneOut { state, books := .start contents } → op.Requests len align →
        len ≤ size - fixedOverhead → align ≤ defaultAlign →
        ∃ ptr s, Session.step build { state, books := .start contents } op = .ok (ptr, s) ∧
          ptr ≠ 0 ∧ alignEffective build align ∣ ptr ∧ s.state.Offers buffer size ptr len) ∧
      ∀ ops : List (Op σ),
        Session.Allows build (fun s op => op.Legal NoneOut s ∧ op ≠ .deinit)
          { state, books := .start contents } ops →
        (∀ fault, Session.run build { state, books := .start contents } ops = .error fault →
          fault = .assertion "temp.depth == a->temp_depth") ∧
        ∀ ptrs s, Session.run build { state, books := .start contents } ops = .ok (ptrs, s) →
          s.state.Confined buffer size ∧
          (∀ x ∈ s.books.live, s.state.Offers buffer size x.addr x.size) ∧
          ∀ (op : Op σ) (len align : Nat), op.Legal NoneOut s → op.Requests len align →
            s.state.arena.status = .ok → ∃ ptr s', s.step build op = .ok (ptr, s') ∧
              (ptr ≠ 0 ∧ s'.state.Offers buffer size ptr len ∨
                ptr = 0 ∧ s'.state.arena.status = .errAlloc) := by
  have conforms : (allocNull σ).Conforms NoneOut := allocNull_conforms
  have some := Nat.ne_of_gt some
  obtain ⟨state, returned, shows⟩ := initFixed_returns build given some small fits world
  obtain ⟨empty, unused, _, _, status, _⟩ := Image.inBuffer_new build buffer size world
  have sane : Image.Sane build (allocNull σ) NoneOut (.inBuffer build buffer size world) :=
    Image.inBuffer_sane (fun _ => show NoneOut _ [] from rfl) given small fits world
  have shown : Session.Shows { state, books := .start contents }
      { image := .inBuffer build buffer size world, books := .start contents } := ⟨shows, rfl⟩
  have kept : Account.Kept build (allocNull σ) NoneOut
      { image := .inBuffer build buffer size world, books := .start contents } :=
    sane.started empty unused contents
  have boxed : (Image.inBuffer build buffer size world).Boxed buffer size :=
    Image.inBuffer_boxed buffer size world
  refine ⟨state, returned, ?_, fun ops allowed => ⟨fun fault stopped =>
    Session.run_stops conforms And.left shown kept allowed stopped, fun ptrs s ran => ?_⟩⟩
  · intro large plain op len align legal requests bound low
    have ready : state.arena.status = .ok := by
      rw [shows.arena]
      exact status
    obtain ⟨ptr, s, ran, outcome⟩ :=
      Session.request_boxed conforms shown kept boxed ready legal requests
    cases outcome with
    | inl served => exact ⟨ptr, s, ran, served⟩
    | inr refused =>
        exact absurd (Image.inBuffer_roomy plain shows large bound requests.valid low) refused.2.1
  · obtain ⟨t, shows', kept', boxed'⟩ := Session.run_account (fun t => t.image.Boxed buffer size)
      conforms And.left (fun _ kept boxed may effect => effect.boxed kept boxed may.2) shown kept boxed
      allowed ran
    refine ⟨boxed'.confined shows' kept', fun x member => boxed'.offers shows' kept' member, ?_⟩
    intro op len align legal requests ready
    obtain ⟨ptr, s', ran, outcome⟩ :=
      Session.request_boxed conforms shows' kept' boxed' ready legal requests
    refine ⟨ptr, s', ran, outcome.imp ?_ ?_⟩
    · exact fun served => ⟨served.1, served.2.2⟩
    · exact fun refused => ⟨refused.1, refused.2.2⟩

theorem initFixed_confined_misaligned :
    ∃ state, initFixed { Build.sanitized with asan := false } 4097 100 risingWorld = .ok state ∧
      ∃ ptr s, Session.step { Build.sanitized with asan := false }
          { state, books := .start risingWorld.bytes } (.allocate (.alloc 36)) = .ok (ptr, s) ∧
        ptr ≠ 0 ∧ s.state.Offers 4097 100 ptr 36 := by
  obtain ⟨state, returned, serves, _⟩ := initFixed_confined { Build.sanitized with asan := false }
    (show 4097 ≠ 0 by decide) (show 0 < 100 by decide) (by decide) (by decide) risingWorld
    risingWorld.bytes
  obtain ⟨ptr, s, ran, given, _, offers⟩ := serves (by decide) rfl (.allocate (.alloc 36)) 36 0
    (Nat.zero_le _)
    ⟨rfl, by decide, by decide, .inl rfl, fun _ _ other => nomatch other⟩ (by decide) (by decide)
  exact ⟨state, returned, ptr, s, ran, given, offers⟩

end AgencC.Arena
