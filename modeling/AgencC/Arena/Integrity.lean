import AgencC.Arena.Accounting

/-! What a client can rely on for its live allocations, after any legal run. -/

set_option autoImplicit false

namespace AgencC.Arena

open Library

variable {σ : Type} {build : Build} {parent : AllocT σ} {Out : World σ → List Region → Prop}

/-- The bytes of an allocation. -/
def Span.extent (x : Span) : Region := ⟨x.addr, x.size⟩

/-- `ARENA_BLOCK_HDR` bytes at the start of a block. -/
def Cell.head (c : Cell) : Region := ⟨c.addr, blockHdr⟩

variable (build) in
/-- Live allocations are aligned, lie between the header and the cursor of a block on the chain,
are disjoint from each other and from the headers, and have the bytes the client last saw. -/
structure Session.Intact (s : Session σ) (chain free : List Cell) : Prop where
  lists : s.state.Lists chain free
  aligned : ∀ x ∈ s.books.live, alignEffective build x.align ∣ x.addr
  placed : ∀ x ∈ s.books.live, ∃ c ∈ chain, c.used ≤ c.cap ∧ c.data ≤ x.addr ∧
    x.addr + x.size ≤ c.cursor
  apart : (s.books.live.map Span.extent).Pairwise Region.Apart
  beside : ∀ x ∈ s.books.live, ∀ c ∈ chain ++ free, x.extent.Apart c.head
  written : ∀ x ∈ s.books.live, ∀ p, x.Covers p → s.state.world.bytes p = s.books.contents p

theorem Span.extent_within (x : Span) : x.extent.Within (x.region build) :=
  ⟨Nat.le_refl _, Nat.add_le_add_left (Nat.le_add_right _ _) _⟩

theorem Books.live_sublist (b : Books) : b.live.Sublist b.spans := by
  refine List.Sublist.flatMap_right _ fun l _ => ?_
  exact (List.sublist_append_left _ _).trans (List.sublist_append_left _ _)

namespace Image.Kept

variable {a : Image σ} {b : Books}

theorem live_placed (kept : a.Kept build parent Out b) {x : Span} (member : x ∈ b.live) :
    ∃ c ∈ a.chain, c.used ≤ c.cap ∧ c.data ≤ x.addr ∧ x.addr + x.size ≤ c.cursor := by
  obtain ⟨c, chained, above, below⟩ :=
    (kept.lie.placed x (Books.mem_spans_of_lit (Books.mem_lit_of_live member))).1
  refine ⟨c, chained, kept.sane.fits c (List.mem_append_left _ chained), above, ?_⟩
  exact Nat.le_trans x.extent_within.2 below

theorem live_apart (kept : a.Kept build parent Out b) :
    (b.live.map Span.extent).Pairwise Region.Apart := by
  have whole := List.pairwise_map.mp kept.lie.apart
  refine List.pairwise_map.mpr ((whole.sublist b.live_sublist).imp fun apart => ?_)
  exact apart.mono (Span.extent_within _) (Span.extent_within _)

/-- The data of a block is apart from all headers. -/
theorem live_beside (kept : a.Kept build parent Out b) {x : Span} (member : x ∈ b.live)
    {c : Cell} (listed : c ∈ a.cells) : x.extent.Apart c.head := by
  obtain ⟨d, chained, fits, above, below⟩ := kept.live_placed member
  have filled := (kept.lie.placed x (Books.mem_spans_of_lit (Books.mem_lit_of_live member))).2
  refine Region.apart_of_disjoint filled (show 0 < blockHdr by decide) fun p covers header => ?_
  have inside : x.extent.Within d.region := by
    refine d.data_within above (Nat.le_trans below ?_)
    exact Nat.add_le_add_left fits _
  have whole : c.head.Within c.region := ⟨Nat.le_refl _, Nat.add_le_add_left (Nat.le_add_right _ _) _⟩
  have same : d = c := kept.sane.eq_of_covers (List.mem_append_left _ chained) listed
    (inside.covers covers) (whole.covers header)
  subst same
  exact absurd header.2 (Nat.not_lt.mpr (Nat.le_trans above covers.1))

end Image.Kept

theorem Account.Kept.intact {s : Session σ} {t : Account σ} (shows : s.Shows t)
    (kept : t.Kept build parent Out) : s.Intact build t.image.chain t.image.free := by
  have kept : t.image.Kept build parent Out t.books := kept
  have books := shows.2
  have world := shows.1.world
  refine
    { lists := shows.1.lists
      aligned := fun x member => (kept.lie.aligned x (books ▸ member)).1
      placed := fun x member => kept.live_placed (books ▸ member)
      apart := books ▸ kept.live_apart
      beside := fun x member c listed => kept.live_beside (books ▸ member) listed
      written := fun x member p covers => ?_ }
  rw [world, books]
  exact kept.written x (books ▸ member) p covers

/-- After any legal run from a new arena the live allocations are intact. A run can go on with
any legal call, except where `arena_temp_end` stops at its depth check. -/
theorem Session.run_intact (conforms : parent.Conforms Out) {s s' : Session σ}
    (started : s.Started build parent Out) {ops : List (Op σ)} {ptrs : List Nat}
    (allowed : s.Allows build (fun s op => op.Legal Out s) ops)
    (ran : s.run build ops = .ok (ptrs, s')) :
    (∃ chain free, s'.Intact build chain free) ∧
      ∀ op : Op σ, op.Legal Out s' → (∃ ptr s'', s'.step build op = .ok (ptr, s'')) ∨
        op = .tempEnd ∧ s'.step build op = .error (.assertion "temp.depth == a->temp_depth") := by
  obtain ⟨t, shows, kept⟩ := Session.run_kept conforms started allowed ran
  exact ⟨⟨_, _, kept.intact shows⟩, fun op legal => Session.step_total conforms shows kept legal⟩

theorem Session.run_intact_scope :
    ∃ ptrs s', Session.rising.run .sanitized scopeCalls = .ok (ptrs, s') ∧
      ∃ chain free, s'.Intact .sanitized chain free := by
  have conforms := risingParent_conforms 0x100000 (by decide)
  have ran : Session.rising.run .sanitized scopeCalls = .ok _ := rfl
  exact ⟨_, _, ran,
    (Session.run_intact conforms (Session.rising_started _) scopeCalls_allowed ran).1⟩

end AgencC.Arena
