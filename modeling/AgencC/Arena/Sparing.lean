import AgencC.Arena.Reallocation

/-! What a call leaves alone: every live allocation but the one it is given. -/

set_option autoImplicit false

namespace AgencC.Arena

open Library

variable {σ : Type} {build : Build} {parent : AllocT σ} {Out : World σ → List Region → Prop}

section
variable {a a' : Image σ}

/-- The storage below the cursors is as it was, but for `r`. -/
def Image.Spares (a : Image σ) (r : Region) (a' : Image σ) : Prop :=
  ∀ q, Below a.chain q → ¬ r.Covers q →
    a'.world.bytes q = a.world.bytes q ∧ a'.world.poisoned q = a.world.poisoned q

theorem Image.Spares.refl (a : Image σ) (r : Region) : a.Spares r a := fun _ _ _ => ⟨rfl, rfl⟩

/-- Nothing is lost by a write to `r`, or to what nobody has. -/
theorem Image.Spares.touched {r r' : Region} (spares : a.Spares r a') {world : World σ}
    (touched : a'.world.Touched r' world)
    (away : ∀ q, r'.Covers q → Below a.chain q → r.Covers q) : a.Spares r { a' with world } := by
  intro q below outside
  have apart : ¬ r'.Covers q := fun covers => outside (away q covers below)
  obtain ⟨bytes, poisoned⟩ := spares q below outside
  exact ⟨(touched.bytes q apart).trans bytes, (touched.poisoned q apart).trans poisoned⟩

theorem Image.Unserved.spares (owned : a.Owned build parent Out) (unserved : a.Unserved Out a')
    (r : Region) : a.Spares r a' := by
  obtain ⟨status, world, rfl, refusal⟩ := unserved
  intro q below _
  obtain ⟨c, member, covers, _⟩ := owned.covers_of_below below
  exact refusal.keeps c.region (List.mem_map_of_mem (List.mem_append_left _ member)) q covers

theorem Image.Sane.allocImpl_spares (conforms : parent.Conforms Out)
    (sane : a.Sane build parent Out) {count size align ptr : Nat} (word : align ≤ sizeMax)
    (ran : a.allocImpl build count size align = .ok (ptr, a')) :
    (∀ r, a.Spares r a') ∧
      (ptr ≠ 0 → ∀ q, Region.Covers ⟨ptr, count * size⟩ q → ¬ Below a.chain q) := by
  obtain ⟨ptr', a'', again, _, outcome⟩ := sane.allocImpl conforms count size word
  cases ran.symm.trans again
  cases outcome with
  | inl refused => exact ⟨refused.2.spares sane.toOwned, fun given => absurd refused.1 given⟩
  | inr served =>
      obtain ⟨_, _, _, took⟩ := served
      refine ⟨fun r q below _ => took.kept q below, fun _ q covers => ?_⟩
      refine took.fresh q covers.1 (Nat.lt_of_lt_of_le covers.2 ?_)
      exact Nat.add_le_add_left (Nat.le_add_right _ _) _

theorem Image.Sane.request_spares (conforms : parent.Conforms Out)
    (sane : a.Sane build parent Out) {request : Request} {ptr : Nat}
    (word : request.align ≤ sizeMax) (ran : request.image build a = .ok (ptr, a')) (r : Region) :
    a.Spares r a' := by
  cases Request.image_goes ran with
  | refused _ served _ => exact (sane.allocImpl_spares conforms word served).1 r
  | written product served given touched _ =>
      obtain ⟨spares, new⟩ := sane.allocImpl_spares conforms word served
      refine (spares r).touched touched fun q covers below => ?_
      exact absurd below (new given q (product ▸ covers))
  | rejected _ _ _ => exact (Image.Unserved.fail (.refl sane.toOwned) .errArg).spares sane.toOwned r

theorem Image.Owned.resizeLast_spares (owned : a.Owned build parent Out)
    {ptr oldSize newSize : Nat} (done : a.resizeLast build ptr oldSize newSize = some a') :
    a.Spares ⟨ptr, build.footprint oldSize⟩ a' := by
  unfold Image.resizeLast at done
  cases last : a.lastAt build ptr oldSize with
  | none =>
      rw [last] at done
      cases done
  | some found =>
      obtain ⟨c, cs⟩ := found
      obtain ⟨chain, above, ends⟩ := Image.lastAt_some last
      have fits := owned.fits c (by rw [Image.cells_of_chain chain]; exact .head _)
      have zone : oldSize ≤ build.footprint oldSize := Nat.le_add_right _ _
      have top : c.cursor = c.data + c.used := rfl
      rw [last] at done
      dsimp only at done
      by_cases smaller : newSize ≤ oldSize
      · cases (if_pos smaller).symm.trans done
        refine (Image.Spares.refl a _).touched (World.dead_touched build _ _ _) fun q covers _ => ?_
        have low : ptr + newSize ≤ q := covers.1
        have high : q < ptr + newSize + (oldSize - newSize) := covers.2
        refine ⟨?_, ?_⟩ <;> dsimp only <;> omega
      · by_cases full : c.cap - c.used < newSize - oldSize
        · cases ((if_neg smaller).trans (if_pos full)).symm.trans done
        · cases ((if_neg smaller).trans (if_neg full)).symm.trans done
          refine (Image.Spares.refl a _).touched (World.live_touched build _ _ _) fun q covers below => ?_
          have low : ptr + oldSize ≤ q := covers.1
          have high : q < ptr + oldSize + (newSize - oldSize) := covers.2
          by_contra outside
          have beyond : c.cursor ≤ q := by
            by_contra under
            refine outside ⟨?_, ?_⟩ <;> dsimp only <;> omega
          exact owned.not_below chain beyond (by omega) below

theorem Image.Sane.realloc_spares (conforms : parent.Conforms Out)
    (sane : a.Sane build parent Out) {ptr oldSize newSize align fresh : Nat}
    (word : align ≤ sizeMax) (ran : a.realloc build ptr oldSize newSize align = .ok (fresh, a')) :
    a.Spares ⟨ptr, build.footprint oldSize⟩ a' := by
  have ended := Image.realloc_reallocates ran
  cases ended with
  | resized ready done => exact sane.toOwned.resizeLast_spares done
  | rejected ready wrong =>
      exact (Image.Unserved.fail (.refl sane.toOwned) .errArg).spares sane.toOwned _
  | @moved _ b a' some ran unserved after =>
      obtain ⟨spares, new⟩ := sane.allocImpl_spares conforms word ran
      rw [Nat.one_mul] at new
      cases after with
      | inl same => exact same ▸ spares _
      | inr moved =>
          by_cases refused : fresh = 0
          · exact unserved refused ▸ spares _
          · subst moved
            have copied : a.Spares ⟨ptr, build.footprint oldSize⟩
                { b with world := b.world.memcpy fresh ptr (min oldSize newSize) } := by
              refine (spares _).touched (World.memcpy_touched _ _ _ _) fun q covers below => ?_
              refine absurd below (new refused q ⟨covers.1, Nat.lt_of_lt_of_le covers.2 ?_⟩)
              exact Nat.add_le_add_left (Nat.min_le_right _ _) _
            refine copied.touched (World.dead_touched build _ _ _) fun q covers _ => ⟨covers.1, ?_⟩
            exact Nat.lt_of_lt_of_le covers.2 (Nat.add_le_add_left (Nat.le_add_right _ _) _)

theorem Image.xfree_spares (a : Image σ) (ptr size : Nat) :
    a.Spares ⟨ptr, build.footprint size⟩ (a.xfree build ptr size) := by
  cases last : a.lastAt build ptr size with
  | none =>
      rw [Image.xfree, last]
      exact .refl a _
  | some found =>
      rw [Image.xfree, last]
      exact (Image.Spares.refl a _).touched (World.dead_touched build _ _ _) fun _ covers _ => covers

end

/-- The allocation that a call is given. -/
def Op.span : Op σ → Option Span
  | .realloc ptr oldSize _ align | .xrealloc ptr oldSize _ align =>
      some { addr := ptr, size := oldSize, align }
  | .xfree ptr size align => some { addr := ptr, size, align }
  | _ => none

/-- The calls on single allocations, and those that free none. -/
def Op.Plain : Op σ → Prop
  | .tempBegin | .tempEnd | .reset | .deinit | .elsewhere _ => False
  | _ => True

namespace Image.Kept

variable {a a' : Image σ} {b : Books}

theorem apart_of_ne (kept : a.Kept build parent Out b) {x y : Span} (member : x ∈ b.live)
    (listed : y ∈ b.live) (other : x ≠ y) : (x.region build).Apart (y.region build) := by
  have apart := kept.lie.apart
  rw [List.pairwise_map] at apart
  have : Std.Symm fun x y : Span => (x.region build).Apart (y.region build) :=
    ⟨fun _ _ apart => apart.symm⟩
  exact apart.forall (Books.mem_spans_of_lit (Books.mem_lit_of_live member))
    (Books.mem_spans_of_lit (Books.mem_lit_of_live listed)) other

/-- No allocation starts in the first 32 bytes of the address space. -/
theorem past_header (kept : a.Kept build parent Out b) {x : Span} (member : x ∈ b.live) :
    blockHdr ≤ x.addr := by
  obtain ⟨c, _, _, above, _⟩ := kept.live_placed member
  exact Nat.le_trans (Nat.le_add_left _ _) above

theorem filled (kept : a.Kept build parent Out b) {x : Span} (member : x ∈ b.live) : 0 < x.size :=
  (kept.lie.placed x (Books.mem_spans_of_lit (Books.mem_lit_of_live member))).2

/-- What a call spares, it spares of every live allocation but its own. -/
theorem spared (kept : a.Kept build parent Out b) {x y : Span}
    (spares : a.Spares (x.region build) a')
    (owned : x.addr = 0 ∧ x.size = 0 ∨ x ∈ b.live) (member : y ∈ b.live) (other : x ≠ y) {q : Nat}
    (covers : y.Covers q) :
    a'.world.bytes q = a.world.bytes q ∧ a'.world.poisoned q = a.world.poisoned q := by
  refine spares q (kept.lit_below (Books.mem_lit_of_live member) covers) ?_
  cases owned with
  | inr listed => exact (kept.apart_of_ne listed member other).symm.not_covers covers.region
  | inl null =>
      intro inside
      have low : blockHdr ≤ q := Nat.le_trans (kept.past_header member) covers.1
      have high : q < x.addr + build.footprint x.size := inside.2
      have zone := build.redzone_le
      have header : blockHdr = 32 := rfl
      unfold Build.footprint at high
      omega

end Image.Kept

/-- A call on single allocations leaves every live one alone but its own. -/
theorem Account.Kept.spares (conforms : parent.Conforms Out) {s : Session σ} {t t' : Account σ}
    (shows : s.Shows t) (kept : t.Kept build parent Out) {op : Op σ} (legal : op.Legal Out s)
    (plain : op.Plain) {ptr : Nat} (followed : t.step build op = .ok (ptr, t')) {y : Span}
    (member : y ∈ t.books.live) (other : op.span ≠ some y) {q : Nat} (covers : y.Covers q) :
    t'.image.world.bytes q = t.image.world.bytes q ∧
      t'.image.world.poisoned q = t.image.world.poisoned q := by
  have kept : t.image.Kept build parent Out t.books := kept
  have owned : ∀ {x : Span}, x.addr = 0 ∧ x.size = 0 ∨ x ∈ s.books.scope.live →
      x.addr = 0 ∧ x.size = 0 ∨ x ∈ t.books.live := fun owned =>
    owned.imp id fun listed => Books.mem_live.mpr (.inl (shows.2 ▸ listed))
  cases op with
  | allocate request =>
      obtain ⟨⟨_, image⟩, ran, same⟩ := bind_eq_ok.mp followed
      cases same
      refine kept.sane.request_spares conforms legal ran ⟨0, 0⟩ q
        (kept.lit_below (Books.mem_lit_of_live member) covers) fun inside => ?_
      exact Nat.not_lt_zero _ inside.2
  | realloc given oldSize newSize align | xrealloc given oldSize newSize align =>
      obtain ⟨⟨_, image⟩, ran, same⟩ := bind_eq_ok.mp followed
      cases same
      exact kept.spared (x := ⟨given, oldSize, align⟩) (kept.sane.realloc_spares conforms legal.1 ran)
        (owned legal.2) member (fun same => other (congrArg some same)) covers
  | xfree given size align =>
      cases followed
      by_cases null : given = 0
      · rw [if_pos null]
        exact ⟨rfl, rfl⟩
      · rw [if_neg null]
        exact kept.spared (x := ⟨given, size, align⟩) (t.image.xfree_spares given size)
          (owned (.inr (legal.resolve_left null))) member (fun same => other (congrArg some same))
          covers
  | trim =>
      obtain ⟨image, ran, same⟩ := bind_eq_ok.mp followed
      cases same
      obtain ⟨image', again, trimmed, _⟩ := kept.trim conforms
      cases ran.symm.trans again
      exact trimmed.kept q (kept.lit_below (Books.mem_lit_of_live member) covers)
  | clearError =>
      cases followed
      exact ⟨rfl, rfl⟩
  | tempBegin | tempEnd | reset | deinit | elsewhere _ => exact plain.elim

end AgencC.Arena
