import AgencC.Str.Machine
import Mathlib.Data.List.Nodup

/-! Ownership of all blocks over runs of public calls. -/

set_option autoImplicit false

namespace AgencC.Str

open Library

/-- Every allocated block has one owner: a string or the caller. -/
structure Machine.Owned (m : Machine) : Prop where
  wellFormed : ∀ i, WellFormed (m.cell i)
  separate : ∀ i j id, (m.strs i).Designates id → (m.strs j).Designates id → i = j
  blocks : ∀ p ∈ m.detached, ∃ o, m.heap.objs p.obj = some o ∧ o.allocated = true ∧ p.addr = o.base
  distinct : (m.detached.map Ptr.obj).Nodup
  given : ∀ p ∈ m.detached, ∀ i, ¬ (m.strs i).Designates p.obj
  covered : ∀ id o, m.heap.objs id = some o → o.allocated = true →
    (∃ i, (m.strs i).Designates id) ∨ ∃ p ∈ m.detached, p.obj = id

theorem Machine.Initial.owned {m : Machine} (initial : m.Initial) : m.Owned where
  wellFormed i := by
    rw [Machine.cell, initial.strs i]
    exact empty_wellFormed m.heap
  separate i j id designated := by
    rw [initial.strs i] at designated
    exact absurd designated (empty_not_designates id)
  blocks p member := by
    rw [initial.detached] at member
    cases member
  distinct := by
    rw [initial.detached]
    exact .nil
  given p member := by
    rw [initial.detached] at member
    cases member
  covered id o live allocated := by
    rw [initial.heap id o live] at allocated
    cases allocated

theorem put_designates {m : Machine} {i j id : Nat} {c : Cell} :
    ((m.put i c).strs j).Designates id ↔
      (j = i ∧ c.str.Designates id) ∨ (j ≠ i ∧ (m.strs j).Designates id) := by
  by_cases same : j = i
  · subst same
    simp [Machine.put]
  · simp [Machine.put, same]

/-- An operation on one string keeps the ownership of all blocks. -/
theorem Machine.Owned.put {m : Machine} (owned : m.Owned) {i : Nat} {c : Cell}
    (wf : WellFormed c) (frame : Frame (m.cell i) c) : (m.put i c).Owned := by
  -- A block of another owner is neither the old nor the new buffer of string `i`.
  have foreign : ∀ id, id < m.heap.nextId → ¬ (m.strs i).Designates id →
      ¬ c.str.Designates id ∧ c.heap.objs id = m.heap.objs id := by
    intro id bound other
    have new : ¬ c.str.Designates id := fun designated => by
      cases frame.fresh id designated with
      | inl old => exact other old
      | inr beyond => exact absurd bound (Nat.not_lt.mpr beyond)
    exact ⟨new, frame.others id other new⟩
  have others : ∀ j, j ≠ i → ∀ id, (m.strs j).Designates id →
      ¬ c.str.Designates id ∧ c.heap.objs id = m.heap.objs id := fun j distinct id own =>
    foreign id ((owned.wellFormed j).designates_lt own) fun mine =>
      distinct (owned.separate j i id own mine)
  have caller : ∀ p ∈ m.detached, ¬ c.str.Designates p.obj ∧
      c.heap.objs p.obj = m.heap.objs p.obj := by
    intro p member
    obtain ⟨o, live, _⟩ := owned.blocks p member
    exact foreign p.obj (m.heap.lt_nextId live) (owned.given p member i)
  exact
    { wellFormed := by
        intro j
        by_cases same : j = i
        · subst same
          simpa [Machine.cell, Machine.put] using wf
        · have kept := (owned.wellFormed j).of_same_block
            fun id own => (others j same id own).2
          simpa [Machine.cell, Machine.put, same] using kept.1
      separate := by
        intro j k id first second
        rw [put_designates] at first second
        rcases first with ⟨rfl, first⟩ | ⟨distinctJ, first⟩ <;>
          rcases second with ⟨rfl, second⟩ | ⟨distinctK, second⟩
        · rfl
        · exact absurd first (others k distinctK id second).1
        · exact absurd second (others j distinctJ id first).1
        · exact owned.separate j k id first second
      blocks := by
        intro p member
        show ∃ o, c.heap.objs p.obj = some o ∧ _
        rw [(caller p member).2]
        exact owned.blocks p member
      distinct := owned.distinct
      given := by
        intro p member j
        rw [put_designates]
        rintro (⟨_, designated⟩ | ⟨_, designated⟩)
        · exact (caller p member).1 designated
        · exact owned.given p member j designated
      covered := by
        intro id o live allocated
        have live : c.heap.objs id = some o := live
        by_cases new : c.str.Designates id
        · exact .inl ⟨i, put_designates.mpr (.inl ⟨rfl, new⟩)⟩
        · by_cases old : (m.strs i).Designates id
          · rw [frame.released id old new] at live
            cases live
          · rw [frame.others id old new] at live
            cases owned.covered id o live allocated with
            | inl string =>
                obtain ⟨j, designated⟩ := string
                have distinct : j ≠ i := fun same => old (same ▸ designated)
                exact .inl ⟨j, put_designates.mpr (.inr ⟨distinct, designated⟩)⟩
            | inr given => exact .inr given }

/-- Handing a string's block to another that owns none. -/
theorem Machine.Owned.transfer {m : Machine} (owned : m.Owned) {i j : Nat} (distinct : i ≠ j)
    (vacant : m.strs i = .empty) :
    Machine.Owned { m with
      strs := Function.update (Function.update m.strs i (m.strs j)) j .empty } := by
  -- After the call `i` owns what `j` did, `j` owns nothing.
  have owner : ∀ k id, (Function.update (Function.update m.strs i (m.strs j)) j .empty k).Designates
      id ↔ (k = i ∧ (m.strs j).Designates id) ∨ (k ≠ i ∧ k ≠ j ∧ (m.strs k).Designates id) := by
    intro k id
    by_cases atJ : k = j
    · subst atJ
      simp [Ne.symm distinct, empty_not_designates]
    · by_cases atI : k = i
      · subst atI
        simp [distinct]
      · simp [atI, atJ]
  exact
    { wellFormed := by
        intro k
        by_cases atJ : k = j
        · subst atJ
          simpa [Machine.cell] using empty_wellFormed m.heap
        · by_cases atI : k = i
          · subst atI
            simpa [Machine.cell, distinct] using owned.wellFormed j
          · simpa [Machine.cell, atI, atJ] using owned.wellFormed k
      separate := by
        intro k l id first second
        rw [owner] at first second
        rcases first with ⟨rfl, first⟩ | ⟨notI, notJ, first⟩ <;>
          rcases second with ⟨rfl, second⟩ | ⟨notI', notJ', second⟩
        · rfl
        · exact absurd (owned.separate l j id second first) notJ'
        · exact absurd (owned.separate k j id first second) notJ
        · exact owned.separate k l id first second
      blocks := owned.blocks
      distinct := owned.distinct
      given := by
        intro p member k
        rw [owner]
        rintro (⟨_, designated⟩ | ⟨_, _, designated⟩)
        · exact owned.given p member j designated
        · exact owned.given p member k designated
      covered := by
        intro id o live allocated
        cases owned.covered id o live allocated with
        | inr given => exact .inr given
        | inl string =>
            obtain ⟨k, designated⟩ := string
            by_cases atJ : k = j
            · exact .inl ⟨i, (owner i id).mpr (.inl ⟨rfl, atJ ▸ designated⟩)⟩
            · have notI : k ≠ i := fun same => by
                rw [same, vacant] at designated
                exact empty_not_designates id designated
              exact .inl ⟨k, (owner k id).mpr (.inr ⟨notI, atJ, designated⟩)⟩ }

theorem Machine.Owned.detach_owned {m : Machine} (owned : m.Owned) {i : Nat} {p : Ptr}
    {o : Obj UInt8} (holds : Holds (m.cell i) p o) :
    Machine.Owned { m with
      strs := Function.update m.strs i .empty, detached := m.detached ++ [p] } := by
  have buf : (m.strs i).buf = some p := holds.buf
  have mine : (m.strs i).Designates p.obj := ⟨p, buf, rfl⟩
  have owner : ∀ k id, (Function.update m.strs i .empty k).Designates id ↔
      k ≠ i ∧ (m.strs k).Designates id := by
    intro k id
    by_cases same : k = i
    · subst same
      simp [empty_not_designates]
    · simp [same]
  exact
    { wellFormed := by
        intro k
        by_cases same : k = i
        · subst same
          simpa [Machine.cell] using empty_wellFormed m.heap
        · simpa [Machine.cell, same] using owned.wellFormed k
      separate := fun j k id first second =>
        owned.separate j k id ((owner j id).mp first).2 ((owner k id).mp second).2
      blocks := by
        intro q member
        cases List.mem_append.mp member with
        | inl old => exact owned.blocks q old
        | inr new =>
            obtain rfl := List.mem_singleton.mp new
            exact ⟨o, holds.live, holds.allocated, holds.start⟩
      distinct := by
        rw [List.map_append, List.nodup_append]
        refine ⟨owned.distinct, List.nodup_singleton _, ?_⟩
        intro a old b new same
        obtain ⟨q, member, rfl⟩ := List.mem_map.mp old
        obtain rfl := List.mem_singleton.mp new
        exact owned.given q member i (same ▸ mine)
      given := by
        intro q member k designated
        obtain ⟨other, theirs⟩ := (owner k q.obj).mp designated
        cases List.mem_append.mp member with
        | inl old => exact owned.given q old k theirs
        | inr new =>
            obtain rfl := List.mem_singleton.mp new
            exact other (owned.separate k i q.obj theirs mine)
      covered := by
        intro id o' live allocated
        cases owned.covered id o' live allocated with
        | inr given =>
            obtain ⟨q, member, same⟩ := given
            exact .inr ⟨q, List.mem_append_left _ member, same⟩
        | inl string =>
            obtain ⟨k, designated⟩ := string
            by_cases same : k = i
            · subst same
              refine .inr ⟨p, List.mem_append_right _ (.head _), ?_⟩
              exact ((holds.designates id).mp designated).symm
            · exact .inl ⟨k, (owner k id).mpr ⟨same, designated⟩⟩ }

/-- A new block that goes to the caller at once. -/
theorem Machine.Owned.detach_new {m : Machine} (owned : m.Owned) {i : Nat} {t : Obj UInt8}
    {heap : Memory} (buf : (m.strs i).buf = none) (tmp : Temporary (m.cell i) t heap) :
    Machine.Owned
      { strs := Function.update m.strs i .empty, heap
        detached := m.detached ++ [⟨m.heap.nextId, t.base⟩] } := by
  have kept : ∀ id, id < m.heap.nextId → heap.objs id = m.heap.objs id := fun id bound =>
    tmp.other (Nat.ne_of_lt bound)
  have live : heap.objs m.heap.nextId = some t := tmp.live
  have owner : ∀ k id, (Function.update m.strs i .empty k).Designates id ↔
      (m.strs k).Designates id := by
    intro k id
    by_cases same : k = i
    · subst same
      simp [StrT.Designates, buf, StrT.empty]
    · simp [same]
  have bound : ∀ k id, (m.strs k).Designates id → id < m.heap.nextId := fun k id designated =>
    (owned.wellFormed k).designates_lt designated
  exact
    { wellFormed := by
        intro k
        by_cases same : k = i
        · subst same
          simpa [Machine.cell] using empty_wellFormed heap
        · have kept := (owned.wellFormed k).of_same_block
            fun id designated => kept id (bound k id designated)
          simpa [Machine.cell, same] using kept.1
      separate := fun j k id first second =>
        owned.separate j k id ((owner j id).mp first) ((owner k id).mp second)
      blocks := by
        intro q member
        cases List.mem_append.mp member with
        | inl old =>
            obtain ⟨o, held, rest⟩ := owned.blocks q old
            exact ⟨o, (kept _ (m.heap.lt_nextId held)).trans held, rest⟩
        | inr new =>
            obtain rfl := List.mem_singleton.mp new
            exact ⟨t, live, tmp.allocated, rfl⟩
      distinct := by
        rw [List.map_append, List.nodup_append]
        refine ⟨owned.distinct, List.nodup_singleton _, ?_⟩
        intro a old b new same
        obtain ⟨q, member, rfl⟩ := List.mem_map.mp old
        obtain rfl := List.mem_singleton.mp new
        obtain ⟨o, held, _⟩ := owned.blocks q member
        exact Nat.ne_of_lt (m.heap.lt_nextId held) same
      given := by
        intro q member k designated
        rw [owner] at designated
        cases List.mem_append.mp member with
        | inl old => exact owned.given q old k designated
        | inr new =>
            obtain rfl := List.mem_singleton.mp new
            exact Nat.lt_irrefl _ (bound k _ designated)
      covered := by
        intro id o held allocated
        by_cases new : id = m.heap.nextId
        · subst new
          exact .inr ⟨_, List.mem_append_right _ (.head _), rfl⟩
        · have held : m.heap.objs id = some o := (tmp.other new).symm.trans held
          cases owned.covered id o held allocated with
          | inl string =>
              obtain ⟨k, designated⟩ := string
              exact .inl ⟨k, (owner k id).mpr designated⟩
          | inr given =>
              obtain ⟨q, member, same⟩ := given
              exact .inr ⟨q, List.mem_append_left _ member, same⟩ }

/-- The caller frees a buffer it was given. -/
theorem Machine.Owned.free {m : Machine} (owned : m.Owned) {p : Ptr} (member : p ∈ m.detached) :
    ∃ heap, m.heap.free (some p) = .ok heap ∧
      Machine.Owned { m with heap, detached := m.detached.filter fun q => some q ≠ some p } := by
  obtain ⟨o, live, allocated, start⟩ := owned.blocks p member
  refine ⟨m.heap.erase p.obj, Heap.free_ok (Heap.block_ok live allocated start), ?_⟩
  have kept : ∀ id, id ≠ p.obj → (m.heap.erase p.obj).objs id = m.heap.objs id := fun id other =>
    Function.update_of_ne other _ _
  -- Detached buffers are told apart by their blocks.
  have others : ∀ q, q ∈ m.detached.filter (fun q => some q ≠ some p) →
      q ∈ m.detached ∧ q.obj ≠ p.obj := by
    intro q filtered
    obtain ⟨given, distinct⟩ := List.mem_filter.mp filtered
    refine ⟨given, fun same => ?_⟩
    have equal : q = p := List.inj_on_of_nodup_map owned.distinct given member same
    simp [equal] at distinct
  exact
    { wellFormed := fun k => ((owned.wellFormed k).of_same_block fun id designated =>
        kept id fun same => owned.given p member k (same ▸ designated)).1
      separate := owned.separate
      blocks := by
        intro q filtered
        obtain ⟨given, distinct⟩ := others q filtered
        obtain ⟨o', held, rest⟩ := owned.blocks q given
        exact ⟨o', (kept _ distinct).trans held, rest⟩
      distinct := owned.distinct.sublist (List.filter_sublist.map _)
      given := fun q filtered => owned.given q (others q filtered).1
      covered := by
        intro id o' held allocated'
        have other : id ≠ p.obj := fun same => by
          subst same
          have gone : (m.heap.erase p.obj).objs p.obj = none := Function.update_self _ _ _
          rw [gone] at held
          cases held
        have held : m.heap.objs id = some o' := (kept id other).symm.trans held
        cases owned.covered id o' held allocated' with
        | inl string => exact .inl string
        | inr given =>
            obtain ⟨q, member', same⟩ := given
            refine .inr ⟨q, List.mem_filter.mpr ⟨member', ?_⟩, same⟩
            have distinct : q ≠ p := fun equal => other (same ▸ equal ▸ rfl)
            simp [distinct] }

/-- The caller writes to storage that belongs to no string. -/
theorem Machine.Owned.store {m : Machine} (owned : m.Owned) {p : Ptr} {bytes : Bytes}
    {heap : Memory} (foreign : ∀ i, ¬ (m.strs i).Designates p.obj)
    (wrote : m.heap.write p bytes = .ok heap) : Machine.Owned { m with heap } := by
  obtain ⟨o, cells, live, stores⟩ := Heap.write_eq_ok wrote
  exact
    { wellFormed := fun k => ((owned.wellFormed k).of_same_block fun id designated =>
        stores.other fun same => foreign k (same ▸ designated)).1
      separate := owned.separate
      blocks := by
        intro q member
        obtain ⟨o', held, allocated, start⟩ := owned.blocks q member
        by_cases same : q.obj = p.obj
        · rw [same, live] at held
          cases held
          exact ⟨{ o with cells }, by rw [same]; exact stores.live, allocated, start⟩
        · exact ⟨o', (stores.other same).trans held, allocated, start⟩
      distinct := owned.distinct
      given := owned.given
      covered := by
        intro id o' held allocated
        by_cases same : id = p.obj
        · subst same
          have held : heap.objs p.obj = some o' := held
          rw [stores.live] at held
          cases held
          exact owned.covered p.obj o live allocated
        · exact owned.covered id o' ((stores.other same).symm.trans held) allocated }

/-- Every legal call returns, and ownership is kept. -/
theorem Machine.step_owned {m : Machine} (owned : m.Owned) (op : Op) (legal : op.Legal m) :
    ∃ reply m', m.step op = .ok (reply, m') ∧ m'.Owned := by
  cases op with
  | mutate string mutation =>
      cases string with
      | none => exact ⟨_, m, rfl, owned⟩
      | some i =>
          obtain ⟨status, c, run, wf, frame, _⟩ :=
            mutation.run_spec (owned.wellFormed i) legal.1
          exact ⟨.status status, m.put i c, by simp only [step, run, ok_bind],
            owned.put wf frame⟩
  | move destination source =>
      cases destination with
      | none => exact ⟨_, m, rfl, owned⟩
      | some i =>
          cases source with
          | none => exact ⟨_, m, rfl, owned⟩
          | some j =>
              by_cases same : i = j
              · exact ⟨.none, m, by simp only [step, if_pos same], owned⟩
              · obtain ⟨c, released, str, frame⟩ := deinit_spec (owned.wellFormed i)
                have wf : WellFormed c := .empty (by rw [str]; rfl) (by rw [str]; rfl)
                  (by rw [str]; rfl)
                have vacated := owned.put (i := i) wf frame
                have moved := vacated.transfer (i := i) (j := j) same
                  (by simp [Machine.put, str])
                refine ⟨.none, _, ?_, moved⟩
                simp only [step, if_neg same, Str.move, released, ok_bind, Machine.put,
                  Function.update_idem, StrT.reset]
                rw [Function.update_of_ne (Ne.symm same)]
  | detach string =>
      cases string with
      | none => exact ⟨_, m, rfl, owned⟩
      | some i =>
          rcases detach_spec (owned.wellFormed i) with
            ⟨p, o, run, holds⟩ | ⟨t, heap, run, buf, tmp⟩ | ⟨c, run, same⟩
          · exact ⟨_, _, by simp only [step, run, ok_bind]; rfl, owned.detach_owned holds⟩
          · exact ⟨_, _, by simp only [step, run, ok_bind]; rfl, owned.detach_new buf tmp⟩
          · have recorded := owned.put ((same.wellFormed (owned.wellFormed i)).withStatus .errAlloc)
              (same.frame.congr rfl rfl)
            refine ⟨_, _, by simp only [step, run, ok_bind]; rfl, ?_⟩
            rw [Option.toList_none, List.append_nil]
            exact recorded
  | clear string =>
      cases string with
      | none => exact ⟨_, m, rfl, owned⟩
      | some i =>
          obtain ⟨c, run, wf, frame, _⟩ := clear_spec (owned.wellFormed i)
          exact ⟨.none, m.put i c, by simp only [step, run, ok_bind], owned.put wf frame⟩
  | clearError string =>
      cases string with
      | none => exact ⟨_, m, rfl, owned⟩
      | some i =>
          exact ⟨_, _, rfl, owned.put (clearError_wellFormed (owned.wellFormed i))
            ((Frame.refl (m.cell i)).congr rfl rfl)⟩
  | deinit string =>
      cases string with
      | none => exact ⟨_, m, rfl, owned⟩
      | some i =>
          obtain ⟨c, run, str, frame⟩ := deinit_spec (owned.wellFormed i)
          have wf : WellFormed c := .empty (by rw [str]; rfl) (by rw [str]; rfl) (by rw [str]; rfl)
          exact ⟨.none, m.put i c, by simp only [step, run, ok_bind], owned.put wf frame⟩
  | free p =>
      cases p with
      | none =>
          refine ⟨.none, m, ?_, owned⟩
          have all : m.detached.filter (fun q => some q ≠ none) = m.detached :=
            List.filter_eq_self.mpr fun q _ => by simp
          simp only [step, Heap.free, ok_bind, all]
      | some p =>
          obtain ⟨heap, freed, owned'⟩ := owned.free legal
          exact ⟨.none, _, by simp only [step, freed, ok_bind], owned'⟩
  | store p bytes =>
      obtain ⟨foreign, heap, wrote⟩ := legal
      exact ⟨.none, _, by simp only [step, wrote, ok_bind], owned.store foreign wrote⟩

theorem Machine.run_owned {m : Machine} (owned : m.Owned) (ops : List Op)
    (legal : LegalRun m ops) : ∃ m', m.run ops = .ok m' ∧ m'.Owned := by
  induction ops generalizing m with
  | nil => exact ⟨m, rfl, owned⟩
  | cons op ops ih =>
      obtain ⟨reply, m', stepped, owned'⟩ := Machine.step_owned owned op legal.1
      obtain ⟨m'', ran, owned''⟩ := ih owned' (legal.2 reply m' stepped)
      exact ⟨m'', by simp only [run, stepped, ok_bind, ran], owned''⟩

/-- The header's invariant of `str_t`, with the block the buffer has to be. -/
structure HeaderInvariant (s : StrT) (heap : Memory) : Prop where
  unowned : s.cap = 0 → s.buf = none ∧ s.len = 0
  owned : 0 < s.cap → ∃ p o, s.buf = some p ∧ heap.objs p.obj = some o ∧ o.allocated = true ∧
    p.addr = o.base ∧ o.size = s.cap ∧ s.len < s.cap ∧ o.cells[s.len]? = some 0

theorem WellFormed.headerInvariant {c : Cell} (wf : WellFormed c) :
    HeaderInvariant c.str c.heap := by
  cases wf with
  | empty buf len cap =>
      exact ⟨fun _ => ⟨buf, len⟩, fun pos => absurd pos (by rw [cap]; exact Nat.lt_irrefl 0)⟩
  | @owned p o holds inside terminated =>
      have cap := holds.cap
      refine ⟨fun none => absurd none (by omega), fun _ => ?_⟩
      exact ⟨p, o, holds.buf, holds.live, holds.allocated, holds.start, cap.symm,
        by omega, terminated⟩

/-- Runs of public calls from empty strings reach no assert and no byte outside a
live object, and leave every string within the header invariant. -/
theorem run_keeps_headerInvariant (m : Machine) (initial : m.Initial) (ops : List Op)
    (legal : LegalRun m ops) :
    ∃ m', m.run ops = .ok m' ∧ ∀ i, HeaderInvariant (m'.strs i) m'.heap := by
  obtain ⟨m', ran, owned⟩ := Machine.run_owned initial.owned ops legal
  exact ⟨m', ran, fun i => (owned.wellFormed i).headerInvariant⟩

/-- A byte appended, the string moved and cleared, its source written again where the
second allocation is refused. -/
theorem run_keeps_headerInvariant_moved :
    ∃ m', (Machine.start fun n => if n = 0 then some ⟨64, fun _ => 0xCC⟩ else none).run
        [.mutate (some 0) (.appendChar 97), .move (some 1) (some 0), .clear (some 1),
          .mutate (some 0) (.reserve 5)] = .ok m' ∧
      ∀ i, HeaderInvariant (m'.strs i) m'.heap := by
  refine run_keeps_headerInvariant _ (Machine.start_initial _) _
    ⟨⟨trivial, ?_⟩, fun _ _ _ => ⟨trivial, fun _ _ _ => ⟨trivial, fun _ _ _ =>
      ⟨⟨trivial, ?_⟩, fun _ _ _ => trivial⟩⟩⟩⟩
  · intro s copied
    cases copied
  · intro s copied
    cases copied

end AgencC.Str
