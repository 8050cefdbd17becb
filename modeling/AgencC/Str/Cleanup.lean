import AgencC.Str.MachineProperties

/-! Which blocks are allocated after a run, and that nothing is after cleaning up. -/

set_option autoImplicit false

namespace AgencC.Str

open Library

/-- The strings a call may change. -/
def Op.strings : Op → List Nat
  | .mutate string _ | .detach string | .clear string | .clearError string | .deinit string =>
      string.toList
  | .move destination source => destination.toList ++ source.toList
  | .free _ | .store .. => []

theorem put_other {m : Machine} {i j : Nat} {c : Cell} (other : j ≠ i) :
    (m.put i c).strs j = m.strs j := Function.update_of_ne other _ _

/-- A call changes no string but those it is given. -/
theorem Machine.step_other {m m' : Machine} {op : Op} {reply : Reply} {j : Nat}
    (other : j ∉ op.strings) (stepped : m.step op = .ok (reply, m')) :
    m'.strs j = m.strs j := by
  cases op with
  | mutate string mutation =>
      cases string with
      | none => cases stepped; rfl
      | some i =>
          obtain ⟨result, _, returned⟩ := bind_eq_ok.mp stepped
          cases returned
          exact put_other fun same => other (same ▸ .head _)
  | move destination source =>
      cases destination with
      | none => cases stepped; rfl
      | some i =>
          cases source with
          | none => cases stepped; rfl
          | some k =>
              simp only [step] at stepped
              split at stepped
              · cases stepped; rfl
              · obtain ⟨c, _, returned⟩ := bind_eq_ok.mp stepped
                cases returned
                have notI : j ≠ i := fun same => other (same ▸ .head _)
                have notK : j ≠ k := fun same => other (same ▸ .tail _ (.head _))
                exact (Function.update_of_ne notK _ _).trans (put_other notI)
  | detach string | clear string | deinit string =>
      cases string with
      | none => cases stepped; rfl
      | some i =>
          obtain ⟨result, _, returned⟩ := bind_eq_ok.mp stepped
          cases returned
          exact put_other fun same => other (same ▸ .head _)
  | clearError string =>
      cases string with
      | none => cases stepped; rfl
      | some i =>
          cases stepped
          exact put_other fun same => other (same ▸ .head _)
  | free p | store p bytes =>
      obtain ⟨heap, _, returned⟩ := bind_eq_ok.mp stepped
      cases returned
      rfl

theorem Machine.run_other {m m' : Machine} {ops : List Op} {j : Nat}
    (other : j ∉ ops.flatMap Op.strings) (ran : m.run ops = .ok m') : m'.strs j = m.strs j := by
  induction ops generalizing m with
  | nil => cases ran; rfl
  | cons op ops ih =>
      rw [List.flatMap_cons, List.mem_append, not_or] at other
      obtain ⟨⟨reply, between⟩, stepped, later⟩ := bind_eq_ok.mp ran
      rw [ih other.2 later, Machine.step_other other.1 stepped]

theorem Machine.run_append {m m' : Machine} {first : List Op} (ran : m.run first = .ok m')
    (second : List Op) : m.run (first ++ second) = m'.run second := by
  induction first generalizing m with
  | nil => cases ran; rfl
  | cons op ops ih =>
      obtain ⟨⟨reply, between⟩, stepped, later⟩ := bind_eq_ok.mp ran
      simp only [List.cons_append, run, stepped, ok_bind, ih later]

/-- `str_deinit` on each of `strings`. -/
theorem Machine.Owned.run_deinit {m : Machine} (owned : m.Owned) (strings : List Nat) :
    ∃ m', m.run (strings.map fun i => .deinit (some i)) = .ok m' ∧ m'.Owned ∧
      m'.detached = m.detached ∧
      ∀ j, (j ∈ strings ∨ m.strs j = .empty) → m'.strs j = .empty := by
  induction strings generalizing m with
  | nil =>
      refine ⟨m, rfl, owned, rfl, fun j empty => ?_⟩
      cases empty with
      | inl listed => cases listed
      | inr empty => exact empty
  | cons i strings ih =>
      obtain ⟨c, released, str, frame⟩ := deinit_spec (owned.wellFormed i)
      have wf : WellFormed c := .empty (by rw [str]; rfl) (by rw [str]; rfl) (by rw [str]; rfl)
      obtain ⟨m', ran, owned', detached, empty⟩ := ih (owned.put wf frame)
      refine ⟨m', ?_, owned', detached, fun j vacant => empty j ?_⟩
      · simp only [List.map_cons, run, step, released, ok_bind, ran]
      · by_cases same : j = i
        · subst same
          exact .inr ((Function.update_self _ _ _).trans str)
        · rw [put_other same]
          cases vacant with
          | inl listed => exact .inl ((List.mem_cons.mp listed).resolve_left same)
          | inr vacant => exact .inr vacant

/-- `free` on each detached buffer. -/
theorem Machine.Owned.run_free {m : Machine} (owned : m.Owned) (ps : List Ptr)
    (all : m.detached = ps) :
    ∃ m', m.run (ps.map fun p => .free (some p)) = .ok m' ∧ m'.Owned ∧ m'.strs = m.strs ∧
      m'.detached = [] := by
  induction ps generalizing m with
  | nil => exact ⟨m, rfl, owned, rfl, all⟩
  | cons p ps ih =>
      obtain ⟨heap, freed, owned'⟩ := owned.free (p := p) (by rw [all]; exact .head _)
      have distinct : (m.detached.map Ptr.obj).Nodup := owned.distinct
      rw [all, List.map_cons, List.nodup_cons] at distinct
      have rest : m.detached.filter (fun q => some q ≠ some p) = ps := by
        have kept : ∀ q ∈ ps, decide (some q ≠ some p) = true := by
          intro q member
          refine decide_eq_true fun same => distinct.1 ?_
          rw [← Option.some.inj same]
          exact List.mem_map_of_mem member
        rw [all, List.filter_cons_of_neg (by simp), List.filter_eq_self.mpr kept]
      obtain ⟨m', ran, owned'', strs, detached⟩ := ih owned' rest
      refine ⟨m', ?_, owned'', strs, detached⟩
      simp only [List.map_cons, run, step, freed, ok_bind, ran]

/-- The allocated blocks are the buffers of strings with room and the detached
buffers, each of them once. -/
structure Machine.BlocksOwned (m : Machine) : Prop where
  exactly : ∀ id, (∃ o, m.heap.objs id = some o ∧ o.allocated = true) ↔
    (∃ i p, 0 < (m.strs i).cap ∧ (m.strs i).buf = some p ∧ p.obj = id) ∨
      ∃ p ∈ m.detached, p.obj = id
  strings : ∀ i j p q, (m.strs i).buf = some p → (m.strs j).buf = some q → p.obj = q.obj → i = j
  detached : (m.detached.map Ptr.obj).Nodup
  apart : ∀ i p q, (m.strs i).buf = some p → q ∈ m.detached → p.obj ≠ q.obj

theorem Machine.Owned.blocksOwned {m : Machine} (owned : m.Owned) : m.BlocksOwned where
  exactly id := by
    constructor
    · intro ⟨o, live, allocated⟩
      cases owned.covered id o live allocated with
      | inr given => exact .inr given
      | inl string =>
          obtain ⟨i, p, buf, same⟩ := string
          refine .inl ⟨i, p, ?_, buf, same⟩
          cases owned.wellFormed i with
          | empty unowned _ _ =>
              rw [show (m.strs i).buf = none from unowned] at buf
              cases buf
          | owned holds inside _ =>
              show 0 < (m.cell i).str.cap
              rw [holds.cap]
              exact Nat.lt_of_le_of_lt (Nat.zero_le _) inside
    · intro owner
      cases owner with
      | inl string =>
          obtain ⟨i, p, _, buf, same⟩ := string
          exact (owned.wellFormed i).designates_live ⟨p, buf, same⟩
      | inr given =>
          obtain ⟨p, member, rfl⟩ := given
          obtain ⟨o, live, allocated, _⟩ := owned.blocks p member
          exact ⟨o, live, allocated⟩
  strings i j p q first second same := owned.separate i j p.obj ⟨p, first, rfl⟩ ⟨q, second, same.symm⟩
  detached := owned.distinct
  apart i p q buf member same := owned.given q member i ⟨p, buf, same⟩

/-- `str_deinit` on every string a run named and `free` on every buffer it detached. -/
def Machine.cleanup (m : Machine) (ops : List Op) : List Op :=
  (ops.flatMap Op.strings).map (fun i => .deinit (some i)) ++
    m.detached.map fun p => .free (some p)

/-- Runs from empty strings own every block they allocate, no block is released or
used after its release, and cleaning up leaves none. -/
theorem run_owns_blocks (m : Machine) (initial : m.Initial) (ops : List Op)
    (legal : LegalRun m ops) :
    ∃ m', m.run ops = .ok m' ∧ m'.BlocksOwned ∧
      ∃ m'', m'.run (m'.cleanup ops) = .ok m'' ∧
        ∀ id o, m''.heap.objs id = some o → o.allocated = false := by
  obtain ⟨m', ran, owned⟩ := Machine.run_owned initial.owned ops legal
  obtain ⟨released, ran', owned', detached, empty⟩ :=
    owned.run_deinit (ops.flatMap Op.strings)
  obtain ⟨m'', ran'', owned'', strs, none⟩ := owned'.run_free m'.detached detached
  refine ⟨m', ran, owned.blocksOwned, m'', (Machine.run_append ran' _).trans ran'', ?_⟩
  intro id o live
  refine Bool.eq_false_iff.mpr fun allocated => ?_
  cases owned''.covered id o live allocated with
  | inl string =>
      obtain ⟨i, designated⟩ := string
      have vacant : m''.strs i = .empty := by
        rw [strs]
        refine empty i ?_
        by_cases named : i ∈ ops.flatMap Op.strings
        · exact .inl named
        · exact .inr ((Machine.run_other named ran).trans (initial.strs i))
      rw [vacant] at designated
      exact empty_not_designates id designated
  | inr given =>
      obtain ⟨p, member, _⟩ := given
      rw [none] at member
      cases member

/-- A detached buffer beside a string that is still in use. -/
theorem run_owns_blocks_detached :
    ∃ m', (Machine.start fun n => some ⟨64 * (n + 1), fun _ => 0xCC⟩).run
        [.mutate (some 0) (.appendChar 97), .detach (some 0),
          .mutate (some 0) (.appendChar 98)] = .ok m' ∧ m'.BlocksOwned ∧
      ∃ m'', m'.run (m'.cleanup [.mutate (some 0) (.appendChar 97), .detach (some 0),
          .mutate (some 0) (.appendChar 98)]) = .ok m'' ∧
        ∀ id o, m''.heap.objs id = some o → o.allocated = false := by
  refine run_owns_blocks _ (Machine.start_initial _) _
    ⟨⟨trivial, ?_⟩, fun _ _ _ => ⟨trivial, fun _ _ _ => ⟨⟨trivial, ?_⟩, fun _ _ _ => trivial⟩⟩⟩
  · intro s copied
    cases copied
  · intro s copied
    cases copied

end AgencC.Str
