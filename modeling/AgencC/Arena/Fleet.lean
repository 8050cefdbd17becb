import AgencC.Arena.Adapter
import AgencC.Arena.Tower

/-! Several arenas over one parent, each with a client of its own, in any interleaving of their
calls. -/

set_option autoImplicit false

namespace AgencC.Arena

open Library

variable {σ : Type}

/-- An arena and the books of its client, apart from the storage that all share. -/
structure Resident (σ : Type) where
  arena : ArenaT σ
  blocks : Blocks
  books : Books

structure Fleet (σ : Type) where
  world : World σ
  residents : List (Resident σ)

/-- A new arena, a call of one that there is, or what others do with the parent. -/
inductive FleetOp (σ : Type) where
  | init (contents : Nat → UInt8)
  | initSized (minBlock maxBlock : Nat) (contents : Nat → UInt8)
  | own (i : Nat) (op : Op σ)
  | others (world : World σ)

def Resident.session (world : World σ) (r : Resident σ) : Session σ where
  state := { arena := r.arena, blocks := r.blocks, world }
  books := r.books

def Session.resident (s : Session σ) : Resident σ where
  arena := s.state.arena
  blocks := s.state.blocks
  books := s.books

/-- The blocks of an arena. -/
def Resident.regions (r : Resident σ) : List Region :=
  r.blocks.entries.map fun e => ⟨e.1, blockHdr + e.2.cap⟩

namespace Fleet

def regions (f : Fleet σ) : List Region := f.residents.flatMap Resident.regions

/-- All that the clients have. -/
def holdings (f : Fleet σ) : List Span := f.residents.flatMap fun r => r.books.live

/-- A further arena. -/
def join (f : Fleet σ) (state : State σ) (contents : Nat → UInt8) : Fleet σ :=
  { f with residents := f.residents ++ [Session.resident { state, books := .start contents }] }

section
variable (build : Build) (parent : AllocT σ)

def step (f : Fleet σ) : FleetOp σ → Except Fault (Nat × Fleet σ)
  | .init contents => .ok (0, f.join (Arena.init parent f.world) contents)
  | .initSized minBlock maxBlock contents =>
      .ok (0, f.join (Arena.initSized parent minBlock maxBlock f.world).2 contents)
  | .own i op =>
      match f.residents[i]? with
      | none => .ok (0, f)
      | some r => do
          let (ptr, s) ← (r.session f.world).step build op
          .ok (ptr, { world := s.state.world, residents := f.residents.set i s.resident })
  | .others world => .ok (0, { f with world })

def run (f : Fleet σ) : List (FleetOp σ) → Except Fault (List Nat × Fleet σ)
  | [] => .ok ([], f)
  | op :: ops => do
      let (ptr, f) ← f.step build parent op
      let (ptrs, f) ← f.run ops
      .ok (ptr :: ptrs, f)

end

end Fleet

/-- The arena that a call is of. -/
def FleetOp.index : FleetOp σ → Option Nat
  | .own i _ => some i
  | _ => none

/-- A client makes calls on its own arena that keep the contract, and others leave alone what the
arenas hold. -/
def FleetOp.Legal (Out : World σ → List Region → Prop) (f : Fleet σ) : FleetOp σ → Prop
  | .init _ | .initSized _ _ _ => True
  | .own i op => ∀ r, f.residents[i]? = some r → op.Mine [] (r.session f.world)
  | .others world => Out world f.regions ∧ f.world.Keeps f.regions world

section
variable (build : Build) (parent : AllocT σ) (Out : World σ → List Region → Prop)

/-- Whatever legal calls lead to, from no arena on. -/
inductive Fleet.Reached : Fleet σ → Prop where
  | empty (world : World σ) (out : Out world []) : Reached { world, residents := [] }
  | step {f f' : Fleet σ} {op : FleetOp σ} {ptr : Nat} (reached : Reached f)
      (legal : op.Legal Out f) (ran : f.step build parent op = .ok (ptr, f')) : Reached f'

/-- All arenas are in order, and the parent has given out the blocks of all of them. -/
structure Fleet.Afloat (f : Fleet σ) : Prop where
  growing : ∀ r ∈ f.residents, r.arena.fixed = false
  settled : ∀ r ∈ f.residents, (r.session f.world).Settled build parent fun _ _ => True
  recorded : ∀ r ∈ f.residents, ∀ x ∈ r.books.live, (r.session f.world).Recorded x
  out : Out f.world f.regions

end

section
variable {build : Build} {parent : AllocT σ} {Out : World σ → List Region → Prop}

/-- A parent keeps its contract towards one holder of blocks whatever others hold, and leaves that
alone. -/
theorem AllocT.Conforms.beside (conforms : parent.Conforms Out) (others : List Region)
    (start : World σ) :
    parent.Conforms fun w rs => Out w (rs ++ others) ∧ start.Keeps others w where
  perm out same := ⟨conforms.perm out.1 (same.append_right _), out.2⟩
  apart out := (List.pairwise_append.mp (conforms.apart out.1)).1
  inside out r member := conforms.inside out.1 r (List.mem_append_left _ member)
  aligned out r member := conforms.aligned out.1 r (List.mem_append_left _ member)
  written {w w' rs} out inside := by
    obtain ⟨out, keeps⟩ := out
    have apart := (List.pairwise_append.mp (conforms.apart out)).2.2
    refine ⟨conforms.written out ⟨inside.parent, fun q outside => ?_, fun q outside => ?_⟩,
      keeps.trans fun r member q covers => ?_⟩
    · exact inside.bytes q fun r member => outside r (List.mem_append_left _ member)
    · exact inside.poisoned q fun r member => outside r (List.mem_append_left _ member)
    · have away : ∀ r' ∈ rs, ¬ r'.Covers q := fun r' listed =>
        (apart r' listed r member).symm.not_covers covers
      exact ⟨inside.bytes q away, inside.poisoned q away⟩
  xalloc {w rs size} out some small := by
    obtain ⟨ptr, w', ran, keeps, grants⟩ := conforms.xalloc out.1 some small
    have kept : start.Keeps others w' :=
      out.2.trans fun r member => keeps r (List.mem_append_right _ member)
    exact ⟨ptr, w', ran, fun r member => keeps r (List.mem_append_left _ member),
      grants.imp (fun refused => ⟨refused.1, refused.2, kept⟩)
        fun granted => ⟨granted.1, granted.2, kept⟩⟩
  xfree {w r rs} out := by
    obtain ⟨w', ran, keeps, out'⟩ := conforms.xfree out.1
    exact ⟨w', ran, fun r member => keeps r (List.mem_append_left _ member), out',
      out.2.trans fun r member => keeps r (List.mem_append_right _ member)⟩

theorem initSized_bare (parent : AllocT σ) (minBlock maxBlock : Nat) (world : World σ) :
    (initSized parent minBlock maxBlock world).2.world = world ∧
      (initSized parent minBlock maxBlock world).2.regions = [] := by
  unfold initSized
  dsimp only
  split
  · unfold State.fail
    split <;> exact ⟨rfl, rfl⟩
  · exact ⟨rfl, rfl⟩

/-- An entry of a list, and the rest on both sides of it. -/
theorem exists_split {α : Type} {l : List α} {i : Nat} {a : α} (found : l[i]? = some a) :
    ∃ before after, l = before ++ a :: after ∧ (∀ b, l.set i b = before ++ b :: after) ∧
      ∀ j, j ≠ i → ∀ b, l[j]? = some b → b ∈ before ++ after := by
  induction l generalizing i with
  | nil => cases found
  | cons c l ih =>
      cases i with
      | zero =>
          cases found
          refine ⟨[], l, rfl, fun _ => rfl, fun j other b listed => ?_⟩
          cases j with
          | zero => exact absurd rfl other
          | succ j => exact List.mem_of_getElem? listed
      | succ i =>
          obtain ⟨before, after, rfl, replaced, rest⟩ := ih found
          refine ⟨c :: before, after, rfl, fun b => congrArg (c :: ·) (replaced b),
            fun j other b listed => ?_⟩
          cases j with
          | zero =>
              cases listed
              exact .head _
          | succ j => exact .tail _ (rest j (fun same => other (congrArg Nat.succ same)) b listed)

namespace Fleet.Afloat

/-- The blocks of one arena, and those of the others. -/
theorem parted (conforms : parent.Conforms Out) {world : World σ} {before after : List (Resident σ)}
    {r : Resident σ} :
    Out world ((before ++ r :: after).flatMap Resident.regions) ↔
      Out world (r.regions ++ (before ++ after).flatMap Resident.regions) := by
  rw [List.flatMap_append, List.flatMap_cons, List.flatMap_append]
  have same := List.perm_append_comm_assoc (before.flatMap Resident.regions) r.regions
    (after.flatMap Resident.regions)
  exact ⟨fun out => conforms.perm out same, fun out => conforms.perm out same.symm⟩

/-- An arena of a fleet is in order whatever the others hold. -/
theorem beside (conforms : parent.Conforms Out) {world : World σ} {before after : List (Resident σ)}
    {r : Resident σ} (afloat : Afloat build parent Out ⟨world, before ++ r :: after⟩) :
    (r.session world).Settled build parent fun w rs =>
      Out w (rs ++ (before ++ after).flatMap Resident.regions) ∧
        world.Keeps ((before ++ after).flatMap Resident.regions) w := by
  have member : r ∈ before ++ r :: after := List.mem_append_right _ (.head _)
  have growing : (r.session world).state.arena.fixed = false := afloat.growing r member
  have out := (parted conforms).mp afloat.out
  exact (afloat.settled r member).rehoused growing (.refl _ _) fun rs same =>
    ⟨conforms.perm out (same.append_right _), .refl _ _⟩

/-- A call of one client keeps all arenas in order, and the blocks of the others as they were. -/
theorem own (conforms : parent.Conforms Out) {world : World σ} {before after : List (Resident σ)}
    {r : Resident σ} (afloat : Afloat build parent Out ⟨world, before ++ r :: after⟩) {op : Op σ}
    (mine : op.Mine [] (r.session world)) {ptr : Nat} {s : Session σ}
    (ran : (r.session world).step build op = .ok (ptr, s)) :
    Afloat build parent Out ⟨s.state.world, before ++ s.resident :: after⟩ ∧
      world.Keeps ((before ++ after).flatMap Resident.regions) s.state.world := by
  have lawful := conforms.beside ((before ++ after).flatMap Resident.regions) world
  have member : r ∈ before ++ r :: after := List.mem_append_right _ (.head _)
  have growing : (r.session world).state.arena.fixed = false := afloat.growing r member
  have settled := afloat.beside conforms
  have legal := mine.legal lawful settled
  have settled' := (settled.step lawful legal ran).1
  have growing' := settled.step_growing lawful growing legal ran
  obtain ⟨out', keeps⟩ := settled'.out lawful growing'
  have rest : ∀ {q}, q ∈ before ++ after → q ∈ before ++ r :: after ∧
      world.Keeps q.regions s.state.world := by
    intro q listed
    refine ⟨?_, fun r' held => keeps r' (List.mem_flatMap.mpr ⟨q, listed, held⟩)⟩
    exact (List.mem_append.mp listed).elim (List.mem_append_left _)
      fun later => List.mem_append_right _ (.tail _ later)
  refine ⟨?_, keeps⟩
  have each : ∀ {P : Resident σ → Prop}, P s.resident → (∀ q ∈ before ++ after, P q) →
      ∀ q ∈ before ++ s.resident :: after, P q := by
    intro P this others q listed
    cases List.mem_append.mp listed with
    | inl earlier => exact others q (List.mem_append_left _ earlier)
    | inr later =>
        cases later with
        | head => exact this
        | tail _ later => exact others q (List.mem_append_right _ later)
  exact
    { growing := each growing' fun q listed => afloat.growing q (rest listed).1
      settled := each (settled'.rehoused growing' (.refl _ _) fun _ _ => trivial) fun q listed =>
        (afloat.settled q (rest listed).1).rehoused (afloat.growing q (rest listed).1)
          (rest listed).2 fun _ _ => trivial
      recorded := by
        refine each (fun x live => ?_) fun q listed x live p covers => ?_
        · refine mine.recorded lawful settled (fun y live => ?_) ran x
            (Session.mem_besides.mpr ⟨live, List.not_mem_nil⟩)
          exact afloat.recorded r member y (Session.mem_besides.mp live).1
        · obtain ⟨earlier, still⟩ := rest listed
          have same := ((afloat.settled q earlier).keeps still live covers).1
          exact same.trans (afloat.recorded q earlier x live p covers)
      out := (parted conforms).mpr out' }

variable {f : Fleet σ}

/-- A new arena has no blocks yet. -/
theorem join (conforms : parent.Conforms Out) (afloat : f.Afloat build parent Out)
    {s : Session σ} (world : s.state.world = f.world) (empty : s.state.regions = [])
    (growing : s.state.arena.fixed = false) (unused : s.books.live = [])
    (started : ∀ {Given : World σ → List Region → Prop}, parent.Conforms Given → Given f.world [] →
      s.Settled build parent Given) :
    Afloat build parent Out { f with residents := f.residents ++ [s.resident] } := by
  have settled := started (conforms.beside f.regions f.world) ⟨afloat.out, .refl _ _⟩
  have alone : (s.resident.session f.world).Settled build parent fun _ _ => True := by
    have same : s.resident.session f.world = s := by
      rw [← world]
      rfl
    rw [same]
    exact settled.rehoused growing (.refl _ _) fun _ _ => trivial
  have none : s.resident.regions = [] := empty
  refine
    { growing := List.forall_mem_append.mpr ⟨afloat.growing, List.forall_mem_singleton.mpr growing⟩
      settled := List.forall_mem_append.mpr ⟨afloat.settled, List.forall_mem_singleton.mpr alone⟩
      recorded := List.forall_mem_append.mpr
        ⟨afloat.recorded, List.forall_mem_singleton.mpr fun x member => ?_⟩
      out := ?_ }
  · have member : x ∈ s.books.live := member
    rw [unused] at member
    cases member
  · change Out f.world (List.flatMap Resident.regions (f.residents ++ [s.resident]))
    rw [List.flatMap_append, List.flatMap_singleton, none, List.append_nil]
    exact afloat.out

/-- Every legal call keeps all arenas in order. -/
theorem step (conforms : parent.Conforms Out) (afloat : f.Afloat build parent Out)
    {op : FleetOp σ} (legal : op.Legal Out f) {ptr : Nat} {f' : Fleet σ}
    (ran : f.step build parent op = .ok (ptr, f')) : f'.Afloat build parent Out := by
  cases op with
  | init contents =>
      cases ran
      exact afloat.join conforms (s := ⟨Arena.init parent f.world, .start contents⟩) rfl rfl rfl rfl
        fun lawful out => (Session.Started.init f.world contents out).settled lawful
  | initSized minBlock maxBlock contents =>
      cases ran
      obtain ⟨world, empty⟩ := initSized_bare parent minBlock maxBlock f.world
      exact afloat.join conforms
        (s := ⟨(initSized parent minBlock maxBlock f.world).2, .start contents⟩) world empty
        (initSized_fixed _ _ _ _) rfl fun lawful out =>
          (Session.Started.sized minBlock maxBlock f.world contents out).settled lawful
  | own i op =>
      rw [Fleet.step] at ran
      cases found : f.residents[i]? with
      | none =>
          rw [found] at ran
          cases ran
          exact afloat
      | some r =>
          rw [found] at ran
          obtain ⟨⟨_, s⟩, called, same⟩ := bind_eq_ok.mp ran
          cases same
          obtain ⟨world, residents⟩ := f
          obtain ⟨before, after, rfl, replaced, _⟩ := exists_split found
          dsimp only
          rw [replaced]
          exact (afloat.own conforms (legal r found) called).1
  | others world =>
      cases ran
      obtain ⟨out, keeps⟩ := legal
      have mine : ∀ r ∈ f.residents, f.world.Keeps r.regions world := fun r member r' held =>
        keeps r' (List.mem_flatMap.mpr ⟨r, member, held⟩)
      exact
        { growing := afloat.growing
          settled := fun r member => (afloat.settled r member).rehoused (afloat.growing r member)
            (mine r member) fun _ _ => trivial
          recorded := fun r member x live q covers =>
            ((afloat.settled r member).keeps (mine r member) live covers).1.trans
              (afloat.recorded r member x live q covers)
          out := out }

/-- A legal call returns, but for the depth check of `arena_temp_end`. -/
theorem total (conforms : parent.Conforms Out) (afloat : f.Afloat build parent Out)
    {op : FleetOp σ} (legal : op.Legal Out f) :
    (∃ ptr f', f.step build parent op = .ok (ptr, f')) ∨
      f.step build parent op = .error (.assertion "temp.depth == a->temp_depth") := by
  cases op with
  | init contents | initSized minBlock maxBlock contents | others world => exact .inl ⟨0, _, rfl⟩
  | own i op =>
      rw [Fleet.step]
      cases found : f.residents[i]? with
      | none => exact .inl ⟨0, f, rfl⟩
      | some r =>
          obtain ⟨world, residents⟩ := f
          obtain ⟨before, after, rfl, _⟩ := exists_split found
          have lawful := conforms.beside ((before ++ after).flatMap Resident.regions) world
          have settled := afloat.beside conforms
          cases settled.total lawful ((legal r found).legal lawful settled) with
          | inl returned =>
              obtain ⟨ptr, s, ran⟩ := returned
              exact .inl ⟨ptr, _, bind_eq_ok.mpr ⟨_, ran, rfl⟩⟩
          | inr stopped => exact .inr (congrArg (· >>= _) stopped)

/-- An arena that is given up has no blocks. -/
theorem deinit (conforms : parent.Conforms Out) (afloat : f.Afloat build parent Out) {i : Nat}
    {r : Resident σ} (found : f.residents[i]? = some r) :
    ∃ s : Session σ, f.step build parent (.own i .deinit) =
        .ok (0, { world := s.state.world, residents := f.residents.set i s.resident }) ∧
      s.resident.regions = [] := by
  obtain ⟨world, residents⟩ := f
  have found : residents[i]? = some r := found
  obtain ⟨before, after, rfl, replaced, _⟩ := exists_split found
  have lawful := conforms.beside ((before ++ after).flatMap Resident.regions) world
  obtain ⟨t, shows, kept, _⟩ := (afloat.beside conforms).account
  obtain ⟨s, _, ran, _, _, _, empty⟩ := Session.step_deinit lawful shows kept
  obtain ⟨contents, again, _⟩ := Session.step_recall r.books.contents ran
  refine ⟨s.recall contents, ?_, empty⟩
  rw [Fleet.step]
  dsimp only
  rw [found]
  exact bind_eq_ok.mpr ⟨_, again, rfl⟩

/-- A legal call is none of the business of the other arenas. -/
theorem spares (conforms : parent.Conforms Out) (afloat : f.Afloat build parent Out)
    {op : FleetOp σ} (legal : op.Legal Out f) {ptr : Nat} {f' : Fleet σ}
    (ran : f.step build parent op = .ok (ptr, f')) {j : Nat} {q : Resident σ}
    (found : f.residents[j]? = some q) (other : op.index ≠ some j) :
    f'.residents[j]? = some q ∧ f.world.Keeps q.regions f'.world := by
  have member := List.mem_of_getElem? found
  cases op with
  | init contents | initSized minBlock maxBlock contents =>
      cases ran
      refine ⟨(List.getElem?_append_left ?_).trans found, .refl _ _⟩
      exact (List.getElem?_eq_some_iff.mp found).1
  | own i op =>
      rw [Fleet.step] at ran
      cases mine : f.residents[i]? with
      | none =>
          rw [mine] at ran
          cases ran
          exact ⟨found, .refl _ _⟩
      | some r =>
          rw [mine] at ran
          obtain ⟨⟨_, s⟩, called, same⟩ := bind_eq_ok.mp ran
          cases same
          have apart : j ≠ i := fun same => other (congrArg some same.symm)
          refine ⟨(List.getElem?_set_ne apart.symm).trans found, ?_⟩
          obtain ⟨world, residents⟩ := f
          obtain ⟨before, after, rfl, _, rest⟩ := exists_split mine
          obtain ⟨_, keeps⟩ := afloat.own conforms (legal r mine) called
          exact fun r' held =>
            keeps r' (List.mem_flatMap.mpr ⟨q, rest j apart q found, held⟩)
  | others world =>
      cases ran
      exact ⟨found, fun r held => legal.2 r (List.mem_flatMap.mpr ⟨q, member, held⟩)⟩

/-- What is live lies in the blocks of its own arena, and the blocks lie apart. -/
theorem live_apart {world : World σ} {residents : List (Resident σ)}
    (settled : ∀ r ∈ residents, (r.session world).Settled build parent fun _ _ => True)
    (apart : (residents.flatMap Resident.regions).Pairwise Region.Apart) :
    ((residents.flatMap fun r => r.books.live).map Span.extent).Pairwise Region.Apart := by
  induction residents with
  | nil => exact .nil
  | cons r residents ih =>
      rw [List.flatMap_cons, List.pairwise_append] at apart
      obtain ⟨_, later, across⟩ := apart
      obtain ⟨here, rest⟩ := List.forall_mem_cons.mp settled
      rw [List.flatMap_cons, List.map_append, List.pairwise_append]
      refine ⟨?_, ih rest later, fun e mine e' others => ?_⟩
      · obtain ⟨a, _, kept⟩ := here
        exact kept.live_apart
      · obtain ⟨x, live, rfl⟩ := List.mem_map.mp mine
        obtain ⟨y, listed, rfl⟩ := List.mem_map.mp others
        obtain ⟨q, member, live'⟩ := List.mem_flatMap.mp listed
        obtain ⟨a, held, within⟩ := here.lies live
        obtain ⟨b, held', within'⟩ := (rest q member).lies live'
        exact (across a held b (List.mem_flatMap.mpr ⟨q, member, held'⟩)).mono within within'

theorem tidy (afloat : f.Afloat build parent Out) {r : Resident σ} (member : r ∈ f.residents) :
    (r.session f.world).Tidy build [] := by
  obtain ⟨a, shows, kept⟩ := afloat.settled r member
  exact
    { placed := ⟨a.chain, a.free, shows.lists, fun x => kept.live_placed⟩
      aligned := fun x live => (kept.lie.aligned x live).1
      recorded := fun x live => afloat.recorded r member x (Session.mem_besides.mp live).1 }

/-- Arenas are given up in any order. -/
theorem close (conforms : parent.Conforms Out) (afloat : f.Afloat build parent Out)
    (order : List Nat) : ∃ ptrs f',
      f.run build parent (order.map fun i => .own i .deinit) = .ok (ptrs, f') ∧
        f'.Afloat build parent Out ∧ f'.residents.length = f.residents.length ∧
        ∀ i, i ∈ order ∨ (∀ r, f.residents[i]? = some r → r.regions = []) →
          ∀ r, f'.residents[i]? = some r → r.regions = [] := by
  induction order generalizing f with
  | nil => exact ⟨[], f, rfl, afloat, rfl, fun i either => either.resolve_left List.not_mem_nil⟩
  | cons i order ih =>
      have legal : FleetOp.Legal Out f (.own i .deinit) := fun r _ =>
        ⟨trivial, fun _ given => (nomatch given), .inr rfl⟩
      have stepped : ∃ middle, f.step build parent (.own i .deinit) = .ok (0, middle) ∧
          middle.residents.length = f.residents.length ∧
          (∀ r, middle.residents[i]? = some r → r.regions = []) ∧
          ∀ j, j ≠ i → middle.residents[j]? = f.residents[j]? := by
        cases found : f.residents[i]? with
        | none =>
            refine ⟨f, by rw [Fleet.step, found], rfl, fun r listed => ?_, fun _ _ => rfl⟩
            cases found.symm.trans listed
        | some r =>
            obtain ⟨s, ran, empty⟩ := afloat.deinit conforms found
            refine ⟨_, ran, List.length_set, fun r' listed => ?_, fun j other =>
              List.getElem?_set_ne other.symm⟩
            have inside := (List.getElem?_eq_some_iff.mp found).1
            cases (List.getElem?_set_self inside).symm.trans listed
            exact empty
      obtain ⟨middle, ran, length, gone, others⟩ := stepped
      obtain ⟨ptrs, f', looped, after, same, empty⟩ := ih (afloat.step conforms legal ran)
      refine ⟨0 :: ptrs, f', bind_eq_ok.mpr ⟨_, ran, bind_eq_ok.mpr ⟨_, looped, rfl⟩⟩, after,
        same.trans length, fun j either => empty j ?_⟩
      by_cases here : j = i
      · exact .inr (here ▸ gone)
      · cases either with
        | inl listed => exact .inl ((List.mem_cons.mp listed).resolve_left here)
        | inr none => exact .inr fun r listed => none r ((others j here).symm.trans listed)

end Fleet.Afloat

/-- Arenas that do not meet: no two of them share a block, no two clients an allocation, each client
has what it last saw, and a legal call returns and leaves the other arenas alone. -/
structure Fleet.Orderly (build : Build) (parent : AllocT σ) (Out : World σ → List Region → Prop)
    (f : Fleet σ) : Prop where
  tidy : ∀ r ∈ f.residents, (r.session f.world).Tidy build []
  blocks : f.regions.Pairwise Region.Apart
  apart : (f.holdings.map Span.extent).Pairwise Region.Apart
  total : ∀ op : FleetOp σ, op.Legal Out f → (∃ ptr f', f.step build parent op = .ok (ptr, f')) ∨
    f.step build parent op = .error (.assertion "temp.depth == a->temp_depth")
  spares : ∀ op : FleetOp σ, op.Legal Out f → ∀ ptr f', f.step build parent op = .ok (ptr, f') →
    ∀ j q, f.residents[j]? = some q → op.index ≠ some j →
      f'.residents[j]? = some q ∧ f.world.Keeps q.regions f'.world

namespace Fleet.Reached

variable {f : Fleet σ}

theorem afloat (conforms : parent.Conforms Out) (reached : f.Reached build parent Out) :
    f.Afloat build parent Out := by
  induction reached with
  | empty world out =>
      exact ⟨List.forall_mem_nil _, List.forall_mem_nil _, List.forall_mem_nil _, out⟩
  | step _ legal ran ih => exact ih.step conforms legal ran

theorem orderly (conforms : parent.Conforms Out) (reached : f.Reached build parent Out) :
    f.Orderly build parent Out := by
  have afloat := reached.afloat conforms
  have blocks := conforms.apart afloat.out
  exact
    { tidy := fun r => afloat.tidy
      blocks := blocks
      apart := Fleet.Afloat.live_apart afloat.settled blocks
      total := fun op legal => afloat.total conforms legal
      spares := fun op legal ptr f' ran j q => afloat.spares conforms legal ran }

/-- Given up in any order, the arenas leave their parent with nothing of theirs. -/
theorem closes (conforms : parent.Conforms Out) (reached : f.Reached build parent Out)
    {order : List Nat} (all : ∀ i < f.residents.length, i ∈ order) : ∃ ptrs f',
      f.run build parent (order.map fun i => .own i .deinit) = .ok (ptrs, f') ∧
        Out f'.world [] := by
  obtain ⟨ptrs, f', ran, after, length, empty⟩ := (reached.afloat conforms).close conforms order
  refine ⟨ptrs, f', ran, ?_⟩
  have none : f'.regions = [] := by
    refine List.flatMap_eq_nil_iff.mpr fun r member => ?_
    obtain ⟨i, listed⟩ := List.mem_iff_getElem?.mp member
    have inside := (List.getElem?_eq_some_iff.mp listed).1
    exact empty i (.inl (all i (length ▸ inside))) r listed
  exact none ▸ after.out

end Fleet.Reached

end

/-! Over the C library. -/

/-- Any number of arenas over `alloc_libc`, set up and used in any order that is legal, whatever the
C library answers: they do not meet each other or the blocks of others, no call of one is the
business of another, and given up in any order they leave the C library as it was. -/
theorem Fleet.reached_libc {build : Build} {base : World Malloc} {f : Fleet Malloc}
    (reached : f.Reached build allocLibc (LibcLent base)) :
    f.Orderly build allocLibc (LibcLent base) ∧
      (∀ x ∈ f.holdings, ∀ r ∈ base.parent.live, x.extent.Apart r) ∧
      ∀ order : List Nat, (∀ i < f.residents.length, i ∈ order) → ∃ ptrs f',
        f.run build allocLibc (order.map fun i => .own i .deinit) = .ok (ptrs, f') ∧
          f'.world.parent.live.Perm base.parent.live ∧ f'.world.Keeps base.parent.live base := by
  have conforms := allocLibc_conforms base
  have afloat := reached.afloat conforms
  refine ⟨reached.orderly conforms, fun x member r other => ?_, fun order all => ?_⟩
  · obtain ⟨q, listed, live⟩ := List.mem_flatMap.mp member
    obtain ⟨r', held, within⟩ := (afloat.settled q listed).lies live
    have out : Span.block r' ∈ f.regions.map Span.block :=
      List.mem_map_of_mem (List.mem_flatMap.mpr ⟨q, listed, held⟩)
    exact (afloat.out.base_apart out other).mono within (.refl _)
  · obtain ⟨ptrs, f', ran, out⟩ := reached.closes conforms all
    exact ⟨ptrs, f', ran, out.none_left, out.frozen⟩

/-- Two arenas that take blocks in turn. -/
theorem Fleet.reached_libc_two :
    ∃ f : Fleet Malloc, f.residents.length = 2 ∧ f.regions.length = 3 ∧
      f.Orderly .sanitized allocLibc (LibcLent Malloc.wide) := by
  have start : Fleet.Reached .sanitized allocLibc (LibcLent Malloc.wide) _ :=
    .empty Malloc.wide (.start Malloc.wide_sound)
  have legal : ∀ (f : Fleet Malloc) (i size : Nat),
      FleetOp.Legal (LibcLent Malloc.wide) f (.own i (.allocate (.alloc size))) :=
    fun f i size r _ => ⟨Nat.zero_le _, fun _ given => (nomatch given), .inl trivial⟩
  have new : ∀ f : Fleet Malloc,
      FleetOp.Legal (LibcLent Malloc.wide) f (.init fun _ => 0) ∧
        FleetOp.Legal (LibcLent Malloc.wide) f (.initSized 128 512 fun _ => 0) :=
    fun f => ⟨trivial, trivial⟩
  have both := (start.step (new _).1 rfl).step (new _).2 rfl
  have first := both.step (legal _ 0 100) rfl
  have second := first.step (legal _ 1 24) rfl
  have third := second.step (legal _ 0 9000) rfl
  exact ⟨_, rfl, rfl, (Fleet.reached_libc third).1⟩

end AgencC.Arena
