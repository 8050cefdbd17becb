import AgencC.Arena.Books

/-! A client's session with an arena: the calls it makes, and the books it keeps of them. -/

set_option autoImplicit false

namespace AgencC.Arena

open Library

variable {σ : Type}

/-- The calls that allocate, `xalloc` of the adapter among them. -/
inductive Request where
  | alloc (size : Nat)
  | allocZeroed (size : Nat)
  | allocN (count size align : Nat)
  | allocNZeroed (count size align : Nat)
  | memdup (src size : Nat)
  | xalloc (size align : Nat)
  deriving DecidableEq, Repr

def Request.run (build : Build) : Request → State σ → Except Fault (Nat × State σ)
  | .alloc size => Arena.alloc build size
  | .allocZeroed size => Arena.allocZeroed build size
  | .allocN count size align => Arena.allocN build count size align
  | .allocNZeroed count size align => Arena.allocNZeroed build count size align
  | .memdup src size => Arena.memdup build src size
  | .xalloc size align => adapterXalloc build size align

/-- Bytes asked for. -/
def Request.total : Request → Nat
  | .alloc size | .allocZeroed size | .memdup _ size | .xalloc size _ => size
  | .allocN count size _ | .allocNZeroed count size _ => count * size

def Request.align : Request → Nat
  | .alloc _ | .allocZeroed _ | .memdup _ _ => 0
  | .allocN _ _ align | .allocNZeroed _ _ align | .xalloc _ align => align

/-- A public call, or whatever happens elsewhere until the next one: the client writes to
its allocations, and others use the same parent. -/
inductive Op (σ : Type) where
  | allocate (request : Request)
  | realloc (ptr oldSize newSize align : Nat)
  | xrealloc (ptr oldSize newSize align : Nat)
  | xfree (ptr size align : Nat)
  | tempBegin
  | tempEnd
  | reset
  | trim
  | clearError
  | deinit
  | elsewhere (world : World σ)

structure Session (σ : Type) where
  state : State σ
  books : Books

/-! The books after each call. -/

/-- The bytes a client sees after a call that gave it `x`, of which the first `keep` are those
it had at `source`. -/
def carry (contents bytes : Nat → UInt8) (source keep : Nat) (x : Span) : Nat → UInt8 := fun p =>
  if x.addr ≤ p ∧ p < x.addr + x.size then
    if p < x.addr + keep then contents (source + (p - x.addr)) else bytes p
  else contents p

namespace Books

def allocated (ptr size align : Nat) (bytes : Nat → UInt8) (b : Books) : Books :=
  if ptr = 0 then b
  else
    let x : Span := { addr := ptr, size, align }
    b.put (b.scope.add x) (carry b.contents bytes 0 0 x)

def reallocated (ptr oldSize newSize align fresh : Nat) (bytes : Nat → UInt8) (b : Books) : Books :=
  if fresh = 0 then b
  else if ptr = 0 then b.allocated fresh newSize align bytes
  else
    let x : Span := { addr := ptr, size := oldSize, align }
    let y : Span := { addr := fresh, size := newSize, align }
    let contents := carry b.contents bytes ptr (min oldSize newSize) y
    if fresh = ptr then b.put ((b.scope.drop x).add y) contents
    else b.put ((b.scope.add y).abandon x) contents

/-- A free that leaves `used` alone was ignored. -/
def freed (ptr size align : Nat) (ignored : Bool) (b : Books) : Books :=
  if ptr = 0 then b
  else
    let x : Span := { addr := ptr, size, align }
    b.put (if ignored then b.scope.ignore x else b.scope.drop x) b.contents

def begun (temp : TempT) (b : Books) : Books :=
  { b with scope := .empty, outer := (temp, b.scope) :: b.outer }

def ended (outer : Ledger) (rest : Suspended) (b : Books) : Books :=
  { b with scope := outer, outer := rest }

/-- Nothing is allocated, and no scope is open. -/
def closed (b : Books) : Books := { b with scope := .empty, outer := [] }

end Books

section
variable (build : Build)

/-- A call returns NULL where it returns nothing. -/
def Session.step (s : Session σ) : Op σ → Except Fault (Nat × Session σ)
  | .allocate request => do
      let (ptr, state) ← request.run build s.state
      .ok (ptr,
        { state
          books := s.books.allocated ptr request.total request.align state.world.bytes })
  | .realloc ptr oldSize newSize align => do
      let (fresh, state) ← realloc build ptr oldSize newSize align s.state
      .ok (fresh,
        { state
          books := s.books.reallocated ptr oldSize newSize align fresh state.world.bytes })
  | .xrealloc ptr oldSize newSize align => do
      let (fresh, state) ← adapterXrealloc build ptr oldSize newSize align s.state
      .ok (fresh,
        { state
          books := s.books.reallocated ptr oldSize newSize align fresh state.world.bytes })
  | .xfree ptr size align => do
      let state ← adapterXfree build ptr size s.state
      .ok (0,
        { state, books := s.books.freed ptr size align (state.arena.used = s.state.arena.used) })
  | .tempBegin => do
      let (temp, state) ← tempBegin s.state
      .ok (0, { state, books := s.books.begun temp })
  | .tempEnd =>
      match s.books.outer with
      | [] => .ok (0, s)
      | (temp, outer) :: rest => do
          let state ← tempEnd build temp s.state
          .ok (0, { state, books := s.books.ended outer rest })
  | .reset => do
      let state ← reset build s.state
      .ok (0, { state, books := s.books.closed })
  | .trim => do
      let state ← trim build s.state
      .ok (0, { s with state })
  | .clearError => .ok (0, { s with state := clearError s.state })
  | .deinit => do
      let state ← deinit build s.state
      .ok (0, { state, books := s.books.closed })
  | .elsewhere world =>
      .ok (0, { state := { s.state with world }, books := { s.books with contents := world.bytes } })

/-- What a list of calls returns, and leaves. -/
def Session.run (s : Session σ) : List (Op σ) → Except Fault (List Nat × Session σ)
  | [] => .ok ([], s)
  | op :: ops => do
      let (ptr, s) ← s.step build op
      let (ptrs, s) ← s.run ops
      .ok (ptr :: ptrs, s)

/-- Each call is one that may be made in the state it is made in. -/
def Session.Allows (May : Session σ → Op σ → Prop) (s : Session σ) : List (Op σ) → Prop
  | [] => True
  | op :: ops => May s op ∧ ∀ ptr s', s.step build op = .ok (ptr, s') → s'.Allows May ops

end

/-! What a client has to see to. -/

/-- The blocks an arena holds. -/
def State.regions (s : State σ) : List Region :=
  s.blocks.entries.map fun e => ⟨e.1, blockHdr + e.2.cap⟩

/-- The blocks an arena holds, whatever they have consumed. -/
def State.pieces (s : State σ) : List Cell :=
  s.blocks.entries.map fun e => { addr := e.1, cap := e.2.cap, used := 0, oversize := e.2.oversize }

theorem State.regions_eq (s : State σ) : s.regions = s.pieces.map Cell.region := by
  rw [State.pieces, List.map_map]
  rfl

section
variable (Out : World σ → List Region → Prop)

/-- What others do leaves alone what the arena holds, but for the contents and the poison of
live allocations, which are the client's. -/
structure Session.Elsewhere (s : Session σ) (world : World σ) : Prop where
  out : s.state.arena.fixed = false → Out world s.state.regions
  poisoned : ∀ r ∈ s.state.regions, ∀ p, r.Covers p → (∀ x ∈ s.books.live, ¬ x.Covers p) →
    world.poisoned p = s.state.world.poisoned p

/-- A call keeps the contract: what is resized or freed is live in the current scope, with the
size and align it has, and a scope is open where one ends. -/
def Op.Legal (s : Session σ) : Op σ → Prop
  | .allocate request => request.align ≤ sizeMax
  | .realloc ptr oldSize _ align | .xrealloc ptr oldSize _ align =>
      align ≤ sizeMax ∧
        (ptr = 0 ∧ oldSize = 0 ∨ { addr := ptr, size := oldSize, align } ∈ s.books.scope.live)
  | .xfree ptr size align => ptr = 0 ∨ { addr := ptr, size, align } ∈ s.books.scope.live
  | .tempEnd => s.books.outer ≠ []
  | .elsewhere world => s.Elsewhere Out world
  | _ => True

end

variable {build : Build}

theorem Session.Allows.cons {May : Session σ → Op σ → Prop} {op : Op σ} {ops : List (Op σ)}
    {s s' : Session σ} {ptr : Nat} (ran : s.step build op = .ok (ptr, s')) (may : May s op)
    (later : s'.Allows build May ops) : s.Allows build May (op :: ops) := by
  refine ⟨may, fun _ _ again => ?_⟩
  cases ran.symm.trans again
  exact later

theorem Session.Allows.imp {May May' : Session σ → Op σ → Prop} {ops : List (Op σ)} {s : Session σ}
    (allowed : s.Allows build May ops) (weaker : ∀ s, ∀ op ∈ ops, May s op → May' s op) :
    s.Allows build May' ops := by
  induction ops generalizing s with
  | nil => trivial
  | cons op ops ih =>
      refine ⟨weaker s op (.head _) allowed.1, fun ptr s' ran => ?_⟩
      exact ih (allowed.2 ptr s' ran) fun s op member => weaker s op (.tail _ member)

theorem Session.run_append {ops : List (Op σ)} {s s' : Session σ} {ptrs : List Nat}
    (ran : s.run build ops = .ok (ptrs, s')) (later : List (Op σ)) :
    s.run build (ops ++ later) =
      s'.run build later >>= fun rest => .ok (ptrs ++ rest.1, rest.2) := by
  induction ops generalizing s ptrs with
  | nil =>
      cases ran
      rw [List.nil_append]
      cases s'.run build later <;> rfl
  | cons op ops ih =>
      obtain ⟨⟨ptr, middle⟩, first, rest⟩ := bind_eq_ok.mp ran
      obtain ⟨⟨others, last⟩, looped, same⟩ := bind_eq_ok.mp rest
      cases same
      rw [List.cons_append, Session.run, first, ok_bind]
      dsimp only
      rw [ih looped]
      cases s'.run build later <;> rfl

/-- What each allowed call preserves, an allowed run preserves. -/
theorem Session.run_induction {May : Session σ → Op σ → Prop} (Holds : Session σ → Prop)
    (step : ∀ {s op ptr s'}, Holds s → May s op → s.step build op = .ok (ptr, s') → Holds s')
    {ops : List (Op σ)} {s s' : Session σ} {ptrs : List Nat} (start : Holds s)
    (allowed : s.Allows build May ops) (ran : s.run build ops = .ok (ptrs, s')) : Holds s' := by
  induction ops generalizing s ptrs with
  | nil =>
      cases ran
      exact start
  | cons op ops ih =>
      obtain ⟨⟨ptr, middle⟩, first, rest⟩ := bind_eq_ok.mp ran
      obtain ⟨⟨later, last⟩, looped, same⟩ := bind_eq_ok.mp rest
      cases same
      exact ih (step start allowed.1 first) (allowed.2 ptr middle first) looped

/-- Where each allowed call returns, an allowed run does. -/
theorem Session.run_progress {May : Session σ → Op σ → Prop} (Holds : Session σ → Prop)
    (step : ∀ {s op}, Holds s → May s op →
      ∃ ptr s', s.step build op = .ok (ptr, s') ∧ Holds s')
    {ops : List (Op σ)} {s : Session σ} (start : Holds s) (allowed : s.Allows build May ops) :
    ∃ ptrs s', s.run build ops = .ok (ptrs, s') ∧ Holds s' := by
  induction ops generalizing s with
  | nil => exact ⟨[], s, rfl, start⟩
  | cons op ops ih =>
      obtain ⟨ptr, middle, first, held⟩ := step start allowed.1
      obtain ⟨ptrs, s', looped, last⟩ := ih held (allowed.2 ptr middle first)
      exact ⟨ptr :: ptrs, s', bind_eq_ok.mpr ⟨_, first, bind_eq_ok.mpr ⟨_, looped, rfl⟩⟩, last⟩

end AgencC.Arena
