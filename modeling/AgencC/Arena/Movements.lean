import AgencC.Arena.Depth

/-! Which blocks an arena gets from its parent and gives back in a run. -/

set_option autoImplicit false

namespace AgencC.Arena

open Library

variable {σ : Type} {build : Build} {parent : AllocT σ} {Out : World σ → List Region → Prop}

/-- The blocks of `s` that `s'` does not hold. -/
def State.less (s s' : State σ) : List Cell := s.pieces.filter fun c => c ∉ s'.pieces

/-- The blocks that entered and left an arena: from its parent, by a trim, and by other calls. -/
structure Movements where
  obtained : List Cell
  trimmed : List Cell
  returned : List Cell

namespace Movements

def none : Movements := ⟨[], [], []⟩

def append (first later : Movements) : Movements where
  obtained := first.obtained ++ later.obtained
  trimmed := first.trimmed ++ later.trimmed
  returned := first.returned ++ later.returned

end Movements

/-- What one call moved. -/
def Op.moved (s s' : State σ) : Op σ → Movements
  | .trim => { obtained := s'.less s, trimmed := s.less s', returned := [] }
  | _ => { obtained := s'.less s, trimmed := [], returned := s.less s' }

/-- What the calls of a run moved, as far as it goes. -/
def Session.movements (build : Build) (s : Session σ) : List (Op σ) → Movements
  | [] => .none
  | op :: ops =>
      match s.step build op with
      | .ok (_, s') => (op.moved s.state s'.state).append (s'.movements build ops)
      | .error _ => .none

theorem Session.movements_cons {s s' : Session σ} {op : Op σ} {ptr : Nat}
    (ran : s.step build op = .ok (ptr, s')) (ops : List (Op σ)) :
    s.movements build (op :: ops) = (op.moved s.state s'.state).append (s'.movements build ops) := by
  rw [movements, ran]

theorem Movements.append_assoc (m m' m'' : Movements) :
    (m.append m').append m'' = m.append (m'.append m'') := by
  simp only [append, List.append_assoc]

theorem Session.movements_append {ops : List (Op σ)} {s s' : Session σ} {ptrs : List Nat}
    (ran : s.run build ops = .ok (ptrs, s')) (later : List (Op σ)) :
    s.movements build (ops ++ later) = (s.movements build ops).append (s'.movements build later) := by
  induction ops generalizing s ptrs with
  | nil =>
      cases ran
      rfl
  | cons op ops ih =>
      obtain ⟨⟨ptr, middle⟩, first, rest⟩ := bind_eq_ok.mp ran
      obtain ⟨⟨others, last⟩, looped, same⟩ := bind_eq_ok.mp rest
      cases same
      rw [List.cons_append, Session.movements_cons first, Session.movements_cons first, ih looped,
        Movements.append_assoc]

/-- Of two lists, what either has and the other lacks. -/
theorem perm_exchange {α : Type} [DecidableEq α] {xs ys : List α} (left : xs.Nodup)
    (right : ys.Nodup) :
    (ys ++ xs.filter (· ∉ ys)).Perm (xs ++ ys.filter (· ∉ xs)) := by
  have apart : ∀ {us vs : List α}, us.Nodup → vs.Nodup → (us ++ vs.filter (· ∉ us)).Nodup := by
    intro us vs first second
    refine List.nodup_append.mpr ⟨first, second.filter _, fun u member v listed same => ?_⟩
    subst same
    exact of_decide_eq_true (List.mem_filter.mp listed).2 member
  refine (List.perm_ext_iff_of_nodup (apart right left) (apart left right)).mpr fun x => ?_
  simp only [List.mem_append, List.mem_filter, decide_eq_true_eq]
  tauto

/-- What is held, and all that left, is what was held, and all that came. A trim releases normal
blocks, every other call oversize ones. -/
structure Movements.Balance (m : Movements) (before after : List Cell) : Prop where
  held : (after ++ (m.trimmed ++ m.returned)).Perm (before ++ m.obtained)
  trimmed : ∀ c ∈ m.trimmed, c.oversize = false
  returned : ∀ c ∈ m.returned, c.oversize = true

theorem Movements.Balance.none (held : List Cell) : Movements.none.Balance held held :=
  ⟨.refl _, fun _ member => (nomatch member), fun _ member => (nomatch member)⟩

theorem Movements.Balance.append {m m' : Movements} {before middle after : List Cell}
    (first : m.Balance before middle) (later : m'.Balance middle after) :
    (m.append m').Balance before after where
  held := by
    have swap : (after ++ (m.trimmed ++ m'.trimmed ++ (m.returned ++ m'.returned))).Perm
        (after ++ (m'.trimmed ++ m'.returned) ++ (m.trimmed ++ m.returned)) := by
      rw [List.append_assoc after]
      refine List.Perm.append_left after ?_
      refine List.perm_iff_count.mpr fun c => ?_
      simp only [List.count_append]
      omega
    have forth : (middle ++ m'.obtained ++ (m.trimmed ++ m.returned)).Perm
        (middle ++ (m.trimmed ++ m.returned) ++ m'.obtained) := by
      rw [List.append_assoc, List.append_assoc]
      exact List.perm_append_comm.append_left middle
    exact (swap.trans (later.held.append_right _)).trans
      ((forth.trans (first.held.append_right _)).trans (.of_eq (List.append_assoc _ _ _)))
  trimmed c member := (List.mem_append.mp member).elim (first.trimmed c) (later.trimmed c)
  returned c member := (List.mem_append.mp member).elim (first.returned c) (later.returned c)

/-! One call. -/

/-- The blocks of a grown chain that are not new are those of its base. -/
theorem Grown.bare {base entered rest : List Cell} (grown : Grown base (entered ++ rest))
    (whole : rest.length = base.length) : rest.map Cell.bare = base.map Cell.bare := by
  obtain ⟨entered', split⟩ := grown.split
  cases split with
  | inl empty =>
      obtain ⟨rfl, _⟩ := empty
      rw [List.length_eq_zero_iff.mp whole]
  | inr raised =>
      obtain ⟨c, cs, used, rfl, top, _⟩ := raised
      obtain ⟨_, rfl⟩ := List.append_inj' top (by rw [whole]; rfl)
      rfl

/-- The end of a scope gives back oversize blocks only. -/
theorem Image.Unwound.gone {a a' : Image σ} {temp : TempT} {base : List Cell}
    (unwound : a.Unwound temp base a') (grown : Grown base a.chain) {piece : Cell}
    (held : piece ∈ a.pieces) (gone : piece ∉ a'.pieces) : piece.oversize = true := by
  obtain ⟨entered, rest, chain, whole, free⟩ := unwound.free
  rw [chain] at grown
  have cells : a'.pieces = base.map Cell.bare ++ (retired entered ++ a.free).map Cell.bare := by
    rw [Image.pieces, Image.cells, unwound.chain, free, List.map_append]
  rw [cells, ← grown.bare whole] at gone
  obtain ⟨c, listed, rfl⟩ := List.mem_map.mp held
  rw [Image.cells, chain] at listed
  by_contra normal
  refine gone (List.mem_append.mpr ?_)
  cases List.mem_append.mp listed with
  | inr spare => exact .inr (List.mem_map_of_mem (List.mem_append_right _ spare))
  | inl chained =>
      cases List.mem_append.mp chained with
      | inr kept => exact .inl (List.mem_map_of_mem kept)
      | inl later =>
          have retires : c.bare ∈ retired entered := by
            rw [retired_eq, List.mem_reverse]
            refine List.mem_map_of_mem (List.mem_filter.mpr ⟨later, ?_⟩)
            exact Bool.not_eq_true' _ ▸ Bool.not_eq_true _ ▸ normal
          exact .inr (List.mem_map.mpr ⟨c.bare, List.mem_append_left _ retires, rfl⟩)

/-- A call that neither resets nor gives up the arena. -/
def Op.Ongoing : Op σ → Prop
  | .reset | .deinit => False
  | _ => True

def Op.isTrim : Op σ → Bool
  | .trim => true
  | _ => false

/-- Blocks leave an arena by a trim, if they are normal, or at the end of a scope, if they are
not. -/
theorem Account.Effect.gone {t t' : Account σ} {op : Op σ} (kept : t.Kept build parent Out)
    (effect : t.Effect build parent Out op t') (ongoing : op.Ongoing) {piece : Cell}
    (held : piece ∈ t.image.pieces) (gone : piece ∉ t'.image.pieces) :
    piece.oversize = !op.isTrim := by
  have kept : t.image.Kept build parent Out t.books := kept
  cases effect with
  | advanced advancing advances => exact absurd (advances.retains held) gone
  | trimmed trimmed =>
      obtain ⟨c, listed, rfl⟩ := List.mem_map.mp held
      cases List.mem_append.mp listed with
      | inl chained =>
          refine absurd (List.mem_map_of_mem (List.mem_append_left _ ?_)) gone
          exact trimmed.chain ▸ chained
      | inr spare => exact (kept.sane.empty c spare).2
  | begun => exact absurd held gone
  | ended inner grown marks same unwound lit => exact unwound.gone grown held gone
  | reset rewound => exact ongoing.elim
  | deinit ran renewed => exact ongoing.elim
  | elsewhere world => exact absurd held gone

theorem Account.Effect.balance {s s' : Session σ} {t t' : Account σ} {op : Op σ}
    (shows : s.Shows t) (shows' : s'.Shows t') (kept : t.Kept build parent Out)
    (effect : t.Effect build parent Out op t') (ongoing : op.Ongoing) :
    (op.moved s.state s'.state).Balance s.state.pieces s'.state.pieces := by
  have exchange := perm_exchange s.state.pieces_distinct s'.state.pieces_distinct
  have left : ∀ c ∈ s.state.less s'.state, c.oversize = !op.isTrim := by
    intro c member
    obtain ⟨held, gone⟩ := List.mem_filter.mp member
    refine effect.gone kept ongoing (shows.1.pieces.mem_iff.mp held) fun still => ?_
    exact of_decide_eq_true gone (shows'.1.pieces.mem_iff.mpr still)
  cases op with
  | trim =>
      refine ⟨?_, left, fun _ member => nomatch member⟩
      rw [Op.moved, List.append_nil]
      exact exchange
  | _ => exact ⟨exchange, fun _ member => (nomatch member), left⟩

/-- What is held after a run, and all that left in it, is what was held before, and all that
came. -/
theorem Session.run_balance {May : Session σ → Op σ → Prop} (conforms : parent.Conforms Out)
    (legal : ∀ {s op}, May s op → op.Legal Out s ∧ op.Ongoing) {ops : List (Op σ)}
    {s s' : Session σ} {t : Account σ} {ptrs : List Nat} (shows : s.Shows t)
    (kept : t.Kept build parent Out) (allowed : s.Allows build May ops)
    (ran : s.run build ops = .ok (ptrs, s')) :
    (s.movements build ops).Balance s.state.pieces s'.state.pieces := by
  induction ops generalizing s t ptrs with
  | nil =>
      cases ran
      exact .none _
  | cons op ops ih =>
      obtain ⟨⟨ptr, middle⟩, first, rest⟩ := bind_eq_ok.mp ran
      obtain ⟨⟨later, last⟩, looped, same⟩ := bind_eq_ok.mp rest
      cases same
      obtain ⟨t', _, shows', kept', effect⟩ :=
        Session.step_follows conforms shows kept (legal allowed.1).1 first
      rw [Session.movements_cons first]
      exact (effect.balance shows shows' kept (legal allowed.1).2).append
        (ih shows' kept' (allowed.2 ptr middle first) looped)

end AgencC.Arena
