import AgencC.Arena.Borrowing

/-! Which blocks a reset keeps, in which order, and what it and a trim give back. -/

set_option autoImplicit false

namespace AgencC.Arena

open Library

variable {σ : Type} {build : Build} {parent : AllocT σ} {Out : World σ → List Region → Prop}

/-- The call that gives a block back. -/
def Cell.release (c : Cell) : Call := .xfree c.addr (blockHdr + c.cap) 0

section
variable {a a' : Image (Recorded σ)}

theorem Image.release_calls (holder : a.parent = parent.logged) {c : Cell}
    (ran : a.release build c = .ok a') :
    a'.parent = parent.logged ∧ a'.world.calls = c.release :: a.world.calls := by
  obtain ⟨world, freed, same⟩ := bind_eq_ok.mp ran
  cases same
  rw [holder] at freed
  obtain ⟨inner, _, noted⟩ := bind_eq_ok.mp freed
  cases noted
  refine ⟨holder, ?_⟩
  change _ :: (a.world.fade build c.data c.used).calls = _
  rw [World.calls, (World.fade_touched build c.data c.used a.world).parent]
  rfl

/-- Releases are recorded in the order they are made, newest call first. -/
theorem Image.releaseAll_calls (holder : a.parent = parent.logged) {cells : List Cell}
    (ran : a.releaseAll build cells = .ok a') :
    a'.world.calls = (cells.map Cell.release).reverse ++ a.world.calls := by
  induction cells generalizing a with
  | nil =>
      cases ran
      rfl
  | cons c cs ih =>
      obtain ⟨b, released, rest⟩ := bind_eq_ok.mp ran
      obtain ⟨holder, calls⟩ := Image.release_calls holder released
      rw [ih holder rest, calls, List.map_cons, List.reverse_cons, List.append_assoc]
      rfl

theorem Image.discard_calls (holder : a.parent = parent.logged) {cells : List Cell}
    (ran : a.discard build cells = .ok a') :
    a'.world.calls = ((cells.filter (·.oversize)).map Cell.release).reverse ++ a.world.calls := by
  induction cells generalizing a with
  | nil =>
      cases ran
      rfl
  | cons c cs ih =>
      rw [Image.discard] at ran
      cases kind : c.oversize with
      | true =>
          obtain ⟨b, dropped, rest⟩ := bind_eq_ok.mp ((if_pos kind).symm.trans ran)
          obtain ⟨holder, calls⟩ := Image.release_calls holder dropped
          rw [ih holder rest, calls, List.filter_cons_of_pos (by exact kind), List.map_cons,
            List.reverse_cons, List.append_assoc]
          rfl
      | false =>
          have rest : (a.retire build c).discard build cs = .ok a' :=
            (if_neg (Bool.not_eq_true _ ▸ kind)).symm.trans ran
          have calls : (a.retire build c).world.calls = a.world.calls :=
            congrArg Prod.snd (World.dead_touched build c.data c.used a.world).parent
          have same : (a.retire build c).parent = parent.logged := holder
          rw [ih same rest, calls, List.filter_cons_of_neg (by rw [kind]; exact Bool.false_ne_true)]

theorem Image.reset_calls (holder : a.parent = parent.logged) (ran : a.reset build = .ok a') :
    a'.world.calls =
      (((a.chain.filter (oldestNormal a.chain ≠ some ·)).filter (·.oversize)).map Cell.release).reverse
        ++ a.world.calls := by
  obtain ⟨b, dropped, same⟩ := bind_eq_ok.mp ran
  cases same
  rw [← Image.discard_calls holder dropped]
  cases oldestNormal a.chain with
  | none => rfl
  | some c => exact congrArg Prod.snd (World.dead_touched build c.data c.used b.world).parent

theorem Image.trim_calls (holder : a.parent = parent.logged) (growing : a.fixed = false)
    (ran : a.trim build = .ok a') :
    a'.world.calls = (a.free.map Cell.release).reverse ++ a.world.calls ∧ a'.free = [] := by
  have growing : ¬ a.fixed = true := by rw [growing]; exact Bool.false_ne_true
  obtain ⟨b, released, same⟩ := bind_eq_ok.mp ((if_neg growing).symm.trans ran)
  cases same
  have calls := Image.releaseAll_calls holder released
  exact ⟨calls, rfl⟩

end

/-! The blocks beside the oldest normal one. -/

theorem filter_oversize_beside {chain : List Cell} :
    (chain.filter (oldestNormal chain ≠ some ·)).filter (·.oversize) =
      chain.filter (·.oversize) := by
  rw [List.filter_filter]
  refine List.filter_congr fun c _ => ?_
  by_cases kind : c.oversize = true
  · have other : oldestNormal chain ≠ some c := by
      intro same
      have normal := (oldestNormal_some same).2
      rw [kind] at normal
      cases normal
    rw [kind, Bool.true_and]
    exact decide_eq_true other
  · rw [Bool.not_eq_true] at kind
    rw [kind, Bool.false_and]

theorem filter_normal_beside {chain : List Cell} (distinct : chain.Nodup) :
    (chain.filter (oldestNormal chain ≠ some ·)).filter (!·.oversize) =
      (chain.filter (!·.oversize)).dropLast := by
  have normals : (chain.filter (!·.oversize)).Nodup := distinct.filter _
  have oldest : oldestNormal chain = (chain.filter (!·.oversize)).getLast? := rfl
  rw [List.filter_filter, oldest]
  have swap : ∀ last : Option Cell,
      chain.filter (fun c => !c.oversize && decide (last ≠ some c)) =
        (chain.filter (!·.oversize)).filter (last ≠ some ·) := by
    intro last
    rw [List.filter_filter]
    exact List.filter_congr fun c _ => Bool.and_comm _ _
  rw [swap]
  generalize chain.filter (!·.oversize) = ns at normals
  cases empty : ns.getLast? with
  | none =>
      rw [List.getLast?_eq_none_iff.mp empty]
      rfl
  | some last =>
      have whole : ns = ns.dropLast ++ [last] := (List.dropLast_append_getLast? last empty).symm
      rw [whole] at normals
      have apart := List.nodup_append.mp normals
      rw [whole, List.filter_append, List.dropLast_concat]
      have others : ns.dropLast.filter (some last ≠ some ·) = ns.dropLast := by
        refine List.filter_eq_self.mpr fun c member => decide_eq_true fun same => ?_
        injection same with same
        exact apart.2.2 c member last (.head _) same.symm
      rw [others, List.filter_cons_of_neg (by simp), List.filter_nil, List.append_nil]

/-- What a reset makes of a growing arena with these two lists. -/
structure Session.ResetTo (s : Session (Recorded σ)) (chain free : List Cell)
    (s' : Session (Recorded σ)) : Prop where
  /-- The chain is the oldest normal block. The other normal blocks go before the free list, the
  older before the newer. -/
  lists : s'.state.Lists ((chain.filter (!·.oversize)).getLast?.toList.map Cell.bare)
    (((chain.filter (!·.oversize)).dropLast.map Cell.bare).reverse ++ free)
  kept : s'.state.pieces.Perm (s.state.pieces.filter (!·.oversize))
  returned : s'.state.world.calls =
    ((chain.filter (·.oversize)).map Cell.release).reverse ++ s.state.world.calls
  committed : s'.state.arena.committed = (s'.state.regions.map Region.size).sum
  used : s'.state.arena.used = 0
  tempDepth : s'.state.arena.tempDepth = 0
  status : s'.state.arena.status = .ok
  highWater : s'.state.arena.highWater = s.state.arena.highWater

/-- What a trim makes of a growing arena with these two lists. -/
structure Session.TrimmedTo (s : Session (Recorded σ)) (chain free : List Cell)
    (s' : Session (Recorded σ)) : Prop where
  lists : s'.state.Lists chain []
  held : s'.state.pieces.Perm (chain.map Cell.bare)
  returned : s'.state.world.calls = (free.map Cell.release).reverse ++ s.state.world.calls
  committed : s'.state.arena.committed = (s'.state.regions.map Region.size).sum

theorem State.regions_sum {s : State σ} {a : Image σ} (shows : s.Shows a) :
    (s.regions.map Region.size).sum = (a.regions.map Region.size).sum :=
  (shows.regions.map Region.size).sum_eq

theorem Image.Owned.chain_distinct {a : Image σ} (owned : a.Owned build parent Out) :
    a.chain.Nodup :=
  (List.nodup_append.mp (List.Nodup.of_map _ owned.distinct)).1

theorem map_bare_bare (cells : List Cell) :
    (cells.map Cell.bare).map Cell.bare = cells.map Cell.bare := by
  rw [List.map_map]
  rfl

/-- The last of a list, and the others backwards. -/
theorem getLast_dropLast_perm {α : Type} (xs : List α) :
    (xs.getLast?.toList ++ xs.dropLast.reverse).Perm xs := by
  cases empty : xs.getLast? with
  | none =>
      rw [List.getLast?_eq_none_iff.mp empty]
      exact .refl _
  | some last =>
      have whole : xs.dropLast ++ [last] = xs := List.dropLast_append_getLast? last empty
      refine (List.perm_append_comm.trans ((List.reverse_perm _).append_right _)).trans ?_
      exact .of_eq whole

theorem Image.Rewound.lists {a a' : Image σ} (owned : a.Owned build parent Out)
    (rewound : a.Rewound a') :
    a'.chain = (a.chain.filter (!·.oversize)).getLast?.toList.map Cell.bare ∧
      a'.free = ((a.chain.filter (!·.oversize)).dropLast.map Cell.bare).reverse ++ a.free := by
  refine ⟨rewound.chain, ?_⟩
  rw [rewound.free, retired_eq, filter_normal_beside owned.chain_distinct]

theorem Account.Kept.reset_to {s s' : Session (Recorded σ)} {t : Account (Recorded σ)}
    {image : Image (Recorded σ)} (shows : s.Shows t)
    (kept : t.Kept build parent.logged (LogOut Out)) (growing : t.image.fixed = false)
    (ran : t.image.reset build = .ok image) (rewound : t.image.Rewound image)
    (shows' : s'.Shows { image, books := t.books.closed })
    (kept' : image.Kept build parent.logged (LogOut Out) t.books.closed) :
    s.ResetTo t.image.chain t.image.free s' := by
  have kept : t.image.Kept build parent.logged (LogOut Out) t.books := kept
  have owned := kept.sane.toOwned
  have lists := shows'.1.lists
  have arena := shows'.1.arena
  obtain ⟨chain, free⟩ := rewound.lists owned
  rw [chain, free] at lists
  refine
    { lists := lists
      kept := ?_
      returned := ?_
      committed := ?_
      used := by rw [shows'.used]; exact rewound.used
      tempDepth := by rw [shows'.level]; exact rewound.tempDepth
      status := by rw [arena]; exact rewound.status
      highWater := by rw [arena, shows.1.arena]; exact rewound.highWater }
  · have before : (s.state.pieces.filter (!·.oversize)).Perm
        ((t.image.chain.filter (!·.oversize)).map Cell.bare ++ t.image.free.map Cell.bare) := by
      refine (shows.1.pieces.filter _).trans (.of_eq ?_)
      have whole : t.image.free.filter ((!·.oversize) ∘ Cell.bare) = t.image.free := by
        refine List.filter_eq_self.mpr fun c member => ?_
        change (!c.oversize) = true
        rw [(owned.empty c member).2]
        rfl
      rw [Image.pieces, Image.cells, List.map_append, List.filter_append, List.filter_map,
        List.filter_map, whole]
      rfl
    refine shows'.1.pieces.trans (.trans ?_ before.symm)
    rw [Image.pieces, Image.cells, chain, free, ← List.append_assoc, List.map_append,
      List.map_append, List.map_reverse, map_bare_bare, map_bare_bare, ← List.map_reverse,
      ← List.map_append]
    exact ((getLast_dropLast_perm _).map Cell.bare).append_right _
  · rw [shows'.1.world, shows.1.world, Image.reset_calls kept.sane.parent ran, filter_oversize_beside]
  · rw [State.regions_sum shows'.1, shows'.1.arena]
    exact kept'.sane.total (rewound.fixed.trans growing)

theorem Account.Kept.trimmed_to {s s' : Session (Recorded σ)} {t : Account (Recorded σ)}
    {image : Image (Recorded σ)} (shows : s.Shows t)
    (kept : t.Kept build parent.logged (LogOut Out)) (growing : t.image.fixed = false)
    (ran : t.image.trim build = .ok image) (trimmed : t.image.Trimmed image)
    (shows' : s'.Shows { image, books := t.books })
    (kept' : image.Kept build parent.logged (LogOut Out) t.books) :
    s.TrimmedTo t.image.chain t.image.free s' := by
  have kept : t.image.Kept build parent.logged (LogOut Out) t.books := kept
  obtain ⟨calls, free⟩ := Image.trim_calls kept.sane.parent growing ran
  have lists := shows'.1.lists
  have held := shows'.1.pieces
  rw [Image.pieces, Image.cells, free, List.append_nil] at held
  rw [free] at lists
  dsimp only at lists held
  rw [trimmed.chain] at lists held
  refine ⟨lists, held, ?_, ?_⟩
  · rw [shows'.1.world, shows.1.world]
    exact calls
  · rw [State.regions_sum shows'.1, shows'.1.arena]
    exact kept'.sane.total (trimmed.fixed.trans growing)

/-- A reset of any growing arena that a legal run leaves keeps the normal blocks in the order they
will be needed in, and gives the others back. A trim after it leaves one block. -/
theorem Session.reset_trims (conforms : parent.Conforms Out) {s₀ s : Session (Recorded σ)}
    (started : s₀.Started build parent.logged (LogOut Out)) {ops : List (Op (Recorded σ))}
    {ptrs : List Nat} (allowed : s₀.Allows build (fun s op => op.Legal (LogOut Out) s) ops)
    (reached : s₀.run build ops = .ok (ptrs, s)) (growing : s.state.arena.fixed = false) :
    ∃ chain free s' s'', s.state.Lists chain free ∧ s.step build .reset = .ok (0, s') ∧
      s.ResetTo chain free s' ∧ s'.step build .trim = .ok (0, s'') ∧
      s'.TrimmedTo ((chain.filter (!·.oversize)).getLast?.toList.map Cell.bare)
        (((chain.filter (!·.oversize)).dropLast.map Cell.bare).reverse ++ free) s'' := by
  obtain ⟨t, shows, kept⟩ := Session.run_kept conforms.logged started allowed reached
  have fixed : t.image.fixed = false := by
    rw [shows.1.arena] at growing
    exact growing
  obtain ⟨image, ran, rewound, kept'⟩ := Image.Kept.reset conforms.logged kept
  obtain ⟨state, _, done, again, shown⟩ :=
    reset_refines conforms.logged shows.1 (Image.Kept.sane kept).toOwned
  cases ran.symm.trans again
  have stepped : s.step build .reset = .ok (0, { state, books := s.books.closed }) :=
    bind_eq_ok.mpr ⟨_, done, rfl⟩
  have shows' : Session.Shows { state, books := s.books.closed }
      { image, books := t.books.closed } := ⟨shown, by rw [shows.2]⟩
  have growing' : image.fixed = false := rewound.fixed.trans fixed
  obtain ⟨image', trimmed', trimmed, kept''⟩ := Image.Kept.trim conforms.logged kept'
  obtain ⟨state', _, done', again', shown'⟩ :=
    trim_refines conforms.logged shown kept'.sane.toOwned
  cases trimmed'.symm.trans again'
  obtain ⟨chain, free⟩ := rewound.lists (Image.Kept.sane kept).toOwned
  refine ⟨t.image.chain, t.image.free, _, { state := state', books := s.books.closed },
    shows.1.lists, stepped, kept.reset_to shows fixed ran rewound shows' kept',
    bind_eq_ok.mpr ⟨_, done', rfl⟩, ?_⟩
  rw [← chain, ← free]
  exact Account.Kept.trimmed_to shows' kept' growing' trimmed' trimmed
    ⟨shown', by rw [shows.2]⟩ kept''

/-- The first block and the last one are normal, and the one between them is not. -/
theorem Session.reset_trims_oversize :
    ∃ s s' s'',
      Session.recorded.run .sanitized
          [.allocate (.alloc 100), .allocate (.alloc 9000), .allocate (.alloc 4060)] =
        .ok ([4128, 8224, 17296], s) ∧
      s.step .sanitized .reset = .ok (0, s') ∧
      s.ResetTo [⟨17264, 8160, 4076, false⟩, ⟨8192, 9031, 9016, true⟩, ⟨4096, 4064, 116, false⟩] []
        s' ∧
      s'.step .sanitized .trim = .ok (0, s'') ∧
      s'.TrimmedTo [⟨4096, 4064, 0, false⟩] [⟨17264, 8160, 0, false⟩] s'' ∧
      s'.state.arena.committed = 12288 ∧ s'.state.arena.highWater = 13208 ∧
      s''.state.arena.committed = 4096 := by
  have conforms := risingParent_conforms 0x100000 (by decide)
  have reached : Session.recorded.run .sanitized
    [.allocate (.alloc 100), .allocate (.alloc 9000), .allocate (.alloc 4060)] = .ok _ := rfl
  have allowed : Session.recorded.Allows .sanitized
      (fun s op => op.Legal (LogOut (RisingOut 0x100000)) s)
      [.allocate (.alloc 100), .allocate (.alloc 9000), .allocate (.alloc 4060)] :=
    .cons rfl (Nat.zero_le _) (.cons rfl (Nat.zero_le _) (.cons rfl (Nat.zero_le _) trivial))
  obtain ⟨chain, free, s', s'', lists, reset, resetTo, trim, trimmedTo⟩ :=
    Session.reset_trims conforms (Session.recorded_started _) allowed reached rfl
  obtain ⟨rfl, rfl⟩ := lists.unique (show State.Lists _
    [⟨17264, 8160, 4076, false⟩, ⟨8192, 9031, 9016, true⟩, ⟨4096, 4064, 116, false⟩] [] by
      decide +kernel)
  -- The counters are read off the calls, since the states themselves are too large to write down.
  have both : Except.bind _ (fun after : Nat × Session (Recorded Nat) =>
      after.2.step .sanitized .trim) = .ok (0, s'') := bind_eq_ok.mpr ⟨_, reset, trim⟩
  have counts := congrArg (·.toOption.map fun after =>
    (after.2.state.arena.committed, after.2.state.arena.highWater)) reset
  have total := congrArg (·.toOption.map (·.2.state.arena.committed)) both
  have counts := Option.some.inj
    ((show _ = some (12288, 13208) by decide +kernel).symm.trans counts)
  have total := Option.some.inj ((show _ = some 4096 by decide +kernel).symm.trans total)
  exact ⟨_, s', s'', reached, reset, resetTo, trim, trimmedTo, (congrArg Prod.fst counts).symm,
    (congrArg Prod.snd counts).symm, total.symm⟩

end AgencC.Arena
