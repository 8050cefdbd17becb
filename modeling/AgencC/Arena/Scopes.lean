import AgencC.Arena.Spans
import AgencC.Arena.Unwinding

/-! The arena after the calls that unwind it: the end of a scope, reset, trim and deinit. -/

set_option autoImplicit false

namespace AgencC.Arena

open Library

variable {σ : Type} {build : Build}

section
variable {parent : AllocT σ} {Out : World σ → List Region → Prop} {a : Image σ}

/-- A grown chain is the blocks entered since, over the base with its newest cursor raised. -/
theorem Grown.split {base top : List Cell} (grown : Grown base top) :
    ∃ entered, (base = [] ∧ top = entered) ∨
      ∃ c cs used, base = c :: cs ∧ top = entered ++ { c with used } :: cs ∧ c.used ≤ used := by
  induction grown with
  | empty bare => exact ⟨[], .inl ⟨bare, rfl⟩⟩
  | @raised c cs used start above => exact ⟨[], .inr ⟨c, cs, used, start, rfl, above⟩⟩
  | entered d _ ih =>
      obtain ⟨entered, split⟩ := ih
      refine ⟨d :: entered, ?_⟩
      cases split with
      | inl bare => exact .inl ⟨bare.1, by rw [bare.2]⟩
      | inr raised =>
          obtain ⟨c, cs, used, start, top, above⟩ := raised
          exact .inr ⟨c, cs, used, start, by rw [top]; rfl, above⟩

theorem takeWhile_append_stop {p : Cell → Bool} {entered rest : List Cell}
    (passes : ∀ c ∈ entered, p c = true) (stops : ∀ c cs, rest = c :: cs → p c = false) :
    (entered ++ rest).takeWhile p = entered ∧ (entered ++ rest).dropWhile p = rest := by
  induction entered with
  | nil =>
      cases rest with
      | nil => exact ⟨rfl, rfl⟩
      | cons c cs =>
          have stop := stops c cs rfl
          rw [List.nil_append, List.takeWhile_cons, List.dropWhile_cons, stop]
          exact ⟨rfl, rfl⟩
  | cons c cs ih =>
      have pass := passes c (.head _)
      obtain ⟨taken, dropped⟩ := ih fun d member => passes d (.tail _ member)
      rw [List.cons_append, List.takeWhile_cons, List.dropWhile_cons, pass, if_pos rfl, taken]
      exact ⟨rfl, dropped⟩

/-- Where a scope begins in a chain. -/
structure TempT.Marks (temp : TempT) (base : List Cell) : Prop where
  block : temp.block = Cell.layout.first base
  blockUsed : temp.blockUsed = (base.head?.map Cell.used).getD 0

/-- The blocks entered in a scope come before the one it began in. -/
theorem Image.Owned.unwinds (owned : a.Owned build parent Out) {base : List Cell}
    (grown : Grown base a.chain) :
    ∃ entered rest, a.chain = entered ++ rest ∧
      (∀ c ∈ entered, c.addr ≠ Cell.layout.first base) ∧
      Cell.layout.first rest = Cell.layout.first base ∧
      (base = [] ∧ rest = [] ∨
        ∃ c cs used, base = c :: cs ∧ rest = { c with used } :: cs ∧ c.used ≤ used) := by
  obtain ⟨entered, split⟩ := grown.split
  cases split with
  | inl bare =>
      obtain ⟨rfl, top⟩ := bare
      refine ⟨entered, [], by rw [top, List.append_nil], ?_, rfl, .inl ⟨rfl, rfl⟩⟩
      intro c member
      exact (owned.inside c (List.mem_append_left _ (top ▸ member))).1
  | inr raised =>
      obtain ⟨c, cs, used, rfl, top, above⟩ := raised
      refine ⟨entered, _, top, ?_, rfl, .inr ⟨c, cs, used, rfl, rfl, above⟩⟩
      have distinct := owned.distinct
      rw [Image.cells, top, List.append_assoc, List.map_append, List.nodup_append] at distinct
      intro d member same
      refine distinct.2.2 d.addr (List.mem_map_of_mem member) c.addr ?_ same
      exact .head _

theorem TempT.Marks.split {temp : TempT} {base entered rest : List Cell} (marks : temp.Marks base)
    (chain : a.chain = entered ++ rest) (later : ∀ c ∈ entered, c.addr ≠ Cell.layout.first base)
    (start : base = [] ∧ rest = [] ∨
      ∃ c cs used, base = c :: cs ∧ rest = { c with used } :: cs ∧ c.used ≤ used) :
    a.chain.takeWhile (·.addr ≠ temp.block) = entered ∧
      a.chain.dropWhile (·.addr ≠ temp.block) = rest := by
  rw [chain, marks.block]
  refine takeWhile_append_stop (fun c member => decide_eq_true (later c member)) ?_
  intro d ds same
  cases start with
  | inl bare => cases bare.2.symm.trans same
  | inr raised =>
      obtain ⟨c, cs, used, rfl, front, above⟩ := raised
      cases front.symm.trans same
      exact decide_eq_false (not_not_intro rfl)

/-- A snapshot marks one place only. -/
theorem TempT.Marks.unique {temp : TempT} {base base' : List Cell} (marks : temp.Marks base)
    (marks' : temp.Marks base') (owned : a.Owned build parent Out) (grown : Grown base a.chain)
    (grown' : Grown base' a.chain) : base = base' := by
  obtain ⟨entered, rest, chain, later, _, start⟩ := owned.unwinds grown
  obtain ⟨entered', rest', chain', later', _, start'⟩ := owned.unwinds grown'
  have same : rest = rest' :=
    (marks.split chain later start).2.symm.trans (marks'.split chain' later' start').2
  subst same
  cases start with
  | inl bare =>
      cases start' with
      | inl bare' => rw [bare.1, bare'.1]
      | inr raised' =>
          obtain ⟨c, cs, used, _, front, _⟩ := raised'
          cases bare.2.symm.trans front
  | inr raised =>
      obtain ⟨c, cs, used, rfl, front, _⟩ := raised
      cases start' with
      | inl bare' => cases bare'.2.symm.trans front
      | inr raised' =>
          obtain ⟨d, ds, used', rfl, front', _⟩ := raised'
          have marked : c.used = d.used := marks.blockUsed.symm.trans marks'.blockUsed
          have whole := front.symm.trans front'
          injection whole with head tail
          injection head with addr cap _ oversize
          cases c
          cases d
          simp only at marked addr cap oversize
          subst marked addr cap oversize tail
          rfl

theorem Image.tempEnd_eq {temp : TempT} {entered rest : List Cell} {b : Image σ}
    (taken : a.chain.takeWhile (·.addr ≠ temp.block) = entered)
    (dropped : a.chain.dropWhile (·.addr ≠ temp.block) = rest)
    (ran : a.discard build entered = .ok b) :
    a.tempEnd build temp = .ok ((b.cut build temp.blockUsed rest).close temp) := by
  rw [Image.tempEnd, taken, dropped, ran]
  rfl

/-- A fixed arena enters no block in a scope. -/
theorem entered_growing {base entered rest : List Cell} (chain : a.chain = entered ++ rest)
    (same : a.fixed = true → base.length = a.chain.length)
    (start : base = [] ∧ rest = [] ∨
      ∃ c cs used, base = c :: cs ∧ rest = { c with used } :: cs ∧ c.used ≤ used) :
    entered ≠ [] → a.fixed = false := by
  intro some
  refine Bool.not_eq_true _ ▸ fun fixed => some ?_
  have whole := same fixed
  have lengths : rest.length = base.length := by
    cases start with
    | inl bare => rw [bare.1, bare.2]
    | inr raised =>
        obtain ⟨c, cs, used, rfl, rfl, above⟩ := raised
        rfl
  rw [chain, List.length_append] at whole
  exact List.length_eq_zero_iff.mp (by omega)

theorem Image.discard_fixed {cells free : List Cell} {committed : Nat} {world : World σ}
    (growing : cells ≠ [] → a.fixed = false)
    (ran : a.discard build cells = .ok { a with free, committed, world }) (fixed : a.fixed = true) :
    committed = a.committed ∧ world.parent = a.world.parent := by
  cases cells with
  | nil =>
      have same := (Except.ok.inj ran).symm
      exact ⟨congrArg Image.committed same, congrArg (fun a => a.world.parent) same⟩
  | cons c cs => cases fixed.symm.trans (growing (List.cons_ne_nil _ _))

variable (build) in
/-- What the end of a scope leaves of the arena. -/
structure Image.Unwound (a : Image σ) (temp : TempT) (base : List Cell) (a' : Image σ) : Prop where
  chain : a'.chain = base
  used : a'.used = temp.used
  tempDepth : a'.tempDepth = a.tempDepth - 1
  generation : a'.generation = a.generation
  status : a'.status = a.status
  fixed : a'.fixed = a.fixed
  sizes : a'.sizes = a.sizes
  committed : a.fixed = true → a'.committed = a.committed
  calm : a.fixed = true → a'.world.parent = a.world.parent
  kept : ∀ x, Below base x →
    a'.world.bytes x = a.world.bytes x ∧ a'.world.poisoned x = a.world.poisoned x
  free : ∃ entered rest, a.chain = entered ++ rest ∧ rest.length = base.length ∧
    a'.free = retired entered ++ a.free

theorem Image.Sane.tempEnd (conforms : parent.Conforms Out) (sane : a.Sane build parent Out)
    {base : List Cell} {temp : TempT} (grown : Grown base a.chain) (marks : temp.Marks base)
    (same : a.fixed = true → base.length = a.chain.length) (used : temp.used ≤ a.used)
    (counted : temp.used ≤ consumed base) :
    ∃ a', a.tempEnd build temp = .ok a' ∧ a'.Sane build parent Out ∧ a.Unwound temp base a' := by
  obtain ⟨entered, rest, chain, later, first, start⟩ := sane.toOwned.unwinds grown
  obtain ⟨taken, dropped⟩ := marks.split chain later start
  have growing := entered_growing chain same start
  have owned : Image.Owned build parent Out { a with chain := entered ++ rest } := by
    rw [← chain]
    exact sane.toOwned
  obtain ⟨committed, world, ran, keeps, owned'⟩ := owned.discard conforms growing
  have peak : temp.used ≤ a.highWater := Nat.le_trans used sane.peak
  have owed : a.fixed = true → committed = a.committed ∧ world.parent = a.world.parent :=
    fun fixed => Image.discard_fixed growing ran fixed
  have ended := Image.tempEnd_eq taken dropped ran
  refine ⟨_, ended, ?_⟩
  cases start with
  | inl bare =>
      obtain ⟨rfl, rfl⟩ := bare
      have none : temp.used = 0 := Nat.le_zero.mp counted
      refine ⟨⟨{ owned' with }, ?_, ?_⟩, ?_⟩
      · change min temp.used a.used ≤ 0
        omega
      · change min temp.used a.used ≤ a.highWater
        omega
      · exact
          { chain := rfl
            used := Nat.min_eq_left used
            tempDepth := rfl
            generation := rfl
            status := rfl
            fixed := rfl
            sizes := rfl
            committed := fun fixed => (owed fixed).1
            calm := fun fixed => (owed fixed).2
            kept := fun x below => by
              obtain ⟨c, member, _⟩ := below
              cases member
            free := ⟨entered, [], chain, rfl, rfl⟩ }
  | inr raised =>
      obtain ⟨c, cs, cursor, rfl, rfl, above⟩ := raised
      have cutUsed : temp.blockUsed = c.used := marks.blockUsed
      have low : min c.used cursor = c.used := Nat.min_eq_left above
      have fits : cursor ≤ c.cap := owned'.fits _ (.head _)
      have touched := World.dead_touched build (c.data + c.used) (cursor - c.used) world
      have within : Region.Within ⟨c.data + c.used, cursor - c.used⟩ c.region :=
        Cell.data_within (Nat.le_add_right _ _) (by omega)
      have lowered : Image.Owned build parent Out
          { a with
            chain := c :: cs, free := retired entered ++ a.free, committed
            world := world.dead build (c.data + c.used) (cursor - c.used)
            used := min temp.used a.used, tempDepth := a.tempDepth - 1 } := by
        refine { owned'.setHead conforms rfl (Nat.le_trans above fits) touched within ?_
          (min temp.used a.used) a.highWater with }
        intro asan x past under
        have past : c.data + c.used ≤ x := past
        rw [World.dead_poisoned asan]
        split
        · rfl
        · case isFalse outside =>
            refine owned'.dark asan _ (.head _) x ?_ under
            change c.data + cursor ≤ x
            omega
      rw [Image.cut, cutUsed, low]
      refine ⟨⟨lowered, ?_, ?_⟩, ?_⟩
      · exact Nat.le_trans (Nat.min_le_left _ _) counted
      · exact Nat.le_trans (Nat.min_le_left _ _) peak
      · exact
          { chain := rfl
            used := Nat.min_eq_left used
            tempDepth := rfl
            generation := rfl
            status := rfl
            fixed := rfl
            sizes := rfl
            committed := fun fixed => (owed fixed).1
            calm := fun fixed => touched.parent.trans (owed fixed).2
            kept := fun x below => by
              have region : ∀ d ∈ c :: cs, d.region ∈ (({ c with used := cursor } : Cell) :: cs).map Cell.region := by
                intro d member
                cases member with
                | head => exact .head _
                | tail _ later => exact .tail _ (List.mem_map_of_mem later)
              obtain ⟨d, member, covers, past, under⟩ := lowered.covers_of_below below
              obtain ⟨bytes, poisoned⟩ := keeps d.region (region d member) x covers
              have outside : ¬ Region.Covers ⟨c.data + c.used, cursor - c.used⟩ x := by
                intro inside
                refine lowered.not_below rfl inside.1 ?_ below
                have under : x < c.data + c.used + (cursor - c.used) := inside.2
                omega
              exact ⟨(touched.bytes x outside).trans bytes,
                (touched.poisoned x outside).trans poisoned⟩
            free := ⟨entered, _, chain, rfl, rfl⟩ }

/-! Reset. -/

theorem oldestNormal_none {chain : List Cell} (absent : oldestNormal chain = none) {c : Cell}
    (member : c ∈ chain) : c.oversize = true := by
  have empty := List.getLast?_eq_none_iff.mp absent
  cases kind : c.oversize with
  | true => rfl
  | false =>
      have kept : c ∈ chain.filter (!·.oversize) := List.mem_filter.mpr ⟨member, by rw [kind]; rfl⟩
      rw [empty] at kept
      cases kept

/-- The blocks of a chain are those a reset discards and the one it keeps. -/
theorem Image.Owned.oldest_perm (owned : a.Owned build parent Out) :
    a.chain.Perm
      (a.chain.filter (oldestNormal a.chain ≠ some ·) ++ (oldestNormal a.chain).toList) := by
  cases oldest : oldestNormal a.chain with
  | none =>
      rw [List.filter_eq_self.mpr (by simp)]
      exact .of_eq (List.append_nil _).symm
  | some c =>
      have member := (oldestNormal_some oldest).1
      have distinct : a.chain.Nodup := by
        have all := List.Nodup.of_map _ owned.distinct
        exact (List.nodup_append.mp all).1
      have erased := List.perm_cons_erase member
      rw [distinct.erase_eq_filter] at erased
      refine erased.trans ((List.perm_append_singleton _ _).symm.trans (.of_eq ?_))
      congr 1
      refine List.filter_congr fun d _ => ?_
      by_cases same : c = d
      · simp [same]
      · have other : d ≠ c := fun equal => same equal.symm
        simp [same, other]

theorem Image.Owned.beside_oldest (owned : a.Owned build parent Out)
    (some : a.chain.filter (oldestNormal a.chain ≠ some ·) ≠ []) : a.fixed = false := by
  refine Bool.not_eq_true _ ▸ fun fixed => ?_
  obtain ⟨free, single, normal, _⟩ := owned.buffer fixed
  have count := owned.oldest_perm.length_eq
  rw [List.length_append] at count
  have others := List.length_pos_iff.mpr some
  cases oldest : oldestNormal a.chain with
  | some c =>
      rw [oldest] at count others
      have one : (Option.some c).toList.length = 1 := rfl
      omega
  | none =>
      cases chain : a.chain with
      | nil => exact some (by rw [chain]; rfl)
      | cons c cs =>
          have head : c ∈ a.chain := chain ▸ .head _
          have oversize := oldestNormal_none oldest head
          rw [(normal c head).1] at oversize
          cases oversize

variable (build) in
/-- What a reset leaves of the arena. -/
structure Image.Rewound (a a' : Image σ) : Prop where
  chain : a'.chain = (oldestNormal a.chain).toList.map fun c => { c with used := 0 }
  free : a'.free = retired (a.chain.filter (oldestNormal a.chain ≠ some ·)) ++ a.free
  used : a'.used = 0
  tempDepth : a'.tempDepth = 0
  generation : a'.generation = (a.generation + 1) % 2 ^ 32
  status : a'.status = .ok
  fixed : a'.fixed = a.fixed
  highWater : a'.highWater = a.highWater
  sizes : a'.sizes = a.sizes
  committed : a.fixed = true → a'.committed = a.committed
  calm : a.fixed = true → a'.world.parent = a.world.parent

theorem Image.Sane.reset (conforms : parent.Conforms Out) (sane : a.Sane build parent Out) :
    ∃ a', a.reset build = .ok a' ∧ a'.Sane build parent Out ∧ a.Rewound a' := by
  have same := sane.toOwned.oldest_perm
  have owned : Image.Owned build parent Out
      { a with
        chain := a.chain.filter (oldestNormal a.chain ≠ some ·) ++ (oldestNormal a.chain).toList } := by
    by_cases some : a.chain.filter (oldestNormal a.chain ≠ some ·) = []
    · rw [some, List.nil_append] at same ⊢
      have whole : a.chain = (oldestNormal a.chain).toList := by
        cases oldest : oldestNormal a.chain with
        | none =>
            rw [oldest] at same
            exact same.eq_nil
        | some c =>
            rw [oldest] at same
            exact List.perm_singleton.mp same
      rw [← whole]
      exact sane.toOwned
    · have growing := sane.toOwned.beside_oldest some
      exact sane.toOwned.rearrange conforms growing (same.append_right _) sane.empty
  obtain ⟨committed, world, ran, keeps, owned'⟩ :=
    owned.discard conforms sane.toOwned.beside_oldest
  have done : a.reset build =
      .ok
        { a with
          free := retired (a.chain.filter (oldestNormal a.chain ≠ some ·)) ++ a.free, committed
          chain := (oldestNormal a.chain).toList.map fun c => { c with used := 0 }
          world := (oldestNormal a.chain).elim world fun c => world.dead build c.data c.used
          used := 0, tempDepth := 0, generation := (a.generation + 1) % 2 ^ 32, status := .ok } := by
    rw [Image.reset]
    exact bind_eq_ok.mpr ⟨_, ran, rfl⟩
  have owed : a.fixed = true → committed = a.committed ∧ world.parent = a.world.parent :=
    Image.discard_fixed sane.toOwned.beside_oldest ran
  have marked : ((oldestNormal a.chain).elim world fun c => world.dead build c.data c.used).parent =
      world.parent := by
    cases oldestNormal a.chain with
    | none => rfl
    | some c => exact (World.dead_touched build c.data c.used world).parent
  refine ⟨_, done, ⟨?_, Nat.zero_le _, Nat.zero_le _⟩, rfl, rfl, rfl, rfl, rfl, rfl, rfl, rfl, rfl,
    fun fixed => (owed fixed).1, fun fixed => marked.trans (owed fixed).2⟩
  cases oldest : oldestNormal a.chain with
  | none =>
      rw [oldest] at owned'
      exact { owned' with }
  | some c =>
      rw [oldest] at owned'
      have rewound := owned'.setHead conforms rfl (Nat.zero_le _)
        (World.dead_touched build c.data c.used world)
        (Cell.used_within (owned'.fits c (.head _)))
        (fun asan => (owned'.dark asan c (.head _)).dead asan) 0 a.highWater
      exact { rewound with }

/-! Trim and deinit. -/

theorem Image.Sane.trim (conforms : parent.Conforms Out) (sane : a.Sane build parent Out) :
    ∃ committed world, a.trim build = .ok { a with free := [], committed, world } ∧
      Image.Sane build parent Out { a with free := [], committed, world } ∧
      a.world.Keeps (a.chain.map Cell.region) world ∧
      (a.fixed = true → committed = a.committed ∧ world.parent = a.world.parent) := by
  by_cases fixed : a.fixed = true
  · have free := (sane.buffer fixed).1
    have same : { a with free := [] } = a := by rw [← free]
    refine ⟨a.committed, a.world, ?_, ?_, .refl _ _, fun _ => ⟨rfl, rfl⟩⟩
    · rw [same]
      exact if_pos fixed
    · rw [same]
      exact sane
  · have growing : a.fixed = false := Bool.not_eq_true _ ▸ fixed
    have owned : Image.Owned build parent Out { a with chain := a.free ++ a.chain, free := [] } :=
      sane.toOwned.rearrange conforms growing
        (List.perm_append_comm.trans (.of_eq (List.append_nil _).symm)) (by simp)
    obtain ⟨committed, world, ran, keeps, owned'⟩ := owned.releaseAll conforms growing
    refine ⟨committed, world, ?_, ⟨{ owned' with }, sane.counted, sane.peak⟩, ?_,
      fun isFixed => absurd isFixed fixed⟩
    · rw [Image.trim, if_neg fixed, ran]
      rfl
    · rw [List.append_nil] at keeps
      exact keeps

theorem Image.init_sane {world : World σ} (out : Out world []) :
    Image.Sane build parent Out (Image.init parent world) where
  apart := .nil
  inside := by simp [Image.init, Image.cells]
  sized := by simp [Image.init, Image.cells]
  fits := by simp [Image.init, Image.cells]
  empty := by simp [Image.init]
  parent := rfl
  policy _ := (by decide : fixedOverhead ≤ minBlockDefault ∧ minBlockDefault ≤ maxBlockDefault ∧
    maxBlockDefault ≤ ptrdiffMax)
  out _ := out
  total _ := rfl
  buffer fixed := by cases fixed
  dark _ := by simp [Image.init, Image.cells]
  counted := Nat.le_refl _
  peak := Nat.le_refl _

theorem Image.Sane.deinit (conforms : parent.Conforms Out) (sane : a.Sane build parent Out) :
    ∃ world, a.deinit build =
        .ok { Image.init parent world with generation := (a.generation + 1) % 2 ^ 32 } ∧
      Image.Sane build parent Out
        { Image.init parent world with generation := (a.generation + 1) % 2 ^ 32 } := by
  have holder : a.parent = parent := sane.parent
  by_cases fixed : a.fixed = true
  · have nothing := (sane.buffer fixed).2.2.2
    refine ⟨a.chain.foldl (fun w c => w.light build c.data c.cap) a.world, ?_,
      { Image.init_sane (nothing _) with }⟩
    rw [Image.deinit, if_pos fixed, holder]
    rfl
  · have growing : a.fixed = false := Bool.not_eq_true _ ▸ fixed
    have owned : Image.Owned build parent Out { a with chain := a.cells ++ [], free := [] } :=
      sane.toOwned.rearrange conforms growing
        (.of_eq (by rw [List.append_nil, List.append_nil])) (by simp)
    obtain ⟨committed, world, ran, keeps, owned'⟩ := owned.releaseAll conforms growing
    refine ⟨world, ?_, { Image.init_sane (owned'.out growing) with }⟩
    rw [Image.deinit, if_neg fixed, ran, holder]
    rfl

end

end AgencC.Arena
