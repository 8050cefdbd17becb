import AgencC.Arena.Fuzz
import AgencC.Arena.Recall

/-! The fuzz driver's model beside the books of its session: each entry is live in the scope of its
level, and has its pattern. -/

set_option autoImplicit false

namespace AgencC.Arena

open Library

/-- What is live in the scope of a level, the outermost being 0. -/
def levelLive : List Ledger → Nat → List Span
  | [], _ => []
  | l :: ls, level => if level = ls.length then l.live else levelLive ls level

theorem levelLive_here (l : Ledger) (ls : List Ledger) : levelLive (l :: ls) ls.length = l.live :=
  if_pos rfl

theorem levelLive_outer {l : Ledger} {ls : List Ledger} {level : Nat} (other : level ≠ ls.length) :
    levelLive (l :: ls) level = levelLive ls level :=
  if_neg other

theorem level_lt_of_mem {ls : List Ledger} {level : Nat} {x : Span}
    (member : x ∈ levelLive ls level) : level < ls.length := by
  induction ls with
  | nil => cases member
  | cons l ls ih =>
      by_cases here : level = ls.length
      · exact here ▸ Nat.lt_succ_self _
      · rw [levelLive_outer here] at member
        exact Nat.lt_succ_of_lt (ih member)

theorem mem_live_of_level {ls : List Ledger} {level : Nat} {x : Span}
    (member : x ∈ levelLive ls level) : x ∈ ls.flatMap Ledger.live := by
  induction ls with
  | nil => cases member
  | cons l ls ih =>
      rw [List.flatMap_cons]
      by_cases here : level = ls.length
      · subst here
        rw [levelLive_here] at member
        exact List.mem_append_left _ member
      · rw [levelLive_outer here] at member
        exact List.mem_append_right _ (ih member)

def FuzzEntry.span (entry : FuzzEntry) : Span :=
  { addr := entry.ptr, size := entry.size, align := entry.align }

namespace Books

variable {b b' : Books} {entry : FuzzEntry} {entries fewer : List FuzzEntry}

/-- The entries are live, each in the scope of its level, at different addresses, and filled. -/
structure Has (b : Books) (entries : List FuzzEntry) : Prop where
  level : ∀ entry ∈ entries, entry.span ∈ levelLive b.ledgers entry.level
  distinct : (entries.map FuzzEntry.ptr).Nodup
  filled : ∀ entry ∈ entries, ∀ idx < entry.size,
    b.contents (entry.ptr + idx) = entry.pattern idx
  plain : ∀ entry ∈ entries, AlignArg entry.align

namespace Has

theorem none (b : Books) : b.Has [] where
  level _ member := nomatch member
  distinct := .nil
  filled _ member := nomatch member
  plain _ member := nomatch member

/-- Some of the entries, in any order. -/
theorem some_of (has : b.Has entries) (less : fewer.Subperm entries) : b.Has fewer where
  level entry member := has.level entry (less.subset member)
  distinct := by
    obtain ⟨others, same, sub⟩ := less
    exact (same.map _).nodup_iff.mp (has.distinct.sublist (sub.map _))
  filled entry member := has.filled entry (less.subset member)
  plain entry member := has.plain entry (less.subset member)

theorem live (has : b.Has entries) (member : entry ∈ entries) : entry.span ∈ b.live :=
  mem_live_of_level (has.level entry member)

/-- An entry of the current level. -/
theorem innermost (has : b.Has entries) (member : entry ∈ entries)
    (here : entry.level = b.outer.length) : entry.span ∈ b.scope.live := by
  have listed := has.level entry member
  have same : entry.level = (b.outer.map Prod.snd).length := by rw [here, List.length_map]
  rwa [ledgers, same, levelLive_here] at listed

/-- Other books with the same scopes, or with more in the current one. -/
theorem more (has : b.Has entries) (outer : b'.outer = b.outer)
    (scope : ∀ entry ∈ entries, entry.span ∈ b.scope.live → entry.span ∈ b'.scope.live)
    (same : ∀ entry ∈ entries, ∀ p, entry.span.Covers p → b'.contents p = b.contents p) :
    b'.Has entries where
  level entry member := by
    have listed := has.level entry member
    rw [ledgers] at listed ⊢
    rw [outer]
    by_cases here : entry.level = (b.outer.map Prod.snd).length
    · rw [here, levelLive_here] at listed ⊢
      exact scope entry member listed
    · rw [levelLive_outer here] at listed ⊢
      exact listed
  distinct := has.distinct
  filled entry member idx small := by
    have covers : entry.span.Covers (entry.ptr + idx) :=
      ⟨Nat.le_add_right _ _, Nat.add_lt_add_left small _⟩
    exact (same entry member _ covers).trans (has.filled entry member idx small)
  plain := has.plain

/-- One more entry, for what has just become live. -/
theorem add (has : b.Has entries) (outer : b'.outer = b.outer)
    (scope : b'.scope.live = entry.span :: b.scope.live)
    (fresh : ∀ x ∈ b.live, x.addr ≠ entry.ptr) (here : entry.level = b.outer.length)
    (same : ∀ x ∈ b.live, ∀ p, x.Covers p → b'.contents p = b.contents p)
    (filled : ∀ idx < entry.size, b'.contents (entry.ptr + idx) = entry.pattern idx)
    (plain : AlignArg entry.align) : b'.Has (entry :: entries) := by
  have others : b'.Has entries := has.more outer
    (fun other member listed => scope ▸ .tail _ listed)
    fun other member p covers => same _ (has.live member) p covers
  refine
    { level := List.forall_mem_cons.mpr ⟨?_, others.level⟩
      distinct := List.nodup_cons.mpr ⟨fun listed => ?_, has.distinct⟩
      filled := List.forall_mem_cons.mpr ⟨filled, others.filled⟩
      plain := List.forall_mem_cons.mpr ⟨plain, has.plain⟩ }
  · have same : entry.level = (b'.outer.map Prod.snd).length := by
      rw [here, outer, List.length_map]
    rw [ledgers, same, levelLive_here, scope]
    exact .head _
  · obtain ⟨other, member, same⟩ := List.mem_map.mp listed
    exact fresh _ (has.live member) same

/-- What an entry stands for is given up. -/
theorem drop (has : b.Has (entry :: entries)) (outer : b'.outer = b.outer)
    (scope : b'.scope.live = b.scope.live.erase entry.span)
    (same : b'.contents = b.contents) : b'.Has entries := by
  have distinct := List.nodup_cons.mp has.distinct
  have rest : b.Has entries := has.some_of (List.sublist_cons_self entry entries).subperm
  refine rest.more outer (fun other member listed => ?_) fun other member p covers => by rw [same]
  rw [scope]
  refine (List.mem_erase_of_ne fun equal => distinct.1 ?_).mpr listed
  have ptr : other.ptr = entry.ptr := congrArg Span.addr equal
  exact ptr ▸ List.mem_map_of_mem member

theorem begun (has : b.Has entries) (temp : TempT) : (b.begun temp).Has entries := by
  refine ⟨fun entry member => ?_, has.distinct, has.filled, has.plain⟩
  have listed := has.level entry member
  have below := level_lt_of_mem listed
  refine Eq.mpr (congrArg (entry.span ∈ ·) (levelLive_outer ?_)) listed
  exact Nat.ne_of_lt below

theorem ended (has : b.Has entries) {temp : TempT} {outer : Ledger} {rest : Suspended}
    (inner : b.outer = (temp, outer) :: rest)
    (below : ∀ entry ∈ entries, entry.level < b.outer.length) :
    (b.ended outer rest).Has entries := by
  refine ⟨fun entry member => ?_, has.distinct, has.filled, has.plain⟩
  have listed := has.level entry member
  have other : entry.level ≠ (b.outer.map Prod.snd).length := by
    rw [List.length_map]
    exact Nat.ne_of_lt (below entry member)
  rw [ledgers, levelLive_outer other, inner] at listed
  exact listed

end Has

end Books

/-! The changes to the model. -/

/-- The last element takes the place of another. -/
theorem perm_of_replaced {α : Type} {l : List α} {idx : Nat} {a last : α}
    (found : l[idx]? = some a) (ends : l.getLast? = some last) :
    (a :: (l.set idx last).dropLast).Perm l ∧
      ((l.set idx last).dropLast).take idx = l.take idx := by
  obtain ⟨front, rfl⟩ := List.getLast?_eq_some_iff.mp ends
  by_cases inner : idx < front.length
  · rw [List.set_append_left _ _ inner, List.dropLast_concat,
      List.take_append_of_le_length (Nat.le_of_lt inner)]
    rw [List.getElem?_append_left inner] at found
    obtain ⟨_, rfl⟩ := List.getElem?_eq_some_iff.mp found
    refine ⟨?_, List.take_set_of_le (Nat.le_refl _)⟩
    have moved := List.set_perm_cons_eraseIdx inner last
    refine (moved.cons _).trans ((List.Perm.swap _ _ _).trans ?_)
    exact ((List.getElem_cons_eraseIdx_perm inner).cons last).trans
      (List.perm_append_singleton _ _).symm
  · have same : idx = front.length := by
      have below := (List.getElem?_eq_some_iff.mp found).1
      rw [List.length_append, List.length_singleton] at below
      omega
    subst same
    rw [List.getElem?_concat_length] at found
    cases found
    rw [List.set_append_right _ _ (Nat.le_refl _), Nat.sub_self, List.set_cons_zero,
      List.dropLast_concat, List.take_left', List.take_length]
    · exact ⟨(List.perm_append_singleton _ _).symm, rfl⟩
    · rfl

/-- An entry is taken out of the model. -/
theorem fuzzRemove_spec {m : FuzzModel} {idx : Nat} {entry : FuzzEntry}
    (found : m.live[idx]? = some entry) :
    ∃ live, fuzzRemove idx m = .ok { m with live } ∧ (entry :: live).Perm m.live ∧
      live.take idx = m.live.take idx := by
  have below := (List.getElem?_eq_some_iff.mp found).1
  unfold fuzzRemove
  cases ends : m.live.getLast? with
  | none =>
      rw [List.getLast?_eq_none_iff.mp ends] at below
      exact absurd below (Nat.not_lt_zero _)
  | some last => exact ⟨_, if_pos below, perm_of_replaced found ends⟩

theorem fuzzDropLevelLoop_spec (depth : Nat) {bound idx : Nat} {m : FuzzModel}
    (inside : idx ≤ m.live.length) (steps : m.live.length < idx + bound)
    (below : ∀ entry ∈ m.live.take idx, entry.level < depth) :
    ∃ live, fuzzDropLevelLoop depth bound idx m = .ok { m with live } ∧ live.Subperm m.live ∧
      ∀ entry ∈ live, entry.level < depth := by
  induction bound generalizing idx m with
  | zero => exact absurd steps (Nat.not_lt.mpr inside)
  | succ bound ih =>
      unfold fuzzDropLevelLoop
      cases found : m.live[idx]? with
      | none =>
          have all := List.getElem?_eq_none_iff.mp found
          rw [List.take_of_length_le all] at below
          exact ⟨m.live, rfl, .refl _, below⟩
      | some entry =>
          have inside := (List.getElem?_eq_some_iff.mp found).1
          dsimp only
          by_cases deep : depth ≤ entry.level
          · obtain ⟨live, removed, same, start⟩ := fuzzRemove_spec found
            have fewer := same.length_eq
            rw [List.length_cons] at fewer
            obtain ⟨last, looped, less, low⟩ := ih (m := { m with live })
              (show idx ≤ live.length by omega) (show live.length < idx + bound by omega)
              (start ▸ below)
            rw [if_pos deep, removed, ok_bind]
            refine ⟨last, looped, less.trans ?_, low⟩
            exact ((List.sublist_cons_self entry live).subperm).trans same.subperm
          · rw [if_neg deep]
            refine ih inside (by omega) fun other member => ?_
            rw [List.take_add_one, found] at member
            cases List.mem_append.mp member with
            | inl earlier => exact below other earlier
            | inr here =>
                cases List.mem_singleton.mp here
                exact Nat.lt_of_not_le deep

/-- Every entry from a level on is dropped. -/
theorem fuzzDropLevel_spec (depth : Nat) (m : FuzzModel) :
    ∃ live, fuzzDropLevel depth m = .ok { m with live } ∧ live.Subperm m.live ∧
      ∀ entry ∈ live, entry.level < depth :=
  fuzzDropLevelLoop_spec depth (Nat.zero_le _) (by omega) fun _ member => nomatch member

end AgencC.Arena
