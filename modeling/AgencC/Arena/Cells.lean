import AgencC.Arena.Parent
import AgencC.Library.LinkedList
import Mathlib.Data.List.Pairwise

/-! The lists an arena keeps its blocks in, and how the stored headers hold them. -/

set_option autoImplicit false

namespace AgencC.Arena

open Library

/-- A block, less its link. -/
structure Cell where
  addr : Nat
  cap : Nat
  used : Nat
  oversize : Bool
  deriving DecidableEq, Repr

def Cell.data (c : Cell) : Nat := c.addr + blockHdr

def Cell.cursor (c : Cell) : Nat := c.addr + blockHdr + c.used

/-- Header and data. -/
def Cell.region (c : Cell) : Region := { addr := c.addr, size := blockHdr + c.cap }

def Cell.header (link : Nat) (c : Cell) : Block :=
  { link, cap := c.cap, used := c.used, oversize := c.oversize }

/-- A block, whatever it has consumed. -/
def Cell.bare (c : Cell) : Cell := { c with used := 0 }

def Cell.layout : Layout Cell Block := { addr := Cell.addr, node := Cell.header }

@[simp] theorem Cell.layout_addr (c : Cell) : Cell.layout.addr c = c.addr := rfl

@[simp] theorem Cell.layout_node (link : Nat) (c : Cell) :
    Cell.layout.node link c = c.header link := rfl

/-- Data bytes consumed on a chain. -/
def consumed (chain : List Cell) : Nat := (chain.map Cell.used).sum

@[simp] theorem consumed_nil : consumed [] = 0 := rfl

@[simp] theorem consumed_cons (c : Cell) (cs : List Cell) :
    consumed (c :: cs) = c.used + consumed cs := rfl

/-- `x` is a data byte that a block of the chain has consumed. -/
def Below (chain : List Cell) (x : Nat) : Prop := ∃ c ∈ chain, c.data ≤ x ∧ x < c.cursor

/-- The stored headers are those of a chain, of a free list, and of blocks on
neither list, whose links may be anything. -/
structure Holds (blocks : Blocks) (chain free loose : List Cell) : Prop where
  linked : Cell.layout.Linked blocks.lookup chain
  linkedFree : Cell.layout.Linked blocks.lookup free
  stored : ∀ c ∈ loose, c.addr ≠ 0 ∧ ∃ link, blocks.lookup c.addr = some (c.header link)
  only : ∀ addr ∈ blocks, ∃ c ∈ chain ++ (free ++ loose), c.addr = addr
  distinct : ((chain ++ (free ++ loose)).map Cell.addr).Nodup

namespace Holds

variable {blocks blocks' : Blocks} {chain free loose cs : List Cell} {c e : Cell}

theorem found (holds : Holds blocks chain free loose) (member : c ∈ chain ++ (free ++ loose)) :
    c.addr ≠ 0 ∧ ∃ link, blocks.lookup c.addr = some (c.header link) := by
  cases List.mem_append.mp member with
  | inl chained => exact ⟨holds.linked.nonzero chained, holds.linked.found chained⟩
  | inr other =>
      cases List.mem_append.mp other with
      | inl free => exact ⟨holds.linkedFree.nonzero free, holds.linkedFree.found free⟩
      | inr loose => exact holds.stored c loose

/-- There are no more blocks than headers. -/
theorem length_le (holds : Holds blocks chain free loose) :
    (chain ++ (free ++ loose)).length ≤ blocks.entries.length := by
  have stored : ∀ d ∈ chain ++ (free ++ loose), Cell.layout.addr d ∈ blocks.keys := by
    intro d member
    obtain ⟨_, link, found⟩ := holds.found member
    exact AList.lookup_isSome.mp (by rw [Cell.layout_addr, found]; rfl)
  have count := Layout.length_le holds.distinct stored
  have keys : blocks.keys.length = blocks.entries.length := List.length_map _
  exact keys ▸ count

/-- Which blocks there are does not depend on the list each is on. -/
theorem only_perm (holds : Holds blocks chain free loose) {cells : List Cell}
    (perm : (chain ++ (free ++ loose)).Perm cells) :
    ∀ addr ∈ blocks, ∃ c ∈ cells, c.addr = addr := by
  intro addr stored
  obtain ⟨d, member, same⟩ := holds.only addr stored
  exact ⟨d, perm.mem_iff.mp member, same⟩

theorem distinct_perm (holds : Holds blocks chain free loose) {cells : List Cell}
    (perm : (chain ++ (free ++ loose)).Perm cells) : (cells.map Cell.addr).Nodup :=
  (perm.map Cell.addr).nodup_iff.mp holds.distinct

theorem perm_loose (c : Cell) (chain free loose : List Cell) :
    (c :: (chain ++ (free ++ loose))).Perm (chain ++ (free ++ c :: loose)) := by
  rw [← List.append_assoc, ← List.append_assoc]
  exact List.perm_middle.symm

theorem perm_free (c : Cell) (chain free loose : List Cell) :
    (c :: (chain ++ (free ++ loose))).Perm (chain ++ (c :: free ++ loose)) :=
  List.perm_middle.symm

/-- The newest block leaves the chain. -/
theorem detach (holds : Holds blocks (c :: cs) free loose) :
    Holds blocks cs free (c :: loose) where
  linked := holds.linked.2.2
  linkedFree := holds.linkedFree
  stored d member := by
    cases member with
    | head => exact ⟨holds.linked.1, _, holds.linked.2.1⟩
    | tail _ other => exact holds.stored d other
  only := holds.only_perm (perm_loose c cs free loose)
  distinct := holds.distinct_perm (perm_loose c cs free loose)

theorem others (holds : Holds blocks chain free (c :: loose)) {d : Cell}
    (member : d ∈ chain ++ (free ++ loose)) : d.addr ≠ c.addr := by
  have front := holds.distinct_perm (perm_loose c chain free loose).symm
  intro same
  refine (List.nodup_cons.mp front).1 ?_
  rw [← same]
  exact List.mem_map_of_mem member

/-- Rewriting the header of a block on neither list. -/
theorem rewrite (holds : Holds blocks chain free (c :: loose)) (same : e.addr = c.addr)
    (link : Nat) :
    Holds (blocks.insert c.addr (e.header link)) chain free (e :: loose) where
  linked := holds.linked.congr fun d member =>
    AList.lookup_insert_ne (holds.others (List.mem_append_left _ member))
  linkedFree := holds.linkedFree.congr fun d member =>
    AList.lookup_insert_ne (holds.others (List.mem_append_right _ (List.mem_append_left _ member)))
  stored d member := by
    cases member with
    | head =>
        rw [same]
        exact ⟨(holds.stored c (.head _)).1, link, AList.lookup_insert _⟩
    | tail _ other =>
        rw [AList.lookup_insert_ne
          (holds.others (List.mem_append_right _ (List.mem_append_right _ other)))]
        exact holds.stored d (.tail _ other)
  only addr stored := by
    cases (AList.mem_insert _).mp stored with
    | inl here =>
        refine ⟨e, ?_, same.trans here.symm⟩
        simp
    | inr old =>
        obtain ⟨d, member, equal⟩ := holds.only addr old
        simp only [List.mem_append, List.mem_cons] at member ⊢
        grind
  distinct := by
    have before := holds.distinct
    simp only [List.map_append, List.map_cons] at before ⊢
    rwa [same]

/-- A block whose link leads to the chain joins it. -/
theorem attach (holds : Holds blocks cs free (c :: loose))
    (link : blocks.lookup c.addr = some (c.header (Cell.layout.first cs))) :
    Holds blocks (c :: cs) free loose where
  linked := ⟨(holds.stored c (.head _)).1, link, holds.linked⟩
  linkedFree := holds.linkedFree
  stored d member := holds.stored d (.tail _ member)
  only := holds.only_perm (perm_loose c cs free loose).symm
  distinct := holds.distinct_perm (perm_loose c cs free loose).symm

/-- A block whose link leads to the free list joins it. -/
theorem attachFree (holds : Holds blocks chain cs (c :: loose))
    (link : blocks.lookup c.addr = some (c.header (Cell.layout.first cs))) :
    Holds blocks chain (c :: cs) loose where
  linked := holds.linked
  linkedFree := ⟨(holds.stored c (.head _)).1, link, holds.linkedFree⟩
  stored d member := holds.stored d (.tail _ member)
  only := holds.only_perm ((perm_loose c chain cs loose).symm.trans (perm_free c chain cs loose))
  distinct := holds.distinct_perm ((perm_loose c chain cs loose).symm.trans (perm_free c chain cs loose))

/-- A block on neither list is given up. -/
theorem erase (holds : Holds blocks chain free (c :: loose)) :
    Holds (blocks.erase c.addr) chain free loose where
  linked := holds.linked.congr fun d member =>
    AList.lookup_erase_ne (holds.others (List.mem_append_left _ member))
  linkedFree := holds.linkedFree.congr fun d member =>
    AList.lookup_erase_ne (holds.others (List.mem_append_right _ (List.mem_append_left _ member)))
  stored d member := by
    rw [AList.lookup_erase_ne
      (holds.others (List.mem_append_right _ (List.mem_append_right _ member)))]
    exact holds.stored d (.tail _ member)
  only addr stored := by
    obtain ⟨other, old⟩ := AList.mem_erase.mp stored
    obtain ⟨d, member, same⟩ := holds.only addr old
    refine ⟨d, ?_, same⟩
    simp only [List.mem_append, List.mem_cons] at member ⊢
    grind
  distinct := by
    refine List.Nodup.sublist (List.Sublist.map _ ?_) holds.distinct
    exact ((List.sublist_cons_self c loose).append_left free).append_left chain

/-- A block is obtained. -/
theorem add (holds : Holds blocks chain free loose) (nonzero : c.addr ≠ 0)
    (fresh : ∀ d ∈ chain ++ (free ++ loose), d.addr ≠ c.addr) (link : Nat) :
    Holds (blocks.insert c.addr (c.header link)) chain free (c :: loose) where
  linked := holds.linked.congr fun d member =>
    AList.lookup_insert_ne (fresh d (List.mem_append_left _ member))
  linkedFree := holds.linkedFree.congr fun d member =>
    AList.lookup_insert_ne (fresh d (List.mem_append_right _ (List.mem_append_left _ member)))
  stored d member := by
    cases member with
    | head => exact ⟨nonzero, link, AList.lookup_insert _⟩
    | tail _ other =>
        rw [AList.lookup_insert_ne
          (fresh d (List.mem_append_right _ (List.mem_append_right _ other)))]
        exact holds.stored d other
  only addr stored := by
    cases (AList.mem_insert _).mp stored with
    | inl here =>
        refine ⟨c, ?_, here.symm⟩
        simp
    | inr old =>
        obtain ⟨d, member, equal⟩ := holds.only addr old
        exact ⟨d, (perm_loose c chain free loose).mem_iff.mp (.tail _ member), equal⟩
  distinct := by
    have front : ((c :: (chain ++ (free ++ loose))).map Cell.addr).Nodup := by
      refine List.nodup_cons.mpr ⟨?_, holds.distinct⟩
      intro member
      obtain ⟨d, listed, same⟩ := List.mem_map.mp member
      exact fresh d listed same
    exact ((perm_loose c chain free loose).map Cell.addr).nodup_iff.mp front

/-- The first block leaves the free list. -/
theorem detachFree (holds : Holds blocks chain (c :: cs) loose) :
    Holds blocks chain cs (c :: loose) where
  linked := holds.linked
  linkedFree := holds.linkedFree.2.2
  stored d member := by
    cases member with
    | head => exact ⟨holds.linkedFree.1, _, holds.linkedFree.2.1⟩
    | tail _ other => exact holds.stored d other
  only := holds.only_perm ((perm_free c chain cs loose).symm.trans (perm_loose c chain cs loose))
  distinct := holds.distinct_perm ((perm_free c chain cs loose).symm.trans (perm_loose c chain cs loose))

/-- A later block leaves the free list, its predecessor led past it. -/
theorem unlink {xs rest : List Cell} {d : Cell}
    (holds : Holds blocks chain (xs ++ d :: c :: rest) loose) :
    Holds (blocks.insert d.addr (d.header (Cell.layout.first rest))) chain (xs ++ d :: rest)
      (c :: loose) := by
  have moved : (chain ++ ((xs ++ d :: c :: rest) ++ loose)).Perm
      (chain ++ ((xs ++ d :: rest) ++ c :: loose)) := by
    apply List.Perm.append_left
    have split : xs ++ d :: c :: rest ++ loose = (xs ++ [d]) ++ c :: (rest ++ loose) := by simp
    have join : xs ++ d :: rest ++ c :: loose = ((xs ++ [d]) ++ rest) ++ c :: loose := by simp
    rw [split, join]
    refine List.perm_middle.trans (List.Perm.trans ?_ List.perm_middle.symm)
    rw [List.append_assoc (xs ++ [d])]
  have apart : ∀ e ∈ chain ++ (xs ++ (rest ++ (c :: loose))), e.addr ≠ d.addr := by
    have front : ((d :: (chain ++ (xs ++ (rest ++ (c :: loose))))).map Cell.addr).Nodup := by
      refine (List.Perm.map _ ?_).nodup_iff.mp (holds.distinct_perm moved)
      have split : chain ++ (xs ++ d :: rest ++ c :: loose) =
          (chain ++ xs) ++ d :: (rest ++ c :: loose) := by simp
      rw [split, ← List.append_assoc chain]
      exact List.perm_middle
    intro e member same
    refine (List.nodup_cons.mp front).1 ?_
    rw [← same]
    exact List.mem_map_of_mem member
  have keep : ∀ e ∈ chain ++ (xs ++ (rest ++ (c :: loose))),
      (blocks.insert d.addr (d.header (Cell.layout.first rest))).lookup e.addr =
        blocks.lookup e.addr := fun e member => AList.lookup_insert_ne (apart e member)
  have old := holds.linkedFree.drop xs
  exact
    { linked := holds.linked.congr fun e member => keep e (List.mem_append_left _ member)
      linkedFree := by
        refine holds.linkedFree.relink (old.2.2.2.2.congr fun e member => ?_) rfl
          (AList.lookup_insert _) fun e member => ?_
        · exact keep e (by simp [member])
        · exact keep e (by simp [member])
      stored := by
        intro e member
        have kept := keep e (by simp only [List.mem_append]; exact .inr (.inr (.inr member)))
        rw [kept]
        cases member with
        | head => exact ⟨old.2.2.1, _, old.2.2.2.1⟩
        | tail _ other => exact holds.stored e other
      only := by
        intro addr stored
        have known : addr ∈ blocks := by
          cases (AList.mem_insert _).mp stored with
          | inl here =>
              have found : blocks.lookup d.addr = some (d.header c.addr) := old.2.1
              rw [here]
              exact AList.lookup_isSome.mp (by rw [found]; rfl)
          | inr before => exact before
        exact holds.only_perm moved addr known
      distinct := holds.distinct_perm moved }

end Holds

end AgencC.Arena
