import AgencC.Str.Capacity

/-! The writes into a buffer with enough room, as edits of the content. -/

set_option autoImplicit false

namespace AgencC.Str

open Library

/-- Only the string's length and the bytes of its block have changed; the content
is `want`, with the terminator after it. -/
structure Committed (c : Cell) (p : Ptr) (o : Obj UInt8) (want : Bytes) (c' : Cell) : Prop where
  str : c'.str = { c.str with len := want.length }
  stores : ∃ cells, c.heap.Stores p.obj o cells c'.heap ∧ cells.take want.length = want ∧
    cells[want.length]? = some 0

theorem Committed.holds {c c' : Cell} {p : Ptr} {o : Obj UInt8} {want : Bytes}
    (holds : Holds c p o) (committed : Committed c p o want c') :
    ∃ cells, Holds c' p { o with cells } ∧ cells.length = o.cells.length ∧
      cells.take want.length = want ∧ cells[want.length]? = some 0 := by
  obtain ⟨cells, stores, taken, terminated⟩ := committed.stores
  have str := committed.str
  cases c' with
  | mk str' heap' =>
      cases str
      exact ⟨cells, holds.stores stores rfl rfl, stores.size, taken, terminated⟩

theorem Committed.wellFormed {c c' : Cell} {p : Ptr} {o : Obj UInt8} {want : Bytes}
    (holds : Holds c p o) (committed : Committed c p o want c') : WellFormed c' := by
  obtain ⟨cells, holds', _, _, terminated⟩ := committed.holds holds
  have len : c'.str.len = want.length := by rw [committed.str]
  rw [← len] at terminated
  exact .owned holds' (List.getElem?_eq_some_iff.mp terminated).1 terminated

theorem Committed.content {c c' : Cell} {p : Ptr} {o : Obj UInt8} {want : Bytes}
    (holds : Holds c p o) (committed : Committed c p o want c') : c'.content = want := by
  obtain ⟨cells, holds', _, taken, _⟩ := committed.holds holds
  rw [Cell.content, holds'.bytes, committed.str]
  exact taken

theorem Committed.frame {c c' : Cell} {p : Ptr} {o : Obj UInt8} {want : Bytes}
    (holds : Holds c p o) (committed : Committed c p o want c') : Frame c c' := by
  obtain ⟨cells, stores, _, _⟩ := committed.stores
  have str := committed.str
  cases c' with
  | mk str' heap' =>
      cases str
      exact holds.frame stores rfl

theorem overwrite_nil (cells : Bytes) (offset : Nat) : Heap.overwrite cells offset [] = cells := by
  simp [Heap.overwrite]

theorem take_overwrite (cells new : Bytes) {offset : Nat} (inside : offset ≤ cells.length) :
    (Heap.overwrite cells offset new).take (offset + new.length) = cells.take offset ++ new := by
  have length : (cells.take offset ++ new).length = offset + new.length := by
    rw [List.length_append, List.length_take, Nat.min_eq_left inside]
  rw [Heap.overwrite, ← length, List.take_left]

theorem take_overwrite_before {cells new : Bytes} {offset n : Nat} (before : n ≤ offset)
    (inside : offset ≤ cells.length) : (Heap.overwrite cells offset new).take n = cells.take n := by
  have length : n ≤ (cells.take offset).length := by
    rw [List.length_take, Nat.min_eq_left inside]
    exact before
  rw [Heap.overwrite, List.append_assoc, List.take_append_of_le_length length, List.take_take,
    Nat.min_eq_left before]

/-- `str_move_bytes` into the buffer. -/
theorem moveBytes_spec {c : Cell} {p : Ptr} {o : Obj UInt8} (holds : Holds c p o)
    (source : Source) (offset : Nat) (bytes : Bytes)
    (read : 0 < bytes.length → source.read c.heap bytes.length = .ok bytes)
    (inside : offset + bytes.length ≤ o.size) :
    ∃ heap, moveBytes (p.add offset) source bytes.length c.heap = .ok heap ∧
      c.heap.Stores p.obj o (Heap.overwrite o.cells offset bytes) heap := by
  unfold moveBytes
  by_cases empty : bytes.length = 0
  · obtain rfl := List.length_eq_zero_iff.mp empty
    rw [overwrite_nil]
    exact ⟨c.heap, if_pos empty, .refl holds.live⟩
  · have read := read (by omega)
    have given : source.isNull = false := by
      cases source with
      | array array => rfl
      | mem pointer =>
          cases pointer with
          | none => cases read
          | some q => rfl
    obtain ⟨heap, wrote, stores⟩ := holds.write offset bytes inside
    exact ⟨heap, by rw [if_neg empty, ensure_of given, ok_bind, read, ok_bind, wrote], stores⟩

/-- Writing the terminator after `want` has been put in place. -/
theorem writeTerminator_spec {c : Cell} {p : Ptr} {o : Obj UInt8} {cells want : Bytes}
    {heap : Memory} (holds : Holds c p o) (stores : c.heap.Stores p.obj o cells heap)
    (room : want.length < o.size) (placed : cells.take want.length = want) :
    ∃ c', writeTerminator { str := { c.str with len := want.length }, heap } = .ok c' ∧
      Committed c p o want c' := by
  have holds' : Holds { str := { c.str with len := want.length }, heap } p { o with cells } :=
    holds.stores stores rfl rfl
  have size : cells.length = o.size := stores.size
  obtain ⟨heap', wrote, stores'⟩ := holds'.write want.length [0]
    (by show want.length + 1 ≤ cells.length; omega)
  have pos : 0 < c.str.cap := by rw [holds.cap]; omega
  have below : want.length < c.str.cap := by rw [holds.cap]; exact room
  refine ⟨{ str := { c.str with len := want.length }, heap := heap' }, ?_, rfl,
    Heap.overwrite cells want.length [0], stores.trans stores', ?_, ?_⟩
  · simp only [writeTerminator, holds.nonNull, ok_bind, ensure_of pos, ensure_of below, wrote]
  · rw [take_overwrite_before (Nat.le_refl _) (by omega), placed]
  · rw [Heap.getElem?_overwrite (by simp; omega), if_pos ⟨Nat.le_refl _, by simp⟩, Nat.sub_self]
    rfl

theorem clearContent_spec {c : Cell} (wf : WellFormed c) :
    ∃ c', clearContent c = .ok c' ∧ WellFormed c' ∧ Frame c c' ∧ c'.content = [] ∧
      c'.str.status = c.str.status := by
  cases wf with
  | empty buf len cap =>
      refine ⟨{ c with str := { c.str with len := 0 } }, ?_, .empty buf rfl cap,
        (Frame.refl c).congr rfl rfl, rfl, rfl⟩
      simp [clearContent, cap]
  | @owned p o holds inside terminated =>
      have size : 0 < o.size := by omega
      have pos : 0 < c.str.cap := by rw [holds.cap]; exact size
      obtain ⟨heap, wrote, stores⟩ := holds.write 0 [0]
        (by show 0 + 1 ≤ o.size; omega)
      have committed : Committed c p o [] { str := { c.str with len := 0 }, heap } := by
        refine ⟨rfl, _, stores, rfl, ?_⟩
        rw [Heap.getElem?_overwrite (by show 0 + 1 ≤ o.size; omega)]
        rfl
      refine ⟨_, ?_, committed.wellFormed holds, committed.frame holds,
        committed.content holds, rfl⟩
      have start : p.add 0 = p := rfl
      rw [start] at wrote
      simp only [clearContent, if_pos pos, holds.nonNull, ok_bind, wrote]

theorem replaceContent_spec {c : Cell} {p : Ptr} {o : Obj UInt8} (holds : Holds c p o)
    {source : Source} {bytes : Bytes} (read : source.read c.heap bytes.length = .ok bytes)
    (room : bytes.length < o.size) :
    ∃ c', replaceContent source bytes.length c = .ok c' ∧ Committed c p o bytes c' := by
  obtain ⟨heap, moved, stores⟩ := moveBytes_spec holds source 0 bytes (fun _ => read) (by omega)
  have below : bytes.length < c.str.cap := by rw [holds.cap]; exact room
  have placed : (Heap.overwrite o.cells 0 bytes).take bytes.length = bytes := by
    have taken := take_overwrite o.cells bytes (Nat.zero_le o.cells.length)
    rwa [Nat.zero_add] at taken
  obtain ⟨c', wrote, committed⟩ := writeTerminator_spec holds stores room placed
  refine ⟨c', ?_, committed⟩
  have start : p.add 0 = p := rfl
  rw [start] at moved
  simp only [replaceContent, holds.nonNull, ok_bind, ensure_of below, moved, wrote]

/-- The content as a prefix of the block. -/
theorem Holds.take_len {c : Cell} {p : Ptr} {o : Obj UInt8} (holds : Holds c p o) :
    o.cells.take c.str.len = c.content := by
  rw [Cell.content, holds.bytes]

theorem appendContent_spec {c : Cell} {p : Ptr} {o : Obj UInt8} (holds : Holds c p o)
    {source : Source} {bytes : Bytes} (read : source.read c.heap bytes.length = .ok bytes)
    (room : c.str.len + bytes.length < o.size) :
    ∃ c', appendContent source bytes.length c = .ok c' ∧
      Committed c p o (c.content ++ bytes) c' := by
  have size := holds.size_lt
  have cap := holds.cap
  obtain ⟨heap, moved, stores⟩ := moveBytes_spec holds source c.str.len bytes
    (fun _ => read) (by omega)
  have length : (c.content ++ bytes).length = c.str.len + bytes.length := by
    rw [List.length_append, ← holds.take_len, List.length_take]
    unfold Obj.size at room
    omega
  have placed : (Heap.overwrite o.cells c.str.len bytes).take (c.content ++ bytes).length =
      c.content ++ bytes := by
    rw [length, take_overwrite _ _ (by unfold Obj.size at room; omega), holds.take_len]
  obtain ⟨c', wrote, committed⟩ := writeTerminator_spec holds stores (by omega) placed
  refine ⟨c', ?_, committed⟩
  have below : c.str.len < c.str.cap := by omega
  have fits : bytes.length ≤ sizeSub (sizeSub c.str.cap c.str.len) nulBytes := by
    rw [sizeSub_of_le (a := c.str.cap) (by omega) (by omega), nulBytes,
      sizeSub_of_le (by omega) (by omega)]
    omega
  rw [length] at wrote
  simp only [appendContent, holds.nonNull, ok_bind, ensure_of below, ensure_of fits, moved]
  rw [sizeAdd_of_le (by omega), wrote]

/-- A span of the string's own block as a source. -/
theorem Holds.read_at {c : Cell} {p : Ptr} {o : Obj UInt8} (holds : Holds c p o)
    {offset len : Nat} (inside : offset + len ≤ o.size) :
    (c.str.at offset).read c.heap len = .ok ((o.cells.drop offset).take len) := by
  rw [StrT.at, holds.buf]
  exact holds.read offset len inside

theorem StrT.at_add (s : StrT) (first second : Nat) :
    (s.at first).add second = s.at (first + second) := by
  cases buf : s.buf with
  | none => simp [StrT.at, Source.add, buf]
  | some p => simp [StrT.at, Source.add, buf, Ptr.add, Nat.add_assoc]

theorem length_span {cells : Bytes} {offset len : Nat} (inside : offset + len ≤ cells.length) :
    ((cells.drop offset).take len).length = len := by
  rw [List.length_take, List.length_drop]
  omega

/-- `str_move_bytes` of a span of the buffer to another place in it. -/
theorem moveWithin_spec {c : Cell} {p : Ptr} {o : Obj UInt8} (holds : Holds c p o)
    (source target len : Nat) (from_inside : source + len ≤ o.size)
    (to_inside : target + len ≤ o.size) :
    ∃ heap, moveBytes (p.add target) (c.str.at source) len c.heap = .ok heap ∧
      c.heap.Stores p.obj o
        (Heap.overwrite o.cells target ((o.cells.drop source).take len)) heap := by
  have span : ((o.cells.drop source).take len).length = len := length_span from_inside
  have moved := moveBytes_spec holds (c.str.at source) target
    ((o.cells.drop source).take len) (fun _ => by rw [span, holds.read_at from_inside])
    (by omega)
  rwa [span] at moved

theorem closeGap_spec {c : Cell} {p : Ptr} {o : Obj UInt8} (holds : Holds c p o)
    (inside : c.str.len < o.size) (idx len : Nat) (span : idx + len ≤ c.str.len) :
    ∃ c', closeGap idx len c = .ok c' ∧
      Committed c p o (c.content.take idx ++ c.content.drop (idx + len)) c' := by
  have size := holds.size_lt
  have tail : sizeAdd (sizeSub (sizeSub c.str.len idx) len) nulBytes =
      c.str.len - (idx + len) + 1 := by
    rw [sizeSub_of_le (a := c.str.len) (by omega) (by omega), sizeSub_of_le (by omega) (by omega),
      nulBytes, sizeAdd_of_le (by omega)]
    omega
  obtain ⟨heap, moved, stores⟩ := moveWithin_spec holds (idx + len) idx
    (c.str.len - (idx + len) + 1) (by omega) (by omega)
  have length : (c.content.take idx ++ c.content.drop (idx + len)).length = c.str.len - len := by
    rw [List.length_append, List.length_take, List.length_drop, ← holds.take_len,
      List.length_take]
    unfold Obj.size at inside
    omega
  have placed : (Heap.overwrite o.cells idx
        ((o.cells.drop (idx + len)).take (c.str.len - (idx + len) + 1))).take
        (c.content.take idx ++ c.content.drop (idx + len)).length =
      c.content.take idx ++ c.content.drop (idx + len) := by
    unfold Obj.size at inside
    rw [length, ← holds.take_len]
    refine List.ext_getElem? fun i => ?_
    rw [List.getElem?_take, Heap.getElem?_overwrite (by rw [length_span (by omega)]; omega),
      length_span (by omega), List.getElem?_append, List.length_take, List.length_take]
    simp only [List.getElem?_take, List.getElem?_drop]
    split_ifs <;> first
      | rfl
      | omega
      | (congr 1; omega)
  obtain ⟨c', wrote, committed⟩ := writeTerminator_spec holds stores (by omega) placed
  refine ⟨c', ?_, committed⟩
  have within : idx ≤ c.str.len := by omega
  have fits : len ≤ sizeSub c.str.len idx := by
    rw [sizeSub_of_le (by omega) (by omega)]
    omega
  rw [length] at wrote
  simp only [closeGap, holds.nonNull, ok_bind, ensure_of within, ensure_of fits, tail,
    StrT.at_add, moved]
  rw [sizeSub_of_le (by omega) (by omega), wrote]

theorem extendContent_spec {c : Cell} {p : Ptr} {o : Obj UInt8} (holds : Holds c p o)
    {len : Nat} (fill : UInt8) (grows : c.str.len < len) (room : len < o.size) :
    ∃ c', extendContent len fill c = .ok c' ∧
      Committed c p o (c.content ++ List.replicate (len - c.str.len) fill) c' := by
  have size := holds.size_lt
  have cap := holds.cap
  have gap : (List.replicate (len - c.str.len) fill).length = len - c.str.len :=
    List.length_replicate
  obtain ⟨heap, filled, stores⟩ := holds.write c.str.len
    (List.replicate (len - c.str.len) fill) (by omega)
  have length : (c.content ++ List.replicate (len - c.str.len) fill).length = len := by
    rw [List.length_append, gap, ← holds.take_len, List.length_take]
    unfold Obj.size at room
    omega
  have placed : (Heap.overwrite o.cells c.str.len
        (List.replicate (len - c.str.len) fill)).take
        (c.content ++ List.replicate (len - c.str.len) fill).length =
      c.content ++ List.replicate (len - c.str.len) fill := by
    have upto : len = c.str.len + (List.replicate (len - c.str.len) fill).length := by omega
    rw [length]
    conv => lhs; arg 1; rw [upto]
    rw [take_overwrite _ _ (by unfold Obj.size at room; omega), holds.take_len]
  obtain ⟨c', wrote, committed⟩ := writeTerminator_spec holds stores (by omega) placed
  refine ⟨c', ?_, committed⟩
  have below : len < c.str.cap := by omega
  rw [length] at wrote
  simp only [extendContent, holds.nonNull, ok_bind, ensure_of grows, ensure_of below,
    fillBytes]
  rw [sizeSub_of_le (by omega) (by omega), filled, ok_bind, wrote]

theorem Ptr.add_add (p : Ptr) (first second : Nat) :
    (p.add first).add second = p.add (first + second) := by
  simp only [Ptr.add, Nat.add_assoc]

/-- The block once the tail behind the removed span has made room for `len` bytes. -/
def shifted (cells : Bytes) (strLen idx removed len : Nat) : Bytes :=
  Heap.overwrite cells (idx + len)
    ((cells.drop (idx + removed)).take (strLen - (idx + removed) + 1))

/-- Splicing bytes into the shifted block gives the edited content. -/
theorem take_splice {cells bytes : Bytes} {strLen idx removed : Nat}
    (span : idx + removed ≤ strLen) (inside : strLen < cells.length)
    (room : strLen - removed + bytes.length < cells.length) :
    (Heap.overwrite (shifted cells strLen idx removed bytes.length) idx bytes).take
        (strLen - removed + bytes.length) =
      (cells.take strLen).take idx ++ bytes ++ (cells.take strLen).drop (idx + removed) := by
  have tail : ((cells.drop (idx + removed)).take (strLen - (idx + removed) + 1)).length =
      strLen - (idx + removed) + 1 := length_span (by omega)
  have moved : idx + bytes.length +
      ((cells.drop (idx + removed)).take (strLen - (idx + removed) + 1)).length ≤
        cells.length := by omega
  have size : (shifted cells strLen idx removed bytes.length).length = cells.length :=
    Heap.length_overwrite moved
  refine List.ext_getElem? fun i => ?_
  rw [List.getElem?_take, Heap.getElem?_overwrite (by omega), shifted,
    Heap.getElem?_overwrite moved, tail]
  simp only [List.getElem?_append, List.length_append, List.length_take, List.getElem?_take,
    List.getElem?_drop]
  split_ifs <;> first
    | rfl
    | omega
    | (congr 1; omega)

/-- Shifting the tail and putting the source into the gap. The source is read after
the shift. -/
theorem splice_spec {c : Cell} {p : Ptr} {o : Obj UInt8} (holds : Holds c p o)
    (inside : c.str.len < o.size) {source : Source} {bytes : Bytes} (idx removed : Nat)
    (span : idx + removed ≤ c.str.len) (room : c.str.len - removed + bytes.length < o.size)
    (read : ∀ heap, c.heap.Stores p.obj o (shifted o.cells c.str.len idx removed bytes.length) heap →
      0 < bytes.length → source.read heap bytes.length = .ok bytes) :
    ∃ heap heap' c',
      moveBytes (p.add (idx + bytes.length)) (c.str.at (idx + removed))
        (c.str.len - (idx + removed) + 1) c.heap = .ok heap ∧
      moveBytes (p.add idx) source bytes.length heap = .ok heap' ∧
      writeTerminator { str := { c.str with len := c.str.len - removed + bytes.length }
                        heap := heap' } = .ok c' ∧
      Committed c p o (c.content.take idx ++ bytes ++ c.content.drop (idx + removed)) c' := by
  obtain ⟨heap, moved, stores⟩ := moveWithin_spec holds (idx + removed) (idx + bytes.length)
    (c.str.len - (idx + removed) + 1) (by omega) (by omega)
  have holds' : Holds { c with heap } p
      { o with cells := shifted o.cells c.str.len idx removed bytes.length } :=
    holds.stores stores rfl rfl
  have size : (shifted o.cells c.str.len idx removed bytes.length).length = o.size := stores.size
  obtain ⟨heap', spliced, stores'⟩ := moveBytes_spec holds' source idx bytes
    (read heap stores)
    (by show idx + bytes.length ≤ (shifted o.cells c.str.len idx removed bytes.length).length
        omega)
  have length : (c.content.take idx ++ bytes ++ c.content.drop (idx + removed)).length =
      c.str.len - removed + bytes.length := by
    rw [List.length_append, List.length_append, List.length_take, List.length_drop,
      ← holds.take_len, List.length_take]
    unfold Obj.size at inside
    omega
  have placed : (Heap.overwrite (shifted o.cells c.str.len idx removed bytes.length) idx
        bytes).take (c.content.take idx ++ bytes ++ c.content.drop (idx + removed)).length =
      c.content.take idx ++ bytes ++ c.content.drop (idx + removed) := by
    rw [length, ← holds.take_len]
    exact take_splice span inside room
  obtain ⟨c', wrote, committed⟩ := writeTerminator_spec holds (stores.trans stores') (by omega)
    placed
  rw [length] at wrote
  exact ⟨heap, heap', c', moved, spliced, wrote, committed⟩

theorem commitInsert_spec {c : Cell} {p : Ptr} {o : Obj UInt8} (holds : Holds c p o)
    (inside : c.str.len < o.size) {source : Source} {bytes : Bytes} {idx : Nat}
    (span : idx ≤ c.str.len) (room : c.str.len + bytes.length < o.size)
    (given : source.isNull = false)
    (read : ∀ heap, c.heap.Stores p.obj o (shifted o.cells c.str.len idx 0 bytes.length) heap →
      0 < bytes.length → source.read heap bytes.length = .ok bytes) :
    ∃ c', commitInsert idx source bytes.length c = .ok c' ∧
      Committed c p o (c.content.take idx ++ bytes ++ c.content.drop idx) c' := by
  have size := holds.size_lt
  have cap := holds.cap
  obtain ⟨heap, heap', c', moved, spliced, wrote, committed⟩ :=
    splice_spec holds inside idx 0 (by omega) (by omega) read
  have fits : bytes.length ≤ sizeSub (sizeSub c.str.cap c.str.len) nulBytes := by
    rw [sizeSub_of_le (a := c.str.cap) (by omega) (by omega), nulBytes,
      sizeSub_of_le (by omega) (by omega)]
    omega
  have tail : sizeAdd (sizeSub c.str.len idx) nulBytes = c.str.len - idx + 1 := by
    rw [sizeSub_of_le (by omega) (by omega), nulBytes, sizeAdd_of_le (by omega)]
  have newLen : sizeAdd c.str.len bytes.length = c.str.len + bytes.length :=
    sizeAdd_of_le (by omega)
  refine ⟨c', ?_, committed⟩
  simp only [commitInsert, holds.nonNull, ok_bind, ensure_of span, ensure_of given,
    ensure_of fits, tail, newLen, Ptr.add_add]
  rw [Nat.add_zero] at moved
  rw [Nat.sub_zero] at wrote
  rw [moved, ok_bind, spliced, ok_bind, wrote]

theorem commitReplacement_spec {c : Cell} {p : Ptr} {o : Obj UInt8} (holds : Holds c p o)
    (inside : c.str.len < o.size) (replacement : Borrowed) {bytes : Bytes} {idx removeLen : Nat}
    (length : replacement.len = bytes.length) (valid : replacement.isValid = true)
    (span : idx + removeLen ≤ c.str.len) (room : c.str.len - removeLen + bytes.length < o.size)
    (read : ∀ heap,
      c.heap.Stores p.obj o (shifted o.cells c.str.len idx removeLen bytes.length) heap →
      0 < bytes.length → replacement.ptr.read heap bytes.length = .ok bytes) :
    ∃ c', commitReplacement idx removeLen replacement c = .ok c' ∧
      Committed c p o (c.content.take idx ++ bytes ++ c.content.drop (idx + removeLen)) c' := by
  have size := holds.size_lt
  have cap := holds.cap
  obtain ⟨heap, heap', c', moved, spliced, wrote, committed⟩ :=
    splice_spec holds inside idx removeLen span room read
  have within : idx ≤ c.str.len := by omega
  have fits : removeLen ≤ sizeSub c.str.len idx := by
    rw [sizeSub_of_le (by omega) (by omega)]
    omega
  have suffix : sizeAdd idx removeLen = idx + removeLen := sizeAdd_of_le (by omega)
  have tail : sizeAdd (sizeSub c.str.len (idx + removeLen)) nulBytes =
      c.str.len - (idx + removeLen) + 1 := by
    rw [sizeSub_of_le (by omega) (by omega), nulBytes, sizeAdd_of_le (by omega)]
  have newLen : sizeAdd (sizeSub c.str.len removeLen) bytes.length =
      c.str.len - removeLen + bytes.length := by
    rw [sizeSub_of_le (by omega) (by omega), sizeAdd_of_le (by omega)]
  have below : c.str.len - removeLen + bytes.length < c.str.cap := by omega
  refine ⟨c', ?_, committed⟩
  simp only [commitReplacement, holds.nonNull, ok_bind, ensure_of valid, ensure_of within,
    ensure_of fits, suffix, tail, length, newLen, ensure_of below, Ptr.add_add]
  rw [moved, ok_bind, spliced, ok_bind, wrote]

/-- An in-place replacement of a span of equal length. -/
theorem writeContent_spec {c : Cell} {p : Ptr} {o : Obj UInt8} (holds : Holds c p o)
    (inside : c.str.len < o.size) (terminated : o.cells[c.str.len]? = some 0) {source : Source}
    {bytes : Bytes} {idx : Nat} (span : idx + bytes.length ≤ c.str.len)
    (read : source.read c.heap bytes.length = .ok bytes) :
    ∃ c', writeContent idx source bytes.length c = .ok c' ∧
      Committed c p o (c.content.take idx ++ bytes ++ c.content.drop (idx + bytes.length)) c' := by
  have size := holds.size_lt
  have cap := holds.cap
  obtain ⟨heap, moved, stores⟩ := moveBytes_spec holds source idx bytes (fun _ => read)
    (by omega)
  have within : idx ≤ c.str.cap := by omega
  have fits : bytes.length ≤ sizeSub c.str.cap idx := by
    rw [sizeSub_of_le (by omega) (by omega)]
    omega
  have length : (c.content.take idx ++ bytes ++ c.content.drop (idx + bytes.length)).length =
      c.str.len := by
    rw [List.length_append, List.length_append, List.length_take, List.length_drop,
      ← holds.take_len, List.length_take]
    unfold Obj.size at inside
    omega
  refine ⟨{ c with heap }, ?_, ?_, _, stores, ?_, ?_⟩
  · simp only [writeContent, holds.nonNull, ok_bind, ensure_of within, ensure_of fits, moved]
  · rw [length]
  · unfold Obj.size at inside
    rw [length, ← holds.take_len]
    refine List.ext_getElem? fun i => ?_
    rw [List.getElem?_take, Heap.getElem?_overwrite (by omega)]
    simp only [List.getElem?_append, List.length_append, List.length_take, List.getElem?_take,
      List.getElem?_drop]
    split_ifs <;> first
      | rfl
      | omega
      | (congr 1; omega)
  · unfold Obj.size at inside
    rw [length, Heap.getElem?_overwrite (by omega), if_neg (by omega)]
    exact terminated

end AgencC.Str
