import AgencC.Str.Content
import AgencC.Str.Find
import AgencC.Str.Order
import AgencC.Str.Split
import Mathlib.Data.List.DropRight

/-! Observers of strings and of the views they lend: nothing is written, and what is read lies in
the view. -/

set_option autoImplicit false

namespace AgencC.Str

open Library

/-! Views. -/

/-- `str_make_empty_view`, into the static empty string. -/
def makeEmptyView : Borrowed := { ptr := .array [0], len := 0 }

/-- `str_make_view`. -/
def makeView (s : StrT) : Borrowed := { ptr := cstr s, len := s.len }

/-- `str_view`; a NULL string is `none`. -/
def strView : Option StrT → Borrowed
  | none => makeEmptyView
  | some s => makeView s

def viewFromN (source : Source) (len : Nat) : Borrowed :=
  if source.isNull ∧ len = 0 then makeEmptyView else { ptr := source, len }

def viewFromCString (heap : Memory) (source : Source) : Except Fault Borrowed :=
  if source.isNull then .ok makeEmptyView
  else do
    let len ← measureCString heap source
    .ok (viewFromN source len)

/-- `str_slice`: what it returns and what it leaves in `out_view`, `none` for NULL. -/
def strSlice (string : Option StrT) (outView : Option Borrowed) (offset len : Nat) :
    Status × Option Borrowed :=
  match string, outView with
  | some s, some old =>
      match validateSpan s.len offset len with
      | .ok => (.ok, some { ptr := (cstr s).add offset, len })
      | status => (status, some old)
  | _, outView => (.errArg, outView)

/-- `*source`. -/
def Source.byte (heap : Memory) (source : Source) : Except Fault UInt8 := do
  let bytes ← source.read heap 1
  match bytes with
  | [byte] => .ok byte
  | _ => .error .outOfBounds

def asciiWhitespaceBytes : List UInt8 := [0x20, 0x09, 0x0a, 0x0d, 0x0c, 0x0b]

def isAsciiWhitespace (byte : UInt8) : Bool := asciiWhitespaceBytes.any (byte == ·)

/-- The loop of `str_trim_view_left`, with the bytes left from `ptr` on. -/
def trimViewLeftLoop (heap : Memory) : Nat → Source → Except Fault Borrowed
  | 0, ptr => .ok { ptr, len := 0 }
  | len + 1, ptr => do
      let byte ← ptr.byte heap
      if isAsciiWhitespace byte then trimViewLeftLoop heap len (ptr.add 1)
      else .ok { ptr, len := len + 1 }

def trimViewLeft (heap : Memory) (view : Borrowed) : Except Fault Borrowed := do
  ensure view.isValid "str_view_is_valid(view)"
  trimViewLeftLoop heap view.len view.ptr

/-- The loop of `str_trim_view_right`: the length it ends with. -/
def trimViewRightLoop (heap : Memory) (ptr : Source) : Nat → Except Fault Nat
  | 0 => .ok 0
  | len + 1 => do
      let byte ← (ptr.add len).byte heap
      if isAsciiWhitespace byte then trimViewRightLoop heap ptr len else .ok (len + 1)

def trimViewRight (heap : Memory) (view : Borrowed) : Except Fault Borrowed := do
  ensure view.isValid "str_view_is_valid(view)"
  let len ← trimViewRightLoop heap view.ptr view.len
  .ok { view with len }

def viewTrim (heap : Memory) (view : Borrowed) : Except Fault Borrowed :=
  if ¬ view.isValid ∨ view.len = 0 then .ok makeEmptyView
  else do
    let trimmed ← trimViewLeft heap view
    trimViewRight heap trimmed

/-- A borrowed view as comparisons and searches read it; of an empty one nothing is read. -/
def Borrowed.seen (heap : Memory) (view : Borrowed) : Except Fault View :=
  if fits : view.len ≤ sizeMax then
    if view.ptr.isNull then .ok { ptr := none, len := view.len, fits, readable := nofun }
    else if view.len = 0 then .ok (.ofBytes [] (Nat.zero_le _))
    else do
      let bytes ← view.ptr.read heap view.len
      if whole : bytes.length ≤ sizeMax then .ok (.ofBytes bytes whole) else .error .outOfBounds
  else .error .outOfBounds

/-! Observers. -/

def strLen : Option StrT → Nat
  | none => 0
  | some s => s.len

def strCapacity : Option StrT → Nat
  | none => 0
  | some s => if s.cap = 0 then 0 else sizeSub s.cap nulBytes

def strIsEmpty (string : Option StrT) : Bool := strLen string == 0

def strStatus : Option StrT → Status
  | none => .errArg
  | some s => s.status

def strOk : Option StrT → Bool
  | none => false
  | some s => s.status = .ok

def strFailed (string : Option StrT) : Bool := !strOk string

section
variable (memcmp : Memcmp) (heap : Memory)

def strEquals : Option StrT → Option StrT → Except Fault Bool
  | some s, some t => do
      let left ← (makeView s).seen heap
      let right ← (makeView t).seen heap
      isViewContentEqual memcmp left right
  | _, _ => .ok false

/-- The comparisons of a string with a C string, over what they ask of the two views. -/
def againstCString (compare : View → View → Except Fault Bool) (string : Option StrT)
    (other : Source) : Except Fault Bool :=
  match string with
  | none => .ok false
  | some s =>
      if other.isNull then .ok false
      else do
        let value ← (makeView s).seen heap
        let view ← viewFromCString heap other
        let other ← view.seen heap
        compare value other

def strEqualsCString : Option StrT → Source → Except Fault Bool :=
  againstCString heap (isViewContentEqual memcmp)

def strStartsWith : Option StrT → Source → Except Fault Bool :=
  againstCString heap (hasViewPrefix memcmp)

def strEndsWith : Option StrT → Source → Except Fault Bool :=
  againstCString heap (hasViewSuffix memcmp)

/-- `str_find`: what it returns and what it leaves in `out_idx`, `none` for NULL. -/
def strFind (string : Option StrT) (outIdx : Option Nat) (needle : Source) :
    Except Fault (Status × Option Nat) :=
  match string, outIdx with
  | some s, some old =>
      if needle.isNull then .ok (.errArg, some old)
      else do
        let haystack ← (makeView s).seen heap
        let needleView ← viewFromCString heap needle
        let needle ← needleView.seen heap
        let idx ← locateViewMatch haystack needle .first
        .ok (.ok, some idx)
  | _, outIdx => .ok (.errArg, outIdx)

def strFindChar (string : Option StrT) (outIdx : Option Nat) (byte : UInt8) :
    Except Fault (Status × Option Nat) :=
  match string, outIdx with
  | some s, some _ => do
      let haystack ← (makeView s).seen heap
      let needle ← (viewFromN (.array [byte]) 1).seen heap
      let idx ← locateViewMatch haystack needle .first
      .ok (.ok, some idx)
  | _, outIdx => .ok (.errArg, outIdx)

end

/-! Trimming. -/

theorem Source.add_zero (source : Source) : source.add 0 = source := by
  cases source with
  | mem p => cases p <;> rfl
  | array bytes => rfl

theorem Source.add_add (source : Source) (i j : Nat) :
    (source.add i).add j = source.add (i + j) := by
  cases source with
  | mem p =>
      cases p with
      | none => rfl
      | some p => simp only [Source.add, Option.map_some, Ptr.add, Nat.add_assoc]
  | array bytes => simp only [Source.add, List.drop_drop]

theorem Source.isNull_add (source : Source) (i : Nat) : (source.add i).isNull = source.isNull := by
  cases source with
  | mem p => cases p <;> rfl
  | array bytes => rfl

/-- The bytes from `ptr` on, one by one. -/
def Source.Lists (heap : Memory) (ptr : Source) (bytes : Bytes) : Prop :=
  ∀ i byte, bytes[i]? = some byte → (ptr.add i).byte heap = .ok byte

theorem Borrowed.Reads.given {heap : Memory} {view : Borrowed} {bytes : Bytes}
    (reads : view.Reads heap bytes) (valid : view.isValid = true) (pos : 0 < bytes.length) :
    view.ptr.isNull = false := by
  have length := reads.length
  cases null : view.ptr.isNull with
  | false => rfl
  | true =>
      have empty : view.len = 0 := by simpa [Borrowed.isValid, null] using valid
      omega

theorem Borrowed.Reads.lists {heap : Memory} {view : Borrowed} {bytes : Bytes}
    (reads : view.Reads heap bytes) (valid : view.isValid = true) :
    view.ptr.Lists heap bytes := by
  intro i byte found
  have length := reads.length
  obtain ⟨inside, rfl⟩ := List.getElem?_eq_some_iff.mp found
  have read := reads.read (by omega) (reads.given valid (by omega))
  rw [Source.byte, Source.read_within read (by omega), ok_bind, List.drop_eq_getElem_cons inside]
  rfl

/-- Part of a view. -/
theorem Borrowed.Reads.part {heap : Memory} {view : Borrowed} {front text back : Bytes}
    (reads : view.Reads heap (front ++ text ++ back)) :
    Borrowed.Reads heap { ptr := view.ptr.add front.length, len := text.length } text := by
  have length := reads.length
  rw [List.length_append, List.length_append] at length
  refine ⟨rfl, fun pos given => ?_⟩
  rw [Source.isNull_add] at given
  have pos : 0 < text.length := pos
  have read : (view.ptr.add front.length).read heap text.length =
      .ok (((front ++ text ++ back).drop front.length).take text.length) :=
    Source.read_within (reads.read (by omega) given) (by omega)
  rwa [List.append_assoc, List.drop_left, List.take_left] at read

section
variable {heap : Memory}

theorem trimViewLeftLoop_eq {bytes : Bytes} {ptr : Source} (lists : ptr.Lists heap bytes) :
    trimViewLeftLoop heap bytes.length ptr =
      .ok { ptr := ptr.add (bytes.takeWhile isAsciiWhitespace).length,
            len := (bytes.dropWhile isAsciiWhitespace).length } := by
  induction bytes generalizing ptr with
  | nil => rw [List.takeWhile_nil, List.dropWhile_nil, List.length_nil, Source.add_zero]; rfl
  | cons byte bytes ih =>
      have first : ptr.byte heap = .ok byte := by
        have head := lists 0 byte rfl
        rwa [Source.add_zero] at head
      have rest : (ptr.add 1).Lists heap bytes := by
        intro i byte' found
        rw [Source.add_add, Nat.add_comm]
        exact lists (i + 1) byte' found
      rw [List.length_cons, trimViewLeftLoop, first, ok_bind]
      by_cases blank : isAsciiWhitespace byte = true
      · rw [if_pos blank, ih rest, List.takeWhile_cons_of_pos blank,
          List.dropWhile_cons_of_pos blank, Source.add_add, List.length_cons, Nat.add_comm]
      · rw [if_neg blank, List.takeWhile_cons_of_neg blank, List.dropWhile_cons_of_neg blank,
          List.length_nil, Source.add_zero, List.length_cons]

theorem trimViewRightLoop_eq {bytes : Bytes} {ptr : Source} (lists : ptr.Lists heap bytes) :
    trimViewRightLoop heap ptr bytes.length =
      .ok (bytes.rdropWhile isAsciiWhitespace).length := by
  induction bytes using List.reverseRecOn with
  | nil => rfl
  | append_singleton bytes byte ih =>
      have last : (ptr.add bytes.length).byte heap = .ok byte :=
        lists bytes.length byte List.getElem?_concat_length
      have front : ptr.Lists heap bytes := by
        intro i byte' found
        have inside := (List.getElem?_eq_some_iff.mp found).1
        exact lists i byte' ((List.getElem?_append_left inside).trans found)
      rw [List.length_append, List.length_singleton, trimViewRightLoop, last, ok_bind]
      by_cases blank : isAsciiWhitespace byte = true
      · rw [if_pos blank, ih front, List.rdropWhile_concat_pos _ _ _ blank]
      · rw [if_neg blank, List.rdropWhile_concat_neg _ _ _ blank, List.length_append,
          List.length_singleton]

/-- What trimming leaves of a text. -/
def trimmed (bytes : Bytes) : Bytes :=
  (bytes.dropWhile isAsciiWhitespace).rdropWhile isAsciiWhitespace

theorem trimmed_parts (bytes : Bytes) :
    ∃ back, bytes = bytes.takeWhile isAsciiWhitespace ++ trimmed bytes ++ back := by
  obtain ⟨back, rest⟩ := List.rdropWhile_prefix isAsciiWhitespace
    (l := bytes.dropWhile isAsciiWhitespace)
  refine ⟨back, ?_⟩
  rw [List.append_assoc, trimmed, rest, List.takeWhile_append_dropWhile]

/-- Trimming leaves a view of the text without the whitespace at its ends. -/
theorem viewTrim_reads {view : Borrowed} {bytes : Bytes} (valid : view.isValid = true)
    (reads : view.Reads heap bytes) :
    ∃ view', viewTrim heap view = .ok view' ∧ view'.isValid = true ∧
      view'.Reads heap (trimmed bytes) := by
  have length := reads.length
  by_cases none : view.len = 0
  · refine ⟨makeEmptyView, if_pos (.inr none), rfl, ?_⟩
    obtain rfl : bytes = [] := List.eq_nil_of_length_eq_zero (length.trans none)
    exact ⟨rfl, fun pos => absurd pos (Nat.lt_irrefl 0)⟩
  · have accepted : ¬ (¬ view.isValid = true ∨ view.len = 0) := by simp [valid, none]
    have given := reads.given valid (by omega)
    have lists := reads.lists valid
    have left := trimViewLeftLoop_eq lists
    rw [length] at left
    have parted : view.Reads heap (bytes.takeWhile isAsciiWhitespace ++
        bytes.dropWhile isAsciiWhitespace ++ []) := by
      rwa [List.append_nil, List.takeWhile_append_dropWhile]
    have rest := parted.part
    have validRest : ∀ (i len : Nat), Borrowed.isValid { ptr := view.ptr.add i, len } = true :=
      fun i len => by simp [Borrowed.isValid, Source.isNull_add, given]
    have right := trimViewRightLoop_eq (rest.lists (validRest _ _))
    obtain ⟨back, whole⟩ := trimmed_parts bytes
    refine ⟨_, ?_, validRest _ _, Borrowed.Reads.part (whole ▸ reads)⟩
    simp only [viewTrim, if_neg accepted, trimViewLeft, trimViewRight, ensure_of valid, left,
      ok_bind, ensure_of (validRest _ _), right]
    rfl

/-! Views of strings and of C strings. -/

theorem Borrowed.Reads.seen {view : Borrowed} {bytes : Bytes} (valid : view.isValid = true)
    (reads : view.Reads heap bytes) (fits : bytes.length ≤ sizeMax) :
    ∃ seen, view.seen heap = .ok seen ∧ viewIsValid seen ∧ seen.bytes = bytes := by
  have length := reads.length
  have bound : view.len ≤ sizeMax := by omega
  rw [Borrowed.seen, dif_pos bound]
  cases null : view.ptr.isNull with
  | true =>
      have none : view.len = 0 := by simpa [Borrowed.isValid, null] using valid
      obtain rfl : bytes = [] := List.eq_nil_of_length_eq_zero (length.trans none)
      exact ⟨_, if_pos rfl, by simp [viewIsValid, none], List.take_nil⟩
  | false =>
      rw [if_neg (by decide)]
      by_cases none : view.len = 0
      · obtain rfl : bytes = [] := List.eq_nil_of_length_eq_zero (length.trans none)
        exact ⟨_, if_pos none, rfl, rfl⟩
      · rw [if_neg none, reads.read (by omega) null, ok_bind, dif_pos fits]
        exact ⟨_, rfl, rfl, List.take_length⟩

theorem makeView_reads {s : StrT} (wf : WellFormed { str := s, heap }) :
    (makeView s).isValid = true ∧
      (makeView s).Reads heap (Cell.content { str := s, heap }) := by
  obtain ⟨given, read⟩ := cstr_read wf
  refine ⟨?_, wf.length_content, fun pos _ => read.resolve_left (Nat.ne_of_gt pos)⟩
  cases Nat.eq_zero_or_pos s.len with
  | inl none => simp [makeView, Borrowed.isValid, none]
  | inr pos => simp [makeView, Borrowed.isValid, given pos]

theorem makeEmptyView_reads : makeEmptyView.Reads heap [] :=
  ⟨rfl, fun pos => absurd pos (Nat.lt_irrefl 0)⟩

theorem viewFromN_reads {source : Source} {len : Nat} {bytes : Bytes}
    (read : 0 < len → source.read heap len = .ok bytes) (length : bytes.length = len) :
    (viewFromN source len).isValid = true ∧ (viewFromN source len).Reads heap bytes := by
  by_cases nothing : source.isNull = true ∧ len = 0
  · obtain rfl : bytes = [] := List.eq_nil_of_length_eq_zero (length.trans nothing.2)
    rw [viewFromN, if_pos nothing]
    exact ⟨rfl, makeEmptyView_reads⟩
  · rw [viewFromN, if_neg nothing]
    refine ⟨?_, length, fun pos _ => read pos⟩
    by_cases none : len = 0
    · simp [Borrowed.isValid, none]
    · have given : source.isNull = false := by
        cases source with
        | array bytes => rfl
        | mem p =>
            cases p with
            | some p => rfl
            | none => cases read (Nat.pos_of_ne_zero none)
      simp [Borrowed.isValid, given]

theorem Source.given_of_cString {source : Source} {text : Bytes}
    (found : source.cString heap = .ok text) : source.isNull = false := by
  cases source with
  | array bytes => rfl
  | mem p =>
      cases p with
      | some p => rfl
      | none => cases found

theorem viewFromCString_reads {source : Source} {text : Bytes}
    (found : source.cString heap = .ok text) :
    ∃ view, viewFromCString heap source = .ok view ∧ view.isValid = true ∧
      view.Reads heap text := by
  have given := Source.given_of_cString found
  refine ⟨viewFromN source text.length, ?_, viewFromN_reads (fun _ => Source.read_text found) rfl⟩
  simp only [viewFromCString, given, Bool.false_eq_true, if_false, measureCString,
    ensure_of trivial, found, ok_bind]

end

end AgencC.Str
