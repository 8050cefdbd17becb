import AgencC.Str.Observers
import AgencC.Str.Store

/-! Queries on the strings of a program and on views of them. What they answer is a function of
the store: an observer sees byte lists and statuses, and nothing else of a string. -/

set_option autoImplicit false

namespace AgencC.Str

open Library

/-- A view a caller makes, over where its own bytes and C strings come from. -/
inductive Viewing (ι : Type) where
  | whole (string : Option Nat)
  | slice (string : Nat) (offset len : Size)
  | cString (source : ι)
  | span (source : ι) (len : Size)
  | trim (view : Viewing ι)

/-- A call of an observer. An out parameter is `false`, or `none`, when NULL is passed for it. -/
inductive Query (ι : Type) where
  | len (string : Option Nat)
  | isEmpty (string : Option Nat)
  | status (string : Option Nat)
  | ok (string : Option Nat)
  | failed (string : Option Nat)
  | cstr (string : Option Nat)
  | equals (string other : Option Nat)
  | equalsCString (string : Option Nat) (other : ι)
  | startsWith (string : Option Nat) (start : ι)
  | endsWith (string : Option Nat) (suffix : ι)
  | find (string : Option Nat) (outIdx : Option Nat) (needle : ι)
  | findChar (string : Option Nat) (outIdx : Option Nat) (byte : UInt8)
  | slice (string : Option Nat) (outView : Bool) (offset len : Size)
  | viewBytes (view : Viewing ι)
  | viewEquals (left right : Viewing ι)
  | viewCompare (outOrder : Bool) (left right : Viewing ι)
  | viewStartsWith (value start : Viewing ι)
  | viewEndsWith (value suffix : Viewing ι)
  | viewFind (haystack : Viewing ι) (outIdx : Option Nat) (needle : Viewing ι)
  | viewRfind (haystack : Viewing ι) (outIdx : Option Nat) (needle : Viewing ι)
  | split (source : Viewing ι) (cap : Nat) (separator : UInt8)

inductive Answer where
  | size (n : Nat)
  | flag (b : Bool)
  | status (status : Status)
  | index (status : Status) (outIdx : Option Nat)
  | order (order : Except Status Int)
  | text (status : Status) (bytes : Bytes)
  | parts (status : Status) (count : Nat) (parts : List Bytes)

/-! On the machine. -/

section
variable (m : Machine)

/-- The view a caller ends with. One that `str_slice` refuses to write is still empty. -/
def Viewing.view : Viewing Source → Except Fault Borrowed
  | .whole string => .ok (strView (string.map m.strs))
  | .slice i offset len =>
      .ok ((strSlice (some (m.strs i)) (some makeEmptyView) offset len).2.getD makeEmptyView)
  | .cString source => viewFromCString m.heap source
  | .span source len => .ok (viewFromN source len)
  | .trim view => do
      let view ← view.view
      viewTrim m.heap view

/-- The view as the callee reads it. -/
def Viewing.seen (view : Viewing Source) : Except Fault View := do
  let view ← view.view m
  view.seen m.heap

variable (memcmp : Memcmp)

def Machine.ask : Query Source → Except Fault Answer
  | .len string => .ok (.size (strLen (string.map m.strs)))
  | .isEmpty string => .ok (.flag (strIsEmpty (string.map m.strs)))
  | .status string => .ok (.status (strStatus (string.map m.strs)))
  | .ok string => .ok (.flag (strOk (string.map m.strs)))
  | .failed string => .ok (.flag (strFailed (string.map m.strs)))
  | .cstr string => do
      let text ← (((string.map m.strs).map Str.cstr).getD (.array [0])).cString m.heap
      .ok (.text .ok text)
  | .equals string other => do
      let answer ← strEquals memcmp m.heap (string.map m.strs) (other.map m.strs)
      .ok (.flag answer)
  | .equalsCString string other => do
      let answer ← strEqualsCString memcmp m.heap (string.map m.strs) other
      .ok (.flag answer)
  | .startsWith string start => do
      let answer ← strStartsWith memcmp m.heap (string.map m.strs) start
      .ok (.flag answer)
  | .endsWith string suffix => do
      let answer ← strEndsWith memcmp m.heap (string.map m.strs) suffix
      .ok (.flag answer)
  | .find string outIdx needle => do
      let (status, outIdx) ← strFind m.heap (string.map m.strs) outIdx needle
      .ok (.index status outIdx)
  | .findChar string outIdx byte => do
      let (status, outIdx) ← strFindChar m.heap (string.map m.strs) outIdx byte
      .ok (.index status outIdx)
  | .slice string outView offset len => do
      let (status, view) := strSlice (string.map m.strs)
        (if outView then some makeEmptyView else none) offset len
      let seen ← (view.getD makeEmptyView).seen m.heap
      .ok (.text status seen.bytes)
  | .viewBytes view => do
      let seen ← view.seen m
      .ok (.text .ok seen.bytes)
  | .viewEquals left right => do
      let left ← left.seen m
      let right ← right.seen m
      let answer ← viewEquals memcmp left right
      .ok (.flag answer)
  | .viewCompare outOrder left right => do
      let left ← left.seen m
      let right ← right.seen m
      let order ← viewCompare memcmp outOrder left right
      .ok (.order order)
  | .viewStartsWith value start => do
      let value ← value.seen m
      let start ← start.seen m
      let answer ← viewStartsWith memcmp value start
      .ok (.flag answer)
  | .viewEndsWith value suffix => do
      let value ← value.seen m
      let suffix ← suffix.seen m
      let answer ← viewEndsWith memcmp value suffix
      .ok (.flag answer)
  | .viewFind haystack outIdx needle => do
      let haystack ← haystack.seen m
      let needle ← needle.seen m
      let (status, outIdx) ← viewFind haystack outIdx needle
      .ok (.index status outIdx)
  | .viewRfind haystack outIdx needle => do
      let haystack ← haystack.seen m
      let needle ← needle.seen m
      let (status, outIdx) ← viewRfind haystack outIdx needle
      .ok (.index status outIdx)
  | .split source cap separator => do
      let view ← source.view m
      let (status, out) ← splitView m.heap view separator
        (some { parts := some (List.replicate cap makeEmptyView), cap, count := 0 })
      let out := out.getD { parts := none, cap := 0, count := 0 }
      let stored := (out.parts.getD []).take (min out.count out.cap)
      .ok (.parts status out.count (stored.map (·.text m.heap)))

end

/-! On the store. An argument is `none` when NULL is passed. -/

section
variable (store : Store)

def Store.text : Option Feed → Bytes
  | none => []
  | some feed => feed.bytes store

def Viewing.bytes : Viewing (Option Feed) → Bytes
  | .whole none => []
  | .whole (some i) => (store i).content
  | .slice i offset len =>
      if offset.val + len.val ≤ (store i).content.length then
        ((store i).content.drop offset).take len
      else []
  | .cString source | .span source _ => store.text source
  | .trim view => trimmed (view.bytes)

/-- A comparison of a string with a C string; neither may be NULL. -/
def Store.against (holds : Bytes → Bytes → Bool) : Option Nat → Option Feed → Answer
  | some i, some other => .flag (holds (store i).content (other.bytes store))
  | _, _ => .flag false

def Store.answer : Query (Option Feed) → Answer
  | .len none => .size 0
  | .len (some i) => .size (store i).content.length
  | .isEmpty none => .flag true
  | .isEmpty (some i) => .flag (decide ((store i).content = []))
  | .status none => .status .errArg
  | .status (some i) => .status (store i).status
  | .ok none => .flag false
  | .ok (some i) => .flag (decide ((store i).status = .ok))
  | .failed none => .flag true
  | .failed (some i) => .flag (decide ((store i).status ≠ .ok))
  | .cstr none => .text .ok []
  | .cstr (some i) => .text .ok ((store i).content.takeWhile (· ≠ 0))
  | .equals (some i) (some j) => .flag (decide ((store i).content = (store j).content))
  | .equals _ _ => .flag false
  | .equalsCString string other => store.against (fun xs ys => decide (xs = ys)) string other
  | .startsWith string start => store.against (fun xs ys => decide (ys <+: xs)) string start
  | .endsWith string suffix => store.against (fun xs ys => decide (ys <:+ xs)) string suffix
  | .find (some i) (some _) (some needle) =>
      .index .ok (some ((firstOccurrence (store i).content (needle.bytes store)).getD npos))
  | .find _ outIdx _ => .index .errArg outIdx
  | .findChar (some i) (some _) byte =>
      .index .ok (some ((firstOccurrence (store i).content [byte]).getD npos))
  | .findChar _ outIdx _ => .index .errArg outIdx
  | .slice (some i) true offset len =>
      if offset.val + len.val ≤ (store i).content.length then
        .text .ok (((store i).content.drop offset).take len)
      else .text .errRange []
  | .slice _ _ _ _ => .text .errArg []
  | .viewBytes view => .text .ok (view.bytes store)
  | .viewEquals left right => .flag (decide (left.bytes store = right.bytes store))
  | .viewCompare true left right =>
      .order (.ok (CompareOrder.of (compare (left.bytes store) (right.bytes store))).value)
  | .viewCompare false _ _ => .order (.error .errArg)
  | .viewStartsWith value start => .flag (decide (start.bytes store <+: value.bytes store))
  | .viewEndsWith value suffix => .flag (decide (suffix.bytes store <:+ value.bytes store))
  | .viewFind _ none _ | .viewRfind _ none _ => .index .errArg none
  | .viewFind haystack (some _) needle =>
      .index .ok (some ((firstOccurrence (haystack.bytes store) (needle.bytes store)).getD npos))
  | .viewRfind haystack (some old) needle =>
      if needle.bytes store = [] ∧ (haystack.bytes store).length = npos then
        .index .errOverflow (some old)
      else
        .index .ok (some ((lastOccurrence (haystack.bytes store) (needle.bytes store)).getD npos))
  | .split source cap separator =>
      if (source.bytes store).length = sizeMax ∧ ∀ byte ∈ source.bytes store, byte = separator then
        .parts .errOverflow 0 []
      else
        .parts .ok ((source.bytes store).count separator + 1)
          (((source.bytes store).splitOn separator).take cap)

end

/-! What the arguments of a query denote. -/

/-- A C string, or NULL. -/
inductive Machine.Lends (m : Machine) : Source → Option Feed → Prop
  | null : Lends m (.mem none) none
  | text {source : Source} {feed : Feed} (feeds : m.FeedsText source feed) :
      Lends m source (some feed)

inductive Viewing.Means (m : Machine) : Viewing Source → Viewing (Option Feed) → Prop
  | whole (string : Option Nat) : Means m (.whole string) (.whole string)
  | slice (i : Nat) (offset len : Size) : Means m (.slice i offset len) (.slice i offset len)
  | cString {source : Source} {feed : Option Feed} (lends : m.Lends source feed) :
      Means m (.cString source) (.cString feed)
  | span {source : Source} {len : Size} {feed : Feed} (feeds : m.Feeds source len feed) :
      Means m (.span source len) (.span (some feed) len)
  | trim {view : Viewing Source} {view' : Viewing (Option Feed)} (means : Means m view view') :
      Means m (.trim view) (.trim view')

inductive Query.Means (m : Machine) : Query Source → Query (Option Feed) → Prop
  | len (string : Option Nat) : Means m (.len string) (.len string)
  | isEmpty (string : Option Nat) : Means m (.isEmpty string) (.isEmpty string)
  | status (string : Option Nat) : Means m (.status string) (.status string)
  | ok (string : Option Nat) : Means m (.ok string) (.ok string)
  | failed (string : Option Nat) : Means m (.failed string) (.failed string)
  | cstr (string : Option Nat) : Means m (.cstr string) (.cstr string)
  | equals (string other : Option Nat) : Means m (.equals string other) (.equals string other)
  | equalsCString (string : Option Nat) {other : Source} {feed : Option Feed}
      (lends : m.Lends other feed) :
      Means m (.equalsCString string other) (.equalsCString string feed)
  | startsWith (string : Option Nat) {start : Source} {feed : Option Feed}
      (lends : m.Lends start feed) : Means m (.startsWith string start) (.startsWith string feed)
  | endsWith (string : Option Nat) {suffix : Source} {feed : Option Feed}
      (lends : m.Lends suffix feed) : Means m (.endsWith string suffix) (.endsWith string feed)
  | find (string outIdx : Option Nat) {needle : Source} {feed : Option Feed}
      (lends : m.Lends needle feed) :
      Means m (.find string outIdx needle) (.find string outIdx feed)
  | findChar (string outIdx : Option Nat) (byte : UInt8) :
      Means m (.findChar string outIdx byte) (.findChar string outIdx byte)
  | slice (string : Option Nat) (outView : Bool) (offset len : Size) :
      Means m (.slice string outView offset len) (.slice string outView offset len)
  | viewBytes {view : Viewing Source} {view' : Viewing (Option Feed)} (means : view.Means m view') :
      Means m (.viewBytes view) (.viewBytes view')
  | viewEquals {left right : Viewing Source} {left' right' : Viewing (Option Feed)}
      (means : left.Means m left') (other : right.Means m right') :
      Means m (.viewEquals left right) (.viewEquals left' right')
  | viewCompare (outOrder : Bool) {left right : Viewing Source}
      {left' right' : Viewing (Option Feed)} (means : left.Means m left')
      (other : right.Means m right') :
      Means m (.viewCompare outOrder left right) (.viewCompare outOrder left' right')
  | viewStartsWith {value start : Viewing Source} {value' start' : Viewing (Option Feed)}
      (means : value.Means m value') (other : start.Means m start') :
      Means m (.viewStartsWith value start) (.viewStartsWith value' start')
  | viewEndsWith {value suffix : Viewing Source} {value' suffix' : Viewing (Option Feed)}
      (means : value.Means m value') (other : suffix.Means m suffix') :
      Means m (.viewEndsWith value suffix) (.viewEndsWith value' suffix')
  | viewFind {haystack needle : Viewing Source} (outIdx : Option Nat)
      {haystack' needle' : Viewing (Option Feed)} (means : haystack.Means m haystack')
      (other : needle.Means m needle') :
      Means m (.viewFind haystack outIdx needle) (.viewFind haystack' outIdx needle')
  | viewRfind {haystack needle : Viewing Source} (outIdx : Option Nat)
      {haystack' needle' : Viewing (Option Feed)} (means : haystack.Means m haystack')
      (other : needle.Means m needle') :
      Means m (.viewRfind haystack outIdx needle) (.viewRfind haystack' outIdx needle')
  | split {source : Viewing Source} {source' : Viewing (Option Feed)} (cap : Nat)
      (separator : UInt8) (means : source.Means m source') :
      Means m (.split source cap separator) (.split source' cap separator)

/-! What is read is what the store holds. -/

theorem locateViewMatch_first {haystack needle : View} (valid : viewIsValid haystack)
    (validNeedle : viewIsValid needle) :
    locateViewMatch haystack needle .first =
      .ok ((firstOccurrence haystack.bytes needle.bytes).getD npos) := by
  obtain ⟨result, ran, answer⟩ : ∃ result, locateViewMatch haystack needle .first = .ok result ∧
      IsAnswer haystack.bytes needle.bytes .first result := locateViewMatch_spec valid validNeedle
  rw [ran, answer.eq_first]

theorem locateViewMatch_last {haystack needle : View} (valid : viewIsValid haystack)
    (validNeedle : viewIsValid needle) :
    locateViewMatch haystack needle .last =
      .ok ((lastOccurrence haystack.bytes needle.bytes).getD npos) := by
  obtain ⟨result, ran, answer⟩ : ∃ result, locateViewMatch haystack needle .last = .ok result ∧
      IsAnswer haystack.bytes needle.bytes .last result := locateViewMatch_spec valid validNeedle
  rw [ran, answer.eq_last]

namespace Machine.Owned
variable {m : Machine}

theorem length_le (owned : m.Owned) (i : Nat) : (m.store i).content.length ≤ sizeMax := by
  have length : (m.store i).content.length = (m.strs i).len := (owned.wellFormed i).length_content
  rw [length]
  exact Nat.le_of_lt (owned.wellFormed i).len_lt

theorem seen (owned : m.Owned) (i : Nat) :
    ∃ seen, (makeView (m.strs i)).seen m.heap = .ok seen ∧ viewIsValid seen ∧
      seen.bytes = (m.store i).content := by
  obtain ⟨valid, reads⟩ := makeView_reads (owned.wellFormed i)
  exact reads.seen valid (owned.length_le i)

theorem slice (owned : m.Owned) (i : Nat) (old : Borrowed) (offset len : Size) :
    strSlice (some (m.strs i)) (some old) offset len =
      if offset.val + len.val ≤ (m.store i).content.length then
        (.ok, some { ptr := (cstr (m.strs i)).add offset, len })
      else (.errRange, some old) := by
  have length : (m.store i).content.length = (m.strs i).len := (owned.wellFormed i).length_content
  have checked : validateSpan (m.strs i).len offset len =
      if offset.val + len.val ≤ (m.strs i).len then .ok else .errRange :=
    validateSpan_eq (owned.wellFormed i) offset.val len.val
  rw [length]
  by_cases inside : offset.val + len.val ≤ (m.strs i).len
  · rw [if_pos inside] at checked ⊢
    simp only [strSlice, checked]
  · rw [if_neg inside] at checked ⊢
    simp only [strSlice, checked]

/-- A part of a string's content as a view. -/
theorem slice_reads (owned : m.Owned) (i : Nat) {offset len : Nat}
    (inside : offset + len ≤ (m.store i).content.length) :
    Borrowed.isValid { ptr := (cstr (m.strs i)).add offset, len } = true ∧
      Borrowed.Reads m.heap { ptr := (cstr (m.strs i)).add offset, len }
        (((m.store i).content.drop offset).take len) := by
  obtain ⟨valid, reads⟩ := makeView_reads (owned.wellFormed i)
  have reads : (makeView (m.strs i)).Reads m.heap (m.store i).content := reads
  have before : ((m.store i).content.take offset).length = offset := by
    rw [List.length_take]
    omega
  have part : (((m.store i).content.drop offset).take len).length = len := by
    rw [List.length_take, List.length_drop]
    omega
  have whole : (m.store i).content = (m.store i).content.take offset ++
      ((m.store i).content.drop offset).take len ++ (m.store i).content.drop (offset + len) := by
    rw [List.append_assoc, ← List.drop_drop, List.take_append_drop, List.take_append_drop]
  rw [whole] at reads
  have lent := reads.part
  rw [before, part] at lent
  refine ⟨?_, lent⟩
  cases Nat.eq_zero_or_pos len with
  | inl none => simp [Borrowed.isValid, none]
  | inr pos =>
      have given := reads.given valid (by rw [← whole]; omega)
      simp only [makeView] at given
      simp [Borrowed.isValid, Source.isNull_add, given]

/-- A C string as a view. -/
theorem text_reads (owned : m.Owned) {source : Source} {feed : Feed}
    (feeds : m.FeedsText source feed) :
    ∃ view, viewFromCString m.heap source = .ok view ∧ view.isValid = true ∧
      view.Reads m.heap (feed.bytes m.store) ∧ (feed.bytes m.store).length ≤ sizeMax := by
  have found := owned.feeds_found feeds
  obtain ⟨view, made, valid, reads⟩ := viewFromCString_reads found
  exact ⟨view, made, valid, reads,
    Source.length_text_le (owned.feeds_readableText feeds 0).1 found⟩

/-- A caller's view reads what the store has for it. -/
theorem viewing (owned : m.Owned) {view : Viewing Source} {view' : Viewing (Option Feed)}
    (means : view.Means m view') :
    ∃ lent, view.view m = .ok lent ∧ lent.isValid = true ∧
      lent.Reads m.heap (view'.bytes m.store) ∧ (view'.bytes m.store).length ≤ sizeMax := by
  induction means with
  | whole string =>
      cases string with
      | none => exact ⟨_, rfl, rfl, makeEmptyView_reads, Nat.zero_le _⟩
      | some i =>
          obtain ⟨valid, reads⟩ := makeView_reads (owned.wellFormed i)
          exact ⟨_, rfl, valid, reads, owned.length_le i⟩
  | slice i offset len =>
      have bound := owned.length_le i
      rw [Viewing.view, owned.slice, Viewing.bytes]
      by_cases inside : offset.val + len.val ≤ (m.store i).content.length
      · rw [if_pos inside, if_pos inside]
        obtain ⟨valid, reads⟩ := owned.slice_reads i inside
        refine ⟨_, rfl, valid, reads, ?_⟩
        rw [List.length_take, List.length_drop]
        omega
      · rw [if_neg inside, if_neg inside]
        exact ⟨_, rfl, rfl, makeEmptyView_reads, Nat.zero_le _⟩
  | @cString source feed lends =>
      cases lends with
      | null => exact ⟨_, rfl, rfl, makeEmptyView_reads, Nat.zero_le _⟩
      | text feeds => exact owned.text_reads feeds
  | @span source len feed feeds =>
      have wf := owned.wellFormed feed.string
      have length : (feed.bytes m.store).length = len := Source.Denotes.length wf feeds
      have read : 0 < len.val → source.read m.heap len = .ok (feed.bytes m.store) := by
        intro pos
        obtain ⟨bytes, read⟩ := Source.Denotes.reads wf pos feeds
        have same := (Source.bytes_of_read read).symm.trans (owned.feeds_bytes feeds)
        exact read.trans (congrArg Except.ok same)
      obtain ⟨valid, reads⟩ := viewFromN_reads read length
      exact ⟨_, rfl, valid, reads, Nat.le_trans (Nat.le_of_eq length) (Nat.le_of_lt_succ len.isLt)⟩
  | @trim view view' means ih =>
      obtain ⟨lent, made, valid, reads, fits⟩ := ih
      obtain ⟨lent', ran, valid', reads'⟩ := viewTrim_reads valid reads
      refine ⟨lent', by simp only [Viewing.view, made, ok_bind, ran], valid', reads', ?_⟩
      obtain ⟨back, whole⟩ := trimmed_parts (view'.bytes m.store)
      have lengths := congrArg List.length whole
      rw [List.length_append, List.length_append] at lengths
      rw [Viewing.bytes]
      omega

theorem viewing_seen (owned : m.Owned) {view : Viewing Source} {view' : Viewing (Option Feed)}
    (means : view.Means m view') :
    ∃ seen, view.seen m = .ok seen ∧ viewIsValid seen ∧ seen.bytes = view'.bytes m.store := by
  obtain ⟨lent, made, valid, reads, fits⟩ := owned.viewing means
  obtain ⟨seen, ran, rest⟩ := reads.seen valid fits
  exact ⟨seen, by rw [Viewing.seen, made, ok_bind, ran], rest⟩

/-- Asking about a string and a C string. -/
theorem against (owned : m.Owned) {compare : View → View → Except Fault Bool}
    (holds : Bytes → Bytes → Bool)
    (compares : ∀ left right, viewIsValid left → viewIsValid right →
      compare left right = .ok (holds left.bytes right.bytes))
    (string : Option Nat) {other : Source} {feed : Option Feed} (lends : m.Lends other feed) :
    (againstCString m.heap compare (string.map m.strs) other >>= fun answer =>
      .ok (Answer.flag answer)) = .ok (m.store.against holds string feed) := by
  cases string with
  | none => rfl
  | some i =>
      cases lends with
      | null => rfl
      | text feeds =>
          obtain ⟨value, read, valid, bytes⟩ := owned.seen i
          obtain ⟨view, made, validView, reads, fits⟩ := owned.text_reads feeds
          obtain ⟨text, readText, validText, bytesText⟩ := reads.seen validView fits
          have given := Source.given_of_cString (owned.feeds_found feeds)
          simp only [againstCString, Option.map_some, given, Bool.false_eq_true, if_false, read,
            ok_bind, made, readText, compares value text valid validText, bytes, bytesText,
            Store.against]

-- What follows unfolds both at one query each.
attribute [local simp] Machine.ask Store.answer

theorem finds (owned : m.Owned) (string outIdx : Option Nat) {needle : Source}
    {feed : Option Feed} (lends : m.Lends needle feed) (memcmp : Memcmp) :
    m.ask memcmp (.find string outIdx needle) =
      .ok (m.store.answer (.find string outIdx feed)) := by
  cases string with
  | none => cases outIdx <;> rfl
  | some i =>
      cases outIdx with
      | none => rfl
      | some old =>
          cases lends with
          | null => rfl
          | text feeds =>
              obtain ⟨haystack, read, valid, bytes⟩ := owned.seen i
              obtain ⟨view, made, validView, reads, fits⟩ := owned.text_reads feeds
              obtain ⟨text, readText, validText, bytesText⟩ := reads.seen validView fits
              have given := Source.given_of_cString (owned.feeds_found feeds)
              simp only [ask, strFind, Option.map_some, given, Bool.false_eq_true, if_false, read,
                ok_bind, made, readText, locateViewMatch_first valid validText, bytes, bytesText,
                Store.answer]

theorem finds_char (owned : m.Owned) (string outIdx : Option Nat) (byte : UInt8)
    (memcmp : Memcmp) :
    m.ask memcmp (.findChar string outIdx byte) =
      .ok (m.store.answer (.findChar string outIdx byte)) := by
  cases string with
  | none => cases outIdx <;> rfl
  | some i =>
      cases outIdx with
      | none => rfl
      | some old =>
          obtain ⟨haystack, read, valid, bytes⟩ := owned.seen i
          obtain ⟨validByte, readsByte⟩ : (viewFromN (.array [byte]) 1).isValid = true ∧
              (viewFromN (.array [byte]) 1).Reads m.heap [byte] :=
            viewFromN_reads (fun _ => rfl) rfl
          obtain ⟨text, readText, validText, bytesText⟩ :=
            readsByte.seen validByte (by decide : 1 ≤ sizeMax)
          simp only [ask, strFindChar, Option.map_some, read, ok_bind, readText,
            locateViewMatch_first valid validText, bytes, bytesText, Store.answer]

theorem slices (owned : m.Owned) (string : Option Nat) (outView : Bool) (offset len : Size)
    (memcmp : Memcmp) :
    m.ask memcmp (.slice string outView offset len) =
      .ok (m.store.answer (.slice string outView offset len)) := by
  have empty : (makeEmptyView).seen m.heap = .ok (.ofBytes [] (Nat.zero_le _)) := rfl
  cases string with
  | none => cases outView <;> rfl
  | some i =>
      cases outView with
      | false => rfl
      | true =>
          simp only [ask, Option.map_some, if_true, owned.slice, Store.answer]
          by_cases inside : offset.val + len.val ≤ (m.store i).content.length
          · obtain ⟨valid, reads⟩ := owned.slice_reads i inside
            have bound := owned.length_le i
            obtain ⟨seen, read, validSeen, bytes⟩ := reads.seen valid
              (by rw [List.length_take, List.length_drop]; omega)
            rw [if_pos inside, if_pos inside]
            simp only [Option.getD_some, read, ok_bind, bytes]
          · rw [if_neg inside, if_neg inside]
            rfl

theorem rfinds (owned : m.Owned) {haystack needle : Viewing Source} (outIdx : Option Nat)
    {haystack' needle' : Viewing (Option Feed)} (means : haystack.Means m haystack')
    (other : needle.Means m needle') (memcmp : Memcmp) :
    m.ask memcmp (.viewRfind haystack outIdx needle) =
      .ok (m.store.answer (.viewRfind haystack' outIdx needle')) := by
  obtain ⟨left, ran, valid, bytes⟩ := owned.viewing_seen means
  obtain ⟨right, ran', valid', bytes'⟩ := owned.viewing_seen other
  have length := View.length_bytes valid
  have length' := View.length_bytes valid'
  rw [bytes] at length
  rw [bytes'] at length'
  have refuses : (needle'.bytes m.store = [] ∧ (haystack'.bytes m.store).length = npos) ↔
      right.len = 0 ∧ left.len = npos := by
    rw [← List.length_eq_zero_iff, length, length']
  cases outIdx with
  | none => simp [ran, ran', viewRfind, findViewMatch]
  | some old =>
      simp only [ask, ran, ran', ok_bind, viewRfind, findViewMatch, validateView, valid, valid',
        Option.isNone_some, Bool.false_eq_true, if_false, if_true, ne_eq, not_true_eq_false,
        true_and, locateViewMatch_last valid valid', bytes, bytes', Store.answer]
      by_cases refused : right.len = 0 ∧ left.len = npos
      · rw [if_pos refused, if_pos (refuses.mpr refused), ok_bind]
      · rw [if_neg refused, if_neg (refuses.not.mpr refused), ok_bind]

theorem split (owned : m.Owned) {view : Viewing Source} {view' : Viewing (Option Feed)}
    (means : view.Means m view') (memcmp : Memcmp) (cap : Nat) (separator : UInt8) :
    m.ask memcmp (.split view cap separator) =
      .ok (m.store.answer (.split view' cap separator)) := by
  obtain ⟨lent, made, valid, reads, fits⟩ := owned.viewing means
  obtain ⟨buffer, got⟩ := getViewBuffer_valid valid
  have size : lent.len ≤ sizeMax := by rw [← reads.length]; exact fits
  have roomy : SplitOut.Roomy
      { parts := some (List.replicate cap makeEmptyView), cap, count := 0 } := by
    rintro array ⟨⟩
    exact Nat.le_of_eq List.length_replicate.symm
  have wrote := writeSplitParts_spec separator valid reads got size roomy
    (fun none => nomatch none.2)
  have accepted : validateSplitArguments lent
      (some { parts := some (List.replicate cap makeEmptyView), cap, count := 0 }) = .ok := by
    simp [validateSplitArguments, valid]
  rw [← reads.length] at wrote
  simp only [ask, made, ok_bind, splitView, accepted, wrote, Store.answer]
  by_cases unrepresentable : (view'.bytes m.store).length = sizeMax ∧
      ∀ byte ∈ view'.bytes m.store, byte = separator
  · rw [if_pos unrepresentable, if_pos unrepresentable]
    simp
  · rw [if_neg unrepresentable, if_neg unrepresentable]
    have texts : (splitParts buffer separator (view'.bytes m.store)).map (·.text m.heap) =
        (view'.bytes m.store).splitOn separator := splitParts_text valid reads got
    have length := length_splitParts buffer separator (view'.bytes m.store)
    simp only [ok_bind, Option.getD_some, SplitOut.holding, Option.map_some]
    refine congrArg (fun parts => Except.ok (Answer.parts .ok _ parts)) ?_
    rw [← length, ← texts, ← List.map_take]
    have stored : min (splitParts buffer separator (view'.bytes m.store)).length cap =
        ((splitParts buffer separator (view'.bytes m.store)).take cap).length := by
      rw [List.length_take, Nat.min_comm]
    rw [stored, List.take_left]

end Machine.Owned

/-- The C string of a string is its content up to the first NUL. -/
theorem Machine.Owned.cstr_found {m : Machine} (owned : m.Owned) (i : Nat) :
    (cstr (m.strs i)).cString m.heap = .ok ((m.store i).content.takeWhile (· ≠ 0)) := by
  have stops (bytes : Bytes) : (bytes ++ [0]).takeWhile (· ≠ 0) = bytes.takeWhile (· ≠ 0) := by
    induction bytes with
    | nil => rfl
    | cons byte bytes ih => rw [List.cons_append, List.takeWhile_cons, List.takeWhile_cons, ih]
  cases buf : (m.strs i).buf with
  | none =>
      have empty : (m.store i).content = [] := by
        simp [Machine.store, Cell.value, Cell.content, Cell.bytes, Machine.cell, buf]
      rw [cstr, buf, empty]
      rfl
  | some p =>
      have feeds : m.FeedsText (.mem (some p)) ⟨i, .text 0⟩ := .inside buf rfl (Nat.zero_le _)
      rw [cstr, buf, owned.feeds_found feeds, Feed.bytes, Input.bytes, List.drop_zero, stops]

section
variable {left right : View}

theorem isViewContentEqual_eq (memcmp : Memcmp) (valid : viewIsValid left)
    (valid' : viewIsValid right) :
    isViewContentEqual memcmp left right = .ok (decide (left.bytes = right.bytes)) := by
  have both : hasValidViews left right = true := Bool.and_eq_true_iff.mpr ⟨valid, valid'⟩
  have compared := viewEquals_eq memcmp valid valid'
  rwa [Str.viewEquals, if_pos both] at compared

theorem viewStartsWith_prefix (memcmp : Memcmp) (valid : viewIsValid left)
    (valid' : viewIsValid right) :
    viewStartsWith memcmp left right = .ok (decide (right.bytes <+: left.bytes)) := by
  rw [viewStartsWith_eq memcmp valid valid']
  refine congrArg Except.ok (decide_eq_decide.mpr ?_)
  rw [List.prefix_iff_eq_take, View.length_bytes valid', eq_comm]

theorem hasViewPrefix_eq (memcmp : Memcmp) (valid : viewIsValid left) (valid' : viewIsValid right) :
    hasViewPrefix memcmp left right = .ok (decide (right.bytes <+: left.bytes)) := by
  have both : hasValidViews left right = true := Bool.and_eq_true_iff.mpr ⟨valid, valid'⟩
  have compared := viewStartsWith_prefix memcmp valid valid'
  rwa [Str.viewStartsWith, if_pos both] at compared

theorem hasViewSuffix_eq (memcmp : Memcmp) (valid : viewIsValid left) (valid' : viewIsValid right) :
    hasViewSuffix memcmp left right = .ok (decide (right.bytes <:+ left.bytes)) := by
  have both : hasValidViews left right = true := Bool.and_eq_true_iff.mpr ⟨valid, valid'⟩
  have compared := viewEndsWith_eq memcmp valid valid'
  rwa [Str.viewEndsWith, if_pos both] at compared

end

/-- An observer answers from the store. -/
theorem Machine.Owned.answers {m : Machine} (owned : m.Owned) (memcmp : Memcmp)
    {query : Query Source} {query' : Query (Option Feed)} (means : query.Means m query') :
    m.ask memcmp query = .ok (m.store.answer query') := by
  have length (i : Nat) : (m.strs i).len = (m.store i).content.length :=
    (owned.wellFormed i).length_content.symm
  cases means with
  | len string =>
      cases string with
      | none => rfl
      | some i => rw [Machine.ask, Option.map_some, strLen, length, Store.answer]
  | isEmpty string =>
      cases string with
      | none => rfl
      | some i =>
          rw [Machine.ask, Option.map_some, strIsEmpty, strLen, length, Store.answer]
          cases (m.store i).content <;> rfl
  | status string | ok string => cases string <;> rfl
  | failed string =>
      cases string with
      | none => rfl
      | some i => rw [Store.answer, decide_not]; rfl
  | cstr string =>
      cases string with
      | none => rfl
      | some i =>
          simp only [Machine.ask, Option.map_some, Option.getD_some, owned.cstr_found, ok_bind,
            Store.answer]
  | equals string other =>
      cases string with
      | none => rfl
      | some i =>
          cases other with
          | none => rfl
          | some j =>
              obtain ⟨left, read, valid, bytes⟩ := owned.seen i
              obtain ⟨right, read', valid', bytes'⟩ := owned.seen j
              simp only [Machine.ask, Option.map_some, strEquals, read, read', ok_bind,
                isViewContentEqual_eq memcmp valid valid', bytes, bytes', Store.answer]
  | equalsCString string lends =>
      exact owned.against (fun xs ys => decide (xs = ys))
        (fun _ _ => isViewContentEqual_eq memcmp) string lends
  | startsWith string lends =>
      exact owned.against (fun xs ys => decide (ys <+: xs))
        (fun _ _ => hasViewPrefix_eq memcmp) string lends
  | endsWith string lends =>
      exact owned.against (fun xs ys => decide (ys <:+ xs))
        (fun _ _ => hasViewSuffix_eq memcmp) string lends
  | find string outIdx lends => exact owned.finds string outIdx lends memcmp
  | findChar string outIdx byte => exact owned.finds_char string outIdx byte memcmp
  | slice string outView offset len => exact owned.slices string outView offset len memcmp
  | viewBytes means =>
      obtain ⟨seen, ran, valid, bytes⟩ := owned.viewing_seen means
      simp only [Machine.ask, ran, ok_bind, bytes, Store.answer]
  | viewEquals means other =>
      obtain ⟨left, ran, valid, bytes⟩ := owned.viewing_seen means
      obtain ⟨right, ran', valid', bytes'⟩ := owned.viewing_seen other
      simp only [Machine.ask, ran, ran', ok_bind, viewEquals_eq memcmp valid valid', bytes, bytes',
        Store.answer]
  | viewCompare outOrder means other =>
      obtain ⟨left, ran, valid, bytes⟩ := owned.viewing_seen means
      obtain ⟨right, ran', valid', bytes'⟩ := owned.viewing_seen other
      cases outOrder with
      | false => simp only [Machine.ask, ran, ran', ok_bind, viewCompare, if_true, Store.answer]
      | true =>
          simp only [Machine.ask, ran, ran', ok_bind, viewCompare_eq memcmp valid valid', bytes,
            bytes', Store.answer]
  | viewStartsWith means other =>
      obtain ⟨left, ran, valid, bytes⟩ := owned.viewing_seen means
      obtain ⟨right, ran', valid', bytes'⟩ := owned.viewing_seen other
      simp only [Machine.ask, ran, ran', ok_bind, viewStartsWith_prefix memcmp valid valid', bytes,
        bytes', Store.answer]
  | viewEndsWith means other =>
      obtain ⟨left, ran, valid, bytes⟩ := owned.viewing_seen means
      obtain ⟨right, ran', valid', bytes'⟩ := owned.viewing_seen other
      simp only [Machine.ask, ran, ran', ok_bind, viewEndsWith_eq memcmp valid valid', bytes,
        bytes', Store.answer]
  | viewFind outIdx means other =>
      obtain ⟨left, ran, valid, bytes⟩ := owned.viewing_seen means
      obtain ⟨right, ran', valid', bytes'⟩ := owned.viewing_seen other
      cases outIdx with
      | none => simp [Machine.ask, ran, ran', viewFind, findViewMatch, Store.answer]
      | some old =>
          simp [Machine.ask, ran, ran', viewFind, findViewMatch, validateView, valid, valid',
            locateViewMatch_first valid valid', bytes, bytes', Store.answer]
  | viewRfind outIdx means other => exact owned.rfinds outIdx means other memcmp
  | split cap separator means => exact owned.split means memcmp cap separator

/-! Runs. -/

/-- What a program learns of its strings: a call with what it returned, or a query's answer. -/
inductive Event where
  | did (deed : Deed) (reply : Reply)
  | asked (query : Query (Option Feed)) (answer : Answer)

/-- Calls and queries, one after another. -/
inductive Plays (memcmp : Memcmp) : Machine → List Event → Machine → Prop
  | done (m : Machine) : Plays memcmp m [] m
  | did {m m' m'' : Machine} {op : Op} {deed : Deed} {reply : Reply} {events : List Event}
      (means : op.Means m deed) (ran : m.step op = .ok (reply, m'))
      (later : Plays memcmp m' events m'') : Plays memcmp m (.did deed reply :: events) m''
  | asked {m m' : Machine} {query : Query Source} {query' : Query (Option Feed)} {answer : Answer}
      {events : List Event} (means : query.Means m query') (ran : m.ask memcmp query = .ok answer)
      (later : Plays memcmp m events m') : Plays memcmp m (.asked query' answer :: events) m'

def Store.replay (store : Store) : List Event → Store
  | [] => store
  | .did deed reply :: events => replay (store.play deed reply) events
  | .asked _ _ :: events => replay store events

/-- The store may return what the events say, and answers all queries so. -/
def Store.Explains (store : Store) : List Event → Prop
  | [] => True
  | .did deed reply :: events => store.Allows deed reply ∧ Explains (store.play deed reply) events
  | .asked query answer :: events => answer = store.answer query ∧ Explains store events

theorem Plays.follows {memcmp : Memcmp} {m m' : Machine} {events : List Event}
    (plays : Plays memcmp m events m') (owned : m.Owned) :
    m'.Owned ∧ m'.store = m.store.replay events ∧ m.store.Explains events := by
  induction plays with
  | done m => exact ⟨owned, rfl, trivial⟩
  | did means ran later ih =>
      obtain ⟨reply, m', ran', owned', store, allows⟩ := Machine.step_plays owned means
      cases ran.symm.trans ran'
      obtain ⟨owned'', replayed, explained⟩ := ih owned'
      rw [store] at replayed explained
      exact ⟨owned'', replayed, allows, explained⟩
  | asked means ran later ih =>
      obtain ⟨owned', replayed, explained⟩ := ih owned
      cases ran.symm.trans (owned.answers memcmp means)
      exact ⟨owned', replayed, rfl, explained⟩

/-- A program over any number of strings sees a store of byte lists. From empty strings on, the
values of all strings are what the store makes of the calls and of what they returned, and every
query is answered from it. The program never gets stuck on a call or a query whose arguments
denote bytes. -/
theorem Plays.refines {memcmp : Memcmp} {m m' : Machine} (initial : m.Initial)
    {events : List Event} (plays : Plays memcmp m events m') :
    m'.store = Store.replay (fun _ => .blank) events ∧
      Store.Explains (fun _ => .blank) events ∧
      (∀ op deed, op.Means m' deed → ∃ reply m'', m'.step op = .ok (reply, m'')) ∧
      ∀ query query', query.Means m' query' → ∃ answer, m'.ask memcmp query = .ok answer := by
  have start : m.store = fun _ => .blank := funext fun i => Machine.store_blank (initial.strs i)
  obtain ⟨owned, replayed, explained⟩ := plays.follows initial.owned
  rw [start] at replayed explained
  refine ⟨replayed, explained, fun op deed means => ?_, fun query query' means => ?_⟩
  · obtain ⟨reply, m'', ran, _⟩ := Machine.step_plays owned means
    exact ⟨reply, m'', ran⟩
  · exact ⟨_, owned.answers memcmp means⟩

/-- A byte is appended, its string's content copied out of its buffer, and the copy searched. -/
theorem Plays.refines_copied :
    ∃ m', m'.store 1 = ⟨[97], .ok⟩ ∧
      Plays .difference (.start fun n => some { base := 64 + 64 * n, garbage := fun _ => 7 })
        [.did (.act 0 (.append ⟨0, .external [97]⟩)) (.status .ok),
          .did (.act 1 (.replace ⟨0, .span 0 1⟩)) (.status .ok),
          .asked (.equals (some 0) (some 1)) (.flag true)] m' := by
  have run : Plays .difference
      (.start fun n => some { base := 64 + 64 * n, garbage := fun _ => 7 })
      [.did (.act 0 (.append ⟨0, .external [97]⟩)) (.status .ok),
        .did (.act 1 (.replace ⟨0, .span 0 1⟩)) (.status .ok),
        .asked (.equals (some 0) (some 1)) (.flag true)] _ :=
    .did (.mutate (.appendChar 97)) rfl
      (.did (show Op.Means _ (.mutate (some 1) (.setN (.mem (some ⟨0, 64⟩)) 1)) _ from
          .mutate (.setN (.inside rfl rfl (by decide)))) rfl
        (.asked (.equals (some 0) (some 1)) rfl (.done _)))
  obtain ⟨store, _⟩ := Plays.refines (Machine.start_initial _) run
  exact ⟨_, congrFun store 1, run⟩

end AgencC.Str
