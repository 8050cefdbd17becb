import AgencC.Library.Lexicographic
import AgencC.Str.Search

/-! Comparing the contents of views: the order of their bytes, equality, prefixes and suffixes. -/

set_option autoImplicit false

namespace AgencC.Str

open Library

/-- The contract of `memcmp`: the sign is that of the first bytes that differ, as unsigned bytes. -/
structure Memcmp where
  value : List UInt8 → List UInt8 → Int
  same : ∀ bytes, value bytes bytes = 0
  less : ∀ common x y xs ys, x < y → xs.length = ys.length →
    value (common ++ x :: xs) (common ++ y :: ys) < 0
  greater : ∀ common x y xs ys, y < x → xs.length = ys.length →
    0 < value (common ++ x :: xs) (common ++ y :: ys)

/-- `str_compare_order_t`. -/
inductive CompareOrder where
  | less
  | equal
  | greater
  deriving DecidableEq, Repr

def CompareOrder.value : CompareOrder → Int
  | .less => -1
  | .equal => 0
  | .greater => 1

/-- `pointer[0 .. len)`. -/
def readSpan (pointer : Option (List UInt8)) (len : Nat) : Except Fault (List UInt8) :=
  match pointer with
  | none => .error .notHeld
  | some bytes => if len ≤ bytes.length then .ok (bytes.take len) else .error .outOfBounds

/-- `str_is_byte_span_equal` on two pointers. -/
def areByteSpansEqual (memcmp : Memcmp) (left right : Option (List UInt8)) (len : Nat) :
    Except Fault Bool :=
  if len = 0 then .ok true
  else do
    ensure left.isSome "left != NULL"
    ensure right.isSome "right != NULL"
    let left ← readSpan left len
    let right ← readSpan right len
    .ok (memcmp.value left right == 0)

def compareBytes (memcmp : Memcmp) (left right : Option (List UInt8)) (len : Nat) :
    Except Fault CompareOrder :=
  if len = 0 then .ok .equal
  else do
    ensure left.isSome "left != NULL"
    ensure right.isSome "right != NULL"
    let left ← readSpan left len
    let right ← readSpan right len
    let order := memcmp.value left right
    .ok (if order < 0 then .less else if 0 < order then .greater else .equal)

def compareLengths (leftLen rightLen : Nat) : CompareOrder :=
  if leftLen < rightLen then .less else if rightLen < leftLen then .greater else .equal

def compareValidViews (memcmp : Memcmp) (left right : View) : Except Fault CompareOrder := do
  ensure (viewIsValid left) "str_view_is_valid(left)"
  ensure (viewIsValid right) "str_view_is_valid(right)"
  let commonLen := if left.len < right.len then left.len else right.len
  let order ← compareBytes memcmp left.ptr right.ptr commonLen
  if order ≠ .equal then .ok order else .ok (compareLengths left.len right.len)

def isViewContentEqual (memcmp : Memcmp) (left right : View) : Except Fault Bool := do
  ensure (viewIsValid left) "str_view_is_valid(left)"
  ensure (viewIsValid right) "str_view_is_valid(right)"
  if left.len ≠ right.len then .ok false
  else areByteSpansEqual memcmp left.ptr right.ptr left.len

def hasViewPrefix (memcmp : Memcmp) (value start : View) : Except Fault Bool := do
  ensure (viewIsValid value) "str_view_is_valid(value)"
  ensure (viewIsValid start) "str_view_is_valid(prefix)"
  if value.len < start.len then .ok false
  else areByteSpansEqual memcmp value.ptr start.ptr start.len

def hasViewSuffix (memcmp : Memcmp) (value suffix : View) : Except Fault Bool := do
  ensure (viewIsValid value) "str_view_is_valid(value)"
  ensure (viewIsValid suffix) "str_view_is_valid(suffix)"
  if value.len < suffix.len then .ok false
  else if suffix.len = 0 then .ok true
  else
    let suffixOffset := sizeSub value.len suffix.len
    areByteSpansEqual memcmp (value.ptr.map (List.drop suffixOffset)) suffix.ptr suffix.len

def hasValidViews (left right : View) : Bool := viewIsValid left && viewIsValid right

def viewEquals (memcmp : Memcmp) (left right : View) : Except Fault Bool :=
  if hasValidViews left right then isViewContentEqual memcmp left right else .ok false

/-- `str_view_compare`: what it writes to `out_order`, unless that is NULL. -/
def viewCompare (memcmp : Memcmp) (outOrder : Bool) (left right : View) :
    Except Fault (Except Status Int) :=
  if outOrder = false then .ok (.error .errArg)
  else
    match validateView left with
    | .ok =>
        match validateView right with
        | .ok => do
            let order ← compareValidViews memcmp left right
            .ok (.ok order.value)
        | status => .ok (.error status)
    | status => .ok (.error status)

def viewStartsWith (memcmp : Memcmp) (value start : View) : Except Fault Bool :=
  if hasValidViews value start then hasViewPrefix memcmp value start else .ok false

def viewEndsWith (memcmp : Memcmp) (value suffix : View) : Except Fault Bool :=
  if hasValidViews value suffix then hasViewSuffix memcmp value suffix else .ok false

/-! What the comparisons answer. -/

/-- How `str_compare_order_t` names an order. -/
def CompareOrder.of : Ordering → CompareOrder
  | .lt => .less
  | .eq => .equal
  | .gt => .greater

theorem Memcmp.value_eq_zero_iff (memcmp : Memcmp) {left right : List UInt8}
    (length : left.length = right.length) : memcmp.value left right = 0 ↔ left = right := by
  rcases eq_or_first_difference length with rfl | ⟨common, x, y, xs, ys, rfl, rfl, differ, rest⟩
  · exact iff_of_true (memcmp.same left) rfl
  · have apart : common ++ x :: xs ≠ common ++ y :: ys := fun same =>
      differ (List.cons.inj (List.append_cancel_left same)).1
    refine iff_of_false ?_ apart
    rcases UInt8.lt_or_lt_of_ne differ with below | above
    · exact Int.ne_of_lt (memcmp.less common x y xs ys below rest)
    · exact Int.ne_of_gt (memcmp.greater common x y xs ys above rest)

theorem Memcmp.sign (memcmp : Memcmp) {left right : List UInt8}
    (length : left.length = right.length) :
    (if memcmp.value left right < 0 then CompareOrder.less
      else if 0 < memcmp.value left right then .greater else .equal) = .of (compare left right) := by
  rcases eq_or_first_difference length with rfl | ⟨common, x, y, xs, ys, rfl, rfl, differ, rest⟩
  · rw [memcmp.same, Std.compare_eq_iff_eq.mpr rfl]
    rfl
  · rw [compare_append_left, List.compare_cons_cons]
    rcases UInt8.lt_or_lt_of_ne differ with below | above
    · rw [if_pos (memcmp.less common x y xs ys below rest), Std.compare_eq_lt.mpr below]
      rfl
    · have positive := memcmp.greater common x y xs ys above rest
      rw [if_neg (by omega), if_pos positive, Std.compare_eq_gt.mpr above]
      rfl

theorem compareLengths_eq (leftLen rightLen : Nat) :
    compareLengths leftLen rightLen = .of (compare leftLen rightLen) := by
  rw [Nat.compare_eq_ite_lt, compareLengths]
  split
  · rfl
  · split <;> rfl

theorem readSpan_isSome {pointer : Option (List UInt8)} {len : Nat} {bytes : List UInt8}
    (read : readSpan pointer len = .ok bytes) : pointer.isSome ∧ bytes.length = len := by
  cases pointer with
  | none => cases read
  | some whole =>
      unfold readSpan at read
      dsimp only at read
      split at read
      · cases read
        exact ⟨rfl, List.length_take_of_le ‹_›⟩
      · cases read

theorem View.readSpan_ptr {view : View} (valid : viewIsValid view) {len : Nat} (pos : 0 < len)
    (inside : len ≤ view.len) : readSpan view.ptr len = .ok (view.bytes.take len) := by
  have isSome := View.isSome_of_pos valid (Nat.lt_of_lt_of_le pos inside)
  cases designated : view.ptr with
  | none =>
      rw [designated] at isSome
      cases isSome
  | some whole =>
      have readable := Nat.le_trans inside (view.readable whole designated)
      rw [readSpan, if_pos readable, View.bytes, designated, Option.getD_some, List.take_take,
        Nat.min_eq_left inside]

section
variable {left right : Option (List UInt8)} {len : Nat} {xs ys : List UInt8}

theorem areByteSpansEqual_eq (memcmp : Memcmp) (pos : 0 < len) (readLeft : readSpan left len = .ok xs)
    (readRight : readSpan right len = .ok ys) :
    areByteSpansEqual memcmp left right len = .ok (decide (xs = ys)) := by
  obtain ⟨some, length⟩ := readSpan_isSome readLeft
  obtain ⟨some', length'⟩ := readSpan_isSome readRight
  have same := memcmp.value_eq_zero_iff (length.trans length'.symm)
  rw [areByteSpansEqual, if_neg (Nat.ne_of_gt pos), ensure_of some, ensure_of some', readLeft, readRight]
  simp only [ok_bind, Except.ok.injEq]
  by_cases equal : xs = ys
  · rw [same.mpr equal, decide_eq_true equal]
    rfl
  · rw [decide_eq_false equal, beq_eq_false_iff_ne]
    exact fun zero => equal (same.mp zero)

/-- On two places of one view it is what the search takes for it, whatever `memcmp` returns for
spans that differ. -/
theorem areByteSpansEqual_view (memcmp : Memcmp) {view : View} {leftIdx rightIdx : Nat}
    (leftFits : leftIdx + len ≤ view.bytes.length)
    (rightFits : rightIdx + len ≤ view.bytes.length) :
    areByteSpansEqual memcmp (view.ptr.map (List.drop leftIdx))
        (view.ptr.map (List.drop rightIdx)) len =
      isByteSpanEqual view leftIdx rightIdx len := by
  by_cases empty : len = 0
  · rw [areByteSpansEqual, if_pos empty, isByteSpanEqual, if_pos empty]
  · have isSome := View.isSome_of_bytes (by omega : 0 < view.bytes.length)
    have spans {idx : Nat} (fits : idx + len ≤ view.bytes.length) :
        readSpan (view.ptr.map (List.drop idx)) len = .ok ((view.bytes.drop idx).take len) := by
      cases designated : view.ptr with
      | none =>
          rw [designated] at isSome
          cases isSome
      | some whole =>
          have bytes : view.bytes = whole.take view.len := by
            rw [View.bytes, designated, Option.getD_some]
          rw [bytes, List.length_take] at fits
          rw [Option.map_some, readSpan, if_pos (by rw [List.length_drop]; omega), bytes,
            List.drop_take, List.take_take, Nat.min_eq_left (by omega)]
    rw [areByteSpansEqual_eq memcmp (Nat.pos_of_ne_zero empty) (spans leftFits) (spans rightFits)]
    simp only [isByteSpanEqual, if_neg empty, ensure_of isSome, ok_bind, View.readBytes,
      if_pos leftFits, if_pos rightFits]
    rw [Bool.beq_eq_decide_eq]

theorem compareBytes_eq (memcmp : Memcmp) (pos : 0 < len) (readLeft : readSpan left len = .ok xs)
    (readRight : readSpan right len = .ok ys) :
    compareBytes memcmp left right len = .ok (.of (compare xs ys)) := by
  obtain ⟨some, length⟩ := readSpan_isSome readLeft
  obtain ⟨some', length'⟩ := readSpan_isSome readRight
  rw [compareBytes, if_neg (Nat.ne_of_gt pos), ensure_of some, ensure_of some', readLeft, readRight]
  simp only [ok_bind]
  rw [memcmp.sign (length.trans length'.symm)]

end

section
variable {left right : View}

theorem compareValidViews_eq (memcmp : Memcmp) (validLeft : viewIsValid left)
    (validRight : viewIsValid right) :
    compareValidViews memcmp left right = .ok (.of (compare left.bytes right.bytes)) := by
  have lengthLeft := View.length_bytes validLeft
  have lengthRight := View.length_bytes validRight
  have common : (if left.len < right.len then left.len else right.len) = min left.len right.len := by
    rw [Nat.min_def]
    split
    · rw [if_pos (Nat.le_of_lt ‹_›)]
    · split
      · omega
      · rfl
  have begun : compareBytes memcmp left.ptr right.ptr (min left.len right.len) =
      .ok (.of (compare (left.bytes.take (min left.len right.len))
        (right.bytes.take (min left.len right.len)))) := by
    by_cases none : min left.len right.len = 0
    · rw [compareBytes, if_pos none, none]
      rfl
    · have pos := Nat.pos_of_ne_zero none
      exact compareBytes_eq memcmp pos
        (View.readSpan_ptr validLeft pos (Nat.min_le_left _ _))
        (View.readSpan_ptr validRight pos (Nat.min_le_right _ _))
  rw [compare_eq_then_length, lengthLeft, lengthRight]
  simp only [compareValidViews, ensure_of validLeft, ensure_of validRight, ok_bind, common, begun,
    compareLengths_eq]
  cases compare (left.bytes.take (min left.len right.len))
      (right.bytes.take (min left.len right.len)) with
  | lt | eq | gt => rfl

theorem viewCompare_eq (memcmp : Memcmp) (validLeft : viewIsValid left)
    (validRight : viewIsValid right) :
    viewCompare memcmp true left right =
      .ok (.ok (CompareOrder.of (compare left.bytes right.bytes)).value) := by
  simp only [viewCompare, validateView, validLeft, validRight, if_true,
    compareValidViews_eq memcmp validLeft validRight, ok_bind]
  rfl

/-- A span at the start of a view against the whole of another. -/
theorem areByteSpansEqual_start (memcmp : Memcmp) (validLeft : viewIsValid left)
    (validRight : viewIsValid right) (inside : right.len ≤ left.len) :
    areByteSpansEqual memcmp left.ptr right.ptr right.len =
      .ok (decide (left.bytes.take right.len = right.bytes)) := by
  have whole : right.bytes.take right.len = right.bytes :=
    List.take_of_length_le (Nat.le_of_eq (View.length_bytes validRight))
  by_cases none : right.len = 0
  · have empty : right.bytes = [] := List.eq_nil_of_length_eq_zero
      ((View.length_bytes validRight).trans none)
    rw [areByteSpansEqual, if_pos none, none, empty]
    rfl
  · have pos := Nat.pos_of_ne_zero none
    have spans := areByteSpansEqual_eq memcmp pos (View.readSpan_ptr validLeft pos inside)
      (View.readSpan_ptr validRight pos (Nat.le_refl _))
    rwa [whole] at spans

theorem viewEquals_eq (memcmp : Memcmp) (validLeft : viewIsValid left)
    (validRight : viewIsValid right) :
    viewEquals memcmp left right = .ok (decide (left.bytes = right.bytes)) := by
  have lengthLeft := View.length_bytes validLeft
  have lengthRight := View.length_bytes validRight
  have both : hasValidViews left right = true := Bool.and_eq_true_iff.mpr ⟨validLeft, validRight⟩
  simp only [viewEquals, both, if_true, isViewContentEqual, ensure_of validLeft,
    ensure_of validRight, ok_bind]
  by_cases same : left.len = right.len
  · have spans := areByteSpansEqual_start memcmp validLeft validRight (Nat.le_of_eq same.symm)
    rw [if_neg (not_not.mpr same), same, spans, ← same,
      List.take_of_length_le (Nat.le_of_eq lengthLeft)]
  · have differ : left.bytes ≠ right.bytes := fun equal => same (by
      rw [← lengthLeft, ← lengthRight, equal])
    rw [if_pos same, decide_eq_false differ]

theorem viewStartsWith_eq (memcmp : Memcmp) (validLeft : viewIsValid left)
    (validRight : viewIsValid right) :
    viewStartsWith memcmp left right = .ok (decide (left.bytes.take right.len = right.bytes)) := by
  have lengthLeft := View.length_bytes validLeft
  have lengthRight := View.length_bytes validRight
  have both : hasValidViews left right = true := Bool.and_eq_true_iff.mpr ⟨validLeft, validRight⟩
  simp only [viewStartsWith, both, if_true, hasViewPrefix, ensure_of validLeft,
    ensure_of validRight, ok_bind]
  by_cases longer : left.len < right.len
  · have differ : left.bytes.take right.len ≠ right.bytes := fun equal => by
      have lengths := congrArg List.length equal
      rw [List.length_take, lengthLeft, lengthRight] at lengths
      omega
    rw [if_pos longer, decide_eq_false differ]
  · rw [if_neg longer]
    exact areByteSpansEqual_start memcmp validLeft validRight (Nat.le_of_not_lt longer)

theorem viewEndsWith_eq (memcmp : Memcmp) (validLeft : viewIsValid left)
    (validRight : viewIsValid right) :
    viewEndsWith memcmp left right = .ok (decide (right.bytes <:+ left.bytes)) := by
  have lengthLeft := View.length_bytes validLeft
  have lengthRight := View.length_bytes validRight
  have both : hasValidViews left right = true := Bool.and_eq_true_iff.mpr ⟨validLeft, validRight⟩
  simp only [viewEndsWith, both, if_true, hasViewSuffix, ensure_of validLeft,
    ensure_of validRight, ok_bind]
  by_cases longer : left.len < right.len
  · have differ : ¬ right.bytes <:+ left.bytes := fun suffix => by
      have lengths := suffix.length_le
      omega
    rw [if_pos longer, decide_eq_false differ]
  · rw [if_neg longer]
    by_cases none : right.len = 0
    · have empty : right.bytes = [] := List.eq_nil_of_length_eq_zero (lengthRight.trans none)
      rw [if_pos none, empty, decide_eq_true List.nil_suffix]
    · have pos := Nat.pos_of_ne_zero none
      have offset : sizeSub left.len right.len = left.len - right.len :=
        sizeSub_of_le (Nat.le_of_not_lt longer) left.fits
      have tail : readSpan (left.ptr.map (List.drop (left.len - right.len))) right.len =
          .ok (left.bytes.drop (left.len - right.len)) := by
        have isSome := View.isSome_of_pos validLeft (by omega)
        cases designated : left.ptr with
        | none =>
            rw [designated] at isSome
            cases isSome
        | some whole =>
            have readable := left.readable whole designated
            have rest : left.len - right.len + right.len = left.len := by omega
            rw [Option.map_some, readSpan, if_pos (by rw [List.length_drop]; omega), View.bytes,
              designated, Option.getD_some, List.drop_take]
            congr 2
            omega
      have spans := areByteSpansEqual_eq memcmp pos tail
        (View.readSpan_ptr validRight pos (Nat.le_refl _))
      rw [List.take_of_length_le (Nat.le_of_eq lengthRight)] at spans
      rw [if_neg none, offset, spans]
      refine congrArg Except.ok (decide_eq_decide.mpr ?_)
      rw [List.suffix_iff_eq_drop, lengthLeft, lengthRight, eq_comm]

end

/-- The first `len` bytes of a view, or all it has. -/
def View.first (len : Nat) (view : View) : View where
  ptr := view.ptr
  len := min len view.len
  fits := Nat.le_trans (Nat.min_le_right _ _) view.fits
  readable bytes designated := Nat.le_trans (Nat.min_le_right _ _) (view.readable bytes designated)

theorem View.bytes_first (len : Nat) (view : View) :
    (view.first len).bytes = view.bytes.take len := by
  rw [View.bytes, View.bytes, List.take_take]
  rfl

theorem View.first_valid {view : View} (valid : viewIsValid view) (len : Nat) :
    viewIsValid (view.first len) := by
  by_cases none : view.len = 0
  · have empty : (view.first len).len = 0 := by
      change min len view.len = 0
      rw [none, Nat.min_zero]
    simp [viewIsValid, empty]
  · have isSome : (view.first len).ptr.isSome = true :=
      @View.isSome_of_pos view valid (Nat.pos_of_ne_zero none)
    simp [viewIsValid, isSome]

namespace CompareOrder

theorem value_of_swap (order : Ordering) : (of order.swap).value = -(of order).value := by
  cases order with
  | lt | eq | gt => rfl

theorem value_of_eq_zero (order : Ordering) : (of order).value = 0 ↔ order = .eq := by
  cases order with
  | lt | eq | gt => decide

theorem value_of_neg (order : Ordering) : (of order).value < 0 ↔ order = .lt := by
  cases order with
  | lt | eq | gt => decide

theorem value_of_le_zero (order : Ordering) : (of order).value ≤ 0 ↔ order.isLE := by
  cases order with
  | lt | eq | gt => decide

end CompareOrder

/-- `str_view_compare` orders valid views totally, by their first bytes that differ and a proper
prefix first, and the other queries agree with it. -/
theorem viewCompare_order (memcmp : Memcmp) (a b c : View) (validA : viewIsValid a)
    (validB : viewIsValid b) (validC : viewIsValid c) :
    ∃ ab ba bc ac : Int,
      viewCompare memcmp true a b = .ok (.ok ab) ∧ viewCompare memcmp true b a = .ok (.ok ba) ∧
      viewCompare memcmp true b c = .ok (.ok bc) ∧ viewCompare memcmp true a c = .ok (.ok ac) ∧
      (ab < 0 ↔ (∃ y rest, b.bytes = a.bytes ++ y :: rest) ∨ ∃ common x y xs ys,
        a.bytes = common ++ x :: xs ∧ b.bytes = common ++ y :: ys ∧ x < y) ∧
      ba = -ab ∧ (ab ≤ 0 → ba ≤ 0 → a.bytes = b.bytes) ∧ (ab ≤ 0 → bc ≤ 0 → ac ≤ 0) ∧
      (ab ≤ 0 ∨ ba ≤ 0) ∧
      (ab = 0 ↔ viewEquals memcmp a b = .ok true) ∧ (ab = 0 ↔ a.bytes = b.bytes) ∧
      (∀ common joinedA joinedB : View, viewIsValid joinedA → viewIsValid joinedB →
        joinedA.bytes = common.bytes ++ a.bytes → joinedB.bytes = common.bytes ++ b.bytes →
        viewCompare memcmp true joinedA joinedB = .ok (.ok ab)) ∧
      (viewStartsWith memcmp a b = .ok true ↔
        viewCompare memcmp true (a.first b.len) b = .ok (.ok 0)) ∧
      (viewStartsWith memcmp a b = .ok true ↔ b.bytes <+: a.bytes) := by
  have equal : (CompareOrder.of (compare a.bytes b.bytes)).value = 0 ↔ a.bytes = b.bytes :=
    (CompareOrder.value_of_eq_zero _).trans Std.compare_eq_iff_eq
  have swapped : (CompareOrder.of (compare b.bytes a.bytes)).value =
      -(CompareOrder.of (compare a.bytes b.bytes)).value := by
    rw [@Std.OrientedCmp.eq_swap _ compare _ b.bytes a.bytes, CompareOrder.value_of_swap]
  have started : viewStartsWith memcmp a b = .ok true ↔ a.bytes.take b.len = b.bytes := by
    rw [viewStartsWith_eq memcmp validA validB, Except.ok.injEq, decide_eq_true_iff]
  refine ⟨_, _, _, _, viewCompare_eq memcmp validA validB, viewCompare_eq memcmp validB validA,
    viewCompare_eq memcmp validB validC, viewCompare_eq memcmp validA validC, ?_, swapped, ?_,
    ?_, ?_, ?_, equal, ?_, ?_, ?_⟩
  · rw [CompareOrder.value_of_neg, compare_eq_lt_iff]
    simp only [Std.compare_eq_lt]
  · intro le ge
    exact equal.mp (by omega)
  · rw [CompareOrder.value_of_le_zero, CompareOrder.value_of_le_zero, CompareOrder.value_of_le_zero]
    exact Std.TransOrd.isLE_trans
  · omega
  · rw [equal, viewEquals_eq memcmp validA validB, Except.ok.injEq, decide_eq_true_iff]
  · intro common joinedA joinedB validJoinedA validJoinedB bytesA bytesB
    rw [viewCompare_eq memcmp validJoinedA validJoinedB, bytesA, bytesB, compare_append_left]
  · rw [started, viewCompare_eq memcmp (View.first_valid validA _) validB, View.bytes_first,
      Except.ok.injEq, Except.ok.injEq, CompareOrder.value_of_eq_zero, Std.compare_eq_iff_eq]
  · rw [started, List.prefix_iff_eq_take, View.length_bytes validB, eq_comm]

/-- The difference of the first bytes that differ. -/
def byteDifference : List UInt8 → List UInt8 → Int
  | x :: xs, y :: ys => if x = y then byteDifference xs ys else (x.toNat : Int) - y.toNat
  | _, _ => 0

theorem byteDifference_append (common xs ys : List UInt8) :
    byteDifference (common ++ xs) (common ++ ys) = byteDifference xs ys := by
  induction common with
  | nil => rfl
  | cons x rest ih => rw [List.cons_append, List.cons_append, byteDifference, if_pos rfl, ih]

/-- The usual `memcmp`. -/
def Memcmp.difference : Memcmp where
  value := byteDifference
  same bytes := by
    have none := byteDifference_append bytes [] []
    rwa [List.append_nil] at none
  less common x y xs ys below _ := by
    have nat : x.toNat < y.toNat := UInt8.lt_iff_toNat_lt.mp below
    rw [byteDifference_append, byteDifference, if_neg (UInt8.ne_of_lt below)]
    omega
  greater common x y xs ys above _ := by
    have nat : y.toNat < x.toNat := UInt8.lt_iff_toNat_lt.mp above
    rw [byteDifference_append, byteDifference, if_neg (UInt8.ne_of_lt above).symm]
    omega

/-- An empty view without storage. -/
def View.null : View where
  ptr := none
  len := 0
  fits := Nat.zero_le _
  readable := by rintro _ ⟨⟩

theorem viewCompare_order_null :
    viewCompare .difference true .null (.ofBytes [97, 200] (by decide)) = .ok (.ok (-1)) ∧
      viewCompare .difference true (.ofBytes [97, 200] (by decide)) .null = .ok (.ok 1) := by
  have before : viewCompare .difference true .null (.ofBytes [97, 200] (by decide)) =
      .ok (.ok (-1)) := rfl
  obtain ⟨ab, ba, _, _, ran, ranBack, _, _, _, back, _⟩ := viewCompare_order .difference .null
    (.ofBytes [97, 200] (by decide)) .null rfl rfl rfl
  cases before.symm.trans ran
  refine ⟨before, ?_⟩
  rw [ranBack, back]
  rfl

end AgencC.Str
