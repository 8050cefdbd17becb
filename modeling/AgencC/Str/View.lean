import AgencC.Library.Fault
import AgencC.Library.SizeT

/-! Borrowed views and result codes of the string library. Sizes are `size_t`
values on a 64-bit target. -/

set_option autoImplicit false

namespace AgencC.Str

open Library

/-- `STR_NPOS`, a missing search result. -/
def npos : Nat := sizeMax

inductive Status where
  | ok
  | errArg
  | errAlloc
  | errRange
  | errOverflow
  | errFmt
  deriving DecidableEq, Repr

/-- `str_view_t`: a possibly NULL pointer, with the bytes readable through it,
and a length. A view with a pointer never claims more bytes than are readable. -/
structure View where
  ptr : Option (List UInt8)
  len : Nat
  fits : len ≤ sizeMax
  readable : ∀ bytes, ptr = some bytes → len ≤ bytes.length

/-- The bytes the view designates. -/
def View.bytes (view : View) : List UInt8 := (view.ptr.getD []).take view.len

/-- `str_view_is_valid`. -/
def viewIsValid (view : View) : Bool := view.ptr.isSome || view.len == 0

/-- The view of a whole byte list. -/
def View.ofBytes (bytes : List UInt8) (fits : bytes.length ≤ sizeMax) : View where
  ptr := some bytes
  len := bytes.length
  fits := fits
  readable := by rintro _ ⟨⟩; exact Nat.le_refl _

/-- `view.ptr[idx]`. -/
def View.read (view : View) (idx : Nat) : Except Fault UInt8 :=
  match view.bytes[idx]? with
  | some byte => .ok byte
  | none => .error .outOfBounds

/-- `view.ptr[idx .. idx + len)`. -/
def View.readBytes (view : View) (idx len : Nat) : Except Fault (List UInt8) :=
  if idx + len ≤ view.bytes.length then .ok ((view.bytes.drop idx).take len)
  else .error .outOfBounds

/-- `str_read_view_byte`. -/
def readViewByte (view : View) (idx : Nat) : Except Fault UInt8 := do
  ensure (view.ptr.isSome) "view.ptr != NULL"
  ensure (idx < view.len) "idx < view.len"
  view.read idx

/-- `str_validate_view`. -/
def validateView (view : View) : Status :=
  if viewIsValid view then .ok else .errArg

theorem View.length_bytes {view : View} (valid : viewIsValid view) :
    view.bytes.length = view.len := by
  cases designated : view.ptr with
  | none =>
      have empty : view.len = 0 := by simpa [viewIsValid, designated] using valid
      simp [View.bytes, designated, empty]
  | some bytes => simp [View.bytes, designated, view.readable bytes designated]

theorem View.isSome_of_pos {view : View} (valid : viewIsValid view) (pos : 0 < view.len) :
    view.ptr.isSome := by
  have empty : ¬ view.len = 0 := by omega
  simpa [viewIsValid, empty] using valid

theorem View.isSome_of_bytes {view : View} (pos : 0 < view.bytes.length) : view.ptr.isSome := by
  cases designated : view.ptr with
  | none =>
      simp only [View.bytes, designated, Option.getD_none, List.take_nil, List.length_nil] at pos
      cases pos
  | some bytes => rfl

@[simp] theorem View.read_of_getElem? {view : View} {idx : Nat} {byte : UInt8}
    (found : view.bytes[idx]? = some byte) : view.read idx = .ok byte := by
  simp [View.read, found]

theorem readViewByte_of_getElem? {view : View} (valid : viewIsValid view) {idx : Nat}
    {byte : UInt8} (found : view.bytes[idx]? = some byte) :
    readViewByte view idx = .ok byte := by
  have bound : idx < view.len := by
    rw [← View.length_bytes valid]
    exact (List.getElem?_eq_some_iff.mp found).1
  simp [readViewByte, View.isSome_of_pos valid (by omega), bound, found]

end AgencC.Str
