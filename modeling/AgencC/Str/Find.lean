import AgencC.Str.TwoWay

/-! `str_view_find` and `str_view_rfind` agree with the position-by-position
search on every pair of valid views. -/

set_option autoImplicit false

namespace AgencC.Str

open Library

private theorem findByteLoop_spec {haystack : View} {byte : UInt8} (left idx : Nat)
    (end' : idx + left = haystack.bytes.length)
    (none : ∀ start < idx, ¬ OccursAt haystack.bytes [byte] start) :
    ∃ result, findByteLoop haystack byte left idx = .ok result ∧
      IsAnswer haystack.bytes [byte] .first result := by
  induction left generalizing idx with
  | zero =>
      refine ⟨npos, rfl, .inl ⟨fun start occurs => ?_, rfl⟩⟩
      have inside : start + 1 ≤ haystack.bytes.length := occurs.1
      exact none start (by omega) occurs
  | succ left ih =>
      have found := List.getElem?_eq_getElem (by omega : idx < haystack.bytes.length)
      simp only [findByteLoop, View.read_of_getElem? found, ok_bind]
      by_cases equal : haystack.bytes[idx] = byte
      · rw [if_pos equal]
        refine ⟨idx, rfl, .inr ⟨occursAt_singleton.mpr (equal ▸ found), fun start occurs => ?_⟩⟩
        by_contra before
        exact none start (by omega) occurs
      · rw [if_neg equal]
        refine ih (idx + 1) (by omega) fun start before occurs => ?_
        rcases Nat.lt_or_eq_of_le (Nat.le_of_lt_succ before) with earlier | here
        · exact none start earlier occurs
        · subst here
          exact equal (Option.some.inj (found.symm.trans (occursAt_singleton.mp occurs)))

private theorem rfindByteLoop_spec {haystack : View} {byte : UInt8} (idx : Nat)
    (bound : idx ≤ haystack.bytes.length)
    (none : ∀ start, idx ≤ start → ¬ OccursAt haystack.bytes [byte] start) :
    ∃ result, rfindByteLoop haystack byte idx = .ok result ∧
      IsAnswer haystack.bytes [byte] .last result := by
  induction idx with
  | zero => exact ⟨npos, rfl, .inl ⟨fun start => none start (Nat.zero_le _), rfl⟩⟩
  | succ idx ih =>
      have found := List.getElem?_eq_getElem (by omega : idx < haystack.bytes.length)
      simp only [rfindByteLoop, View.read_of_getElem? found, ok_bind]
      by_cases equal : haystack.bytes[idx] = byte
      · rw [if_pos equal]
        refine ⟨idx, rfl, .inr ⟨occursAt_singleton.mpr (equal ▸ found), fun start occurs => ?_⟩⟩
        by_contra beyond
        exact none start (by omega) occurs
      · rw [if_neg equal]
        refine ih (by omega) fun start after occurs => ?_
        rcases Nat.lt_or_eq_of_le after with later | here
        · exact none start later occurs
        · subst here
          exact equal (Option.some.inj (found.symm.trans (occursAt_singleton.mp occurs)))

private theorem bytes_of_len_one {view : View} (valid : viewIsValid view)
    (one : view.len = 1) : ∃ byte, view.bytes = [byte] :=
  List.length_eq_one_iff.mp (by rw [View.length_bytes valid, one])

theorem searchView_spec {haystack needle : View} {mode : SearchMode}
    (haystackValid : viewIsValid haystack) (needleValid : viewIsValid needle)
    (nonempty : 0 < needle.len) :
    ∃ result, searchView haystack needle mode = .ok result ∧
      IsAnswer haystack.bytes needle.bytes mode result := by
  have haystackLength := View.length_bytes haystackValid
  have needleLength := View.length_bytes needleValid
  simp only [searchView, ensure_of (View.isSome_of_pos needleValid nonempty),
    ensure_of nonempty, ok_bind]
  by_cases absent : haystack.ptr.isNone ∨ haystack.len < needle.len
  · rw [if_pos absent]
    refine ⟨npos, rfl, .inl ⟨fun start occurs => ?_, rfl⟩⟩
    have room := occurs.1
    have null : haystack.len < needle.len := by
      rcases absent with null | short
      · have empty : ¬ haystack.ptr.isSome := by
          rw [Option.isNone_iff_eq_none] at null
          simp [null]
        by_contra long
        exact empty (View.isSome_of_pos haystackValid (by omega))
      · exact short
    omega
  · rw [if_neg absent]
    have long : needle.len ≤ haystack.len := by
      by_contra short
      exact absent (.inr (by omega))
    by_cases one : needle.len = 1
    · obtain ⟨byte, single⟩ := bytes_of_len_one needleValid one
      have designated := View.isSome_of_pos haystackValid (by omega)
      have positive : 0 < haystack.len := by omega
      have found : needle.bytes[0]? = some byte := by rw [single]; rfl
      simp only [if_pos one, View.read_of_getElem? found, ok_bind, searchViewByte,
        ensure_of designated, ensure_of positive]
      rw [single]
      cases mode with
      | first =>
          simp only [viewFindByte, ensure_of designated, ensure_of positive, ok_bind]
          exact findByteLoop_spec haystack.len 0 (by omega) (by simp)
      | last =>
          simp only [viewRfindByte, ensure_of designated, ensure_of positive, ok_bind]
          refine rfindByteLoop_spec haystack.len (by omega) fun start beyond occurs => ?_
          have room := occurs.1
          simp only [List.length_singleton] at room
          omega
    · rw [if_neg one]
      exact searchTwoWay_spec haystackValid needleValid (by omega) long

theorem locateViewMatch_spec {haystack needle : View} {mode : SearchMode}
    (haystackValid : viewIsValid haystack) (needleValid : viewIsValid needle) :
    ∃ result, locateViewMatch haystack needle mode = .ok result ∧
      IsAnswer haystack.bytes needle.bytes mode result := by
  have haystackLength := View.length_bytes haystackValid
  have needleLength := View.length_bytes needleValid
  simp only [locateViewMatch, ensure_of haystackValid, ensure_of needleValid, ok_bind]
  by_cases nonempty : 0 < needle.len
  · rw [if_pos nonempty]
    exact searchView_spec haystackValid needleValid nonempty
  · rw [if_neg nonempty]
    have everywhere : ∀ start, start ≤ haystack.len →
        OccursAt haystack.bytes needle.bytes start :=
      fun start reach => ⟨by omega, fun index bound => by omega⟩
    cases mode with
    | first => exact ⟨0, rfl, .inr ⟨everywhere 0 (Nat.zero_le _), fun _ _ => Nat.zero_le _⟩⟩
    | last =>
        refine ⟨haystack.len, rfl, .inr ⟨everywhere _ (Nat.le_refl _), fun start occurs => ?_⟩⟩
        have := occurs.1
        omega

theorem IsAnswer.eq_first {haystack needle : List UInt8} {result : Nat}
    (answer : IsAnswer haystack needle .first result) :
    result = (firstOccurrence haystack needle).getD npos := by
  rcases answer with ⟨none, rfl⟩ | least
  · rw [firstOccurrence_eq_none_iff.mpr none, Option.getD_none]
  · rw [firstOccurrence_eq_some_of_isLeast least, Option.getD_some]

theorem IsAnswer.eq_last {haystack needle : List UInt8} {result : Nat}
    (answer : IsAnswer haystack needle .last result) :
    result = (lastOccurrence haystack needle).getD npos := by
  rcases answer with ⟨none, rfl⟩ | greatest
  · rw [lastOccurrence_eq_none_iff.mpr none, Option.getD_none]
  · rw [lastOccurrence_eq_some_of_isGreatest greatest, Option.getD_some]

/-- An occurrence starts at `STR_NPOS` only when the needle is empty and the
haystack as long as a view can be. -/
private theorem occursAt_npos {haystack needle : View} (haystackValid : viewIsValid haystack)
    (needleValid : viewIsValid needle)
    (occurs : OccursAt haystack.bytes needle.bytes npos) :
    needle.len = 0 ∧ haystack.len = npos := by
  have room := occurs.1
  have fits := haystack.fits
  rw [View.length_bytes haystackValid, View.length_bytes needleValid] at room
  unfold npos at *
  omega

/-- Both searches return what the position-by-position search finds: the least
and the greatest start of an occurrence, `STR_NPOS` exactly when there is none.
The one refusal is the empty needle's last index when it would be `STR_NPOS`. -/
theorem viewFind_viewRfind_eq_naive (haystack needle : View) (old : Nat)
    (haystackValid : viewIsValid haystack) (needleValid : viewIsValid needle) :
    (∃ first, viewFind haystack (some old) needle = .ok (.ok, some first) ∧
      first = (firstOccurrence haystack.bytes needle.bytes).getD npos ∧
      (first = npos ↔ ∀ start, ¬ OccursAt haystack.bytes needle.bytes start) ∧
      (first ≠ npos → IsLeast {start | OccursAt haystack.bytes needle.bytes start} first) ∧
      (needle.len = 0 → first = 0)) ∧
    (needle.len = 0 ∧ haystack.len = npos →
      viewRfind haystack (some old) needle = .ok (.errOverflow, some old)) ∧
    (¬ (needle.len = 0 ∧ haystack.len = npos) →
      ∃ last, viewRfind haystack (some old) needle = .ok (.ok, some last) ∧
        last = (lastOccurrence haystack.bytes needle.bytes).getD npos ∧
        (last = npos ↔ ∀ start, ¬ OccursAt haystack.bytes needle.bytes start) ∧
        (last ≠ npos → IsGreatest {start | OccursAt haystack.bytes needle.bytes start} last) ∧
        (needle.len = 0 → last = haystack.len)) := by
  have needleLength := View.length_bytes needleValid
  have haystackLength := View.length_bytes haystackValid
  have emptyOccurs : needle.len = 0 → ∀ start ≤ haystack.len,
      OccursAt haystack.bytes needle.bytes start :=
    fun empty start reach => ⟨by omega, fun index bound => by omega⟩
  have accepted : validateView haystack = .ok ∧ validateView needle = .ok := by
    simp [validateView, haystackValid, needleValid]
  refine ⟨?_, fun refused => ?_, fun allowed => ?_⟩
  · obtain ⟨first, ran, answer⟩ := locateViewMatch_spec haystackValid needleValid
    refine ⟨first, ?_, answer.eq_first, ?_, ?_, ?_⟩
    · simp [viewFind, findViewMatch, accepted, ran]
    · rcases answer with ⟨none, rfl⟩ | least
      · exact ⟨fun _ => none, fun _ => rfl⟩
      · refine ⟨fun missing => ?_, fun none => absurd least.1 (none first)⟩
        subst missing
        obtain ⟨empty, whole⟩ := occursAt_npos haystackValid needleValid least.1
        have := least.2 (emptyOccurs empty 0 (Nat.zero_le _))
        exact absurd this (by decide)
    · intro present
      rcases answer with ⟨_, missing⟩ | least
      · exact absurd missing present
      · exact least
    · intro empty
      have start := emptyOccurs empty 0 (Nat.zero_le _)
      rcases answer with ⟨none, _⟩ | least
      · exact absurd start (none 0)
      · exact Nat.le_zero.mp (least.2 start)
  · simp [viewRfind, findViewMatch, accepted, refused]
  · obtain ⟨last, ran, answer⟩ := locateViewMatch_spec haystackValid needleValid
    refine ⟨last, ?_, answer.eq_last, ?_, ?_, ?_⟩
    · simp [viewRfind, findViewMatch, accepted, ran, allowed]
    · rcases answer with ⟨none, rfl⟩ | greatest
      · exact ⟨fun _ => none, fun _ => rfl⟩
      · refine ⟨fun missing => ?_, fun none => absurd greatest.1 (none last)⟩
        subst missing
        exact absurd (occursAt_npos haystackValid needleValid greatest.1) allowed
    · intro present
      rcases answer with ⟨_, missing⟩ | greatest
      · exact absurd missing present
      · exact greatest
    · intro empty
      have end' := emptyOccurs empty haystack.len (Nat.le_refl _)
      rcases answer with ⟨none, _⟩ | greatest
      · exact absurd end' (none _)
      · have upper := greatest.2 end'
        have := (greatest.1 : OccursAt _ _ last).1
        omega

theorem viewFind_viewRfind_abab :
    (∃ first, viewFind (.ofBytes [97, 98, 97, 98, 97, 0] (by decide)) (some 9)
        (.ofBytes [97, 98, 97] (by decide)) = .ok (.ok, some first) ∧ first = 0) ∧
      ∃ last, viewRfind (.ofBytes [97, 98, 97, 98, 97, 0] (by decide)) (some 9)
        (.ofBytes [97, 98, 97] (by decide)) = .ok (.ok, some last) ∧ last = 2 := by
  obtain ⟨⟨first, found, eqFirst, _⟩, _, allowed⟩ :=
    viewFind_viewRfind_eq_naive (.ofBytes [97, 98, 97, 98, 97, 0] (by decide))
      (.ofBytes [97, 98, 97] (by decide)) 9 rfl rfl
  obtain ⟨last, foundLast, eqLast, _⟩ := allowed (by decide)
  exact ⟨⟨first, found, eqFirst.trans (by decide)⟩, last, foundLast, eqLast.trans (by decide)⟩

end AgencC.Str
