import AgencC.Harness.Replay
import AgencC.Library.Strtoull
import AgencC.Library.XorShift

/-! The generator of the harness: how its output is made from its state, how long it
takes to come back to a state, and what the tests of a run can draw from it. -/

set_option autoImplicit false

namespace AgencC.Harness

open Library

/-- The rotation of `tt_rand`, whose left shift is by `-rot` modulo 32. -/
theorem rotation_toBitVec (x : UInt32) {rot : UInt32} (small : rot.toNat < 32) :
    (x >>> rot ||| x <<< ((0 - rot) &&& 31)).toBitVec = x.toBitVec.rotateRight rot.toNat := by
  have back : ((0 - rot) &&& 31).toNat = (32 - rot.toNat) % 32 := by
    have masked := Nat.and_two_pow_sub_one_eq_mod (0 - rot).toNat 5
    have zero : (0 : UInt32).toNat = 0 := rfl
    rw [UInt32.toNat_sub] at masked
    rw [UInt32.toNat_and, UInt32.toNat_sub]
    refine masked.trans ?_
    omega
  have right : (x >>> rot).toBitVec = x.toBitVec >>> rot.toNat := by
    rw [UInt32.toBitVec_shiftRight, BitVec.ushiftRight_eq', BitVec.toNat_umod]
    exact congrArg (x.toBitVec >>> ·) (Nat.mod_eq_of_lt small)
  have left : (x <<< ((0 - rot) &&& 31)).toBitVec = x.toBitVec <<< ((32 - rot.toNat) % 32) := by
    have below : (32 - rot.toNat) % 32 < 32 := Nat.mod_lt _ (by decide)
    rw [UInt32.toBitVec_shiftLeft, BitVec.shiftLeft_eq', BitVec.toNat_umod, UInt32.toNat_toBitVec,
      back]
    exact congrArg (x.toBitVec <<< ·) (Nat.mod_eq_of_lt below)
  rw [UInt32.toBitVec_or, right, left, or_shiftLeft_eq_rotateRight _ small]

/-- The five top bits, which say how far to rotate. -/
theorem rot_toNat (old : UInt64) :
    (old >>> 59).toUInt32.toNat = (old.toBitVec.extractLsb' 59 5).toNat := by
  have range := old.toNat_lt
  have amount : UInt64.toNat 59 % 64 = 59 := rfl
  rw [UInt64.toNat_toUInt32, UInt64.toNat_shiftRight, BitVec.extractLsb'_toNat, amount,
    UInt64.toNat_toBitVec, Nat.shiftRight_eq_div_pow]
  omega

/-- `tt_rand` draws the rotated middle of the xor-shifted state. -/
theorem ttRand_toBitVec (old : UInt64) :
    (ttRand old).1.toBitVec = (rotatedXorShift 18 27 32 5 old.toBitVec).setWidth 64 := by
  have amount := rot_toNat old
  have small : (old >>> 59).toUInt32.toNat < 32 := by
    rw [amount]
    exact BitVec.isLt _
  have middle : (((old >>> 18) ^^^ old) >>> 27).toUInt32.toBitVec =
      (xorShift 18 old.toBitVec).extractLsb' 27 32 := by
    rw [← BitVec.setWidth_ushiftRight_eq_extractLsb, xorShift, BitVec.xor_comm]
    rfl
  simp only [ttRand, UInt32.toBitVec_toUInt64]
  rw [rotation_toBitVec _ small, middle, amount]
  rfl

theorem ttRand_lt (old : UInt64) : (ttRand old).1.toNat < 2 ^ 32 := by
  rw [← UInt64.toNat_toBitVec, ttRand_toBitVec, BitVec.toNat_setWidth]
  exact Nat.lt_of_le_of_lt (Nat.mod_le _ _) (BitVec.isLt _)

theorem ttRandBelow_lt {bound : UInt32} (positive : 0 < bound) (old : UInt64) :
    (ttRandBelow bound old).1 < bound := by
  have above : 0 < bound.toNat := UInt32.lt_iff_toNat_lt.mp positive
  have nonzero : bound ≠ 0 := by
    rintro rfl
    exact Nat.lt_irrefl _ above
  have rest : (ttRand old).1.toNat % bound.toNat < bound.toNat := Nat.mod_lt _ above
  rw [UInt32.lt_iff_toNat_lt, ttRandBelow, if_neg nonzero, UInt64.toNat_toUInt32,
    UInt64.toNat_mod, UInt32.toNat_toUInt64]
  exact Nat.lt_of_le_of_lt (Nat.mod_le _ _) rest

def Draw.InRange : Draw → Prop
  | .rand value => value.toNat < 2 ^ 32
  | .below bound value => 0 < bound → value < bound

theorem Emits.inRange {rng ended : UInt64} {draws : List Draw} (emits : Emits rng draws ended) :
    ∀ draw ∈ draws, draw.InRange := by
  induction emits with
  | none =>
      intro draw member
      cases member
  | @rand rng _ _ _ ih =>
      rw [List.forall_mem_cons]
      exact ⟨ttRand_lt rng, ih⟩
  | @randBelow rng _ _ _ _ ih =>
      rw [List.forall_mem_cons]
      exact ⟨fun positive => ttRandBelow_lt positive rng, ih⟩

theorem ttRand_eq_iff (old : UInt64) (value : UInt32) :
    (ttRand old).1 = value.toUInt64 ↔
      rotatedXorShift 18 27 32 5 old.toBitVec = value.toBitVec := by
  rw [← UInt64.toBitVec_inj, ttRand_toBitVec, UInt32.toBitVec_toUInt64]
  constructor
  · intro same
    have narrowed := congrArg (fun x => x.setWidth 32) same
    simpa only [BitVec.setWidth_setWidth_of_le, BitVec.setWidth_eq, Nat.reduceLeDiff] using narrowed
  · intro same
    rw [same]

/-- Every 32-bit value is the output of equally many states. -/
theorem card_ttRand (value : UInt32) :
    Nat.card {old // (ttRand old).1 = value.toUInt64} = 2 ^ 32 := by
  let words : UInt64 ≃ BitVec 64 := ⟨UInt64.toBitVec, UInt64.ofBitVec, fun _ => rfl, fun _ => rfl⟩
  have sources : {old // (ttRand old).1 = value.toUInt64} ≃
      {x : BitVec 64 // rotatedXorShift 18 27 32 5 x = value.toBitVec} :=
    words.subtypeEquiv fun old => ttRand_eq_iff old value
  rw [Nat.card_congr sources]
  have positive : 0 < 18 := by decide
  have covers : 5 ≤ 18 := by decide
  exact card_rotatedXorShift rfl positive covers value.toBitVec

/-- What the draws from `seed` on run through: every state and no state twice in `2 ^ 64`
steps, the same again after them, and every output equally often. -/
structure FullPeriod (seed : UInt64) : Prop where
  visits : ∀ state, ∃! n, n < 2 ^ 64 ∧ advance n seed = state
  recurs : ∀ m n, advance m seed = advance n seed ↔ m ≡ n [MOD 2 ^ 64]
  spread : ∀ value : UInt32,
    Nat.count (fun n => (ttRand (advance n seed)).1 = value.toUInt64) (2 ^ 64) = 2 ^ 32

section Period

open scoped UInt64.CommRing

theorem exists_unique_advance (seed state : UInt64) :
    ∃! n, n < 2 ^ 64 ∧ advance n seed = state := by
  unfold advance
  rw [ttRand_step]
  obtain ⟨n, reached, only⟩ := (Lcg.bijective_iterate uint64_wraps uint64_top uint64_card
    1591034055961698251 721347520444481703 seed).existsUnique state
  refine ⟨n, ⟨n.isLt, reached⟩, ?_⟩
  rintro m ⟨early, reached'⟩
  exact congrArg Fin.val (only ⟨m, early⟩ reached')

theorem count_ttRand (seed : UInt64) (value : UInt32) :
    Nat.count (fun n => (ttRand (advance n seed)).1 = value.toUInt64) (2 ^ 64) = 2 ^ 32 := by
  unfold advance
  rw [ttRand_step]
  exact (Lcg.count_iterate uint64_wraps uint64_top uint64_card _ _ seed
    fun old => (ttRand old).1 = value.toUInt64).trans (card_ttRand value)

end Period

theorem fullPeriod (seed : UInt64) : FullPeriod seed where
  visits := exists_unique_advance seed
  recurs := advance_eq_iff seed
  spread := count_ttRand seed

/-- Only `--seed` sets the seed. -/
theorem ttParseArg_seed (host : Host) (config : Config) {a : CString}
    (other : ¬ optSeed.isPrefixOf a) : (ttParseArg host config a).seed = config.seed := by
  unfold ttParseArg
  rw [if_neg other]
  split_ifs <;> rfl

/-- The last `--seed` is the one a run takes. -/
theorem ttParseArgs_seed (host : Host) (argv later : List CString) (text : CString)
    (last : ∀ a ∈ later, ¬ optSeed.isPrefixOf a) :
    (ttParseArgs host (argv ++ (optSeed ++ text) :: later)).seed = host.strtoull text := by
  have kept : ∀ config, (later.foldl (ttParseArg host) config).seed = config.seed := by
    induction later with
    | nil => exact fun _ => rfl
    | cons a later ih =>
        rw [List.forall_mem_cons] at last
        intro config
        rw [List.foldl_cons, ih last.2, ttParseArg_seed host config last.1]
  rw [ttParseArgs, List.foldl_append, List.foldl_cons, kept]
  rfl

/-- The output of a state is the middle of the xor-shifted state, rotated by the top bits. -/
structure Output (old : UInt64) : Prop where
  rotation : (ttRand old).1.toBitVec =
    (((old.toBitVec ^^^ old.toBitVec >>> 18).extractLsb' 27 32).rotateRight
      (old.toBitVec.extractLsb' 59 5).toNat).setWidth 64
  inRange : (ttRand old).1.toNat < 2 ^ 32
  below : ∀ bound, 0 < bound → (ttRandBelow bound old).1 < bound

theorem output (old : UInt64) : Output old where
  rotation := ttRand_toBitVec old
  inRange := ttRand_lt old
  below := fun _ positive => ttRandBelow_lt positive old

/-- What a turn of a run draws: the values that follow those of the in-process turns before
it, none of them out of its range. -/
structure TurnDraws (config : Config) (before : List Turn) (turn : Turn) : Prop where
  start : turn.rng = advance (stepsBefore config before) config.seed
  emits : Emits turn.rng turn.draws (advance (steps turn.draws) turn.rng)
  inRange : ∀ draw ∈ turn.draws, draw.InRange

/-- Whatever seed the command line gives, and it can give every one, the generator has its
full period and the turns of the run draw from it. -/
theorem ttRand_under_seed (host : Host) (qsort : Qsort) (argv : List CString)
    (registry : Registry) :
    FullPeriod (ttParseArgs host argv).seed ∧
      (∀ old, Output old) ∧
      (∀ before turn after, runTurns host qsort argv registry = before ++ turn :: after →
        TurnDraws (ttParseArgs host argv) before turn) ∧
      ∀ seed, (ttParseArgs { host with strtoull := strtoull }
        (argv ++ [optSeed ++ decimal seed])).seed = seed := by
  refine ⟨fullPeriod _, output, fun before turn after given => ?_, fun seed => ?_⟩
  · exact ⟨runTurns_rng given, turn.emits, turn.emits.inRange⟩
  · rw [ttParseArgs_seed _ argv [] (decimal seed) (List.forall_mem_nil _)]
    exact strtoull_decimal seed

/-- From seed 0 the second test of a run draws the output of the second state. -/
theorem ttRand_under_seed_zero :
    FullPeriod 0 ∧
      ∃ first second : Turn,
        runTurns { strtoull := strtoull } .merge [optSeed ++ ['0']] drawingRegistry =
          [first, second] ∧
        second.rng = advance 1 0 := by
  have given : runTurns { strtoull := strtoull } .merge [optSeed ++ ['0']] drawingRegistry =
      [⟨drawingTest 'a' 1, 1, 0⟩, ⟨drawingTest 'b' 2, 2, advance 1 0⟩] := by
    simp only [runTurns, drawingRegistry_collect]
    rfl
  obtain ⟨period, _, draws, _⟩ := ttRand_under_seed { strtoull := strtoull } .merge
    [optSeed ++ ['0']] drawingRegistry
  exact ⟨period, _, _, given, (draws [_] _ [] given).start⟩

end AgencC.Harness
