import AgencC.Library.Lines
import AgencC.Library.Strtoull

/-! A consumer of TAP streams: the items that the lines of a text stand for. A description ends
where a directive begins. -/

set_option autoImplicit false

namespace AgencC.Library

inductive TapItem where
  | version (number : Nat)
  | point (passed : Bool) (number : Nat) (description : List Char) (skipped : Bool)
  | plan (count : Nat)
  | bailOut
  | comment (text : List Char)
  | other (text : List Char)
  deriving DecidableEq, Repr

/-- The verdict, the number, the description and the mark of a test point. -/
def TapItem.point? : TapItem → Option (Bool × Nat × List Char × Bool)
  | .point passed number description skipped => some (passed, number, description, skipped)
  | _ => none

def TapItem.plan? : TapItem → Option Nat
  | .plan count => some count
  | _ => none

def splitLines : List Char → List (List Char)
  | [] => []
  | c :: rest =>
      if c = '\n' then [] :: splitLines rest
      else
        match splitLines rest with
        | [] => [[c]]
        | line :: lines => (c :: line) :: lines

/-- The number a text begins with, and the text after it. -/
def readNumber (text : List Char) : Nat × List Char :=
  (Nat.ofDigitChars 10 (text.takeWhile Char.isDigit) 0, text.dropWhile Char.isDigit)

/-- A description, and the directive after it. -/
def cutDirective : List Char → List Char × Option (List Char)
  | [] => ([], none)
  | c :: rest =>
      if c = ' ' ∧ rest.head? = some '#' then ([], some rest.tail)
      else (c :: (cutDirective rest).1, (cutDirective rest).2)

def isSkip (directive : List Char) : Bool := " SKIP".toList.isPrefixOf directive

def readPoint (passed : Bool) (text : List Char) : TapItem :=
  let (number, rest) := readNumber text
  let (description, directive) := cutDirective ((rest.dropPrefix? " - ".toList).getD rest)
  .point passed number description (directive.any isSkip)

def readLine (line : List Char) : TapItem :=
  match line.dropPrefix? "ok ".toList with
  | some rest => readPoint true rest
  | none =>
    match line.dropPrefix? "not ok ".toList with
    | some rest => readPoint false rest
    | none =>
      match line.dropPrefix? "1..".toList with
      | some rest => .plan (readNumber rest).1
      | none =>
        match line.dropPrefix? "#".toList with
        | some text => .comment text
        | none =>
          match line.dropPrefix? "TAP version ".toList with
          | some rest => .version (readNumber rest).1
          | none => if "Bail out!".toList.isPrefixOf line then .bailOut else .other line

def readTap (text : List Char) : List TapItem := (splitLines text).map readLine

/-! Lines. -/

theorem splitLines_append {line text : List Char} (clean : '\n' ∉ line) :
    splitLines (line ++ '\n' :: text) = line :: splitLines text := by
  induction line with
  | nil => rfl
  | cons c line ih =>
      rw [List.mem_cons, not_or] at clean
      rw [List.cons_append, splitLines, if_neg (Ne.symm clean.1), ih clean.2]

theorem splitLines_ended {lines : List (List Char)} (clean : ∀ line ∈ lines, '\n' ∉ line) :
    splitLines (ended '\n' lines) = lines := by
  induction lines with
  | nil => rfl
  | cons line lines ih =>
      rw [List.forall_mem_cons] at clean
      rw [ended_cons, splitLines_append clean.1, ih clean.2]

/-! Test points. -/

theorem dropPrefix_append (start rest : List Char) :
    (start ++ rest).dropPrefix? start = some rest :=
  List.dropPrefix?_eq_some_iff.mpr ⟨start, rfl, beq_self_eq_true start⟩

theorem readNumber_append (n : Nat) {rest : List Char}
    (stops : ∀ c ∈ rest.head?, c.isDigit = false) :
    readNumber (Nat.toDigits 10 n ++ rest) = (n, rest) := by
  have digits : ∀ c ∈ Nat.toDigits 10 n, c.isDigit = true := fun c member =>
    Nat.isDigit_of_mem_toDigits (by decide) (by decide) member
  have stop : rest.takeWhile Char.isDigit = [] ∧ rest.dropWhile Char.isDigit = rest := by
    cases rest with
    | nil => exact ⟨rfl, rfl⟩
    | cons c rest =>
        have none : ¬ c.isDigit = true := Bool.not_eq_true _ ▸ stops c rfl
        exact ⟨List.takeWhile_cons_of_neg none, List.dropWhile_cons_of_neg none⟩
  rw [readNumber, List.takeWhile_append_of_pos digits, List.dropWhile_append_of_pos digits, stop.1,
    stop.2, List.append_nil, Nat.ofDigitChars_ten_toDigits]

theorem readNumber_digits (n : Nat) : readNumber (Nat.toDigits 10 n) = (n, []) := by
  have read : readNumber (Nat.toDigits 10 n ++ []) = (n, []) :=
    readNumber_append n fun c first => absurd first (Option.not_mem_none c)
  rwa [List.append_nil] at read

theorem cutDirective_cons {c : Char} {rest : List Char} (plain : rest.head? ≠ some '#') :
    cutDirective (c :: rest) = (c :: (cutDirective rest).1, (cutDirective rest).2) :=
  if_neg fun both => plain both.2

theorem cutDirective_plain {description : List Char} (plain : '#' ∉ description) :
    cutDirective description = (description, none) := by
  induction description with
  | nil => rfl
  | cons c rest ih =>
      rw [List.mem_cons, not_or] at plain
      have start : rest.head? ≠ some '#' := fun same => plain.2 (List.mem_of_head? same)
      rw [cutDirective_cons start, ih plain.2]

theorem cutDirective_append {description : List Char} (directive : List Char)
    (plain : '#' ∉ description) :
    cutDirective (description ++ ' ' :: '#' :: directive) = (description, some directive) := by
  induction description with
  | nil => rfl
  | cons c rest ih =>
      rw [List.mem_cons, not_or] at plain
      have start : (rest ++ ' ' :: '#' :: directive).head? ≠ some '#' := by
        cases rest with
        | nil => exact fun same => absurd (Option.some.inj same) (by decide)
        | cons d rest => exact fun same => plain.2 (Option.some.inj same ▸ .head _)
      rw [List.cons_append, cutDirective_cons start, ih plain.2]

/-- The text of a test point, after its verdict. -/
def pointText (number : Nat) (description directive : List Char) : List Char :=
  Nat.toDigits 10 number ++ " - ".toList ++ description ++ directive

theorem readPoint_plain (passed : Bool) (number : Nat) {description : List Char}
    (plain : '#' ∉ description) :
    readPoint passed (pointText number description []) =
      .point passed number description false := by
  have read : readNumber (pointText number description []) =
      (number, " - ".toList ++ description) := by
    rw [pointText, List.append_nil, List.append_assoc]
    exact readNumber_append number fun c first => by cases first; rfl
  rw [readPoint, read]
  dsimp only
  rw [dropPrefix_append, Option.getD_some, cutDirective_plain plain]
  rfl

theorem readPoint_directive (passed : Bool) (number : Nat) {description : List Char}
    (directive : List Char) (plain : '#' ∉ description) :
    readPoint passed (pointText number description (' ' :: '#' :: directive)) =
      .point passed number description (isSkip directive) := by
  have read : readNumber (pointText number description (' ' :: '#' :: directive)) =
      (number, " - ".toList ++ (description ++ ' ' :: '#' :: directive)) := by
    rw [pointText, List.append_assoc, List.append_assoc]
    exact readNumber_append number fun c first => by cases first; rfl
  rw [readPoint, read]
  dsimp only
  rw [dropPrefix_append, Option.getD_some, cutDirective_append directive plain]
  rfl

/-! The kinds of lines. -/

theorem readLine_ok (text : List Char) :
    readLine ("ok ".toList ++ text) = readPoint true text := by
  rw [readLine, dropPrefix_append]

theorem readLine_notOk (text : List Char) :
    readLine ("not ok ".toList ++ text) = readPoint false text := by
  simp [readLine, List.dropPrefix?]

theorem readLine_plan (count : Nat) :
    readLine ("1..".toList ++ Nat.toDigits 10 count) = .plan count := by
  simp [readLine, List.dropPrefix?, readNumber_digits]

theorem readLine_version (number : Nat) :
    readLine ("TAP version ".toList ++ Nat.toDigits 10 number) = .version number := by
  simp [readLine, List.dropPrefix?, readNumber_digits]

theorem readLine_comment (text : List Char) : readLine ('#' :: text) = .comment text := by
  simp [readLine, List.dropPrefix?]

theorem readLine_bailOut (text : List Char) :
    readLine ("Bail out!".toList ++ text) = .bailOut := by
  simp [readLine, List.dropPrefix?]

end AgencC.Library
