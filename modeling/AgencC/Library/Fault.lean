/-! Outcomes that C leaves undefined or turns into an abort. A modelled
function that reaches one of them returns it instead of a result. -/

set_option autoImplicit false

namespace AgencC.Library

inductive Fault where
  /-- An `assert` whose condition is false. -/
  | assertion (condition : String)
  /-- A read or write outside the object the pointer designates. -/
  | outOfBounds
  /-- A pointer to storage that is not, or no longer, held. -/
  | notHeld
  /-- A loop that outran the number of objects it can visit. -/
  | unbounded
  /-- Arithmetic that wraps where it is watched for. -/
  | wrapped
  deriving DecidableEq, Repr

/-- C's `assert`. -/
def ensure (condition : Prop) [Decidable condition] (text : String) : Except Fault Unit :=
  if condition then .ok () else .error (.assertion text)

@[simp] theorem ensure_of {condition : Prop} [Decidable condition] (holds : condition)
    (text : String) : ensure condition text = .ok () := if_pos holds

@[simp] theorem ok_bind {Error Value Result : Type} (value : Value)
    (next : Value → Except Error Result) :
    ((Except.ok value : Except Error Value) >>= next) = next value := rfl

@[simp] theorem pure_eq_ok {Error Value : Type} (value : Value) :
    (pure value : Except Error Value) = .ok value := rfl

theorem bind_eq_ok {Error Value Result : Type} {source : Except Error Value}
    {next : Value → Except Error Result} {result : Result} :
    source >>= next = .ok result ↔ ∃ value, source = .ok value ∧ next value = .ok result := by
  cases source with
  | error error => exact ⟨fun impossible => (nomatch impossible), by rintro ⟨_, ⟨⟩, _⟩⟩
  | ok value => exact ⟨fun success => ⟨value, rfl, success⟩, by rintro ⟨_, ⟨⟩, success⟩; exact success⟩

end AgencC.Library
