import TreeSelectors.Error
import TreeSelectors.Notice

namespace TreeSelectors

/-!
# Readings

A reading is what comes of reading some text or tokens: an error or a value,
and the notices raised on the way there. Notices that come before an error are
kept.
-/

/-- The outcome of reading something, and the notices raised meanwhile. -/
structure Reading (α : Type) where
  notices : List Notice
  outcome : Except SyntaxError α

namespace Reading

/-- A value without notices. -/
def value {α : Type} (result : α) : Reading α :=
  ⟨[], .ok result⟩

/-- An error without notices. -/
def failure {α : Type} (error : SyntaxError) : Reading α :=
  ⟨[], .error error⟩

/-- A reading without notices. -/
def ofExcept {α : Type} (outcome : Except SyntaxError α) : Reading α :=
  ⟨[], outcome⟩

/-- A reading with notices raised before it. -/
def noticing {α : Type} (earlier : List Notice) (reading : Reading α) : Reading α :=
  ⟨earlier ++ reading.notices, reading.outcome⟩

/-- One reading and, unless it fails, another that depends on its value. -/
def andThen {α β : Type} (first : Reading α) (next : α → Reading β) : Reading β :=
  match first.outcome with
  | .ok result => (next result).noticing first.notices
  | .error error => ⟨first.notices, .error error⟩

instance : Monad Reading where
  pure := value
  bind := andThen

@[simp] theorem pure_eq_value
    {α : Type}
    (result : α) :
    (pure result : Reading α) = value result :=
  rfl

@[simp] theorem bind_eq_andThen
    {α β : Type}
    (first : Reading α)
    (next : α → Reading β) :
    first >>= next = first.andThen next :=
  rfl

@[simp] theorem value_andThen
    {α β : Type}
    (result : α)
    (next : α → Reading β) :
    (value result).andThen next = next result := by
  simp [andThen, value, noticing]

/-- A sequence of readings succeeds if both do, the second from the value of the first. -/
theorem outcome_andThen_eq_ok
    {α β : Type}
    {first : Reading α}
    {next : α → Reading β}
    {result : β} :
    (first.andThen next).outcome = .ok result ↔
      ∃ middle, first.outcome = .ok middle ∧ (next middle).outcome = .ok result := by
  unfold andThen
  cases first.outcome <;> simp [noticing]

/-- A sequence of readings fails if one of them does, the second from the value of the first. -/
theorem outcome_andThen_eq_error
    {α β : Type}
    {first : Reading α}
    {next : α → Reading β}
    {error : SyntaxError} :
    (first.andThen next).outcome = .error error ↔
      first.outcome = .error error ∨
        ∃ middle, first.outcome = .ok middle ∧ (next middle).outcome = .error error := by
  unfold andThen
  cases first.outcome <;> simp [noticing]

end Reading

end TreeSelectors
