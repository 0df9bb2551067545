namespace TreeSelectors

/-!
# Searching with a test that can fail

A search asks its test of one candidate after the other and ends with the
first error that the test gives. `anyPasses` and `firstPassing` also end with
the first candidate that passes.
-/

/-- Whether a candidate passes. -/
def anyPasses {α ε : Type} (test : α → Except ε Bool) : List α → Except ε Bool
  | [] =>
      .ok false
  | candidate :: rest =>
      match test candidate with
      | .error error => .error error
      | .ok true => .ok true
      | .ok false => anyPasses test rest

/-- The first candidate that passes. -/
def firstPassing {α ε : Type} (test : α → Except ε Bool) : List α → Except ε (Option α)
  | [] =>
      .ok none
  | candidate :: rest =>
      match test candidate with
      | .error error => .error error
      | .ok true => .ok (some candidate)
      | .ok false => firstPassing test rest

/-- All candidates that pass, in order. -/
def allPassing {α ε : Type} (test : α → Except ε Bool) : List α → Except ε (List α)
  | [] =>
      .ok []
  | candidate :: rest =>
      match test candidate with
      | .error error => .error error
      | .ok true => (allPassing test rest).map (candidate :: ·)
      | .ok false => allPassing test rest

/-- A candidate passes exactly if there is a first one that does. -/
theorem anyPasses_eq_map_firstPassing
    {α ε : Type}
    (test : α → Except ε Bool)
    (candidates : List α) :
    anyPasses test candidates = (firstPassing test candidates).map Option.isSome := by
  induction candidates with
  | nil => rfl
  | cons candidate rest inductionHypothesis =>
      simp only [anyPasses, firstPassing]
      split
      · rfl
      · rfl
      · exact inductionHypothesis

/-- With a test that never fails, all passing candidates are those it accepts. -/
theorem allPassing_eq_filter
    {α ε : Type}
    {test : α → Except ε Bool}
    {accepts : α → Bool}
    {candidates : List α}
    (total : ∀ candidate ∈ candidates, test candidate = .ok (accepts candidate)) :
    allPassing test candidates = .ok (candidates.filter accepts) := by
  induction candidates with
  | nil => rfl
  | cons candidate rest inductionHypothesis =>
      have atHead := total candidate List.mem_cons_self
      have inTail := inductionHypothesis fun other member =>
        total other (List.mem_cons_of_mem candidate member)
      cases accepted : accepts candidate <;>
        simp [allPassing, atHead, inTail, accepted, Except.map]

end TreeSelectors
