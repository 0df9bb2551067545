import TreeSelectors.Selector.Walk

namespace TreeSelectors.Selector

/-!
# What occurs in a selector

`Occurs` goes down from a selector to its parts one node at a time. The walk
over a selector meets exactly what occurs in it: `mem_walk_iff`.
-/

/-- A selector is another one or stands somewhere in it. -/
inductive Occurs (part : Selector) : Selector → Prop where
  | self :
      Occurs part part
  | inside {whole child : Selector} :
      child ∈ whole.children →
      Occurs part child →
      Occurs part whole

/-- No relative selector occurs in a selector. -/
def RelativeFree (selector : Selector) : Prop :=
  ∀ combinator right, ¬ Occurs (.relative combinator right) selector

theorem occurs_iff
    {part whole : Selector} :
    Occurs part whole ↔ part = whole ∨ ∃ child ∈ whole.children, Occurs part child := by
  constructor
  · intro occurs
    cases occurs with
    | self => exact Or.inl rfl
    | inside member deeper => exact Or.inr ⟨_, member, deeper⟩
  · rintro (same | ⟨child, member, deeper⟩)
    · subst same
      exact .self
    · exact .inside member deeper

/-- Nothing but itself occurs in a selector without children. -/
theorem Occurs.eq_of_children_eq_nil
    {part whole : Selector}
    (occurs : Occurs part whole)
    (childless : whole.children = []) :
    part = whole := by
  obtain same | ⟨child, isChild, _⟩ := occurs_iff.mp occurs
  · exact same
  · rw [childless] at isChild
    cases isChild

theorem nodeCount_le_memberCount
    {member : Selector}
    {members : List Selector}
    (inside : member ∈ members) :
    nodeCount member ≤ memberCount members := by
  obtain ⟨before, behind, shape⟩ := List.append_of_mem inside
  rw [shape, memberCount_append, memberCount]
  omega

/-- What holds of a selector whenever it does of its children holds of every selector. -/
theorem children_induction
    {motive : Selector → Prop}
    (step : ∀ selector, (∀ child ∈ selector.children, motive child) → motive selector)
    (selector : Selector) :
    motive selector :=
  step selector fun child _ => children_induction step child
termination_by nodeCount selector
decreasing_by
  rename_i isChild
  have inside := nodeCount_le_memberCount isChild
  rw [nodeCount_eq selector]
  omega

/-- A queue leads to what occurs in one of its members. -/
theorem mem_walkQueue_iff
    {part : Selector}
    (queue : List Selector) :
    part ∈ walkQueue queue ↔ ∃ whole ∈ queue, Occurs part whole := by
  induction queue using walkQueue.induct with
  | case1 =>
      simp [walkQueue]
  | case2 node queue inductionHypothesis =>
      rw [walkQueue, List.mem_cons, inductionHypothesis]
      constructor
      · rintro (same | ⟨whole, member, occurs⟩)
        · subst same
          exact ⟨part, List.mem_cons_self, .self⟩
        · rcases List.mem_append.mp member with inQueue | isChild
          · exact ⟨whole, List.mem_cons_of_mem node inQueue, occurs⟩
          · exact ⟨node, List.mem_cons_self, .inside isChild occurs⟩
      · rintro ⟨whole, member, occurs⟩
        rcases List.mem_cons.mp member with isNode | inQueue
        · subst isNode
          rcases occurs_iff.mp occurs with same | ⟨child, isChild, deeper⟩
          · exact Or.inl same
          · exact Or.inr ⟨child, List.mem_append_right queue isChild, deeper⟩
        · exact Or.inr ⟨whole, List.mem_append_left node.children inQueue, occurs⟩

/-- The walk over a selector meets what occurs in it. -/
theorem mem_walk_iff
    {part whole : Selector} :
    part ∈ whole.walk ↔ Occurs part whole := by
  simp [walk, mem_walkQueue_iff]

theorem hasRelative_eq_false_iff
    {selector : Selector} :
    selector.hasRelative = false ↔ selector.RelativeFree := by
  simp only [hasRelative, List.any_eq_false, mem_walk_iff, RelativeFree]
  constructor
  · intro none combinator right occurs
    exact none _ occurs rfl
  · intro free part occurs isRelative
    cases part with
    | relative combinator right => exact free combinator right occurs
    | _ => exact absurd isRelative (by simp [Selector.isRelative])

namespace RelativeFree

/-- A selector is free of relative ones if it is none itself and its parts are free. -/
theorem of_children
    {selector : Selector}
    (notRelative : selector.isRelative = false)
    (parts : ∀ child ∈ selector.children, child.RelativeFree) :
    selector.RelativeFree := by
  intro combinator right occurs
  rcases occurs_iff.mp occurs with same | ⟨child, member, deeper⟩
  · rw [← same] at notRelative
    cases notRelative
  · exact parts child member combinator right deeper

theorem child
    {selector child : Selector}
    (free : selector.RelativeFree)
    (member : child ∈ selector.children) :
    child.RelativeFree := by
  intro combinator right occurs
  exact free combinator right (.inside member occurs)

end RelativeFree

end TreeSelectors.Selector
