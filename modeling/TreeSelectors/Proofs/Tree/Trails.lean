import TreeSelectors.Tree.View
import Mathlib.Data.List.Perm.Subperm

namespace TreeSelectors

/-!
# Trails along links

`follow` walks along links and is cut after a number of steps. If no node is
led back to itself and every node that is met is smaller than the limit, the
cut is never felt: the walk is the whole `Trail` of its start, and what it
meets is exactly what the links lead to.
-/

/-- Following links from a node leads, in one step or more, to another. -/
inductive Leads (link : NodeId → Option NodeId) : NodeId → NodeId → Prop where
  | step {start next : NodeId} :
      link start = some next →
      Leads link start next
  | further {start next target : NodeId} :
      link start = some next →
      Leads link next target →
      Leads link start target

/-- The nodes met from a node on, up to one without a link. -/
inductive Trail (link : NodeId → Option NodeId) : NodeId → List NodeId → Prop where
  | done {start : NodeId} :
      link start = none →
      Trail link start []
  | next {start next : NodeId} {rest : List NodeId} :
      link start = some next →
      Trail link next rest →
      Trail link start (next :: rest)

namespace Leads

variable {link : NodeId → Option NodeId}

theorem trans
    {start middle target : NodeId}
    (first : Leads link start middle)
    (second : Leads link middle target) :
    Leads link start target := by
  induction first with
  | step linked =>
      exact .further linked second
  | further linked _ inductionHypothesis =>
      exact .further linked (inductionHypothesis second)

/-- Behind the first step there is the target, or what leads there. -/
theorem cases_next
    {start next target : NodeId}
    (linked : link start = some next)
    (leads : Leads link start target) :
    target = next ∨ Leads link next target := by
  cases leads with
  | step other =>
      rw [linked] at other
      exact Or.inl (Option.some.inj other).symm
  | further other later =>
      rw [linked] at other
      rw [Option.some.inj other]
      exact Or.inr later

/-- More links lead at least as far. -/
theorem mono
    {other : NodeId → Option NodeId}
    (more : ∀ {node next}, link node = some next → other node = some next)
    {start target : NodeId}
    (leads : Leads link start target) :
    Leads other start target := by
  induction leads with
  | step linked => exact .step (more linked)
  | further linked _ inductionHypothesis => exact .further (more linked) inductionHypothesis

/-- Of two nodes that a start leads to, one leads to the other. -/
theorem comparable
    {start first second : NodeId}
    (toFirst : Leads link start first)
    (toSecond : Leads link start second) :
    first = second ∨ Leads link first second ∨ Leads link second first := by
  induction toFirst with
  | step linked =>
      rcases cases_next linked toSecond with same | later
      · exact Or.inl same.symm
      · exact Or.inr (Or.inl later)
  | further linked later inductionHypothesis =>
      rcases cases_next linked toSecond with same | further
      · subst same
        exact Or.inr (Or.inr later)
      · exact inductionHypothesis further

/-- The last step on the way to a target. -/
theorem exists_last
    {start target : NodeId}
    (leads : Leads link start target) :
    ∃ before, (before = start ∨ Leads link start before) ∧ link before = some target := by
  induction leads with
  | step linked =>
      exact ⟨_, Or.inl rfl, linked⟩
  | further linked _ inductionHypothesis =>
      obtain ⟨before, place, last⟩ := inductionHypothesis
      refine ⟨before, Or.inr ?_, last⟩
      rcases place with same | later
      · subst same
        exact .step linked
      · exact .further linked later

end Leads

section Walks

variable {link : NodeId → Option NodeId}

theorem leads_of_mem_follow
    {limit : Nat}
    {start node : NodeId}
    (member : node ∈ follow link limit start) :
    Leads link start node := by
  induction limit generalizing start with
  | zero =>
      simp [follow] at member
  | succ limit inductionHypothesis =>
      cases linked : link start with
      | none =>
          simp [follow, linked] at member
      | some next =>
          simp only [follow, linked, List.mem_cons] at member
          rcases member with same | later
          · subst same
            exact .step linked
          · exact .further linked (inductionHypothesis later)

/-- A walk without a way back meets no node twice. -/
theorem follow_nodup
    (acyclic : ∀ node, ¬ Leads link node node)
    (limit : Nat)
    (start : NodeId) :
    (follow link limit start).Nodup := by
  induction limit generalizing start with
  | zero =>
      simp [follow]
  | succ limit inductionHypothesis =>
      cases linked : link start with
      | none =>
          simp [follow, linked]
      | some next =>
          simp only [follow, linked, List.nodup_cons]
          refine ⟨?_, inductionHypothesis next⟩
          intro member
          exact acyclic next (leads_of_mem_follow member)

/-- A walk that ends before its limit is a whole trail. -/
theorem trail_follow_of_length_lt
    {limit : Nat}
    {start : NodeId}
    (short : (follow link limit start).length < limit) :
    Trail link start (follow link limit start) := by
  induction limit generalizing start with
  | zero =>
      omega
  | succ limit inductionHypothesis =>
      cases linked : link start with
      | none =>
          simp only [follow, linked]
          exact .done linked
      | some next =>
          simp only [follow, linked, List.length_cons, Nat.add_lt_add_iff_right] at short ⊢
          exact .next linked (inductionHypothesis short)

theorem follow_eq_take
    (limit : Nat)
    (start : NodeId) :
    follow link limit start = (follow link (limit + 1) start).take limit := by
  induction limit generalizing start with
  | zero =>
      simp [follow]
  | succ limit inductionHypothesis =>
      cases linked : link start with
      | none =>
          simp [follow, linked]
      | some next =>
          have later := inductionHypothesis next
          rw [follow, follow, linked]
          simp only [List.take_succ_cons, List.cons.injEq, true_and]
          exact later

/-- Different numbers below a bound are at most as many as the bound. -/
theorem length_le_of_nodup_of_lt
    {size : Nat}
    {nodes : List NodeId}
    (distinct : nodes.Nodup)
    (small : ∀ node ∈ nodes, node < size) :
    nodes.length ≤ size := by
  have within : nodes ⊆ List.range size := by
    intro node member
    exact List.mem_range.mpr (small node member)
  simpa using (List.subperm_of_subset distinct within).length_le

/--
A walk of as many steps as there are nodes is whole, if links never lead back
and only to nodes below that number.
-/
theorem trail_follow
    (acyclic : ∀ node, ¬ Leads link node node)
    {size : Nat}
    (small : ∀ {node next}, link node = some next → next < size)
    (start : NodeId) :
    Trail link start (follow link size start) := by
  have met :
      ∀ node ∈ follow link (size + 1) start, node < size := by
    intro node member
    obtain ⟨_, _, linked⟩ := (leads_of_mem_follow member).exists_last
    exact small linked
  have bound :=
    length_le_of_nodup_of_lt (follow_nodup acyclic (size + 1) start) met
  have whole : follow link size start = follow link (size + 1) start := by
    rw [follow_eq_take]
    exact List.take_of_length_le bound
  rw [whole]
  exact trail_follow_of_length_lt (Nat.lt_succ_of_le bound)

namespace Trail

/-- A trail holds exactly the nodes that its start leads to. -/
theorem mem_iff_leads
    {start node : NodeId}
    {nodes : List NodeId}
    (trail : Trail link start nodes) :
    node ∈ nodes ↔ Leads link start node := by
  induction trail with
  | done ends =>
      constructor
      · intro member
        simp at member
      · intro leads
        cases leads with
        | step linked => simp [ends] at linked
        | further linked _ => simp [ends] at linked
  | next linked _ inductionHypothesis =>
      rw [List.mem_cons, inductionHypothesis]
      constructor
      · rintro (same | later)
        · subst same
          exact .step linked
        · exact .further linked later
      · exact Leads.cases_next linked

/-- A walk goes along the trail, as far as its limit lets it. -/
theorem follow_eq_take
    {start : NodeId}
    {nodes : List NodeId}
    (trail : Trail link start nodes)
    (limit : Nat) :
    follow link limit start = nodes.take limit := by
  induction trail generalizing limit with
  | done ends =>
      cases limit <;> simp [follow, ends]
  | next linked _ inductionHypothesis =>
      cases limit with
      | zero => rfl
      | succ limit => simp [follow, linked, inductionHypothesis limit]

/-- A walk with a limit no smaller than the trail is the trail. -/
theorem follow_eq
    {start : NodeId}
    {nodes : List NodeId}
    (trail : Trail link start nodes)
    {limit : Nat}
    (enough : nodes.length ≤ limit) :
    follow link limit start = nodes := by
  rw [trail.follow_eq_take, List.take_of_length_le enough]

/-- A node has one trail only. -/
theorem unique
    {start : NodeId}
    {nodes others : List NodeId}
    (first : Trail link start nodes)
    (second : Trail link start others) :
    nodes = others := by
  induction first generalizing others with
  | done ends =>
      cases second with
      | done _ => rfl
      | next linked _ => simp [ends] at linked
  | next linked _ inductionHypothesis =>
      cases second with
      | done ends =>
          simp [linked] at ends
      | next other later =>
          rw [linked] at other
          cases other
          rw [inductionHypothesis later]

end Trail

end Walks

/-- A place in a list that something has been put behind is an old one or the last. -/
theorem getElem?_concat_cases
    {α : Type}
    {nodes : List α}
    {last found : α}
    {place : Nat}
    (there : (nodes ++ [last])[place]? = some found) :
    nodes[place]? = some found ∨ (found = last ∧ place = nodes.length) := by
  by_cases inside : place < nodes.length
  · rw [List.getElem?_append_left inside] at there
    exact Or.inl there
  · rw [List.getElem?_append_right (by omega), List.getElem?_singleton] at there
    split at there
    · next atEnd =>
        cases there
        exact Or.inr ⟨rfl, by omega⟩
    · cases there

end TreeSelectors
