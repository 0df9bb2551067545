import TreeSelectors.Proofs.Tree.Moves
import TreeSelectors.Proofs.Tree.NodeView
import Mathlib.Data.List.Induction

namespace TreeSelectors

/-!
# Moves that keep a tree a tree

Appending asks only that a node does not become its own child. It may become a
child of what is below it, and the document node may become a child as well.
`Harmless` is the condition that excludes both. Histories of harmless calls are
exactly those during which the tree stays `Rooted`, and the walks up and down
are whole exactly where nobody is above itself: `build_rooted_iff`.
-/

namespace Leads

variable {link other : NodeId → Option NodeId} {child parent : NodeId}

/-- What leads to a node still does when its own link is changed. -/
theorem relink
    (relinked : ∀ node, other node = if node = child then some parent else link node)
    {start : NodeId}
    (leads : Leads link start child)
    (different : start ≠ child) :
    Leads other start child := by
  induction leads with
  | step linked =>
      exact .step (by rw [relinked, if_neg different, linked])
  | @further start next child linked _ inductionHypothesis =>
      have newLink : other start = some next := by
        rw [relinked, if_neg different, linked]
      by_cases arrived : next = child
      · rw [← arrived]
        exact .step newLink
      · exact .further newLink (inductionHypothesis relinked arrived)

/-- With one link changed, a way either was there before or takes the new link. -/
theorem relink_cases
    (relinked : ∀ node, other node = if node = child then some parent else link node)
    {start target : NodeId}
    (leads : Leads other start target) :
    Leads link start target ∨
      ((start = child ∨ Leads link start child) ∧
        (target = parent ∨ Leads link parent target)) := by
  induction leads with
  | @step start target linked =>
      rw [relinked] at linked
      by_cases moved : start = child
      · rw [if_pos moved, Option.some.injEq] at linked
        exact Or.inr ⟨Or.inl moved, Or.inl linked.symm⟩
      · rw [if_neg moved] at linked
        exact Or.inl (.step linked)
  | @further start next target linked _ inductionHypothesis =>
      rw [relinked] at linked
      by_cases moved : start = child
      · rw [if_pos moved, Option.some.injEq] at linked
        subst linked
        rcases inductionHypothesis with old | ⟨_, above⟩
        · exact Or.inr ⟨Or.inl moved, Or.inr old⟩
        · exact Or.inr ⟨Or.inl moved, above⟩
      · rw [if_neg moved] at linked
        rcases inductionHypothesis with old | ⟨below, above⟩
        · exact Or.inl (.further linked old)
        · refine Or.inr ⟨Or.inr ?_, above⟩
          rcases below with same | later
          · rw [← same]
            exact .step linked
          · exact .further linked later

/-- A changed link closes a circle only where its target led to the node before. -/
theorem not_relink_self
    (relinked : ∀ node, other node = if node = child then some parent else link node)
    (acyclic : ∀ node, ¬ Leads link node node)
    (different : parent ≠ child)
    (apart : ¬ Leads link parent child)
    (node : NodeId) :
    ¬ Leads other node node := by
  intro circle
  rcases relink_cases relinked circle with old | ⟨below, above⟩
  · exact acyclic node old
  · apply apart
    rcases below with atChild | toChild
    · rcases above with atParent | fromParent
      · exact absurd (atParent.symm.trans atChild) different
      · rw [← atChild]
        exact fromParent
    · rcases above with atParent | fromParent
      · rw [← atParent]
        exact toChild
      · exact fromParent.trans toChild

end Leads

namespace Trail

variable {link : NodeId → Option NodeId}

/-- The trail of a node that a trail meets is a later part of it. -/
theorem exists_rest
    {start node : NodeId}
    {nodes : List NodeId}
    (trail : Trail link start nodes)
    (member : node ∈ nodes) :
    ∃ rest, Trail link node rest ∧ rest.length < nodes.length := by
  induction trail with
  | done _ =>
      simp at member
  | @next start next rest linked later inductionHypothesis =>
      rcases List.mem_cons.mp member with same | further
      · subst same
        exact ⟨rest, later, Nat.lt_succ_self _⟩
      · obtain ⟨tail, trail, shorter⟩ := inductionHypothesis further
        exact ⟨tail, trail, Nat.lt_succ_of_lt shorter⟩

/-- A node whose trail ends is not led back to itself. -/
theorem not_leads_self
    {node : NodeId}
    {nodes : List NodeId}
    (trail : Trail link node nodes) :
    ¬ Leads link node node := by
  intro circle
  obtain ⟨rest, again, shorter⟩ := trail.exists_rest (trail.mem_iff_leads.mpr circle)
  rw [again.unique trail] at shorter
  exact Nat.lt_irrefl _ shorter

end Trail

namespace DocumentTree

/-- A tree grown from its document node: nobody is above itself, nothing above the document. -/
structure Rooted (tree : DocumentTree) : Prop where
  acyclic :
    tree.Acyclic
  documentFree :
    tree.parent? root = none

/-- Walks up and down come to an end of their own, at every node and before any limit. -/
structure WalksEnd (tree : DocumentTree) : Prop where
  upwards :
    ∀ node, Trail tree.parent? node (tree.ancestors tree.size node)
  downwards :
    ∀ node, tree.Drained [node] (tree.inclusiveDescendants tree.size node)
  elementsUpwards :
    ∀ node, Trail tree.view.parent? node (tree.view.ancestors node)
  elementsDownwards :
    ∀ node, tree.view.VisitOrder none [(node, 0)] (node :: tree.view.descendants node)

/-- A call that moves neither the document nor a node to below itself. -/
def Call.Harmless (tree : DocumentTree) : Call → Prop
  | .appendChild parent child =>
      child < tree.size →
      parent < tree.size →
      parent ≠ child →
      child ≠ root ∧ ¬ Leads tree.parent? parent child
  | _ => True

section Steps

variable {tree : DocumentTree} {parent child : NodeId}

namespace Rooted

theorem empty :
    DocumentTree.empty.Rooted where
  acyclic := by
    apply acyclic_of_parent_lt
    intro node parent parented
    have atRoot : node = 0 := Nat.lt_one_iff.mp (lt_size_of_parent? parented)
    subst atRoot
    exact absurd parented (by simp [parent?, node?, DocumentTree.empty, DocumentNode.detached])
  documentFree := by
    decide

theorem alloc
    (rooted : tree.Rooted)
    (content : Content) :
    (tree.alloc content).2.Rooted where
  acyclic := by
    intro node circle
    exact rooted.acyclic node (circle.mono fun linked => by simpa using linked)
  documentFree := by
    rw [parent?_alloc]
    exact rooted.documentFree

/-- A node that is not the document may be put below what is not below it. -/
theorem appendChild
    (rooted : tree.Rooted)
    (harmless : (Call.appendChild parent child).Harmless tree) :
    (tree.appendChild parent child).Rooted := by
  by_cases valid : child < tree.size ∧ parent < tree.size ∧ parent ≠ child
  · obtain ⟨childSmall, parentSmall, different⟩ := valid
    obtain ⟨notDocument, apart⟩ := harmless childSmall parentSmall different
    have relinked := parent?_appendChild ⟨childSmall, parentSmall, different⟩
    refine ⟨Leads.not_relink_self relinked rooted.acyclic different apart, ?_⟩
    rw [relinked, if_neg (Ne.symm notDocument)]
    exact rooted.documentFree
  · rw [DocumentTree.appendChild, if_neg valid]
    exact rooted

/-- A new node can be put below any other. -/
theorem appendNew
    (rooted : tree.Rooted)
    (reachable : tree.Reachable)
    (content : Content) :
    (tree.appendNew parent content).2.Rooted := by
  refine (rooted.alloc content).appendChild ?_
  intro _ _ _
  refine ⟨Nat.ne_of_gt reachable.size_pos, ?_⟩
  -- The new node is nobody's parent yet, so nothing leads to it.
  intro leads
  obtain ⟨before, _, linked⟩ := leads.exists_last
  rw [parent?_alloc] at linked
  exact Nat.lt_irrefl _ (reachable.linked.parent_lt_size linked)

/-- If a tree is rooted after a call, the call was harmless. -/
theorem harmless
    {call : Call}
    (rooted : (call.perform tree).Rooted) :
    call.Harmless tree := by
  cases call with
  | appendChild parent child =>
      intro childSmall parentSmall different
      have relinked := parent?_appendChild ⟨childSmall, parentSmall, different⟩
      have moved : (tree.appendChild parent child).parent? child = some parent := by
        rw [relinked, if_pos rfl]
      refine ⟨?_, ?_⟩
      · intro isDocument
        have free := rooted.documentFree
        rw [← isDocument] at free
        exact absurd (moved.symm.trans free) (by simp)
      · intro leads
        exact rooted.acyclic child (.further moved (leads.relink relinked different))
  | _ => trivial

/-- A rooted tree stays rooted in a harmless call, and in no other. -/
theorem perform_iff
    (rooted : tree.Rooted)
    (reachable : tree.Reachable)
    {call : Call} :
    (call.perform tree).Rooted ↔ call.Harmless tree := by
  refine ⟨harmless, ?_⟩
  intro harmless
  cases call with
  | alloc content => exact rooted.alloc content
  | appendChild parent child => exact rooted.appendChild harmless
  | appendElement parent data => exact rooted.appendNew reachable _
  | appendText parent value => exact rooted.appendNew reachable _

end Rooted

/-- A tree that leads nobody back to itself is walked to its ends. -/
theorem Reachable.walksEnd
    (reachable : tree.Reachable)
    (acyclic : tree.Acyclic) :
    tree.WalksEnd where
  upwards := trail_follow acyclic reachable.linked.parent_lt_size
  downwards := reachable.linked.drained_inclusiveDescendants acyclic reachable.size_pos
  elementsUpwards := (reachable.linked.coherent acyclic).trail_ancestors
  elementsDownwards := (reachable.linked.coherent acyclic).visitOrder_none

theorem WalksEnd.acyclic
    (ends : tree.WalksEnd) :
    tree.Acyclic :=
  fun node => (ends.upwards node).not_leads_self

end Steps

theorem build_append
    (calls : List Call)
    (call : Call) :
    build (calls ++ [call]) = call.perform (build calls) := by
  simp [build, performAll]

/--
The tree is rooted all through a history exactly if each call is harmless when
it is made. At the end all walks are whole exactly if nobody is above itself.
-/
theorem build_rooted_iff
    (calls : List Call) :
    ((∀ made, made <+: calls → (build made).Rooted) ↔
        ∀ made call, made ++ [call] <+: calls → call.Harmless (build made)) ∧
      ((build calls).Acyclic ↔ (build calls).WalksEnd) := by
  refine ⟨⟨?_, ?_⟩, (reachable_build calls).walksEnd, WalksEnd.acyclic⟩
  · intro rooted made call upToCall
    have after := rooted _ upToCall
    rw [build_append] at after
    exact after.harmless
  · intro harmless made
    induction made using List.reverseRecOn with
    | nil =>
        intro _
        exact .empty
    | append_singleton made call inductionHypothesis =>
        intro upToCall
        have before := inductionHypothesis ((List.prefix_append made [call]).trans upToCall)
        rw [build_append, before.perform_iff (reachable_build made)]
        exact harmless made call upToCall

/-- Two elements one inside the other, of which the outer one is moved into the inner one. -/
def turnedOver : List Call :=
  [.appendElement root ⟨"a", none, []⟩,
    .appendElement 1 ⟨"b", none, []⟩,
    .appendChild 2 1]

/--
A move can put an element above itself, where the walk up never ends, and one
more move gives the document a parent.
-/
theorem turnedOver_not_rooted :
    Leads (build turnedOver).parent? 1 1 ∧
      ¬ (build turnedOver).WalksEnd ∧
      (build (turnedOver ++ [.appendChild 1 root])).parent? root = some 1 := by
  have outer : (build turnedOver).parent? 1 = some 2 := by
    decide +kernel
  have inner : (build turnedOver).parent? 2 = some 1 := by
    decide +kernel
  have circle : Leads (build turnedOver).parent? 1 1 := .further outer (.step inner)
  refine ⟨circle, ?_, by decide +kernel⟩
  intro ends
  exact ends.acyclic 1 circle

end DocumentTree

end TreeSelectors
