import TreeSelectors.Proofs.Tree.Listing
import TreeSelectors.Tree.Visit

namespace TreeSelectors.TreeView

/-!
# The order of a visit

Whatever a visitor answers, as long as it does not stop a visit, the stack
decides which node comes next. `VisitOrder` is the order in which the nodes
come. A visit in a coherent view is the visitor run along that order, and its
limit does not cut it: `Coherent.visit_eq`.
-/

/-- The nodes that come up in a visit, from those on its stack. -/
inductive VisitOrder
    (view : TreeView)
    (depth? : Option Nat) : List (NodeId × Nat) → List NodeId → Prop where
  | nil :
      VisitOrder view depth? [] []
  | cons {node : NodeId} {level : Nat} {stack : List (NodeId × Nat)} {order : List NodeId} :
      VisitOrder view depth? (pushChildren view depth? node level stack) order →
      VisitOrder view depth? ((node, level) :: stack) (node :: order)

/-- A node and what is below it, down to a depth. -/
def inReach (view : TreeView) (depth? : Option Nat) (start : NodeId) : List NodeId :=
  start :: view.below (depth?.getD view.size) start

/-- A visitor asked about one node after another until it stops. -/
def Visitor.runAlong {m : Type → Type} [Monad m] (visitor : Visitor m) : List NodeId → m Unit
  | [] =>
      pure ()
  | node :: rest => do
      let accepted ← visitor.accept node
      let stops ← if accepted then visitor.stopAt node else pure false
      if stops then
        pure ()
      else
        visitor.runAlong rest

namespace VisitOrder

variable {view : TreeView} {depth? : Option Nat}

/-- A visit that may take as many nodes as come up goes along them. -/
theorem visitStack_eq
    {m : Type → Type}
    [Monad m]
    (visitor : Visitor m)
    {stack : List (NodeId × Nat)}
    {order : List NodeId}
    (visited : view.VisitOrder depth? stack order)
    {limit : Nat}
    (enough : order.length ≤ limit) :
    visitStack view depth? visitor limit stack = visitor.runAlong order := by
  induction visited generalizing limit with
  | nil =>
      cases limit <;> rfl
  | cons _ inductionHypothesis =>
      cases limit with
      | zero =>
          simp at enough
      | succ limit =>
          have later := inductionHypothesis (Nat.le_of_succ_le_succ enough)
          rw [visitStack, Visitor.runAlong, later]

/-- Without a bound on the depth a forest comes up as it is listed. -/
theorem of_preorder
    {forest listing : List NodeId}
    (preorder : view.Preorder forest listing)
    (level : Nat)
    {stack : List (NodeId × Nat)}
    {order : List NodeId}
    (later : view.VisitOrder none stack order) :
    view.VisitOrder none (forest.map (fun node => (node, level)) ++ stack) (listing ++ order) := by
  induction preorder generalizing level stack order with
  | nil =>
      exact later
  | @cons root rest inside others _ _ inBelow inRest =>
      have below := inBelow (level + 1) (inRest level later)
      rw [List.cons_append, List.append_assoc]
      exact .cons below

/-- With a bound it comes up as far as the bound is from the level it is on. -/
theorem of_below
    {level : Nat}
    {stack : List (NodeId × Nat)}
    {order : List NodeId}
    (depth : Nat)
    (forest : List NodeId)
    (later : view.VisitOrder (some (level + depth)) stack order) :
    view.VisitOrder (some (level + depth))
      (forest.map (fun node => (node, level)) ++ stack)
      (forest.flatMap (fun root => root :: view.below depth root) ++ order) := by
  induction depth generalizing level forest stack order with
  | zero =>
      induction forest with
      | nil =>
          exact later
      | cons root rest inRest =>
          rw [List.flatMap_cons, List.append_assoc]
          refine .cons ?_
          simpa [pushChildren, goesBelow, TreeView.below] using inRest
  | succ depth inBelow =>
      induction forest with
      | nil =>
          exact later
      | cons root rest inRest =>
          rw [List.flatMap_cons, List.append_assoc]
          refine .cons ?_
          have oneDown : level + (depth + 1) = level + 1 + depth := by omega
          rw [oneDown] at inRest ⊢
          have pushes : goesBelow (some (level + 1 + depth)) level = true := by
            simp [goesBelow]
            omega
          rw [pushChildren, if_pos pushes]
          exact inBelow (view.children root) inRest

end VisitOrder

namespace Coherent

variable {view : TreeView}

/-- There come up the start of a visit and what is below it, as far down as the visit may go. -/
theorem visitOrder
    (coherent : view.Coherent)
    (root : NodeId)
    (depth? : Option Nat) :
    view.VisitOrder depth? [(root, 0)] (view.inReach depth? root) := by
  cases depth? with
  | none =>
      have unbounded := VisitOrder.of_preorder (coherent.preorder_singleton root) 0 .nil
      simpa [inReach, descendants] using unbounded
  | some depth =>
      have bounded : view.VisitOrder (some (0 + depth)) [(root, 0)] _ :=
        VisitOrder.of_below depth [root] .nil
      simpa [inReach] using bounded

/-- Without a bound all that is listed below the start comes up. -/
theorem visitOrder_none
    (coherent : view.Coherent)
    (root : NodeId) :
    view.VisitOrder none [(root, 0)] (root :: view.descendants root) :=
  coherent.visitOrder root none

theorem length_below_le
    (coherent : view.Coherent)
    (depth : Nat)
    (root : NodeId) :
    (view.below depth root).length ≤ view.size := by
  have cut := (coherent.preorder_singleton root).below_sublist depth
  rw [List.flatMap_singleton, List.cons_sublist_cons] at cut
  refine length_le_of_nodup_of_lt ((coherent.nodup_listing root).of_cons.sublist cut) ?_
  intro node member
  have reaches := coherent.mem_descendants_iff.mp (cut.subset member)
  exact coherent.elementSmall (reaches.isElement coherent)

/-- A visit may take all that comes up. -/
theorem length_visited_le
    (coherent : view.Coherent)
    (root : NodeId)
    (depth? : Option Nat) :
    (view.inReach depth? root).length ≤ visitLimit view depth? := by
  have short := coherent.length_below_le (depth?.getD view.size) root
  rw [inReach, List.length_cons, visitLimit]
  exact Nat.le_trans (Nat.succ_le_succ short) (Nat.le_mul_of_pos_right _ (Nat.succ_pos _))

/-- A visit goes to its start and to what is below it, as far down as it may go. -/
theorem visit_eq
    {m : Type → Type}
    [Monad m]
    (coherent : view.Coherent)
    (root : NodeId)
    (depth? : Option Nat)
    (visitor : Visitor m) :
    view.visit root depth? visitor = visitor.runAlong (view.inReach depth? root) :=
  (coherent.visitOrder root depth?).visitStack_eq visitor (coherent.length_visited_le root depth?)

/-- A visit without a bound goes to its start and to all that is listed below it. -/
theorem visit_none
    {m : Type → Type}
    [Monad m]
    (coherent : view.Coherent)
    (root : NodeId)
    (visitor : Visitor m) :
    view.visit root none visitor = visitor.runAlong (root :: view.descendants root) :=
  coherent.visit_eq root none visitor

/-- A visit that may go down one level goes to its start and the children of it. -/
theorem visit_one
    {m : Type → Type}
    [Monad m]
    (coherent : view.Coherent)
    (root : NodeId)
    (visitor : Visitor m) :
    view.visit root (some 1) visitor = visitor.runAlong (root :: view.children root) := by
  rw [coherent.visit_eq]
  simp [inReach, below]

end Coherent

end TreeSelectors.TreeView
