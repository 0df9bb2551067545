import TreeSelectors.Proofs.Tree.Offered
import TreeSelectors.Proofs.Tree.VisitOrder
import TreeSelectors.Proofs.Tree.Lineage

namespace TreeSelectors.TreeView

/-!
# What a visit asks

In every tree that is queried a visit comes to the nodes in reach of its start,
as many steps down as its depth allows, in the order in which all nodes are
listed. Its two questions may change a state that both of them see. Each
question is noted with its answer, and the notes tell the whole visit:
`Offered.visits`.
-/

/-- A node leads to another in a number of steps to a child. -/
inductive ReachesIn (view : TreeView) : Nat → NodeId → NodeId → Prop where
  | start {node : NodeId} :
      ReachesIn view 0 node node
  | further {steps : Nat} {node child target : NodeId} :
      child ∈ view.children node →
      ReachesIn view steps child target →
      ReachesIn view (steps + 1) node target

/-- What a node leads to in a number of steps that a depth allows, parents before children. -/
structure ListsInReach
    (view : TreeView)
    (depth? : Option Nat)
    (start : NodeId)
    (listing : List NodeId) : Prop where
  preorder :
    ∃ whole, view.Preorder [start] whole ∧ listing.Sublist whole
  distinct :
    listing.Nodup
  complete :
    ∀ node, node ∈ listing ↔
      ∃ steps, (∀ depth ∈ depth?, steps ≤ depth) ∧ view.ReachesIn steps start node

section Reach

variable {view : TreeView} {root node : NodeId}

/-- What is reached in some number of steps is the root or lies below it. -/
theorem exists_reachesIn_iff :
    (∃ steps, view.ReachesIn steps root node) ↔ node = root ∨ view.Reaches root node := by
  constructor
  · rintro ⟨steps, reaches⟩
    induction reaches with
    | start =>
        exact Or.inl rfl
    | further member _ inductionHypothesis =>
        rcases inductionHypothesis with same | later
        · rw [same]
          exact Or.inr (.child member)
        · exact Or.inr (.further member later)
  · rintro (same | reaches)
    · rw [same]
      exact ⟨0, .start⟩
    · induction reaches with
      | child member =>
          exact ⟨1, .further member .start⟩
      | further member _ inductionHypothesis =>
          obtain ⟨steps, later⟩ := inductionHypothesis
          exact ⟨steps + 1, .further member later⟩

/-- The nodes that are listed to a depth are those reached in that many steps at most. -/
theorem mem_cons_below_iff
    (depth : Nat) :
    node ∈ root :: view.below depth root ↔
      ∃ steps ≤ depth, view.ReachesIn steps root node := by
  induction depth generalizing root with
  | zero =>
      constructor
      · intro member
        rw [List.mem_singleton.mp member]
        exact ⟨0, Nat.le_refl 0, .start⟩
      · rintro ⟨steps, small, reaches⟩
        rw [Nat.le_zero.mp small] at reaches
        cases reaches
        exact List.mem_cons_self
  | succ depth inductionHypothesis =>
      rw [List.mem_cons, below, List.mem_flatMap]
      simp only [inductionHypothesis]
      constructor
      · rintro (same | ⟨child, member, steps, small, later⟩)
        · rw [same]
          exact ⟨0, Nat.zero_le _, .start⟩
        · exact ⟨steps + 1, Nat.succ_le_succ small, .further member later⟩
      · rintro ⟨steps, small, _ | ⟨member, later⟩⟩
        · exact Or.inl rfl
        · exact Or.inr ⟨_, member, _, Nat.le_of_succ_le_succ small, later⟩

/-- A node is in reach exactly if a path no longer than the bound leads to it. -/
theorem Coherent.mem_inReach_iff
    (coherent : view.Coherent)
    {depth? : Option Nat} :
    node ∈ view.inReach depth? root ↔
      ∃ steps, (∀ depth ∈ depth?, steps ≤ depth) ∧ view.ReachesIn steps root node := by
  cases depth? with
  | none =>
      have below : node ∈ view.descendants root ↔ view.Reaches root node :=
        coherent.mem_descendants_iff
      simp [inReach, exists_reachesIn_iff, ← below, descendants]
  | some depth =>
      simpa [inReach] using mem_cons_below_iff depth

/-- The list of nodes in reach is in pre-order and has none of them twice. -/
theorem Coherent.listsInReach
    (coherent : view.Coherent)
    (start : NodeId)
    (depth? : Option Nat) :
    view.ListsInReach depth? start (view.inReach depth? start) := by
  have preorder := coherent.preorder_singleton start
  have cut := preorder.below_sublist (depth?.getD view.size)
  rw [List.flatMap_singleton] at cut
  exact ⟨⟨_, preorder, cut⟩, (coherent.nodup_listing start).sublist cut,
    fun _ => coherent.mem_inReach_iff⟩

end Reach

/-- A question of a visit, with its answer. -/
inductive Exchange where
  | accept (node : NodeId) (answer : Bool)
  | stopAt (node : NodeId) (answer : Bool)
deriving Repr, DecidableEq

/-- The node that a visit comes to with a question. -/
def Exchange.visited? : Exchange → Option NodeId
  | .accept node _ => some node
  | .stopAt _ _ => none

/-- A visitor that also notes its exchanges. -/
def Visitor.noted {σ : Type} (visitor : Visitor (StateM σ)) :
    Visitor (StateM (σ × List Exchange)) where
  accept node := do
    let (state, exchanges) ← get
    let (answer, after) := (visitor.accept node).run state
    set (after, exchanges ++ [.accept node answer])
    return answer
  stopAt node := do
    let (state, exchanges) ← get
    let (answer, after) := (visitor.stopAt node).run state
    set (after, exchanges ++ [.stopAt node answer])
    return answer

/-- What a visit along some nodes can come to be, by the answers that are given. -/
inductive Conversation : List NodeId → List Exchange → Prop where
  | nil :
      Conversation [] []
  | refused {node : NodeId} {rest : List NodeId} {later : List Exchange} :
      Conversation rest later →
      Conversation (node :: rest) (.accept node false :: later)
  | accepted {node : NodeId} {rest : List NodeId} {later : List Exchange} :
      Conversation rest later →
      Conversation (node :: rest) (.accept node true :: .stopAt node false :: later)
  | stopped (node : NodeId) (rest : List NodeId) :
      Conversation (node :: rest) [.accept node true, .stopAt node true]

/-- What the exchanges of a visit say about the nodes that it goes along. -/
structure GoesAlong (order : List NodeId) (exchanges : List Exchange) : Prop where
  /-- Nodes are asked about in order. -/
  inOrder :
    exchanges.filterMap Exchange.visited? <+: order
  /-- Directly behind its acceptance a node is asked whether to stop. -/
  confirmed :
    ∀ {before behind node}, exchanges = before ++ .accept node true :: behind →
      ∃ stops rest, behind = .stopAt node stops :: rest
  /-- No other node is asked whether to stop. -/
  onlyAccepted :
    ∀ {before behind node stops}, exchanges = before ++ .stopAt node stops :: behind →
      ∃ earlier, before = earlier ++ [.accept node true]
  /-- Directly behind a stop the visit is over. -/
  stops :
    ∀ {before behind node}, exchanges = before ++ .stopAt node true :: behind → behind = []
  /-- Without a stop all nodes are asked about. -/
  covers :
    (∀ node, .stopAt node true ∉ exchanges) → exchanges.filterMap Exchange.visited? = order

/-- What stands around an exchange. -/
inductive Placed : List Exchange → Exchange → List Exchange → Prop where
  | refused {before behind : List Exchange} (node : NodeId) :
      Placed before (.accept node false) behind
  | accepted {before : List Exchange} (node : NodeId) (answer : Bool) (rest : List Exchange) :
      Placed before (.accept node true) (.stopAt node answer :: rest)
  | passed {behind : List Exchange} (earlier : List Exchange) (node : NodeId) :
      Placed (earlier ++ [.accept node true]) (.stopAt node false) behind
  | stopped (earlier : List Exchange) (node : NodeId) :
      Placed (earlier ++ [.accept node true]) (.stopAt node true) []

/-- What was asked before does not change the place of an exchange. -/
theorem Placed.prepend
    {before behind : List Exchange}
    {exchange : Exchange}
    (placed : Placed before exchange behind)
    (leading : List Exchange) :
    Placed (leading ++ before) exchange behind := by
  cases placed with
  | refused node =>
      exact .refused node
  | accepted node answer rest =>
      exact .accepted node answer rest
  | passed earlier node =>
      rw [← List.append_assoc]
      exact .passed (leading ++ earlier) node
  | stopped earlier node =>
      rw [← List.append_assoc]
      exact .stopped (leading ++ earlier) node

namespace Conversation

variable {order : List NodeId} {exchanges : List Exchange}

/-- Every exchange of a conversation has its place in the order of the visit. -/
theorem placed
    (conversation : Conversation order exchanges)
    {before behind : List Exchange}
    {exchange : Exchange}
    (split : exchanges = before ++ exchange :: behind) :
    Placed before exchange behind := by
  induction conversation generalizing before with
  | nil =>
      simp at split
  | @refused node rest later _ inductionHypothesis =>
      obtain ⟨rfl, here⟩ | ⟨before, rfl, further⟩ := List.cons_eq_append_iff.mp split
      · cases here
        exact .refused node
      · exact (inductionHypothesis further).prepend [_]
  | @accepted node rest later _ inductionHypothesis =>
      obtain ⟨rfl, here⟩ | ⟨before, rfl, further⟩ := List.cons_eq_append_iff.mp split
      · cases here
        exact .accepted node false later
      · obtain ⟨rfl, here⟩ | ⟨before, rfl, behindBoth⟩ :=
          List.cons_eq_append_iff.mp further
        · cases here
          exact .passed [] node
        · exact (inductionHypothesis behindBoth).prepend [_, _]
  | stopped node rest =>
      obtain ⟨rfl, here⟩ | ⟨before, rfl, further⟩ := List.cons_eq_append_iff.mp split
      · cases here
        exact .accepted node true []
      · obtain ⟨rfl, here⟩ | ⟨before, rfl, behindBoth⟩ :=
          List.cons_eq_append_iff.mp further
        · cases here
          exact .stopped [] node
        · simp at behindBoth

/-- The nodes that are visited are the first ones of the order. -/
theorem inOrder
    (conversation : Conversation order exchanges) :
    exchanges.filterMap Exchange.visited? <+: order := by
  induction conversation with
  | nil =>
      exact List.nil_prefix
  | refused _ inductionHypothesis =>
      exact List.cons_prefix_cons.mpr ⟨rfl, inductionHypothesis⟩
  | accepted _ inductionHypothesis =>
      exact List.cons_prefix_cons.mpr ⟨rfl, inductionHypothesis⟩
  | stopped node rest =>
      exact List.cons_prefix_cons.mpr ⟨rfl, List.nil_prefix⟩

/-- A conversation that is not stopped visits the whole order. -/
theorem covers
    (conversation : Conversation order exchanges)
    (unstopped : ∀ node, .stopAt node true ∉ exchanges) :
    exchanges.filterMap Exchange.visited? = order := by
  induction conversation with
  | nil =>
      rfl
  | @refused node _ _ _ inductionHypothesis =>
      refine congrArg (List.cons node) (inductionHypothesis fun other member => ?_)
      exact unstopped other (List.mem_cons_of_mem _ member)
  | @accepted node _ _ _ inductionHypothesis =>
      refine congrArg (List.cons node) (inductionHypothesis fun other member => ?_)
      exact unstopped other (List.mem_cons_of_mem _ (List.mem_cons_of_mem _ member))
  | stopped node rest =>
      exact absurd (by simp) (unstopped node)

/-- A conversation goes along the order in every respect. -/
theorem goesAlong
    (conversation : Conversation order exchanges) :
    GoesAlong order exchanges where
  inOrder := conversation.inOrder
  confirmed split := by
    cases conversation.placed split with
    | accepted node answer rest => exact ⟨answer, rest, rfl⟩
  onlyAccepted split := by
    cases conversation.placed split with
    | passed earlier node => exact ⟨earlier, rfl⟩
    | stopped earlier node => exact ⟨earlier, rfl⟩
  stops split := by
    cases conversation.placed split with
    | stopped earlier node => rfl
  covers := conversation.covers

end Conversation

namespace Visitor

variable {σ : Type} {visitor : Visitor (StateM σ)} {node : NodeId} {rest : List NodeId}
  {state known after : σ} {answer : Bool}

/-- Behind a node that is not accepted a visitor goes on. -/
theorem run_refused
    (refused : (visitor.accept node).run state = (false, known)) :
    (visitor.runAlong (node :: rest)).run state = (visitor.runAlong rest).run known := by
  rw [runAlong, StateT.run_bind, refused]
  rfl

/-- Behind an accepted node a visitor goes on if it does not stop there. -/
theorem run_accepted
    (accepted : (visitor.accept node).run state = (true, known))
    (answered : (visitor.stopAt node).run known = (answer, after)) :
    (visitor.runAlong (node :: rest)).run state =
      if answer then ((), after) else (visitor.runAlong rest).run after := by
  rw [runAlong, StateT.run_bind, accepted]
  change (visitor.stopAt node >>= fun stops => _).run known = _
  rw [StateT.run_bind, answered]
  cases answer <;> rfl

/-- Noting an answer leaves it and what the visitor makes of it. -/
theorem accept_noted
    (answered : (visitor.accept node).run state = (answer, after))
    (earlier : List Exchange) :
    (visitor.noted.accept node).run (state, earlier) =
      (answer, after, earlier ++ [.accept node answer]) := by
  simp [noted, answered]
  rfl

/-- Noting whether to stop leaves the answer and what the visitor makes of it. -/
theorem stopAt_noted
    (answered : (visitor.stopAt node).run state = (answer, after))
    (earlier : List Exchange) :
    (visitor.noted.stopAt node).run (state, earlier) =
      (answer, after, earlier ++ [.stopAt node answer]) := by
  simp [noted, answered]
  rfl

/-- A visitor that notes its exchanges changes its state as it would without. -/
theorem exists_conversation
    (visitor : Visitor (StateM σ))
    (order : List NodeId)
    (state : σ)
    (earlier : List Exchange) :
    ∃ exchanges, Conversation order exchanges ∧
      (visitor.noted.runAlong order).run (state, earlier) =
        ((), ((visitor.runAlong order).run state).2, earlier ++ exchanges) := by
  induction order generalizing state earlier with
  | nil =>
      refine ⟨[], .nil, ?_⟩
      rw [List.append_nil]
      rfl
  | cons node rest inductionHypothesis =>
      cases asked : (visitor.accept node).run state with
      | mk accepted known =>
          have notedAsked := accept_noted asked earlier
          cases accepted with
          | false =>
              obtain ⟨later, conversation, run⟩ :=
                inductionHypothesis known (earlier ++ [.accept node false])
              refine ⟨_, .refused conversation, ?_⟩
              rw [run_refused notedAsked, run_refused asked]
              simpa using run
          | true =>
              cases answered : (visitor.stopAt node).run known with
              | mk stops after =>
                  have notedAnswered :=
                    stopAt_noted answered (earlier ++ [.accept node true])
                  rw [run_accepted notedAsked notedAnswered, run_accepted asked answered]
                  cases stops with
                  | false =>
                      obtain ⟨later, conversation, run⟩ := inductionHypothesis after
                        (earlier ++ [.accept node true] ++ [.stopAt node false])
                      refine ⟨_, .accepted conversation, ?_⟩
                      simpa using run
                  | true =>
                      refine ⟨_, .stopped node rest, ?_⟩
                      simp

end Visitor

/--
A visit to a tree goes along the nodes in reach of its start. Each of them that
is accepted is asked at once whether to stop there, and the visit ends with the
first such stop or with the last node, whatever the answers depend on.
-/
theorem Offered.visits
    {view : TreeView}
    (offered : view.Offered)
    (start : NodeId)
    (depth? : Option Nat) :
    view.ListsInReach depth? start (view.inReach depth? start) ∧
      ∀ {σ : Type} (visitor : Visitor (StateM σ)) (state : σ), ∃ exchanges,
        GoesAlong (view.inReach depth? start) exchanges ∧
          (view.visit start depth? visitor.noted).run (state, []) =
            ((), ((view.visit start depth? visitor).run state).2, exchanges) := by
  have coherent := offered.coherent
  refine ⟨coherent.listsInReach start depth?, fun visitor state => ?_⟩
  obtain ⟨exchanges, conversation, run⟩ :=
    visitor.exists_conversation (view.inReach depth? start) state []
  refine ⟨exchanges, conversation.goesAlong, ?_⟩
  rw [coherent.visit_eq, coherent.visit_eq, run, List.nil_append]

/-- A visitor that counts the nodes it accepts and stops at the second one. -/
def secondOnly : Visitor (StateM Nat) where
  accept _ := modifyGet fun accepted => (true, accepted + 1)
  stopAt _ := do return (← get) == 2

open DocumentTree in
/-- From the list one step down there is the outer item, where the visitor stops. -/
theorem visits_nestedItems :
    (build nestedItems).view.Offered ∧
      (build nestedItems).view.inReach none 1 = [1, 4, 2] ∧
      (build nestedItems).view.inReach (some 1) 1 = [1, 4] ∧
      (((build nestedItems).view.visit 1 (some 1) secondOnly.noted).run (0, [])).2 =
        (2, [.accept 1 true, .stopAt 1 false, .accept 4 true, .stopAt 4 true]) ∧
      (build nestedItems).view.ListsInReach (some 1) 1
        ((build nestedItems).view.inReach (some 1) 1) ∧
      ∃ exchanges, GoesAlong ((build nestedItems).view.inReach (some 1) 1) exchanges ∧
        ((build nestedItems).view.visit 1 (some 1) secondOnly.noted).run (0, []) =
          ((), (((build nestedItems).view.visit 1 (some 1) secondOnly).run 0).2, exchanges) := by
  have offered : (build nestedItems).view.Offered :=
    .document (reachable_build nestedItems) nestedItems_acyclic
  obtain ⟨lists, noted⟩ := offered.visits 1 (some 1)
  exact ⟨offered, by decide +kernel, by decide +kernel, by decide +kernel, lists,
    noted secondOnly 0⟩

end TreeSelectors.TreeView
