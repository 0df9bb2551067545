import TreeSelectors.Proofs.Selector.Occurrence
import TreeSelectors.Proofs.Tree.Offered
import TreeSelectors.Proofs.Tree.VisitOrder
import TreeSelectors.Query

namespace TreeSelectors

/-!
# What the queries answer

The queries below a node are one visit with a visitor that can only say yes or
no, and still their answers are those of a search that fails at the first
error: `run_runAlong_all`, `run_runAlong_first`. `DecidesAll` and
`DecidesFirst` say what such a search answers without saying how it goes.
-/

/-- Whether the answer of a test is yes. -/
def accepts {α ε : Type} (test : α → Except ε Bool) (candidate : α) : Bool :=
  match test candidate with
  | .ok passes => passes
  | .error _ => false

/-- The candidates that pass, or the first error among the answers of a test. -/
inductive DecidesAll {α ε : Type} (test : α → Except ε Bool) :
    List α → Except ε (List α) → Prop where
  | all {candidates : List α} :
      (∀ candidate ∈ candidates, ∃ passes, test candidate = .ok passes) →
      DecidesAll test candidates (.ok (candidates.filter (accepts test)))
  | failed {before behind : List α} {candidate : α} {error : ε} :
      (∀ earlier ∈ before, ∃ passes, test earlier = .ok passes) →
      test candidate = .error error →
      DecidesAll test (before ++ candidate :: behind) (.error error)

/-- The first candidate whose test does not say no, or the error that it gives. -/
inductive DecidesFirst {α ε : Type} (test : α → Except ε Bool) :
    List α → Except ε (Option α) → Prop where
  | none {candidates : List α} :
      (∀ candidate ∈ candidates, test candidate = .ok false) →
      DecidesFirst test candidates (.ok none)
  | found {before behind : List α} {candidate : α} :
      (∀ earlier ∈ before, test earlier = .ok false) →
      test candidate = .ok true →
      DecidesFirst test (before ++ candidate :: behind) (.ok (some candidate))
  | failed {before behind : List α} {candidate : α} {error : ε} :
      (∀ earlier ∈ before, test earlier = .ok false) →
      test candidate = .error error →
      DecidesFirst test (before ++ candidate :: behind) (.error error)

section Search

variable {α ε : Type} {test : α → Except ε Bool}

/-- The first candidate that passes, or else the first error, is found in order. -/
theorem decidesFirst_firstPassing
    (candidates : List α) :
    DecidesFirst test candidates (firstPassing test candidates) := by
  induction candidates with
  | nil =>
      exact .none (List.forall_mem_nil _)
  | cons candidate rest inductionHypothesis =>
      rw [firstPassing]
      generalize firstPassing test rest = answer at inductionHypothesis
      split
      · next fails =>
          exact .failed (List.forall_mem_nil _) fails
      · next passes =>
          exact .found (List.forall_mem_nil _) passes
      · next refuses =>
          cases inductionHypothesis with
          | none earlier =>
              exact .none (List.forall_mem_cons.mpr ⟨refuses, earlier⟩)
          | found earlier passes =>
              exact .found (List.forall_mem_cons.mpr ⟨refuses, earlier⟩) passes
          | failed earlier fails =>
              exact .failed (List.forall_mem_cons.mpr ⟨refuses, earlier⟩) fails

/-- What is decided of the candidates behind one that gets an answer. -/
theorem DecidesAll.cons
    {candidate : α}
    {rest : List α}
    {passes : Bool}
    {result : Except ε (List α)}
    (answer : test candidate = .ok passes)
    (decides : DecidesAll test rest result) :
    DecidesAll test (candidate :: rest)
      (result.map fun found => if passes then candidate :: found else found) := by
  cases decides with
  | all total =>
      have filtered :
          (candidate :: rest).filter (accepts test) =
            if passes then candidate :: rest.filter (accepts test)
            else rest.filter (accepts test) := by
        rw [List.filter_cons, accepts, answer]
      rw [Except.map, ← filtered]
      exact .all (List.forall_mem_cons.mpr ⟨⟨passes, answer⟩, total⟩)
  | failed earlier fails =>
      exact .failed (List.forall_mem_cons.mpr ⟨⟨passes, answer⟩, earlier⟩) fails

/-- All candidates that pass are found in order, up to the first error. -/
theorem decidesAll_allPassing
    (candidates : List α) :
    DecidesAll test candidates (allPassing test candidates) := by
  induction candidates with
  | nil =>
      exact .all (List.forall_mem_nil _)
  | cons candidate rest inductionHypothesis =>
      rw [allPassing]
      split
      · next fails =>
          exact .failed (List.forall_mem_nil _) fails
      · next passes =>
          exact inductionHypothesis.cons passes
      · next refuses =>
          have decides := inductionHypothesis.cons refuses
          cases found : allPassing test rest <;> simpa [found, Except.map] using decides

/-- Where all candidates get an answer, the first that passes is the first of all that do. -/
theorem firstPassing_of_allPassing
    {candidates found : List α}
    (all : allPassing test candidates = .ok found) :
    firstPassing test candidates = .ok found.head? := by
  induction candidates generalizing found with
  | nil =>
      rw [allPassing, Except.ok.injEq] at all
      rw [← all]
      rfl
  | cons candidate rest inductionHypothesis =>
      rw [allPassing] at all
      rw [firstPassing]
      split at all
      · next fails =>
          exact absurd all (by simp)
      · next passes =>
          cases later : allPassing test rest with
          | error error => simp [later, Except.map] at all
          | ok others =>
              simp only [later, Except.map, Except.ok.injEq] at all
              rw [← all]
              rfl
      · next refuses =>
          exact inductionHypothesis all

/-- Changing the errors of a test changes the error of the search. -/
theorem allPassing_mapError
    {φ : Type}
    (change : ε → φ)
    (candidates : List α) :
    allPassing (fun candidate => (test candidate).mapError change) candidates =
      (allPassing test candidates).mapError change := by
  induction candidates with
  | nil => rfl
  | cons candidate rest inductionHypothesis =>
      simp only [allPassing, inductionHypothesis]
      rcases test candidate with error | passes
      · rfl
      · cases passes
        · rfl
        · cases allPassing test rest <;> rfl

/-- Renaming errors of the test renames those of the search. -/
theorem firstPassing_mapError
    {φ : Type}
    (change : ε → φ)
    (candidates : List α) :
    firstPassing (fun candidate => (test candidate).mapError change) candidates =
      (firstPassing test candidates).mapError change := by
  induction candidates with
  | nil => rfl
  | cons candidate rest inductionHypothesis =>
      simp only [firstPassing, inductionHypothesis]
      rcases test candidate with error | passes
      · rfl
      · cases passes <;> rfl

/-- Renaming errors of the test renames those of a search for any candidate. -/
theorem anyPasses_mapError
    {φ : Type}
    (change : ε → φ)
    (candidates : List α) :
    anyPasses (fun candidate => (test candidate).mapError change) candidates =
      (anyPasses test candidates).mapError change := by
  rw [anyPasses_eq_map_firstPassing, anyPasses_eq_map_firstPassing, firstPassing_mapError]
  cases firstPassing test candidates <;> rfl

end Search

namespace TreeView

section Finder

variable {test : NodeId → Except MatchError Bool} {root node : NodeId} {firstOnly : Bool}
  {rest : List NodeId} {findings : Findings}

theorem run_runAlong_nil :
    ((finder test root firstOnly).runAlong []).run findings = ((), findings) :=
  rfl

/-- The root is passed over. -/
theorem run_runAlong_root :
    ((finder test root firstOnly).runAlong (root :: rest)).run findings =
      ((finder test root firstOnly).runAlong rest).run findings := by
  simp [Visitor.runAlong, finder]

/-- A node at which the test fails is the last one, and its error is kept. -/
theorem run_runAlong_failed
    {error : MatchError}
    (different : node ≠ root)
    (fails : test node = .error error) :
    (((finder test root firstOnly).runAlong (node :: rest)).run findings).2.outcome =
      .error error := by
  simp [Visitor.runAlong, finder, different, fails, Findings.fail]
  rfl

/-- A node that does not pass changes nothing. -/
theorem run_runAlong_refused
    (different : node ≠ root)
    (refuses : test node = .ok false) :
    ((finder test root firstOnly).runAlong (node :: rest)).run findings =
      ((finder test root firstOnly).runAlong rest).run findings := by
  simp [Visitor.runAlong, finder, different, refuses]

/-- A node that passes is found, and is the last one if one is enough. -/
theorem run_runAlong_passed
    (different : node ≠ root)
    (passes : test node = .ok true)
    (noError : findings.error? = none) :
    ((finder test root firstOnly).runAlong (node :: rest)).run findings =
      if firstOnly then ((), findings.add node)
      else ((finder test root firstOnly).runAlong rest).run (findings.add node) := by
  cases firstOnly with
  | true =>
      simp [Visitor.runAlong, finder, different, passes, noError]
      rfl
  | false =>
      simp [Visitor.runAlong, finder, different, passes, noError]

/-- A search that never stops at what it finds is one for all that passes. -/
theorem outcome_runAlong_all
    {nodes : List NodeId}
    (absent : root ∉ nodes)
    (noError : findings.error? = none) :
    (((finder test root false).runAlong nodes).run findings).2.outcome =
      (allPassing test nodes).map (findings.found ++ ·) := by
  induction nodes generalizing findings with
  | nil =>
      simp [run_runAlong_nil, Findings.outcome, allPassing, Except.map, noError]
  | cons node rest inductionHypothesis =>
      rw [List.mem_cons, not_or] at absent
      have different : node ≠ root := Ne.symm absent.1
      rw [allPassing]
      split
      · next fails =>
          exact run_runAlong_failed different fails
      · next passes =>
          rw [run_runAlong_passed different passes noError, if_neg (by simp)]
          rw [inductionHypothesis absent.2 (by exact noError)]
          cases allPassing test rest <;> simp [Except.map, Findings.add]
      · next refuses =>
          rw [run_runAlong_refused different refuses]
          exact inductionHypothesis absent.2 noError

/-- A search that stops at what it finds is one for the first that passes. -/
theorem outcome_runAlong_first
    {nodes : List NodeId}
    (absent : root ∉ nodes)
    (noError : findings.error? = none) :
    (((finder test root true).runAlong nodes).run findings).2.outcome =
      (firstPassing test nodes).map (fun found => findings.found ++ found.toList) := by
  induction nodes generalizing findings with
  | nil =>
      simp [run_runAlong_nil, Findings.outcome, firstPassing, Except.map, noError]
  | cons node rest inductionHypothesis =>
      rw [List.mem_cons, not_or] at absent
      have different : node ≠ root := Ne.symm absent.1
      rw [firstPassing]
      split
      · next fails =>
          exact run_runAlong_failed different fails
      · next passes =>
          rw [run_runAlong_passed different passes noError, if_pos rfl]
          simp [Findings.outcome, Findings.add, Except.map, noError]
      · next refuses =>
          rw [run_runAlong_refused different refuses]
          exact inductionHypothesis absent.2 noError

end Finder

namespace Coherent

variable {view : TreeView} {test : NodeId → Except MatchError Bool}

/-- Looking for all nodes tests everything below the root in pre-order. -/
theorem find_all
    (coherent : view.Coherent)
    (root : NodeId) :
    view.find test root none false = allPassing test (view.descendants root) := by
  rw [find, coherent.visit_none, run_runAlong_root,
    outcome_runAlong_all (coherent.notMem_descendants root) rfl]
  cases allPassing test (view.descendants root) <;> rfl

/-- Looking for the first node stops at the first one that passes. -/
theorem find_first
    (coherent : view.Coherent)
    (root : NodeId) :
    (view.find test root none true).map List.head? =
      firstPassing test (view.descendants root) := by
  rw [find, coherent.visit_none, run_runAlong_root,
    outcome_runAlong_first (coherent.notMem_descendants root) rfl]
  rcases firstPassing test (view.descendants root) with error | found
  · rfl
  · cases found <;> rfl

/-- Looking one level down tests the children. -/
theorem find_children
    (coherent : view.Coherent)
    (parent : NodeId) :
    view.find test parent (some 1) false = allPassing test (view.children parent) := by
  have absent : parent ∉ view.children parent := by
    intro member
    exact coherent.not_reaches_self parent (.child member)
  rw [find, coherent.visit_one, run_runAlong_root, outcome_runAlong_all absent rfl]
  cases allPassing test (view.children parent) <;> rfl

end Coherent

/-- A subject that can be read and holds nothing relative is asked about as it is. -/
theorem ask_eq
    {α : Type}
    {rules : ArgumentRules}
    {subject : Subject}
    {members : List Selector}
    (read : subject.read rules = .ok members)
    (free : ∀ member ∈ members, member.RelativeFree)
    (question : List Selector → Except MatchError α) :
    ask rules subject question = (question members).mapError .unmatchable := by
  have none : members.any Selector.hasRelative = false := by
    rw [List.any_eq_false]
    intro member inMembers relative
    rw [Selector.hasRelative_eq_false_iff.mpr (free member inMembers)] at relative
    exact absurd relative (by simp)
  simp [ask, Subject.resolve, read, Subject.checked, none, Except.mapError]

/-- A subject that is one selector is answered as the selector is. -/
theorem selects_alone
    {view : TreeView}
    {rules : ArgumentRules}
    {subject : Subject}
    {selector : Selector}
    (read : subject.read rules = .ok [selector])
    (free : selector.RelativeFree)
    (node : NodeId) :
    view.selects rules node subject = (selector.holdsAt view node).mapError .unmatchable := by
  rw [selects, ask_eq read (List.forall_mem_singleton.mpr free), Selector.anyHoldsAt]
  rcases selector.holdsAt view node with error | answer
  · rfl
  · cases answer <;> rfl

/-- A subject that holds something relative is refused, whatever is asked about it. -/
theorem ask_refused
    {α : Type}
    {rules : ArgumentRules}
    {subject : Subject}
    {members : List Selector}
    (read : subject.read rules = .ok members)
    (relative : ∃ member ∈ members, ¬ member.RelativeFree)
    (question : List Selector → Except MatchError α) :
    ask rules subject question = .error (.unmatchable .relativeSelector) := by
  have found : members.any Selector.hasRelative = true := by
    obtain ⟨member, inMembers, notFree⟩ := relative
    refine List.any_eq_true.mpr ⟨member, inMembers, ?_⟩
    rw [← Bool.not_eq_false]
    intro none
    exact notFree (Selector.hasRelative_eq_false_iff.mp none)
  simp [ask, Subject.resolve, read, Subject.checked, found, Except.mapError]

/--
The queries go by what `selects` says of single nodes. Below the root they look
at every element that children lead to, once and parents first; among the
children, at the part of these that are children; and going up, at the node
and the trail of its parents.
-/
structure QueriesAgree
    (view : TreeView)
    (rules : ArgumentRules)
    (subject : Subject)
    (root : NodeId)
    (below chain : List NodeId) : Prop where
  listed :
    view.Preorder (view.children root) below
  distinct :
    below.Nodup
  complete :
    ∀ node, node ∈ below ↔ view.Reaches root node
  upwards :
    Trail view.parent? root chain
  all :
    DecidesAll (fun node => view.selects rules node subject) below
      (view.all rules root subject)
  first :
    DecidesFirst (fun node => view.selects rules node subject) below
      (view.first rules root subject)
  firstOfAll :
    ∀ found, view.all rules root subject = .ok found →
      view.first rules root subject = .ok found.head?
  children :
    DecidesAll (fun node => view.selects rules node subject)
      (below.filter fun node => decide (node ∈ view.children root))
      (view.matchingChildren rules root subject)
  closest :
    DecidesFirst (fun node => view.selects rules node subject) (root :: chain)
      (view.closest rules root subject)

/-- In every tree that is queried, all queries agree with the answers at single nodes. -/
theorem Offered.queries_agree
    {view : TreeView}
    (offered : view.Offered)
    {rules : ArgumentRules}
    {subject : Subject}
    {members : List Selector}
    (read : subject.read rules = .ok members)
    (free : ∀ member ∈ members, member.RelativeFree)
    (root : NodeId) :
    ∃ below chain, view.QueriesAgree rules subject root below chain := by
  have coherent := offered.coherent
  have selected : (fun node => view.selects rules node subject) =
      fun node => (Selector.anyHoldsAt view members node).mapError .unmatchable := by
    funext node
    rw [selects, ask_eq read free]
  have all : view.all rules root subject =
      allPassing (fun node => view.selects rules node subject) (view.descendants root) := by
    rw [TreeView.all, ask_eq read free, coherent.find_all, selected, allPassing_mapError]
  have first : view.first rules root subject =
      firstPassing (fun node => view.selects rules node subject) (view.descendants root) := by
    rw [TreeView.first, ask_eq read free, coherent.find_first, selected, firstPassing_mapError]
  have children : view.matchingChildren rules root subject =
      allPassing (fun node => view.selects rules node subject) (view.children root) := by
    rw [matchingChildren, ask_eq read free, coherent.find_children, selected, allPassing_mapError]
  have closest : view.closest rules root subject =
      firstPassing (fun node => view.selects rules node subject)
        (root :: view.ancestors root) := by
    rw [TreeView.closest, ask_eq read free, selected, firstPassing_mapError]
  refine ⟨view.descendants root, view.ancestors root, coherent.preorder_descendants root,
    coherent.preorder_nodup (coherent.preorder_descendants root)
      (coherent.independent_children root), ?_, coherent.trail_ancestors root, ?_, ?_, ?_, ?_, ?_⟩
  · intro node
    rw [← coherent.within_none, coherent.mem_within_none_iff]
  · rw [all]
    exact decidesAll_allPassing _
  · rw [first]
    exact decidesFirst_firstPassing _
  · intro found answer
    rw [all] at answer
    rw [first, firstPassing_of_allPassing answer]
  · rw [children, coherent.descendants_filter_children]
    exact decidesAll_allPassing _
  · rw [closest]
    exact decidesFirst_firstPassing _

/-- A shelf with two books. -/
def shelf : Json :=
  .object
    [("type", .string "shelf"),
      ("books", .array [.object [("type", .string "book")], .object [("type", .string "book")]])]

/-- The books on a shelf, asked for in every way there is. -/
theorem queries_agree_shelf :
    (ObjectTree.ofJson shelf).view.Offered ∧
      (Subject.text "book").read .standard = .ok [.typeName "book" none] ∧
      (Selector.typeName "book" none).RelativeFree ∧
      ∃ below chain,
        (ObjectTree.ofJson shelf).view.QueriesAgree .standard (.text "book") 1 below chain := by
  have offered : (ObjectTree.ofJson shelf).view.Offered := .objects shelf
  have read : (Subject.text "book").read .standard = .ok [.typeName "book" none] := by
    decide +kernel
  have free : (Selector.typeName "book" none).RelativeFree :=
    Selector.hasRelative_eq_false_iff.mp (by decide +kernel)
  refine ⟨offered, read, free, offered.queries_agree read ?_ 1⟩
  intro member inMembers
  rw [List.mem_singleton.mp inMembers]
  exact free

end TreeView

end TreeSelectors
