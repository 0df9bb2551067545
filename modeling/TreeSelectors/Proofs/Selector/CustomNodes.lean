import TreeSelectors.Proofs.Selector.Occurrence
import TreeSelectors.Selector.Printer

namespace TreeSelectors.Selector

/-!
# Where writing a selector fails

The text of a selector is made of fixed fragments and of its custom nodes, in an
order that does not depend on how custom nodes are written: `template_chars`. So
writing fails at the first of them that the caller declines, whatever else the
selector looks like, and nowhere else: `text_outcome`.
-/

open TreeSelectors.Text

/-- A part of a text: characters that are always the same, or a custom node. -/
inductive Fragment where
  | plain (chars : List Char)
  | custom (node : CustomNode)

namespace Fragment

/-- The custom node that a fragment stands for. -/
def node? : Fragment → Option CustomNode
  | .plain _ => none
  | .custom node => some node

/-- The characters of a fragment. -/
def chars (printer : CustomPrinter) : Fragment → Except PrintError (List Char)
  | .plain chars => .ok chars
  | .custom node => customChars printer node

end Fragment

/-- The characters of fragments in a row, unless one of them cannot be written. -/
def fill (printer : CustomPrinter) : List Fragment → Except PrintError (List Char)
  | [] => .ok []
  | fragment :: rest => do
      let first ← fragment.chars printer
      let others ← fill printer rest
      return first ++ others

mutual

/-- The custom nodes in a selector, from left to right. -/
def customNodes : Selector → List CustomNode
  | .list members => memberNodes members
  | .complex left _ right => customNodes left ++ customNodes right
  | .relative _ right => customNodes right
  | .compound members => memberNodes members
  | .pseudo _ _ argument => argumentNodes argument
  | _ => []

/-- The custom nodes in an argument. -/
def argumentNodes : Argument → List CustomNode
  | .selectors members => memberNodes members
  | .custom node => [node]
  | _ => []

/-- The custom nodes in some selectors. -/
def memberNodes : List Selector → List CustomNode
  | [] => []
  | member :: rest => customNodes member ++ memberNodes rest

end

/--
What is written for some custom nodes: they stand in this order between fixed
characters, and all that depends on the printer is what is written for them.
-/
def Template
    (nodes : List CustomNode)
    (write : CustomPrinter → Except PrintError (List Char)) : Prop :=
  ∃ fragments : List Fragment,
    fragments.filterMap Fragment.node? = nodes ∧
      ∀ printer, write printer = fill printer fragments

namespace Template

variable
  {nodes furtherNodes : List CustomNode}
  {write writeFurther : CustomPrinter → Except PrintError (List Char)}

/-- Two rows of fragments are filled one behind the other, and the first failure counts. -/
theorem fill_append
    (printer : CustomPrinter)
    (left right : List Fragment) :
    fill printer (left ++ right) = do
      let before ← fill printer left
      let behind ← fill printer right
      return before ++ behind := by
  induction left with
  | nil =>
      cases written : fill printer right <;>
        simp [fill, written, bind, Except.bind, pure, Except.pure]
  | cons fragment left inductionHypothesis =>
      rw [List.cons_append, fill, fill, inductionHypothesis]
      cases fragment.chars printer with
      | error error => rfl
      | ok first =>
          cases fill printer left with
          | error error => rfl
          | ok before =>
              cases fill printer right with
              | error error => rfl
              | ok behind => exact congrArg Except.ok (List.append_assoc first before behind).symm

/-- A text without custom nodes is a template of one fragment. -/
theorem plain
    (chars : List Char) :
    Template [] fun _ => pure chars := by
  refine ⟨[.plain chars], rfl, fun printer => ?_⟩
  exact congrArg Except.ok (List.append_nil chars).symm

/-- A custom node is a template of one gap. -/
theorem custom
    (node : CustomNode) :
    Template [node] fun printer => customChars printer node := by
  refine ⟨[.custom node], rfl, fun printer => ?_⟩
  dsimp only [fill, Fragment.chars]
  cases customChars printer node with
  | error error => rfl
  | ok chars => exact congrArg Except.ok (List.append_nil chars).symm

/-- Two texts one behind the other, with fixed characters before each of them. -/
theorem join
    (first : Template nodes write)
    (second : Template furtherNodes writeFurther)
    (front middle : List Char) :
    Template (nodes ++ furtherNodes) fun printer => do
      let before ← write printer
      let behind ← writeFurther printer
      return front ++ before ++ (middle ++ behind) := by
  obtain ⟨left, leftNodes, leftFilled⟩ := first
  obtain ⟨right, rightNodes, rightFilled⟩ := second
  refine ⟨.plain front :: left ++ .plain middle :: right, ?_, fun printer => ?_⟩
  · rw [List.filterMap_append, ← leftNodes, ← rightNodes]
    rfl
  · dsimp only
    rw [leftFilled, rightFilled, fill_append, fill, fill]
    cases fill printer left with
    | error error => rfl
    | ok before =>
        cases fill printer right with
        | error error => rfl
        | ok behind => rfl

/-- A text between fixed characters. -/
theorem enclosed
    (inside : Template nodes write)
    (front back : List Char) :
    Template nodes fun printer => do
      let between ← write printer
      return front ++ between ++ back := by
  have joined := inside.join (plain back) front []
  rw [List.append_nil] at joined
  exact joined

end Template

mutual

/-- The text of a selector around its custom nodes. -/
theorem template_chars :
    (selector : Selector) →
    Template selector.customNodes fun printer => chars printer selector
  | .list members => by
      simpa only [customNodes, chars] using template_listChars members
  | .complex left combinator right => by
      have joined := (template_chars left).join (template_chars right) []
        (' ' :: combinatorChars combinator)
      simpa [customNodes, chars] using joined
  | .relative combinator right => by
      have joined := (template_chars right).enclosed (combinatorChars combinator) []
      simpa [customNodes, chars] using joined
  | .compound members => by
      simpa only [customNodes, chars] using template_compoundChars members
  | .typeName name qualifier => by
      simpa only [customNodes, chars] using
        Template.plain (qualifierChars qualifier ++ typeNameChars name)
  | .identifier name => by
      simpa only [customNodes, chars] using Template.plain ('#' :: escapeNameChars name.toList)
  | .className name => by
      simpa only [customNodes, chars] using Template.plain ('.' :: escapeIdentChars name.toList)
  | .attribute test => by
      simpa only [customNodes, chars] using Template.plain (attributeChars test)
  | .pseudo form name argument => by
      have joined := (template_argumentChars argument).enclosed
        (form.colons ++ escapeIdentChars name.toList) []
      simpa [customNodes, chars] using joined

/-- An argument is a template, with a gap if it is a custom node. -/
theorem template_argumentChars :
    (argument : Argument) →
    Template (argumentNodes argument) fun printer => argumentChars printer argument
  | .absent => by
      simpa only [argumentNodes, argumentChars] using Template.plain []
  | .raw tokens => by
      simpa only [argumentNodes, argumentChars] using
        Template.plain ('(' :: Token.listChars tokens ++ [')'])
  | .selectors members => by
      simp only [argumentNodes, argumentChars]
      exact (template_listChars members).enclosed ['('] [')']
  | .anPlusB tokens => by
      simpa only [argumentNodes, argumentChars] using
        Template.plain ('(' :: Token.listChars tokens ++ [')'])
  | .custom node => by
      simp only [argumentNodes, argumentChars]
      exact (Template.custom node).enclosed ['('] [')']

/-- A compound is a template of its members. -/
theorem template_compoundChars :
    (members : List Selector) →
    Template (memberNodes members) fun printer => compoundChars printer members
  | [] => by
      simpa only [memberNodes, compoundChars] using Template.plain []
  | member :: rest => by
      have joined := (template_chars member).join (template_compoundChars rest) [] []
      simpa [memberNodes, compoundChars] using joined

/-- A list is a template of its members and the commas between them. -/
theorem template_listChars :
    (members : List Selector) →
    Template (memberNodes members) fun printer => listChars printer members
  | [] => by
      simpa only [memberNodes, listChars] using Template.plain []
  | member :: rest => by
      have joined := (template_chars member).join (template_furtherChars rest) [] []
      simpa [memberNodes, listChars] using joined

/-- The members behind the first are a template, with a comma in front of each. -/
theorem template_furtherChars :
    (members : List Selector) →
    Template (memberNodes members) fun printer => furtherChars printer members
  | [] => by
      simpa only [memberNodes, furtherChars] using Template.plain []
  | member :: rest => by
      have joined := (template_chars member).join (template_furtherChars rest) [',', ' '] []
      simpa [memberNodes, furtherChars] using joined

end

/-- The first of some custom nodes that a printer declines. -/
def firstUnknown (printer : CustomPrinter) (nodes : List CustomNode) : Option CustomNode :=
  nodes.find? fun node => (printer node).isNone

/-- A selector stands in the text of another with a custom node as its argument. -/
def OccursCustom (node : CustomNode) (selector : Selector) : Prop :=
  ∃ form name, Occurs (.pseudo form name (.custom node)) selector

section Nodes

variable {printer : CustomPrinter} {node : CustomNode} {selector : Selector}

theorem firstUnknown_cons
    (node : CustomNode)
    (nodes : List CustomNode) :
    firstUnknown printer (node :: nodes) =
      if (printer node).isNone then some node else firstUnknown printer nodes := by
  rw [firstUnknown, List.find?_cons]
  cases (printer node).isNone <;> rfl

/-- Behind a fragment that is written the rest decides. -/
theorem fill_cons_of_ok
    {fragment : Fragment}
    {chars : List Char}
    (written : fragment.chars printer = .ok chars)
    (rest : List Fragment)
    {error : PrintError} :
    fill printer (fragment :: rest) = .error error ↔ fill printer rest = .error error := by
  rw [fill, written]
  cases fill printer rest with
  | error other => exact Iff.rfl
  | ok others => exact ⟨nofun, nofun⟩

/-- Fragments cannot be written where one of them is unknown, and the first of these is told. -/
theorem fill_eq_error_iff
    {fragments : List Fragment}
    {error : PrintError} :
    fill printer fragments = .error error ↔
      ∃ node, firstUnknown printer (fragments.filterMap Fragment.node?) = some node ∧
        error = .unknownNodeType node.typeName := by
  induction fragments with
  | nil => simp [fill, firstUnknown]
  | cons fragment rest inductionHypothesis =>
      cases fragment with
      | plain chars =>
          rw [fill_cons_of_ok rfl rest, inductionHypothesis]
          rfl
      | custom node =>
          have nodes : (Fragment.custom node :: rest).filterMap Fragment.node? =
              node :: rest.filterMap Fragment.node? := rfl
          rw [nodes, firstUnknown_cons]
          cases known : printer node with
          | none =>
              have failed : fill printer (.custom node :: rest) =
                  .error (.unknownNodeType node.typeName) := by
                rw [fill, Fragment.chars, customChars, known]
                rfl
              rw [failed]
              simp [eq_comm]
          | some text =>
              have written : (Fragment.custom node).chars printer = .ok text.toList := by
                rw [Fragment.chars, customChars, known]
              rw [fill_cons_of_ok written rest, inductionHypothesis]
              rfl

/-- Fragments without a custom node come out the same for every printer. -/
theorem fill_of_noCustom
    {fragments : List Fragment}
    (noCustom : fragments.filterMap Fragment.node? = []) :
    ∃ chars, ∀ printer, fill printer fragments = .ok chars := by
  induction fragments with
  | nil => exact ⟨[], fun _ => rfl⟩
  | cons fragment rest inductionHypothesis =>
      cases fragment with
      | plain chars =>
          obtain ⟨others, written⟩ := inductionHypothesis noCustom
          refine ⟨chars ++ others, fun printer => ?_⟩
          rw [fill, written]
          rfl
      | custom node => cases noCustom

/-- There is a first node that is declined exactly if any is. -/
theorem exists_firstUnknown_iff
    {nodes : List CustomNode} :
    (∃ node, firstUnknown printer nodes = some node) ↔
      ∃ node ∈ nodes, printer node = none := by
  rw [← Option.isSome_iff_exists, firstUnknown, List.find?_isSome]
  simp

/-- The custom nodes of a list are those of its members in order. -/
theorem memberNodes_eq
    (members : List Selector) :
    memberNodes members = members.flatMap customNodes := by
  induction members with
  | nil => rfl
  | cons member rest inductionHypothesis =>
      rw [memberNodes, inductionHypothesis, List.flatMap_cons]

/-- A custom node in a selector is its own argument or stands in one of its children. -/
theorem mem_customNodes_iff_children :
    node ∈ selector.customNodes ↔
      (∃ form name, selector = .pseudo form name (.custom node)) ∨
        ∃ child ∈ selector.children, node ∈ child.customNodes := by
  cases selector with
  | pseudo form name argument =>
      cases argument <;>
        simp [customNodes, argumentNodes, children, argumentMembers, memberNodes_eq, eq_comm]
  | _ => simp [customNodes, children, memberNodes_eq]

/-- The custom nodes of a selector are those that occur in it. -/
theorem mem_customNodes_iff :
    node ∈ selector.customNodes ↔ OccursCustom node selector := by
  induction selector using children_induction with
  | step selector inductionHypothesis =>
      rw [mem_customNodes_iff_children]
      constructor
      · rintro (⟨form, name, same⟩ | ⟨child, isChild, inside⟩)
        · exact ⟨form, name, same ▸ .self⟩
        · obtain ⟨form, name, occurs⟩ := (inductionHypothesis child isChild).mp inside
          exact ⟨form, name, .inside isChild occurs⟩
      · rintro ⟨form, name, occurs⟩
        rcases occurs_iff.mp occurs with same | ⟨child, isChild, deeper⟩
        · exact Or.inl ⟨form, name, same.symm⟩
        · exact Or.inr ⟨child, isChild,
            (inductionHypothesis child isChild).mpr ⟨form, name, deeper⟩⟩

end Nodes

/-- What comes of writing a selector, whatever the caller knows of custom nodes. -/
structure TextOutcome (selector : Selector) : Prop where
  inOrder :
    ∃ fragments : List Fragment,
      fragments.filterMap Fragment.node? = selector.customNodes ∧
        ∀ printer, text printer selector = (fill printer fragments).map String.ofList
  fails_iff :
    ∀ printer, (∃ error, text printer selector = .error error) ↔
      ∃ node, OccursCustom node selector ∧ printer node = none
  error_iff :
    ∀ printer error, text printer selector = .error error ↔
      ∃ node, firstUnknown printer selector.customNodes = some node ∧
        error = .unknownNodeType node.typeName
  sameText :
    (∀ node, ¬ OccursCustom node selector) →
      ∃ written, text noCustom selector = .ok written ∧
        ∀ printer, text printer selector = text noCustom selector

/-- A selector that cannot be written as characters cannot be written as a text. -/
theorem text_eq_error_iff
    {printer : CustomPrinter}
    {selector : Selector}
    {error : PrintError} :
    text printer selector = .error error ↔ chars printer selector = .error error := by
  rw [text]
  cases chars printer selector <;> simp [Except.map]

/--
Writing fails exactly at custom nodes that the caller declines, with the type of the first of them
in the text; a list is written as the node that holds it.
-/
theorem text_outcome
    (selector : Selector) :
    TextOutcome selector ∧
      ∀ printer members, listText printer members = text printer (.list members) := by
  obtain ⟨fragments, nodes, filled⟩ := template_chars selector
  have written : ∀ printer, text printer selector =
      (fill printer fragments).map String.ofList :=
    fun printer => congrArg (Except.map String.ofList) (filled printer)
  have error_iff : ∀ printer error, text printer selector = .error error ↔
      ∃ node, firstUnknown printer selector.customNodes = some node ∧
        error = .unknownNodeType node.typeName := by
    intro printer error
    have filledHere : chars printer selector = fill printer fragments := filled printer
    rw [text_eq_error_iff, filledHere, fill_eq_error_iff, nodes]
  refine ⟨⟨⟨fragments, nodes, written⟩, fun printer => ?_, error_iff, fun none => ?_⟩,
    fun printer members => ?_⟩
  · simp only [error_iff, ← mem_customNodes_iff, ← exists_firstUnknown_iff]
    exact ⟨fun ⟨_, node, unknown, _⟩ => ⟨node, unknown⟩,
      fun ⟨node, unknown⟩ => ⟨_, node, unknown, rfl⟩⟩
  · have noNodes : selector.customNodes = [] :=
      List.eq_nil_iff_forall_not_mem.mpr fun node member =>
        none node (mem_customNodes_iff.mp member)
    obtain ⟨chars, same⟩ := fill_of_noCustom (nodes.trans noNodes)
    have always : ∀ printer, text printer selector = .ok (String.ofList chars) := by
      intro printer
      rw [written, same]
      rfl
    exact ⟨_, always noCustom, fun printer => (always printer).trans (always noCustom).symm⟩
  · rw [listText, text, chars]

/-- The left operand comes before the right one, and a known node is passed over. -/
example :
    let custom (typeName : String) : Selector :=
      .pseudo .pseudoClass "x" (.custom ⟨typeName, .null⟩)
    let printer : CustomPrinter := fun node => if node.typeName = "a" then some "" else none
    text printer (.complex (.compound [custom "a", custom "b"]) .child (custom "c")) =
      .error (.unknownNodeType "b") :=
  rfl

end TreeSelectors.Selector
