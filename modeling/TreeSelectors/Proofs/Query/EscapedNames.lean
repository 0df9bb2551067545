import Mathlib
import TreeSelectors.Proofs.Query.Searches
import TreeSelectors.Proofs.Selector.RoundTrip
import TreeSelectors.Proofs.Selector.Wrapping
import TreeSelectors.Proofs.Token.EscapedText

namespace TreeSelectors

/-!
# Escaped names as selectors

An escaped name is read as a type selector for that name, whatever characters
the name holds, and with another one and a bar in front of it for that name in
a namespace: `parse_escapeIdent`, `parse_escapeIdent_qualified`. So it selects
the elements of that name, with one exception. A type selector for the name `*`
is the one that any name satisfies, escaped or not; likewise for namespaces:
`DocumentTree.all_escapedNames`.
-/

open TreeSelectors.Text
open TreeSelectors.Lexer

section Reading

variable {rules : ArgumentRules} {name qualifier : String}

/-- An escaped name is read as a type selector. -/
theorem parse_escapeIdent
    (nameable : Nameable name) :
    parse rules (escapeIdent name) = .ok [.typeName name none] := by
  have read : (parseTokens rules [.ident name]).outcome = .ok [.typeName name none] :=
    Grammar.parseTokens_of_simple? rfl rfl rfl
  have written : Token.listChars [.ident name] = escapeIdentChars name.toList := by
    simp [Token.chars]
  have parsed := Selector.parse_listChars (List.forall_mem_singleton.mpr nameable.wellFormed) rfl
    ?_ read
  · rw [written] at parsed
    exact parsed
  · rw [written]
    exact trim_eq_self_iff.mpr nameable.trimmed_escapeIdentChars

/-- An escaped name behind another one and a bar is read as a type selector in a namespace. -/
theorem parse_escapeIdent_qualified
    (nameable : Nameable name)
    (qualifiable : Nameable qualifier) :
    parse rules (escapeIdent qualifier ++ "|" ++ escapeIdent name) =
      .ok [.typeName name (some qualifier)] := by
  have read : (parseTokens rules [.ident qualifier, .delim '|', .ident name]).outcome =
      .ok [.typeName name (some qualifier)] :=
    Grammar.parseTokens_of_simple? rfl rfl rfl
  have written : Token.listChars [.ident qualifier, .delim '|', .ident name] =
      escapeIdentChars qualifier.toList ++ '|' :: escapeIdentChars name.toList := by
    simp [Token.chars]
  have wellFormed : Token.AllWellFormed [.ident qualifier, .delim '|', .ident name] := by
    refine List.forall_mem_cons.mpr ⟨qualifiable.wellFormed,
      List.forall_mem_cons.mpr ⟨?_, ?_⟩⟩
    · exact ⟨by decide, by decide⟩
    · exact List.forall_mem_singleton.mpr nameable.wellFormed
  have text : String.ofList (escapeIdentChars qualifier.toList ++ '|' ::
      escapeIdentChars name.toList) = escapeIdent qualifier ++ "|" ++ escapeIdent name := by
    rw [← String.toList_inj]
    simp
  have trimmed := qualifiable.trimmed_escapeIdentChars.between nameable.trimmed_escapeIdentChars
    (show isWhiteSpace '|' = false by decide)
  have parsed := Selector.parse_listChars wellFormed rfl ?_ read
  · rw [written, text] at parsed
    exact parsed
  · rw [written]
    exact trim_eq_self_iff.mpr trimmed

end Reading

namespace TreeView

variable {view : TreeView} {rules : ArgumentRules} {subject : Subject}

/-- A type selector finds the elements below that it holds at. -/
theorem all_typeName
    (coherent : view.Coherent)
    {name : String}
    {qualifier : Option String}
    (read : subject.read rules = .ok [.typeName name qualifier])
    (root : NodeId) :
    view.all rules root subject =
      .ok ((view.descendants root).filter (Selector.typeHoldsAt view name qualifier)) := by
  have free : ∀ member ∈ [Selector.typeName name qualifier], member.RelativeFree :=
    List.forall_mem_singleton.mpr (Selector.RelativeFree.of_children rfl (List.forall_mem_nil _))
  have answers : ∀ node ∈ view.descendants root,
      Selector.anyHoldsAt view [.typeName name qualifier] node =
        .ok (Selector.typeHoldsAt view name qualifier node) := by
    intro node member
    rw [← coherent.within_none, coherent.mem_within_none_iff] at member
    rw [Selector.anyHoldsAt, Selector.holdsAt, if_pos (member.isElement coherent)]
    cases Selector.typeHoldsAt view name qualifier node <;> rfl
  rw [all, ask_eq read free, coherent.find_all, allPassing_eq_filter answers]
  rfl

end TreeView

namespace DocumentTree

/-- Whether a node is an element of a name. -/
def hasName (tree : DocumentTree) (name : String) (node : NodeId) : Bool :=
  (tree.element? node).any fun data => data.name == name

/-- Whether a node is an element with a namespace. -/
def hasQualifier (tree : DocumentTree) (qualifier : String) (node : NodeId) : Bool :=
  (tree.element? node).any fun data => data.qualifier == some qualifier

/--
A text selects the wanted nodes among those below the root of a document. Looked at is every
element that elements lead to, once and parents first.
-/
structure SelectsBelow
    (tree : DocumentTree)
    (rules : ArgumentRules)
    (text : String)
    (wanted : NodeId → Bool)
    (below : List NodeId) : Prop where
  listed :
    tree.view.Preorder (tree.elementChildren root) below
  distinct :
    below.Nodup
  complete :
    ∀ node, node ∈ below ↔ tree.view.Reaches root node
  found :
    tree.view.all rules root (.text text) = .ok (below.filter wanted)

/-- Escaped names select the elements of these names and no others. -/
def EscapedNamesSelect
    (tree : DocumentTree)
    (rules : ArgumentRules)
    (qualifier name : String) : Prop :=
  ∃ below,
    tree.SelectsBelow rules (escapeIdent name) (tree.hasName name) below ∧
      tree.SelectsBelow rules (escapeIdent qualifier ++ "|" ++ escapeIdent name)
        (fun node => tree.hasQualifier qualifier node && tree.hasName name node) below

section Names

variable {tree : DocumentTree} {name qualifier : String} {node : NodeId}

theorem typeHoldsAt_view
    (element : tree.view.isElement node = true)
    (name : String) :
    Selector.typeHoldsAt tree.view name none node = (name == "*" || tree.hasName name node) := by
  obtain ⟨data, found⟩ := Option.isSome_iff_exists.mp element
  simp [Selector.typeHoldsAt, view, hasName, found]

theorem typeHoldsAt_view_qualified
    (element : tree.view.isElement node = true)
    (nonempty : qualifier ≠ "")
    (name : String) :
    Selector.typeHoldsAt tree.view name (some qualifier) node =
      ((qualifier == "*" || tree.hasQualifier qualifier node) &&
        (name == "*" || tree.hasName name node)) := by
  obtain ⟨data, found⟩ := Option.isSome_iff_exists.mp element
  by_cases any : qualifier = "*"
  · simp [Selector.typeHoldsAt, view, hasName, found, any]
  · simp [Selector.typeHoldsAt, view, hasName, hasQualifier, found, any, nonempty,
      beq_false_of_ne any, Bool.and_comm]

/--
An escaped name selects the elements of that name, or all if it is `*`; behind another one and a
bar, those of them with that namespace, or with any if it is `*`.
-/
theorem all_escapedNames
    (reachable : tree.Reachable)
    (acyclic : tree.Acyclic)
    (nameable : Nameable name)
    (qualifiable : Nameable qualifier)
    (rules : ArgumentRules) :
    ∃ below,
      tree.SelectsBelow rules (escapeIdent name)
          (fun node => name == "*" || tree.hasName name node) below ∧
        tree.SelectsBelow rules (escapeIdent qualifier ++ "|" ++ escapeIdent name)
          (fun node => (qualifier == "*" || tree.hasQualifier qualifier node) &&
            (name == "*" || tree.hasName name node)) below := by
  have coherent := reachable.linked.coherent acyclic
  have complete : ∀ node, node ∈ tree.view.descendants root ↔
      tree.view.Reaches root node := by
    intro node
    rw [← coherent.within_none, coherent.mem_within_none_iff]
  have element : ∀ node ∈ tree.view.descendants root, tree.view.isElement node = true :=
    fun node member => ((complete node).mp member).isElement coherent
  have selects : ∀ {text : String} {wanted : NodeId → Bool} {qualifier : Option String},
      parse rules text = .ok [.typeName name qualifier] →
      (∀ node, tree.view.isElement node = true →
        Selector.typeHoldsAt tree.view name qualifier node = wanted node) →
      tree.SelectsBelow rules text wanted (tree.view.descendants root) := by
    intro text wanted qualifier parsed holds
    refine ⟨coherent.preorder_descendants root,
      coherent.preorder_nodup (coherent.preorder_descendants root)
        (coherent.independent_children root), complete, ?_⟩
    have read : (Subject.text text).read rules = .ok [.typeName name qualifier] := parsed
    rw [TreeView.all_typeName coherent read]
    exact congrArg Except.ok (List.filter_congr fun node member => holds node (element node member))
  have nonempty : qualifier ≠ "" := fun none => qualifiable.nonempty (by rw [none]; rfl)
  exact ⟨tree.view.descendants root,
    selects (parse_escapeIdent nameable) fun node element => typeHoldsAt_view element name,
    selects (parse_escapeIdent_qualified nameable qualifiable)
      fun node element => typeHoldsAt_view_qualified element nonempty name⟩

end Names

/-- An element with a plain name, and in it one whose name is made of other characters. -/
def oddNames : DocumentTree :=
  let (outer, tree) := DocumentTree.empty.appendNew root (.element ⟨"a", none, []⟩)
  (tree.appendNew outer (.element ⟨"1 *|", some "-", []⟩)).2

theorem reachable_oddNames :
    oddNames.Reachable :=
  (Reachable.empty.appendNew _ _).appendNew _ _

theorem acyclic_oddNames :
    oddNames.Acyclic := by
  apply acyclic_of_parent_lt
  intro node parent parented
  have small : node < 3 := lt_size_of_parent? parented
  have older : ∀ node < 3, ∀ parent ∈ oddNames.parent? node, parent < node := by decide
  exact older node small parent parented

theorem all_escapedNames_odd :
    oddNames.Reachable ∧
      oddNames.Acyclic ∧
      Nameable "1 *|" ∧
      Nameable "-" ∧
      ∃ below,
        oddNames.SelectsBelow .standard (escapeIdent "1 *|")
            (fun node => "1 *|" == "*" || oddNames.hasName "1 *|" node) below ∧
          oddNames.SelectsBelow .standard (escapeIdent "-" ++ "|" ++ escapeIdent "1 *|")
            (fun node => ("-" == "*" || oddNames.hasQualifier "-" node) &&
              ("1 *|" == "*" || oddNames.hasName "1 *|" node)) below := by
  have nameable : Nameable "1 *|" := by
    decide
  have qualifiable : Nameable "-" := by
    decide
  exact ⟨reachable_oddNames, acyclic_oddNames, nameable, qualifiable,
    all_escapedNames reachable_oddNames acyclic_oddNames nameable qualifiable .standard⟩

/-- The escaped name `*` selects an element of another name. -/
theorem not_escapedNamesSelect_star :
    ¬ oddNames.EscapedNamesSelect .standard "-" "*" := by
  rintro ⟨below, selects, _⟩
  have found : oddNames.view.all .standard root (.text (escapeIdent "*")) = .ok [1, 2] := by
    decide +kernel
  have same := Except.ok.inj (found.symm.trans selects.found)
  have member : 1 ∈ below.filter (oddNames.hasName "*") := same ▸ List.mem_cons_self
  have named := (List.mem_filter.mp member).2
  exact absurd named (by decide)

end DocumentTree

end TreeSelectors
