import TreeSelectors.Main
import TreeSelectors.Proofs.Query.Selection
import TreeSelectors.Selector.ParserProgress
import TreeSelectors.Tree.DocumentView
import TreeSelectors.Tree.Visit
import TreeSelectors.Proofs.Selector.ReadBack
import TreeSelectors.Proofs.Selector.Regular
import TreeSelectors.Proofs.Selector.Acceptance
import TreeSelectors.Proofs.Token.Reread
import TreeSelectors.Proofs.Query.Agreement
import TreeSelectors.Proofs.Tree.Bounds
import TreeSelectors.Proofs.Tree.Consistency
import TreeSelectors.Proofs.Tree.NodeView
import TreeSelectors.Proofs.Tree.Rooting
import TreeSelectors.Proofs.Query.Descent
import TreeSelectors.Proofs.Query.Refusal
import TreeSelectors.Proofs.Selector.WellFormed
import TreeSelectors.Proofs.Query.Wrapping
import TreeSelectors.Proofs.Token.Separation
import TreeSelectors.Proofs.Tree.ObjectIndex
import TreeSelectors.Proofs.Warnings
import TreeSelectors.Proofs.Query.EscapedNames
import TreeSelectors.Proofs.Token.Trimming
import TreeSelectors.Proofs.Selector.OpenAttributes
import TreeSelectors.Proofs.Query.WrittenPositions
import TreeSelectors.Proofs.Query.ClassWords
import TreeSelectors.Proofs.Query.CaseWidening
import TreeSelectors.Proofs.Token.Resuming
import TreeSelectors.Proofs.Selector.BlankRuns
import TreeSelectors.Proofs.Query.NameCase
import TreeSelectors.Proofs.Token.LongestNumbers
import TreeSelectors.Proofs.Token.EscapedText
import TreeSelectors.Proofs.Selector.CustomNodes
import TreeSelectors.Proofs.Selector.BreadthFirst
import TreeSelectors.Proofs.Tree.Lineage
import TreeSelectors.Proofs.Tree.BoundedVisit
import TreeSelectors.Proofs.Selector.NestedArguments
