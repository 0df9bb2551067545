import TreeSelectors.CommandLine.Arguments
import TreeSelectors.Json.Parser
import TreeSelectors.Json.Printer
import TreeSelectors.Outline.Selector
import TreeSelectors.Query
import TreeSelectors.Selector.Encoding
import TreeSelectors.Selector.Printer
import TreeSelectors.Tree.Objects
import TreeSelectors.WarningChannel

namespace TreeSelectors.CommandLine

/-!
# Running a command

A run gives what is written to the two outputs and the exit status. Warnings
are written before anything else, each of them once; a failure is written as
its message and, if it has one, the failure behind it.
-/

/-- What a run leaves behind. -/
structure Outcome where
  exit : Nat
  stdout : String
  stderr : String
deriving Repr, DecidableEq

/-- A failure, and the one behind it. -/
structure Failure where
  message : String
  cause? : Option String
deriving Repr, DecidableEq

/-- A text between the escape sequences that switch a style on and off. -/
def styled (on off : String) (text : String) : String :=
  "\x1b[" ++ on ++ "m" ++ text ++ "\x1b[" ++ off ++ "m"

/-- A text in bold type. -/
def bold (text : String) : String :=
  styled "1" "0" text

/-- A text in faint type. -/
def dimmed (text : String) : String :=
  styled "2" "0" text

/-- A text in cyan. -/
def cyan (text : String) : String :=
  styled "36" "39" text

/-- A text in yellow. -/
def yellow (text : String) : String :=
  styled "33" "39" text

/-- Lines with a line break behind each. -/
def unlines (lines : List String) : String :=
  String.join (lines.map fun line => line ++ "\n")

/-- The line of a warning. -/
def warningLine (notice : Notice) : String :=
  yellow ("[cssq " ++ notice.component ++ "] ⚠ " ++ notice.message)

/-- A text with all its lines moved in by four blanks. -/
def indented (text : String) : String :=
  "    " ++ String.ofList (text.toList.flatMap fun char =>
    if char == '\n' then ['\n', ' ', ' ', ' ', ' '] else [char])

/-- The text of a failure. -/
def Failure.text (failure : Failure) : String :=
  "Error: " ++ failure.message ++ "\n" ++
    match failure.cause? with
    | some cause => "\nCaused by:\n" ++ indented cause ++ "\n"
    | none => ""

/-- The failure that an error of a selector is. -/
def failureOf (error : SelectorError) : Failure :=
  ⟨error.message, error.cause?⟩

/-- The lines of warnings about a text, none of them twice and none if quiet. -/
def warningText (quiet : Bool) (notices : List Notice) : String :=
  unlines ((((WarningChannel.start (!quiet)).raise notices).1).map warningLine)

/-- The outcome of a command that gave warnings and then failed or wrote something. -/
def outcomeOf
    (quiet : Bool)
    (notices : List Notice)
    (result : Except Failure (String × String)) : Outcome :=
  match result with
  | .ok (stdout, stderr) => ⟨0, stdout, warningText quiet notices ++ stderr⟩
  | .error failure => ⟨1, "", warningText quiet notices ++ failure.text⟩

/-- Tokens, one on a line, or as JSON. -/
def showTokens (json : Bool) (tokens : List Token) : String :=
  if json then
    (Token.encodeList tokens).pretty ++ "\n"
  else
    bold ("=== Tokens (" ++ toString tokens.length ++ ") ===") ++ "\n" ++
      unlines (tokens.map fun token => "  " ++ token.describe)

/-- A selector list as an outline or as JSON. -/
def showSelectors (json : Bool) (members : List Selector) : String :=
  if json then
    (Selector.encodeList members).pretty ++ "\n"
  else
    bold ("=== Selector List (" ++ toString members.length ++ ") ===") ++ "\n" ++
      (Selector.outlineList members).render ++ "\n"

/-- The tokens of a text, shown. -/
def runTokens (selector : String) (json : Bool) : Except Failure (String × String) :=
  match tokenize selector with
  | .ok tokens => .ok (showTokens json tokens, "")
  | .error error => .error ⟨error.message, none⟩

/-- The selectors of a text, or the failure to read it. -/
def readSelectors (selector : String) : Except Failure (List Selector) :=
  (parse .standard selector).mapError fun error => failureOf (.malformed error)

/-- The selectors of a text, shown. -/
def runParse (selector : String) (json : Bool) : Except Failure (String × String) := do
  let members ← readSelectors selector
  return (showSelectors json members, "")

/-- The selectors of a text, written in their canonical form. -/
def runSerialize (selector : String) : Except Failure (String × String) := do
  let members ← readSelectors selector
  let text ← (Selector.listText Selector.noCustom members).mapError fun error =>
    failureOf (.unprintable error)
  return (text ++ "\n", "")

/-- The contents of a file, or the reason why it cannot be read. -/
abbrev FileReader :=
  String → Except String String

/-- The text of the document to be queried: given directly, or in a file. -/
def documentText (fileText : FileReader) (path? json? : Option String) :
    Except Failure String :=
  match json?, path? with
  | some text, _ => .ok text
  | none, some path =>
      (fileText path).mapError fun reason => ⟨"reading " ++ path, some reason⟩
  | none, none => .error ⟨"query requires a file path or --json", none⟩

/-- The document to be queried. -/
def document (fileText : FileReader) (path? json? : Option String) : Except Failure Json := do
  let text ← documentText fileText path? json?
  match Json.parse? text with
  | some value => .ok value
  | none => .error ⟨"document is not valid JSON", some "not a JSON text"⟩

/-- How many matches there are, in words. -/
def countLine (count : Nat) : String :=
  dimmed (toString count ++ " match" ++ if count = 1 then "" else "es")

/-- The nodes of a tree that match, all of them or the first. -/
def matchingNodes (tree : ObjectTree) (members : List Selector) (first : Bool) :
    Except Failure (List NodeId) :=
  let subject := Subject.selectors members
  let result :=
    if first then
      (tree.view.first .standard ObjectTree.document subject).map Option.toList
    else
      tree.view.all .standard ObjectTree.document subject
  result.mapError failureOf

/-- Matching nodes by their names, or as the objects they are. -/
def showNodes (tree : ObjectTree) (names : Bool) (nodes : List NodeId) : String :=
  if names then
    unlines (nodes.map fun node => cyan (tree.name node))
  else
    (Json.array ((nodes.filterMap tree.fields?).map Json.object)).pretty ++ "\n"

/-- The objects of a document that match the selectors of a text. -/
def runQuery (value : Json) (selector : String) (first names : Bool) :
    Except Failure (String × String) := do
  let members ← readSelectors selector
  let tree := ObjectTree.ofJson value
  let nodes ← matchingNodes tree members first
  return (showNodes tree names nodes, countLine nodes.length ++ "\n")

/-- The notices of reading a text as tokens only. -/
def tokenNotices (selector : String) : List Notice :=
  Lexer.notices selector

/-- The notices of reading a text as selectors. -/
def selectorNotices (selector : String) : List Notice :=
  (parseReading .standard selector).notices

/-- Runs a command; a query reads its document before its selector. -/
def runCommand (fileText : FileReader) (quiet : Bool) : Command → Outcome
  | .tokens selector json =>
      outcomeOf quiet (tokenNotices selector) (runTokens selector json)
  | .parse selector json =>
      outcomeOf quiet (selectorNotices selector) (runParse selector json)
  | .serialize selector =>
      outcomeOf quiet (selectorNotices selector) (runSerialize selector)
  | .query selector path? json? first names =>
      match document fileText path? json? with
      | .error failure =>
          outcomeOf quiet [] (.error failure)
      | .ok value =>
          outcomeOf quiet (selectorNotices selector) (runQuery value selector first names)

/-- What is written when the arguments stand for no command. -/
def usage : String :=
  "Usage: cssq [-q] (tokens | parse | serialize | query) SELECTOR [FILE] [--json ...]\n"

/-- Runs the command that some arguments stand for. -/
def run (fileText : FileReader) (arguments : List String) : Outcome :=
  match invocation? arguments with
  | none => ⟨2, "", usage⟩
  | some invocation => runCommand fileText invocation.quiet invocation.command

/-- The file that a command needs, if it needs one. -/
def neededFile? (arguments : List String) : Option String :=
  match invocation? arguments with
  | some ⟨_, .query _ (some path) none _ _⟩ => some path
  | _ => none

end TreeSelectors.CommandLine
