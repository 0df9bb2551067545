import Mathlib
import TreeSelectors.Proofs.Selector.Shape
import TreeSelectors.Proofs.Token.Edges

namespace TreeSelectors.Selector

/-!
# Reading again what has been written

A selector list that has been read can be written, but what is written is not
always read as the list again: tokens that a comment has kept apart run
together, and white space at the ends of the text is dropped. `roundTrip_iff`
says exactly when it is.
-/

open TreeSelectors.Text
open TreeSelectors.Lexer
open TreeSelectors.Parser
open TreeSelectors.Token

section Ends

/-- Tokens that end with one that is not blank. -/
def EndsFirm (tokens : List Token) : Prop :=
  ∃ init last, tokens = init ++ [last] ∧ last ≠ .whitespace

/-- What stands in front changes nothing of how tokens end. -/
theorem EndsFirm.append
    (left : List Token)
    {right : List Token}
    (ends : EndsFirm right) :
    EndsFirm (left ++ right) := by
  obtain ⟨init, last, shape, firm⟩ := ends
  exact ⟨left ++ init, last, by rw [shape, List.append_assoc], firm⟩

theorem EndsFirm.last
    (init : List Token)
    {last : Token}
    (firm : last ≠ .whitespace) :
    EndsFirm (init ++ [last]) :=
  ⟨init, last, rfl, firm⟩

/-- A pseudo selector ends with its name or a parenthesis. -/
theorem endsFirm_argumentTokens
    (name : String)
    (argument : Argument) :
    EndsFirm (argumentTokens name argument) := by
  cases argument with
  | absent => exact EndsFirm.last [] (by simp)
  | raw inside => exact EndsFirm.last (.function name :: inside) (by simp)
  | selectors members => exact EndsFirm.last (.function name :: listTokens members) (by simp)
  | anPlusB inside => exact EndsFirm.last (.function name :: inside) (by simp)
  | custom node => exact EndsFirm.last [.function name] (by simp)

variable {rules : ArgumentRules}

mutual

/-- What fits does not end with a blank. -/
theorem endsFirm_tokens :
    (selector : Selector) → (layer : Layer) → Fits rules layer selector →
      EndsFirm selector.tokens
  | .list _, _, fits => (not_fits_list fits).elim
  | .complex left combinator right, _, fits => by
      obtain ⟨_, _, fitsRight⟩ := fits_complex_iff.mp fits
      exact (endsFirm_tokens right .compound fitsRight).append _
  | .relative combinator right, _, fits => by
      obtain ⟨_, _, fitsRight⟩ := fits_relative_iff.mp fits
      exact (endsFirm_tokens right .compound fitsRight).append _
  | .compound members, _, fits => by
      obtain ⟨_, several, each, _⟩ := fits_compound_iff.mp fits
      have nonempty : members ≠ [] := by
        intro none
        simp [none] at several
      exact endsFirm_compoundTokens members nonempty each
  | .typeName name qualifier, _, _ => by
      refine EndsFirm.last _ ?_
      unfold nameToken
      split <;> simp
  | .identifier name, _, _ => EndsFirm.last [] (by simp)
  | .className name, _, _ => EndsFirm.last [.delim '.'] (by simp)
  | .attribute test, _, _ => EndsFirm.last _ (by simp)
  | .pseudo form name argument, _, _ => (endsFirm_argumentTokens name argument).append _

/-- A compound ends as its last member does. -/
theorem endsFirm_compoundTokens :
    (members : List Selector) → members ≠ [] → FitsEach rules members →
      EndsFirm (compoundTokens members)
  | [], nonempty, _ => absurd rfl nonempty
  | [member], _, fits => by
      simpa [compoundTokens] using endsFirm_tokens member .simple fits.1
  | member :: next :: rest, _, fits =>
      (endsFirm_compoundTokens (next :: rest) (by simp) fits.2).append _

end

/-- A list ends as its last member does. -/
theorem endsFirm_furtherTokens
    {members : List Selector}
    (fits : FitsList rules members)
    (nonempty : members ≠ []) :
    EndsFirm (furtherTokens members) := by
  induction members with
  | nil => exact absurd rfl nonempty
  | cons member members inductionHypothesis =>
      have first := (endsFirm_tokens member .chain fits.1).append [.comma, .whitespace]
      by_cases empty : members = []
      · subst empty
        simpa [furtherTokens] using first
      · exact (inductionHypothesis fits.2 empty).append (.comma :: .whitespace :: member.tokens)

/-- A list is written as nothing or with something that is not blank at both ends. -/
theorem endsFirm_listTokens
    {members : List Selector}
    (fits : FitsList rules members) :
    (listTokens members).head? ≠ some .whitespace ∧
      (members = [] ∨ EndsFirm (listTokens members)) := by
  cases members with
  | nil => exact ⟨by simp [listTokens], Or.inl rfl⟩
  | cons member members =>
      refine ⟨head?_tokens_of_chain fits.1 _, Or.inr ?_⟩
      by_cases empty : members = []
      · subst empty
        simpa [listTokens, furtherTokens] using endsFirm_tokens member .chain fits.1
      · exact (endsFirm_furtherTokens fits.2 empty).append _

end Ends

section Standard

/-- The rules that apply by default are none of the caller's. -/
theorem customless_standard :
    Customless ArgumentRules.standard := by
  intro key read found
  obtain ⟨entry, isEntry, same⟩ := Option.map_eq_some_iff.mp found
  have member := List.mem_of_find?_eq_some isEntry
  simp only [ArgumentRules.standard, List.mem_append, List.mem_map] at member
  rcases member with ⟨_, _, shape⟩ | ⟨_, _, shape⟩ <;>
  · rw [← shape] at same
    cases same

/-- White space is no letter. -/
theorem isAlpha_of_isWhiteSpace
    {char : Char}
    (white : isWhiteSpace char = true) :
    char.isAlpha = false := by
  rw [Bool.eq_false_iff]
  intro letter
  rw [Lexer.isAlpha_iff] at letter
  simp only [isWhiteSpace, Bool.or_eq_true, Bool.and_eq_true, decide_eq_true_eq, beq_iff_eq]
    at white
  have code : char.val.toNat = char.toNat := rfl
  omega

end Standard

section Reading

variable {rules : ArgumentRules} {members : List Selector}

/-- A text is read exactly if it is cut into tokens and they are read. -/
theorem parse_eq_ok_iff
    {text : String} :
    parse rules text = .ok members ↔
      ∃ tokens, Lexer.run (Lexer.normalize text.toList) = ⟨tokens, none, []⟩ ∧
        (parseTokens rules tokens).outcome = .ok members := by
  rw [parse, parseReading, Reading.noticing]
  constructor
  · intro read
    cases cut : tokenize text with
    | error error => simp [cut, Reading.failure] at read
    | ok tokens =>
        rw [cut] at read
        exact ⟨tokens, tokenize_eq_ok_iff.mp cut, read⟩
  · rintro ⟨tokens, cut, read⟩
    rw [tokenize_eq_ok_iff.mpr cut]
    exact read

/-- What is known of a list that has been read from a text. -/
structure HasBeenRead (rules : ArgumentRules) (members : List Selector) (source : List Char)
    (tokens : List Token) : Prop where
  scanned :
    Scanned source tokens
  fits :
    FitsList rules members
  respelled :
    Respelled tokens (listTokens members)
  wellFormed :
    AllWellFormed (listTokens members)

/-- A text that is read gives tokens that fit, are well-formed and respell the selectors. -/
theorem hasBeenRead
    (customless : Customless rules)
    {text : String}
    (read : parse rules text = .ok members) :
    ∃ tokens, HasBeenRead rules members (Lexer.normalize text.toList) tokens := by
  obtain ⟨tokens, cut, readTokens⟩ := parse_eq_ok_iff.mp read
  have scanned :
      Scanned (Lexer.normalize text.toList) (Lexer.run (Lexer.normalize text.toList)).tokens :=
    Scanned.ofRun (by rw [cut])
  rw [cut] at scanned
  have wellFormed := scanned.wellFormed (unified_unifyBreaks _)
  obtain ⟨fits, respelled⟩ :=
    readsShape_parseTokens customless tokens members wellFormed readTokens
  exact ⟨tokens, scanned, fits, respelled, respelled.allWellFormed wellFormed⟩

/-- Tokens that stand apart are read from what is written for them, if nothing is trimmed. -/
theorem parse_listChars
    {tokens : List Token}
    (wellFormed : AllWellFormed tokens)
    (isLegible : legible tokens = true)
    (untrimmed : trim (Token.listChars tokens) = Token.listChars tokens)
    (read : (parseTokens rules tokens).outcome = .ok members) :
    parse rules (String.ofList (Token.listChars tokens)) = .ok members := by
  refine parse_eq_ok_iff.mpr ⟨tokens, ?_, read⟩
  rw [String.toList_ofList, Lexer.normalize, untrimmed,
    unifyBreaks_of_settled (settled_listChars wellFormed)]
  exact run_listChars_of_legible wellFormed isLegible

/-- What is written for a list is read as the list where its tokens are legible. -/
theorem parse_of_legible
    (fits : FitsList rules members)
    (wellFormed : AllWellFormed (listTokens members))
    (isLegible : legible (listTokens members) = true)
    (untrimmed :
      trim (Token.listChars (listTokens members)) = Token.listChars (listTokens members)) :
    parse rules (String.ofList (Token.listChars (listTokens members))) = .ok members := by
  refine parse_listChars wellFormed isLegible untrimmed ?_
  rw [parseTokens_listTokens fits]
  rfl

/-- A written text that is read as the list holds no comment, and nothing is dropped at its ends. -/
theorem untrimmed_of_read
    {written tokens : List Token}
    (wellFormed : AllWellFormed written)
    (starts : written.head? ≠ some .whitespace)
    (ends : written = [] ∨ EndsFirm written)
    (respelled : Respelled tokens written)
    (scanned : Scanned (Lexer.normalize (Token.listChars written)) tokens) :
    trim (Token.listChars written) = Token.listChars written ∧
      Spelt (Token.listChars written) tokens := by
  have counted : ∀ {char : Char}, char ∉ marks → char ≠ ' ' → char.isAlpha = false →
      (Token.listChars written).count char ≤ (contents tokens).count char := by
    intro char notMark notSpace notLetter
    rw [count_listChars notMark notSpace]
    exact respelled.count_contents_le notLetter
  have settled : Settled (trim (Token.listChars written)) := by
    obtain ⟨leading, trailing, shape, _, _⟩ := trim_cases (Token.listChars written)
    intro char member
    refine settled_listChars wellFormed char ?_
    rw [shape]
    exact List.mem_append_left _ (List.mem_append_right _ member)
  rw [Lexer.normalize, unifyBreaks_of_settled settled] at scanned
  have escaped : EndsEscaped (Token.listChars written) := by
    rcases ends with none | ⟨init, last, shape, firm⟩
    · rw [none]
      exact EndsEscaped.nil
    · rw [shape] at wellFormed ⊢
      exact endsEscaped_listChars wellFormed firm
  have untrimmed := trim_listChars wellFormed starts escaped scanned.closed
    fun char white notSpace =>
      Nat.le_trans (counted (notMem_marks white) notSpace (isAlpha_of_isWhiteSpace white))
        (scanned.sublist.count_le char)
  refine ⟨untrimmed, ?_⟩
  rw [untrimmed] at scanned
  rcases scanned.spelt with spelt | fewer
  · exact spelt
  · have stars : (Token.listChars written).count '*' ≤ (contents tokens).count '*' :=
      counted (by decide) (by decide) (by decide)
    omega

/-- A list that is read back has legible tokens, and nothing is dropped at its ends. -/
theorem legible_of_parse
    (customless : Customless rules)
    (read : parse rules (String.ofList (Token.listChars (listTokens members))) = .ok members) :
    legible (listTokens members) = true ∧
      trim (Token.listChars (listTokens members)) = Token.listChars (listTokens members) := by
  obtain ⟨tokens, again⟩ := hasBeenRead customless read
  have scanned := again.scanned
  rw [String.toList_ofList] at scanned
  obtain ⟨starts, ends⟩ := endsFirm_listTokens again.fits
  have endsWritten : listTokens members = [] ∨ EndsFirm (listTokens members) :=
    ends.imp_left fun none => by rw [none, listTokens]
  obtain ⟨untrimmed, spelt⟩ :=
    untrimmed_of_read again.wellFormed starts endsWritten again.respelled scanned
  exact ⟨(again.respelled.eq_of_spelt again.wellFormed spelt).2, untrimmed⟩

/--
A list that has been read can be written, and what is written is read as the
same list exactly if its tokens are legible and nothing is dropped at its ends.
-/
theorem roundTrip_iff
    {source : String}
    (read : parse .standard source = .ok members) :
    ∃ text, listText noCustom members = .ok text ∧
      (parse .standard text = .ok members ↔
        legible (listTokens members) = true ∧ trim text.toList = text.toList) := by
  obtain ⟨tokens, known⟩ := hasBeenRead customless_standard read
  refine ⟨String.ofList (Token.listChars (listTokens members)), ?_, ?_⟩
  · rw [listText, listChars_eq noCustom members known.fits]
    rfl
  · rw [String.toList_ofList]
    constructor
    · exact legible_of_parse customless_standard
    · rintro ⟨isLegible, untrimmed⟩
      exact parse_of_legible known.fits known.wellFormed isLegible untrimmed

/-- Kept tokens that only a comment separates run together when they are written. -/
theorem roundTrip_iff_comment :
    parse .standard ":x(a/**/b)" =
        .ok [.pseudo .pseudoClass "x" (.raw [.ident "a", .ident "b"])] ∧
      ∃ text, listText noCustom [.pseudo .pseudoClass "x" (.raw [.ident "a", .ident "b"])] =
          .ok text ∧
        (parse .standard text = .ok [.pseudo .pseudoClass "x" (.raw [.ident "a", .ident "b"])] ↔
          legible (listTokens [.pseudo .pseudoClass "x" (.raw [.ident "a", .ident "b"])]) = true ∧
            trim text.toList = text.toList) :=
  have read : parse .standard ":x(a/**/b)" =
      .ok [.pseudo .pseudoClass "x" (.raw [.ident "a", .ident "b"])] := by
    cbv
  ⟨read, roundTrip_iff read⟩

/-- Two names that a comment keeps apart run together when they are written. -/
theorem not_roundTrip_comment :
    ¬ ∀ source members, parse .standard source = .ok members →
      ∃ text, listText noCustom members = .ok text ∧ parse .standard text = .ok members := by
  intro always
  have read : parse .standard ":x(a/**/b)" =
      .ok [.pseudo .pseudoClass "x" (.raw [.ident "a", .ident "b"])] := by
    cbv
  have written : listText noCustom [.pseudo .pseudoClass "x" (.raw [.ident "a", .ident "b"])] =
      .ok ":x(ab)" := by
    cbv
  have readAgain : parse .standard ":x(ab)" =
      .ok [.pseudo .pseudoClass "x" (.raw [.ident "ab"])] := by
    cbv
  obtain ⟨text, same, again⟩ := always _ _ read
  cases written.symm.trans same
  exact absurd (Except.ok.inj (readAgain.symm.trans again)) (by simp)

end Reading

end TreeSelectors.Selector
