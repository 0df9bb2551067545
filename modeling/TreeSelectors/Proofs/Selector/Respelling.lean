import TreeSelectors.Proofs.Token.Runs
import TreeSelectors.Selector.Basic

namespace TreeSelectors

/-!
# Tokens read and tokens written

What is written for a selector is not always what it has been read from: blanks
are added and left out, values are quoted, flags are written in lower case, and
a bracket that the end of the text has closed is written. `Respelled` relates
the tokens read to those written. If the written text is read as the tokens
that it respells, these are the tokens that were written: `eq_of_spelt`.
-/

open TreeSelectors.Text
open TreeSelectors.Lexer
open TreeSelectors.Token

/-- The second tokens are written for what is read from the first. -/
inductive Respelled : List Token → List Token → Prop where
  | done :
      Respelled [] []
  /-- Tokens that are kept, up to one that is not blank. -/
  | kept
      (tokens : List Token)
      {last : Token}
      {read written : List Token}
      (notBlank : last ≠ .whitespace)
      (later : Respelled read written) :
      Respelled (tokens ++ last :: read) (tokens ++ last :: written)
  /-- Blanks, as they belong between two tokens that are not blank. -/
  | blanks
      {given spaced read written : List Token}
      (onlyBlanks : ∀ token ∈ given, token = .whitespace)
      (atMostOne : spaced = [] ∨ spaced = [.whitespace])
      (readOn : read.head? ≠ some .whitespace)
      (writeOn : written.head? ≠ some .whitespace)
      (later : Respelled read written) :
      Respelled (given ++ read) (spaced ++ written)
  | identifier
      (name : String)
      (kind : HashKind)
      {read written : List Token}
      (later : Respelled read written) :
      Respelled (.hash name kind :: read) (.hash name (hashKind name) :: written)
  | anyNode
      {read written : List Token}
      (later : Respelled read written) :
      Respelled (.ident "*" :: read) (.delim '*' :: written)
  | quoted
      (value : String)
      {read written : List Token}
      (later : Respelled read written) :
      Respelled (.ident value :: read) (.string value :: written)
  | flag
      (modifier : CaseModifier)
      {name : String}
      {read written : List Token}
      (same : asciiLower name = String.singleton modifier.char)
      (later : Respelled read written) :
      Respelled (.ident name :: read) (.ident (String.singleton modifier.char) :: written)
  /-- A bracket that the end of the tokens has closed. -/
  | bracket
      {read written : List Token}
      (notClosed : read.head? ≠ some .rightBracket)
      (later : Respelled read written) :
      Respelled read (.rightBracket :: written)

namespace Respelled

variable {read written : List Token}

theorem cons
    {token : Token}
    (notBlank : token ≠ .whitespace)
    (later : Respelled read written) :
    Respelled (token :: read) (token :: written) :=
  kept [] notBlank later

/-- Tokens in parentheses are respelled on their own. -/
theorem append
    (first : Respelled read written)
    {further behind : List Token}
    (second : Respelled (.rightParen :: further) (.rightParen :: behind)) :
    Respelled (read ++ .rightParen :: further) (written ++ .rightParen :: behind) := by
  have headNe : ∀ {tokens more : List Token} {token : Token}, token ≠ .rightParen →
      tokens.head? ≠ some token → (tokens ++ .rightParen :: more).head? ≠ some token := by
    intro tokens more token different notHead
    cases tokens with
    | nil => simpa using fun same => different same.symm
    | cons head tail => simpa using notHead
  induction first with
  | done => exact second
  | kept tokens notBlank later inductionHypothesis =>
      simpa using kept tokens notBlank inductionHypothesis
  | blanks onlyBlanks atMostOne readOn writeOn later inductionHypothesis =>
      rw [List.append_assoc, List.append_assoc]
      exact blanks onlyBlanks atMostOne (headNe (by simp) readOn) (headNe (by simp) writeOn)
        inductionHypothesis
  | identifier name kind later inductionHypothesis => exact identifier name kind inductionHypothesis
  | anyNode later inductionHypothesis => exact anyNode inductionHypothesis
  | quoted value later inductionHypothesis => exact quoted value inductionHypothesis
  | flag modifier same later inductionHypothesis => exact flag modifier same inductionHypothesis
  | bracket notClosed later inductionHypothesis =>
      exact bracket (headNe (by simp) notClosed) inductionHypothesis

/-- What is written for tokens as they can be read can be read. -/
theorem allWellFormed
    (respelled : Respelled read written)
    (wellFormed : AllWellFormed read) :
    AllWellFormed written := by
  induction respelled with
  | done => exact wellFormed
  | kept tokens notBlank later inductionHypothesis =>
      obtain ⟨kept, behind⟩ := List.forall_mem_append.mp wellFormed
      obtain ⟨last, tail⟩ := List.forall_mem_cons.mp behind
      exact List.forall_mem_append.mpr
        ⟨kept, List.forall_mem_cons.mpr ⟨last, inductionHypothesis tail⟩⟩
  | blanks onlyBlanks atMostOne readOn writeOn later inductionHypothesis =>
      have tail := inductionHypothesis (List.forall_mem_append.mp wellFormed).2
      rcases atMostOne with none | one
      · rw [none]
        exact tail
      · rw [one]
        exact List.forall_mem_cons.mpr ⟨trivial, tail⟩
  | identifier name kind later inductionHypothesis =>
      obtain ⟨head, tail⟩ := List.forall_mem_cons.mp wellFormed
      exact List.forall_mem_cons.mpr ⟨head, inductionHypothesis tail⟩
  | anyNode later inductionHypothesis =>
      obtain ⟨_, tail⟩ := List.forall_mem_cons.mp wellFormed
      exact List.forall_mem_cons.mpr ⟨⟨by decide, by decide⟩, inductionHypothesis tail⟩
  | quoted value later inductionHypothesis =>
      obtain ⟨head, tail⟩ := List.forall_mem_cons.mp wellFormed
      exact List.forall_mem_cons.mpr ⟨head.2, inductionHypothesis tail⟩
  | flag modifier same later inductionHypothesis =>
      obtain ⟨_, tail⟩ := List.forall_mem_cons.mp wellFormed
      refine List.forall_mem_cons.mpr ⟨?_, inductionHypothesis tail⟩
      cases modifier <;> exact ⟨by decide, by decide⟩
  | bracket notClosed later inductionHypothesis =>
      exact List.forall_mem_cons.mpr ⟨trivial, inductionHypothesis wellFormed⟩

/-- Nothing is written that has not been read, letters apart. -/
theorem count_contents_le
    (respelled : Respelled read written)
    {char : Char}
    (notLetter : char.isAlpha = false) :
    (contents written).count char ≤ (contents read).count char := by
  induction respelled with
  | done => exact Nat.le_refl _
  | kept tokens notBlank later inductionHypothesis =>
      simp only [contents, List.flatMap_append, List.flatMap_cons, List.count_append] at *
      omega
  | @blanks given spaced read written onlyBlanks atMostOne readOn writeOn later
      inductionHypothesis =>
      have none : contents spaced = [] := by
        rcases atMostOne with none | one
        · rw [none]
          rfl
        · rw [one]
          rfl
      simp only [contents, List.flatMap_append, List.count_append] at *
      rw [none, List.count_nil]
      omega
  | identifier name kind later inductionHypothesis =>
      simp only [contents, List.flatMap_cons, List.count_append, Token.content] at *
      omega
  | anyNode later inductionHypothesis =>
      simp only [contents, List.flatMap_cons, List.count_append, Token.content] at *
      have one : "*".toList = ['*'] := rfl
      rw [one]
      omega
  | quoted value later inductionHypothesis =>
      simp only [contents, List.flatMap_cons, List.count_append, Token.content] at *
      omega
  | flag modifier same later inductionHypothesis =>
      have none : (String.singleton modifier.char).toList.count char = 0 := by
        rw [String.toList_singleton, List.count_eq_zero, List.mem_singleton]
        intro same
        rw [same] at notLetter
        cases modifier <;> exact absurd notLetter (by decide)
      simp only [contents, List.flatMap_cons, List.count_append, Token.content] at *
      omega
  | bracket notClosed later inductionHypothesis =>
      exact inductionHypothesis

/-- A flag is read as a name of one letter only, which ends behind it. -/
theorem flag_of_token?
    (modifier : CaseModifier)
    {name : String}
    (same : asciiLower name = String.singleton modifier.char)
    {rest behind : List Char}
    (read : token? (modifier.char :: rest) = some (.ident name, behind)) :
    name = String.singleton modifier.char := by
  have written : escapeIdentChars [modifier.char] ++ rest = modifier.char :: rest := by
    cases modifier <;> rfl
  have noBreak : NoBreak [modifier.char] := by
    cases modifier <;> exact List.forall_mem_singleton.mpr (by decide)
  rw [← written, token?_escapeIdentChars (by simp) noBreak, scanIdentLike_eq_ident_iff,
    scanName_escapeIdentChars noBreak] at read
  obtain ⟨more, _, shape⟩ := Scan.outcome_map_eq_ok.mp (congrArg Scan.outcome read.1)
  have lowered := congrArg String.toList same
  rw [asciiLower, String.toList_map, ← shape, String.toList_singleton] at lowered
  have none : more = [] := by
    simp only [List.singleton_append, List.map_cons, List.cons.injEq,
      List.map_eq_nil_iff] at lowered
    exact lowered.2
  rw [none, List.append_nil] at shape
  refine String.toList_injective (shape.symm.trans ?_)
  cases modifier <;> rfl

/-- Blanks are read where one is written, and nowhere else. -/
theorem blanks_of_spelt
    {given spaced : List Token}
    (onlyBlanks : ∀ token ∈ given, token = .whitespace)
    (atMostOne : spaced = [] ∨ spaced = [.whitespace])
    (readOn : read.head? ≠ some .whitespace)
    (writeOn : written.head? ≠ some .whitespace)
    (wellFormed : AllWellFormed written)
    (spelt : Spelt (listChars (spaced ++ written)) (given ++ read)) :
    given = spaced ∧ Spelt (listChars written) read ∧
      (legible written = true → legible (spaced ++ written) = true) := by
  obtain ⟨noBlank, same⟩ := dropWhile_isBlank_listChars wellFormed writeOn
  -- What is read where nothing blank is written starts with nothing blank.
  have noneGiven : ∀ {more : List Token}, (∀ token ∈ more, token = .whitespace) →
      Spelt (listChars written) (more ++ read) → more = [] := by
    intro more onlyBlanks speltMore
    cases more with
    | nil => rfl
    | cons token more =>
        have blank := isBlank_of_spelt speltMore (by simp [onlyBlanks token])
        rw [noBlank] at blank
        exact absurd blank (by simp)
  rcases atMostOne with none | one
  · subst none
    have noGiven := noneGiven onlyBlanks spelt
    subst noGiven
    exact ⟨rfl, spelt, id⟩
  · subst one
    cases given with
    | nil =>
        obtain ⟨others, starts, _⟩ := spelt.startsWith (token?_whitespace_iff.mpr rfl)
        exact absurd (congrArg List.head? starts) readOn
    | cons token given =>
        obtain ⟨head, others⟩ := List.forall_mem_cons.mp onlyBlanks
        subst head
        have speltBehind : Spelt ((listChars written).dropWhile isBlank) (given ++ read) :=
          spelt_whitespace spelt
        rw [same] at speltBehind
        have noMore := noneGiven others speltBehind
        subst noMore
        refine ⟨rfl, speltBehind, fun legibleBehind => ?_⟩
        rw [List.singleton_append, legible_cons, legibleBehind, standsApart_whitespace_iff.mpr same]
        rfl

/--
If what is written is read as the tokens that it respells, these are the tokens
that were written, and they are legible.
-/
theorem eq_of_spelt
    (respelled : Respelled read written)
    (wellFormed : AllWellFormed written)
    (spelt : Spelt (listChars written) read) :
    read = written ∧ legible written = true := by
  induction respelled with
  | done => exact ⟨rfl, rfl⟩
  | @kept tokens last read written notBlank later inductionHypothesis =>
      obtain ⟨_, behind⟩ := List.forall_mem_append.mp wellFormed
      obtain ⟨_, tail⟩ := List.forall_mem_cons.mp behind
      obtain ⟨first, speltBehind⟩ := spelt_append notBlank wellFormed spelt
      obtain ⟨same, legibleBehind⟩ := inductionHypothesis tail speltBehind
      refine ⟨by rw [same], ?_⟩
      have split : tokens ++ last :: written = (tokens ++ [last]) ++ written := by simp
      rw [legible, split, legibleBefore_append, List.append_nil, first]
      exact legibleBehind
  | blanks onlyBlanks atMostOne readOn writeOn later inductionHypothesis =>
      have tail := (List.forall_mem_append.mp wellFormed).2
      obtain ⟨given, speltBehind, legibleBefore⟩ :=
        blanks_of_spelt onlyBlanks atMostOne readOn writeOn tail spelt
      obtain ⟨same, legibleBehind⟩ := inductionHypothesis tail speltBehind
      exact ⟨by rw [given, same], legibleBefore legibleBehind⟩
  | identifier name kind later inductionHypothesis =>
      obtain ⟨head, tail⟩ := List.forall_mem_cons.mp wellFormed
      have hashed : (Token.hash name kind).WellFormed := head
      obtain ⟨apart, speltBehind⟩ :=
        spelt_cons hashed (by simp) (not_startsBroken_listChars tail) spelt
      have kindSame : kind = hashKind name := by
        simp only [standsApart, Bool.and_eq_true, beq_iff_eq] at apart
        exact apart.2
      subst kindSame
      obtain ⟨same, legibleBehind⟩ := inductionHypothesis tail speltBehind
      exact ⟨by rw [same], by rw [legible_cons, apart, legibleBehind]; rfl⟩
  | @anyNode read written later inductionHypothesis =>
      have star : token? ('*' :: listChars written) = some (.delim '*', listChars written) :=
        (token?_delim_iff (by decide)).mpr ⟨by rfl, rfl⟩
      obtain ⟨others, starts, _⟩ := spelt.startsWith star
      cases starts
  | quoted value later inductionHypothesis =>
      obtain ⟨head, _⟩ := List.forall_mem_cons.mp wellFormed
      obtain ⟨others, starts, _⟩ := spelt.startsWith (token?_string (Settled.noBreak head))
      cases starts
  | @flag modifier name read written same later inductionHypothesis =>
      obtain ⟨head, tail⟩ := List.forall_mem_cons.mp wellFormed
      have nameSame : name = String.singleton modifier.char := by
        obtain ⟨behind, starts, _⟩ := spelt_cons_iff.mp spelt
        have fromLetter : token? (modifier.char :: listChars written) =
            some (.ident name, behind) := by
          cases modifier <;> exact starts
        exact flag_of_token? modifier same fromLetter
      subst nameSame
      obtain ⟨apart, speltBehind⟩ :=
        spelt_cons head (by simp) (not_startsBroken_listChars tail) spelt
      obtain ⟨readSame, legibleBehind⟩ := inductionHypothesis tail speltBehind
      exact ⟨by rw [readSame], by rw [legible_cons, apart, legibleBehind]; rfl⟩
  | bracket notClosed later inductionHypothesis =>
      obtain ⟨others, starts, _⟩ := spelt.startsWith (token?_punctuation (by rfl))
      exact absurd (congrArg List.head? starts) notClosed

end Respelled

end TreeSelectors
