import TreeSelectors.Proofs.Token.Contents

namespace TreeSelectors

/-!
# Whole texts, cut into tokens

A text without comments is spelt by its tokens, one behind the other: `Spelt`.
Every text that is cut up without an error is, or it holds two stars more than
its tokens do: `Scanned`. Legible tokens are what their text is cut into.
-/

open TreeSelectors.Text

namespace Lexer

/-- A text is cut into tokens, and nothing else stands in it. -/
inductive Spelt : List Char → List Token → Prop where
  | done : Spelt [] []
  | token
      {text behind : List Char}
      {token : Token}
      {tokens : List Token}
      (read : token? text = some (token, behind))
      (later : Spelt behind tokens) :
      Spelt text (token :: tokens)

theorem spelt_cons_iff
    {text : List Char}
    {token : Token}
    {tokens : List Token} :
    Spelt text (token :: tokens) ↔
      ∃ behind, token? text = some (token, behind) ∧ Spelt behind tokens := by
  constructor
  · intro spelt
    cases spelt with
    | token read later => exact ⟨_, read, later⟩
  · rintro ⟨behind, read, later⟩
    exact Spelt.token read later

/-- What a text starts with is the first of its tokens. -/
theorem Spelt.startsWith
    {text behind : List Char}
    {token : Token}
    {tokens : List Token}
    (spelt : Spelt text tokens)
    (read : token? text = some (token, behind)) :
    ∃ later, tokens = token :: later ∧ Spelt behind later := by
  cases spelt with
  | done => simp [token?] at read
  | @token text otherBehind other later otherRead speltLater =>
      rw [otherRead] at read
      cases read
      exact ⟨later, rfl, speltLater⟩

/-- The characters that tokens keep. -/
def contents (tokens : List Token) : List Char :=
  tokens.flatMap Token.content

/-- What is known of the tokens that a text has been cut into without an error. -/
structure Scanned (text : List Char) (tokens : List Token) : Prop where
  sublist :
    (contents tokens).Sublist text
  closed :
    escapesClosed text = true
  wellFormed :
    Unified text → Token.AllWellFormed tokens
  spelt :
    Spelt text tokens ∨ (contents tokens).count '*' < text.count '*'

theorem token?_eq_some_iff
    {char : Char}
    {rest behind : List Char}
    {token : Token} :
    token? (char :: rest) = some (token, behind) ↔
      (step char rest).outcome = .ok (some token) ∧ (step char rest).rest = behind := by
  rw [token?]
  obtain ⟨outcome, left⟩ := step char rest
  rcases outcome with error | (none | found) <;> simp

theorem spells_of_token?
    {text rest : List Char}
    {token : Token}
    (read : token? text = some (token, rest)) :
    Spells text token rest := by
  cases text with
  | nil => simp [token?] at read
  | cons char others =>
      obtain ⟨outcome, kept⟩ := token?_eq_some_iff.mp read
      rw [← kept]
      exact spells_step outcome

/-- A text that is cut into blanks and more starts with a blank. -/
theorem isBlank_of_spelt
    {text : List Char}
    {tokens : List Token}
    (spelt : Spelt text tokens)
    (starts : tokens.head? = some .whitespace) :
    text.head?.any isBlank = true := by
  cases spelt with
  | done => simp at starts
  | @token text behind token tokens read later =>
      simp only [List.head?_cons, Option.some.injEq] at starts
      subst starts
      obtain ⟨front, shape, nonempty, spelling⟩ := spells_of_token? read
      subst shape
      cases spelling with
      | whitespace blanks _ =>
          obtain ⟨first, others, same⟩ := List.exists_cons_of_ne_nil nonempty
          subst same
          exact blanks first List.mem_cons_self
      | punctuation punctuation =>
          unfold punctuation? at punctuation
          split at punctuation <;> cases punctuation

/-- A run is a step and the run behind it. -/
theorem run_cons
    (char : Char)
    (rest : List Char) :
    run (char :: rest) =
      match (step char rest).outcome with
      | .ok token? => (run (step char rest).rest).precededBy token?
      | .error error => ⟨[], some error, (step char rest).rest⟩ :=
  (run.eq_def (char :: rest)).trans rfl

theorem run_of_token?
    {text behind : List Char}
    {token : Token}
    (read : token? text = some (token, behind)) :
    run text = (run behind).precededBy (some token) := by
  cases text with
  | nil => simp [token?] at read
  | cons char rest =>
      obtain ⟨outcome, kept⟩ := token?_eq_some_iff.mp read
      rw [run_cons, outcome, kept]

/-- A run without an error reaches the end of the text. -/
theorem rest_run_of_noError
    {text : List Char}
    (noError : (run text).error? = none) :
    (run text).rest = [] := by
  induction text using run.induct with
  | case1 => rw [run_nil]
  | case2 char rest token? read inductionHypothesis =>
      rw [run_cons, read] at noError ⊢
      cases token? with
      | none => exact inductionHypothesis noError
      | some token => exact inductionHypothesis noError
  | case3 char rest error read =>
      rw [run_cons, read] at noError
      exact absurd noError (by simp)

theorem Scanned.ofRun
    {text : List Char}
    (noError : (run text).error? = none) :
    Scanned text (run text).tokens := by
  induction text using run.induct with
  | case1 =>
      rw [run_nil]
      exact ⟨List.Sublist.refl [], rfl, fun _ => List.forall_mem_nil _, Or.inl Spelt.done⟩
  | case2 char rest token? read inductionHypothesis =>
      rw [run_cons, read] at noError ⊢
      cases token? with
      | none =>
          have comment := taken_step_comment read
          have later := inductionHypothesis noError
          have kept := (later.sublist.append_left ['*', '*']).trans comment.sublist
          refine ⟨?_, comment.closed.trans later.closed, ?_, Or.inr ?_⟩
          · exact (List.sublist_append_right _ _).trans kept
          · exact fun unified => later.wellFormed (unified_of_taken unified comment)
          · have more := kept.count_le '*'
            simp only [List.count_append] at more
            have two : ['*', '*'].count '*' = 2 := rfl
            show (contents (run (step char rest).rest).tokens).count '*' < _
            omega
      | some token =>
          have cut := cut_step read
          have later := inductionHypothesis noError
          have kept := (later.sublist.append_left token.content).trans cut.taken.sublist
          refine ⟨kept, cut.taken.closed.trans later.closed, ?_, ?_⟩
          · intro unified
            exact List.forall_mem_cons.mpr ⟨cut.wellFormed unified,
              later.wellFormed (unified_of_taken unified cut.taken)⟩
          · rcases later.spelt with spelt | fewer
            · exact Or.inl (Spelt.token (token?_eq_some_iff.mpr ⟨read, rfl⟩) spelt)
            · apply Or.inr
              have more := cut.taken.sublist.count_le '*'
              simp only [List.count_append] at more
              show (token.content ++ contents (run (step char rest).rest).tokens).count '*' < _
              rw [List.count_append]
              omega
  | case3 char rest error read =>
      rw [run_cons, read] at noError
      exact absurd noError (by simp)

end Lexer

namespace Token

open TreeSelectors.Lexer

/-- Whether every written token stands apart from what is written behind it and from a text. -/
def legibleBefore (text : List Char) : List Token → Bool
  | [] => true
  | token :: rest => token.standsApart (listChars rest ++ text) && legibleBefore text rest

/-- Whether every written token stands apart from what is written behind it. -/
def legible (tokens : List Token) : Bool :=
  legibleBefore [] tokens

theorem legible_cons
    (token : Token)
    (rest : List Token) :
    legible (token :: rest) = (token.standsApart (listChars rest) && legible rest) := by
  simp [legible, legibleBefore]

theorem legibleBefore_append
    (left right : List Token)
    (text : List Char) :
    legibleBefore text (left ++ right) =
      (legibleBefore (listChars right ++ text) left && legibleBefore text right) := by
  induction left with
  | nil => rfl
  | cons token left inductionHypothesis =>
      simp [legibleBefore, inductionHypothesis, Bool.and_assoc]

/-- Legible tokens are what is read of what is written for them. -/
theorem run_listChars_of_legible
    {tokens : List Token}
    (wellFormed : AllWellFormed tokens)
    (isLegible : legible tokens = true) :
    Lexer.run (listChars tokens) = ⟨tokens, none, []⟩ := by
  induction tokens with
  | nil => exact run_nil
  | cons token rest inductionHypothesis =>
      obtain ⟨head, tail⟩ := List.forall_mem_cons.mp wellFormed
      rw [legible_cons, Bool.and_eq_true] at isLegible
      have read := token?_of_standsApart head (not_startsBroken_listChars tail) isLegible.1
      rw [listChars_cons, run_of_token? read, inductionHypothesis tail isLegible.2]
      rfl

/-- Where a written token is read back, it stands apart and reading goes on behind it. -/
theorem spelt_cons
    {token : Token}
    {rest : List Char}
    {tokens : List Token}
    (wellFormed : token.WellFormed)
    (notBlank : token ≠ .whitespace)
    (unbroken : ¬ StartsBroken rest)
    (spelt : Spelt (token.chars ++ rest) (token :: tokens)) :
    token.standsApart rest = true ∧ Spelt rest tokens := by
  obtain ⟨behind, read, later⟩ := spelt_cons_iff.mp spelt
  obtain ⟨apart, same⟩ := (token?_chars_iff wellFormed notBlank unbroken).mp read
  exact ⟨apart, same ▸ later⟩

theorem spelt_whitespace
    {rest : List Char}
    {tokens : List Token}
    (spelt : Spelt (' ' :: rest) (.whitespace :: tokens)) :
    Spelt (rest.dropWhile isBlank) tokens := by
  obtain ⟨behind, read, later⟩ := spelt_cons_iff.mp spelt
  exact token?_whitespace_iff.mp read ▸ later

/-- Blanks end before a token that is not blank, so that two of them are never read in a row. -/
theorem head?_ne_whitespace_of_spelt
    {text : List Char}
    {tokens : List Token}
    (spelt : Spelt (text.dropWhile isBlank) tokens) :
    tokens.head? ≠ some .whitespace := by
  intro blank
  have starts := isBlank_of_spelt spelt blank
  have notBlank := List.head?_dropWhile_not isBlank text
  cases first : (text.dropWhile isBlank).head? with
  | none => simp [first] at starts
  | some char =>
      simp only [first, Option.any_some] at starts notBlank
      exact absurd starts (by simpa using notBlank)

/-- Tokens that are read back as they were written, up to one that is not blank. -/
theorem spelt_append
    {last : Token}
    (notBlank : last ≠ .whitespace)
    {kept written read : List Token}
    (wellFormed : AllWellFormed (kept ++ last :: written))
    (spelt : Spelt (listChars (kept ++ last :: written)) (kept ++ last :: read)) :
    legibleBefore (listChars written) (kept ++ [last]) = true ∧
      Spelt (listChars written) read := by
  induction kept with
  | nil =>
      obtain ⟨head, tail⟩ := List.forall_mem_cons.mp wellFormed
      have apart := spelt_cons head notBlank (not_startsBroken_listChars tail) spelt
      refine ⟨?_, apart.2⟩
      simp [legibleBefore, apart.1]
  | cons token kept inductionHypothesis =>
      obtain ⟨head, tail⟩ := List.forall_mem_cons.mp wellFormed
      rw [List.cons_append, List.cons_append, listChars_cons] at spelt
      have apart : token.standsApart (listChars (kept ++ last :: written)) = true ∧
          Spelt (listChars (kept ++ last :: written)) (kept ++ last :: read) := by
        by_cases blank : token = .whitespace
        · subst blank
          have later := spelt_whitespace spelt
          have readOn := head?_ne_whitespace_of_spelt later
          have writeOn : (kept ++ last :: written).head? ≠ some .whitespace := by
            cases kept with
            | nil => simpa using notBlank
            | cons next kept => simpa using readOn
          have same := (dropWhile_isBlank_listChars tail writeOn).2
          exact ⟨standsApart_whitespace_iff.mpr same, same ▸ later⟩
        · exact spelt_cons head blank (not_startsBroken_listChars tail) spelt
      obtain ⟨later, behind⟩ := inductionHypothesis tail apart.2
      refine ⟨?_, behind⟩
      rw [List.cons_append, legibleBefore, later, Bool.and_true]
      simpa using apart.1

end Token

/-- A text is cut into tokens exactly if the run over it meets no error. -/
theorem tokenize_eq_ok_iff
    {text : String}
    {tokens : List Token} :
    tokenize text = .ok tokens ↔
      Lexer.run (Lexer.normalize text.toList) = ⟨tokens, none, []⟩ := by
  have ends := @Lexer.rest_run_of_noError (Lexer.normalize text.toList)
  simp only [tokenize, Tokenizer.run, Tokenizer.start, List.nil_append]
  generalize Lexer.run (Lexer.normalize text.toList) = result at ends
  obtain ⟨read, error?, rest⟩ := result
  cases error? with
  | none =>
      have nothingLeft : rest = [] := ends rfl
      simp [nothingLeft]
  | some error => simp

end TreeSelectors
