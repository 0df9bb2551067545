import TreeSelectors.Proofs.Token.Edges

namespace TreeSelectors

/-!
# What normalising keeps of a text

Unifying line breaks replaces single characters and pairs of them, one after the
other: `unifyBreaks_induction`. So a normalised text has no white space at its
ends, and neither a comment nor white space outside ASCII that was not there
before.
-/

open TreeSelectors.Text

namespace Lexer

/-- What is replaced when line breaks are unified, and by what. -/
def replacements : List (List Char × Char) :=
  [(['\r', '\n'], '\n'), (['\r'], '\n'), (['\x0C'], '\n'), (['\x00'], '\uFFFD')]

/-- Unifying line breaks keeps a character or replaces something at the front of a text. -/
theorem unifyBreaks_induction
    {motive : List Char → List Char → Prop}
    (nil : motive [] [])
    (kept : ∀ char rest, motive rest (unifyBreaks rest) →
      motive (char :: rest) (char :: unifyBreaks rest))
    (replaced : ∀ entry ∈ replacements, ∀ rest, motive rest (unifyBreaks rest) →
      motive (entry.1 ++ rest) (entry.2 :: unifyBreaks rest))
    (text : List Char) :
    motive text (unifyBreaks text) := by
  induction text using unifyBreaks.induct with
  | case1 => exact nil
  | case2 rest inductionHypothesis =>
      rw [unifyBreaks]
      exact replaced (['\r', '\n'], '\n') (by decide) rest inductionHypothesis
  | case3 rest _ inductionHypothesis =>
      rw [unifyBreaks]
      · exact replaced (['\r'], '\n') (by decide) rest inductionHypothesis
      · assumption
  | case4 rest inductionHypothesis =>
      rw [unifyBreaks]
      exact replaced (['\x0C'], '\n') (by decide) rest inductionHypothesis
  | case5 rest inductionHypothesis =>
      rw [unifyBreaks]
      exact replaced (['\x00'], '\uFFFD') (by decide) rest inductionHypothesis
  | case6 char rest _ _ _ _ inductionHypothesis =>
      rw [unifyBreaks]
      · exact kept char rest inductionHypothesis
      all_goals assumption

theorem mem_unifyBreaks
    (text : List Char) :
    ∀ char ∈ unifyBreaks text, char ∈ text ∨ char = '\n' ∨ char = '\uFFFD' := by
  refine unifyBreaks_induction (motive := fun text unified =>
    ∀ char ∈ unified, char ∈ text ∨ char = '\n' ∨ char = '\uFFFD') ?_ ?_ ?_ text
  · exact List.forall_mem_nil _
  · intro first rest later
    refine List.forall_mem_cons.mpr ⟨Or.inl List.mem_cons_self, fun char member => ?_⟩
    exact (later char member).imp_left (List.mem_cons_of_mem first)
  · intro entry isEntry rest later
    have known : ∀ entry ∈ replacements, entry.2 = '\n' ∨ entry.2 = '\uFFFD' := by
      decide
    refine List.forall_mem_cons.mpr ⟨Or.inr (known entry isEntry), fun char member => ?_⟩
    exact (later char member).imp_left (List.mem_append_right entry.1)

/-- White space at the front is there before line breaks are unified. -/
theorem head?_unifyBreaks
    {text : List Char}
    (solid : ∀ char ∈ text.head?, isWhiteSpace char = false) :
    ∀ char ∈ (unifyBreaks text).head?, isWhiteSpace char = false := by
  revert solid
  refine unifyBreaks_induction (motive := fun text unified =>
    (∀ char ∈ text.head?, isWhiteSpace char = false) →
      ∀ char ∈ unified.head?, isWhiteSpace char = false) ?_ ?_ ?_ text
  · exact fun solid => solid
  · exact fun first rest _ solid => solid
  · intro entry isEntry rest _ solid
    have known : ∀ entry ∈ replacements, isWhiteSpace entry.2 = true →
        entry.1.head?.any isWhiteSpace = true := by
      decide
    intro char isFirst
    rw [List.head?_cons, Option.mem_some_iff] at isFirst
    rw [← isFirst, Bool.eq_false_iff]
    intro white
    obtain ⟨first, isHead, firstWhite⟩ :=
      (Option.any_eq_true _ _).mp (known entry isEntry white)
    rw [solid first (by rw [List.head?_append, isHead]; rfl)] at firstWhite
    exact absurd firstWhite (by simp)

theorem eq_nil_of_unifyBreaks
    {text : List Char}
    (nothing : unifyBreaks text = []) :
    text = [] := by
  revert nothing
  refine unifyBreaks_induction (motive := fun text unified => unified = [] → text = [])
    ?_ ?_ ?_ text
  · exact id
  · exact fun _ _ _ some => absurd some (by simp)
  · exact fun _ _ _ _ some => absurd some (by simp)

/-- White space at the end is there before line breaks are unified. -/
theorem getLast?_unifyBreaks
    {text : List Char}
    (solid : ∀ char ∈ text.getLast?, isWhiteSpace char = false) :
    ∀ char ∈ (unifyBreaks text).getLast?, isWhiteSpace char = false := by
  -- What is put in front changes the end of a text only where the text is empty.
  have step : ∀ {front rest : List Char} {first : Char},
      (isWhiteSpace first = true → ∃ last ∈ front.getLast?, isWhiteSpace last = true) →
      ((∀ char ∈ rest.getLast?, isWhiteSpace char = false) →
        ∀ char ∈ (unifyBreaks rest).getLast?, isWhiteSpace char = false) →
      (∀ char ∈ (front ++ rest).getLast?, isWhiteSpace char = false) →
        ∀ char ∈ (first :: unifyBreaks rest).getLast?, isWhiteSpace char = false := by
    intro front rest first known later solid char isLast
    rw [List.getLast?_cons, Option.mem_some_iff] at isLast
    cases ends : (unifyBreaks rest).getLast? with
    | none =>
        have nothing := eq_nil_of_unifyBreaks (List.getLast?_eq_none_iff.mp ends)
        rw [ends, Option.getD_none] at isLast
        rw [nothing, List.append_nil] at solid
        rw [← isLast, Bool.eq_false_iff]
        intro white
        obtain ⟨last, inFront, lastWhite⟩ := known white
        rw [solid last inFront] at lastWhite
        exact absurd lastWhite (by simp)
    | some last =>
        rw [ends, Option.getD_some] at isLast
        refine later (fun other inRest => solid other ?_) char (by rw [ends, isLast]; rfl)
        rw [List.getLast?_append, inRest]
        rfl
  revert solid
  refine unifyBreaks_induction (motive := fun text unified =>
    (∀ char ∈ text.getLast?, isWhiteSpace char = false) →
      ∀ char ∈ unified.getLast?, isWhiteSpace char = false) ?_ ?_ ?_ text
  · exact fun solid => solid
  · intro first rest later
    have known : isWhiteSpace first = true →
        ∃ last ∈ [first].getLast?, isWhiteSpace last = true :=
      fun white => ⟨first, rfl, white⟩
    exact step known later
  · intro entry isEntry rest later
    have known : ∀ entry ∈ replacements, isWhiteSpace entry.2 = true →
        entry.1.getLast?.any isWhiteSpace = true := by
      decide
    exact step (fun white => (Option.any_eq_true _ _).mp (known entry isEntry white)) later

/-- Two characters that replace nothing stand together only where they did before. -/
theorem noPair_unifyBreaks
    {first second : Char}
    (kept : ∀ entry ∈ replacements, entry.2 ≠ first ∧ entry.2 ≠ second)
    {text : List Char}
    (noPair : ¬ [first, second] <:+: text) :
    ¬ [first, second] <:+: unifyBreaks text := by
  have whole : ((unifyBreaks text).head? = some second → text.head? = some second) ∧
      ([first, second] <:+: unifyBreaks text → [first, second] <:+: text) := by
    refine unifyBreaks_induction (motive := fun text unified =>
      (unified.head? = some second → text.head? = some second) ∧
        ([first, second] <:+: unified → [first, second] <:+: text)) ?_ ?_ ?_ text
    · exact ⟨fun starts => starts, fun pair => pair⟩
    · intro char rest later
      refine ⟨fun starts => starts, fun pair => ?_⟩
      rcases List.infix_cons_iff.mp pair with front | inside
      · obtain ⟨same, starts⟩ := List.cons_prefix_cons.mp front
        obtain ⟨others, shape⟩ := starts
        obtain ⟨more, behind⟩ := List.head?_eq_some_iff.mp (later.1 (by rw [← shape]; rfl))
        rw [← same, behind]
        exact ⟨[], more, rfl⟩
      · exact (later.2 inside).trans (List.suffix_cons char rest).isInfix
    · intro entry isEntry rest later
      obtain ⟨notFirst, notSecond⟩ := kept entry isEntry
      refine ⟨fun starts => absurd (Option.some.inj starts) notSecond, fun pair => ?_⟩
      rcases List.infix_cons_iff.mp pair with front | inside
      · exact absurd (List.cons_prefix_cons.mp front).1.symm notFirst
      · exact (later.2 inside).trans (List.suffix_append entry.1 rest).isInfix
  exact fun pair => noPair (whole.2 pair)

/-- A text without the white space at its ends has none there. -/
theorem trim_edges
    (text : List Char) :
    (∀ char ∈ (trim text).head?, isWhiteSpace char = false) ∧
      ∀ char ∈ (trim text).getLast?, isWhiteSpace char = false := by
  have dropped : ∀ text : List Char, ∀ char ∈ (text.dropWhile isWhiteSpace).head?,
      isWhiteSpace char = false := by
    intro text char first
    have notWhite := List.head?_dropWhile_not isWhiteSpace text
    simpa [Option.mem_def.mp first] using notWhite
  have front : trim text <+: text.dropWhile isWhiteSpace := by
    rw [trim, trimBy, ← List.reverse_suffix, List.reverse_reverse]
    exact List.dropWhile_suffix _
  refine ⟨fun char first => dropped text char ?_, fun char last => ?_⟩
  · obtain ⟨more, shape⟩ := front
    rw [← shape, List.head?_append, first]
    rfl
  · rw [trim, trimBy, List.getLast?_reverse] at last
    exact dropped _ char last

/-- What is known of a text that is cut into tokens. -/
structure Trimmed (text : List Char) : Prop where
  first :
    ∀ char ∈ text.head?, isWhiteSpace char = false
  last :
    ∀ char ∈ text.getLast?, isWhiteSpace char = false

/-- Trimming leaves a text alone exactly if no white space is at its ends. -/
theorem trim_eq_self_iff
    {text : List Char} :
    trim text = text ↔ Trimmed text := by
  constructor
  · intro same
    have edges := trim_edges text
    rw [same] at edges
    exact ⟨edges.1, edges.2⟩
  · intro trimmed
    exact Token.trim_of_edges trimmed.first trimmed.last

/-- Texts without white space at their ends have none there when a character stands between them. -/
theorem Trimmed.between
    {left right : List Char}
    (first : Trimmed left)
    (second : Trimmed right)
    {char : Char}
    (firm : isWhiteSpace char = false) :
    Trimmed (left ++ char :: right) := by
  refine ⟨fun other isFirst => ?_, fun other isLast => ?_⟩
  · cases left with
    | nil =>
        rw [← Option.some.inj isFirst]
        exact firm
    | cons head left => exact first.first other isFirst
  · rw [List.getLast?_append, List.getLast?_cons] at isLast
    cases last : right.getLast? with
    | none =>
        rw [last] at isLast
        rw [← Option.some.inj isLast]
        exact firm
    | some final =>
        rw [last] at isLast
        rw [← Option.some.inj isLast]
        exact second.last final last

theorem trimmed_normalize
    (text : List Char) :
    Trimmed (normalize text) :=
  ⟨head?_unifyBreaks (trim_edges text).1, getLast?_unifyBreaks (trim_edges text).2⟩

theorem trim_isInfix
    (text : List Char) :
    trim text <:+: text := by
  obtain ⟨leading, trailing, shape, _, _⟩ := Token.trim_cases text
  exact ⟨leading, trailing, shape.symm⟩

theorem noComment_normalize
    {text : List Char}
    (noComment : ¬ ['/', '*'] <:+: text) :
    ¬ ['/', '*'] <:+: normalize text :=
  noPair_unifyBreaks (by decide) fun comment => noComment (comment.trans (trim_isInfix text))

theorem isWhiteSpace_of_isBlank
    {char : Char}
    (blank : isBlank char = true) :
    isWhiteSpace char = true := by
  simp only [isBlank, Bool.or_eq_true, beq_iff_eq] at blank
  rcases blank with (same | same) | same <;> subst same <;> decide

/-- All white space of a text is ASCII. -/
def PlainSpaced (text : List Char) : Prop :=
  ∀ char ∈ text, isWhiteSpace char = true → char.toNat < 0x80

theorem plainSpaced_normalize
    {text : List Char}
    (plainSpaced : PlainSpaced text) :
    PlainSpaced (normalize text) := by
  intro char member white
  rcases mem_unifyBreaks _ char member with inText | feed | replaced
  · exact plainSpaced char ((trim_isInfix text).subset inText) white
  · rw [feed]
    decide
  · rw [replaced] at white
    exact absurd white (by decide)

end Lexer

end TreeSelectors
