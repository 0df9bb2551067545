import TreeSelectors.Text.WhiteSpace

namespace TreeSelectors.Text

/-!
# Words

`IsWord` says what a word of a text is: a run of characters that do not
separate and that cannot be made longer. `mem_wordsBy_iff` shows that cutting
a text finds the words in this sense and nothing else. Two classes of separators
find the same words in a text as far as they agree on its characters.
-/

/-- A nonempty run without separators, with a separator or an end on both sides. -/
structure IsWord
    (separates : Char → Bool)
    (text word : List Char) : Prop where
  nonempty :
    word ≠ []
  clean :
    ∀ char ∈ word, separates char = false
  found :
    ∃ before behind,
      text = before ++ word ++ behind ∧
        (∀ char, before.getLast? = some char → separates char = true) ∧
        ∀ char, behind.head? = some char → separates char = true

section Words

variable {separates : Char → Bool}

theorem not_isWord_nil
    (word : List Char) :
    ¬ IsWord separates [] word := by
  rintro ⟨nonempty, _, before, behind, shape, _, _⟩
  have parts := List.append_eq_nil_iff.mp shape.symm
  exact nonempty (List.append_eq_nil_iff.mp parts.1).2

/-- A run in front of a word ends with a separator, so a clean one is empty. -/
theorem eq_nil_of_prefix
    {before behind pending : List Char}
    (clean : ∀ char ∈ pending, separates char = false)
    (ends : ∀ char, before.getLast? = some char → separates char = true)
    (shape : pending = before ++ behind) :
    before = [] := by
  cases last : before.getLast? with
  | none => exact List.getLast?_eq_none_iff.mp last
  | some char =>
      have member : char ∈ pending := by
        rw [shape]
        exact List.mem_append_left behind (List.mem_of_getLast? last)
      exact absurd (ends char last) (by simp [clean char member])

/-- The only word of a clean text is the whole text. -/
theorem isWord_clean_iff
    {pending word : List Char}
    (nonempty : pending ≠ [])
    (clean : ∀ char ∈ pending, separates char = false) :
    IsWord separates pending word ↔ word = pending := by
  constructor
  · rintro ⟨_, _, before, behind, shape, ends, starts⟩
    have noneBefore := eq_nil_of_prefix clean ends (by rw [shape, List.append_assoc])
    subst noneBefore
    cases behind with
    | nil => simpa using shape.symm
    | cons char rest =>
        have member : char ∈ pending := by
          simp [shape]
        exact absurd (starts char rfl) (by simp [clean char member])
  · intro same
    subst same
    exact ⟨nonempty, clean, [], [], by simp, by simp, by simp⟩

/-- A clean run up to a separator or the end is what the text starts with. -/
theorem takeWhile_clean_append
    {word behind : List Char}
    (clean : ∀ char ∈ word, separates char = false)
    (starts : ∀ char, behind.head? = some char → separates char = true) :
    (word ++ behind).takeWhile (fun char => !separates char) = word := by
  rw [List.takeWhile_append_of_pos (by simpa using clean)]
  cases behind with
  | nil => simp
  | cons char rest => simp [starts char rfl]

/-- The words behind a separator are words of the whole text. -/
theorem IsWord.behind_separator
    {rest word : List Char}
    {char : Char}
    (isWord : IsWord separates rest word)
    (separator : separates char = true)
    (front : List Char) :
    IsWord separates (front ++ char :: rest) word := by
  obtain ⟨nonempty, clean, before, behind, shape, ends, starts⟩ := isWord
  refine ⟨nonempty, clean, front ++ char :: before, behind, by simp [shape], ?_, starts⟩
  intro other last
  cases beforeLast : before.getLast? with
  | none =>
      simp only [List.getLast?_append, List.getLast?_cons, beforeLast, Option.getD_none,
        Option.some_or, Option.some.injEq] at last
      rwa [← last]
  | some final =>
      simp only [List.getLast?_append, List.getLast?_cons, beforeLast, Option.getD_some,
        Option.some_or, Option.some.injEq] at last
      rw [← last]
      exact ends final beforeLast

/-- A word that ends in front of a separator or later is a clean run there or stands behind it. -/
theorem IsWord.eq_or_behind
    {pending rest word : List Char}
    {char : Char}
    (isWord : IsWord separates (pending ++ char :: rest) word)
    (clean : ∀ other ∈ pending, separates other = false)
    (separator : separates char = true) :
    word = pending ∨ IsWord separates rest word := by
  obtain ⟨nonempty, wordClean, before, behind, shape, ends, starts⟩ := isWord
  rw [List.append_assoc] at shape
  rcases List.append_eq_append_iff.mp shape with
    ⟨middle, beforeShape, restShape⟩ | ⟨middle, pendingShape, restShape⟩
  · cases middle with
    | nil =>
        -- The word would start with the separator.
        obtain ⟨head, tail, wordShape⟩ := List.exists_cons_of_ne_nil nonempty
        simp only [wordShape, List.nil_append, List.cons_append, List.cons.injEq] at restShape
        have headClean := wordClean head (by simp [wordShape])
        rw [← restShape.1, separator] at headClean
        exact absurd headClean (by simp)
    | cons head tail =>
        simp only [List.cons_append, List.cons.injEq] at restShape
        refine Or.inr ⟨nonempty, wordClean, tail, behind, by simp [restShape.2], ?_, starts⟩
        intro other last
        refine ends other ?_
        simp [beforeShape, List.getLast?_cons, last]
  · have noneBefore := eq_nil_of_prefix clean ends pendingShape
    subst noneBefore
    simp only [List.nil_append] at pendingShape
    subst pendingShape
    have startsAt : ∀ other, (char :: rest).head? = some other → separates other = true := by
      intro other first
      rw [List.head?_cons, Option.some.injEq] at first
      rwa [← first]
    have fromWord := takeWhile_clean_append wordClean starts
    have fromPending := takeWhile_clean_append clean startsAt
    rw [restShape] at fromWord
    exact Or.inl (fromWord.symm.trans fromPending)

/-- The words of a clean run, a separator and a rest: the run and the words of the rest. -/
theorem isWord_append_cons_iff
    {pending rest word : List Char}
    {char : Char}
    (clean : ∀ other ∈ pending, separates other = false)
    (separator : separates char = true) :
    IsWord separates (pending ++ char :: rest) word ↔
      (pending ≠ [] ∧ word = pending) ∨ IsWord separates rest word := by
  constructor
  · intro isWord
    rcases isWord.eq_or_behind clean separator with same | later
    · exact Or.inl ⟨same ▸ isWord.nonempty, same⟩
    · exact Or.inr later
  · rintro (⟨nonempty, same⟩ | later)
    · subst same
      refine ⟨nonempty, clean, [], char :: rest, by simp, by simp, ?_⟩
      intro other first
      rw [List.head?_cons, Option.some.injEq] at first
      rwa [← first]
    · exact later.behind_separator separator pending

/-- What is cut off behind a clean run are the words of both together. -/
theorem mem_wordsFrom_iff
    {pending text word : List Char}
    (clean : ∀ char ∈ pending, separates char = false) :
    word ∈ wordsFrom separates pending text ↔ IsWord separates (pending ++ text) word := by
  induction text generalizing pending with
  | nil =>
      rw [wordsFrom, List.append_nil]
      by_cases empty : pending = []
      · simp [empty, not_isWord_nil]
      · rw [if_neg (by simpa using empty), List.mem_singleton, isWord_clean_iff empty clean]
  | cons char rest inductionHypothesis =>
      rw [wordsFrom]
      by_cases separator : separates char = true
      · have later := inductionHypothesis (List.forall_mem_nil _)
        rw [if_pos separator, isWord_append_cons_iff clean separator]
        by_cases empty : pending = []
        · simpa [empty] using later
        · rw [if_neg (by simpa using empty), List.mem_cons, later]
          simp [empty]
      · have charClean : separates char = false := by
          simpa using separator
        rw [if_neg separator, inductionHypothesis ?_, List.append_assoc]
        · rfl
        · intro other member
          rcases List.mem_append.mp member with earlier | last
          · exact clean other earlier
          · rw [List.mem_singleton.mp last]
            exact charClean

/-- Cutting a text finds its words. -/
theorem mem_wordsBy_iff
    {text word : List Char} :
    word ∈ wordsBy separates text ↔ IsWord separates text word :=
  mem_wordsFrom_iff (List.forall_mem_nil _)

/-- What is read or still under way ends up in words, but for the separators. -/
theorem exists_mem_wordsFrom
    {pending text : List Char}
    {char : Char}
    (member : char ∈ pending ++ text)
    (clean : separates char = false) :
    ∃ word ∈ wordsFrom separates pending text, char ∈ word := by
  induction text generalizing pending with
  | nil =>
      rw [List.append_nil] at member
      refine ⟨pending, ?_, member⟩
      rw [wordsFrom, if_neg (by simpa using List.ne_nil_of_mem member)]
      exact List.mem_singleton_self pending
  | cons next rest inductionHypothesis =>
      rw [wordsFrom]
      by_cases separator : separates next = true
      · have elsewhere : char ∈ pending ∨ char ∈ rest := by
          rcases List.mem_append.mp member with earlier | later
          · exact Or.inl earlier
          · rcases List.mem_cons.mp later with same | behind
            · rw [same, separator] at clean
              exact absurd clean (by simp)
            · exact Or.inr behind
        rw [if_pos separator]
        by_cases empty : pending = []
        · rw [if_pos (by simpa using empty)]
          exact inductionHypothesis (by simpa [empty] using elsewhere)
        · rw [if_neg (by simpa using empty)]
          rcases elsewhere with earlier | behind
          · exact ⟨pending, List.mem_cons_self, earlier⟩
          · have inRest : char ∈ [] ++ rest := behind
            obtain ⟨word, found, inWord⟩ := inductionHypothesis inRest
            exact ⟨word, List.mem_cons_of_mem pending found, inWord⟩
      · rw [if_neg separator]
        exact inductionHypothesis (by simpa using member)

/-- Every character that does not separate stands in a word. -/
theorem exists_isWord_of_mem
    {text : List Char}
    {char : Char}
    (member : char ∈ text)
    (clean : separates char = false) :
    ∃ word, IsWord separates text word ∧ char ∈ word := by
  have inText : char ∈ [] ++ text := member
  obtain ⟨word, found, inWord⟩ := exists_mem_wordsFrom inText clean
  exact ⟨word, mem_wordsBy_iff.mp found, inWord⟩

end Words

section TwoClasses

variable {larger smaller : Char → Bool} {text word : List Char}

/-- A word stays one for a class that separates the text at the same places. -/
theorem IsWord.of_same
    (isWord : IsWord larger text word)
    (same : ∀ char ∈ text, larger char = smaller char) :
    IsWord smaller text word := by
  obtain ⟨nonempty, clean, before, behind, shape, ends, starts⟩ := isWord
  have inText : ∀ char,
      char ∈ before ∨ char ∈ word ∨ char ∈ behind → char ∈ text := by
    intro char somewhere
    simpa [shape] using somewhere
  refine ⟨nonempty, ?_, before, behind, shape, ?_, ?_⟩
  · intro char member
    rw [← same char (inText char (.inr (.inl member)))]
    exact clean char member
  · intro char last
    rw [← same char (inText char (.inl (List.mem_of_getLast? last)))]
    exact ends char last
  · intro char first
    rw [← same char (inText char (.inr (.inr (List.mem_of_head? first))))]
    exact starts char first

/--
Where one class of separators holds another, a text has the same words for both exactly if it has
no separator that only the larger one knows.
-/
theorem forall_isWord_iff_iff
    (known : ∀ char, smaller char = true → larger char = true) :
    (∀ word, IsWord smaller text word ↔ IsWord larger text word) ↔
      ∀ char ∈ text, larger char = true → smaller char = true := by
  constructor
  · intro sameWords char member separator
    cases clean : smaller char with
    | true => rfl
    | false =>
        -- The word around the character would hold a separator.
        obtain ⟨word, isWord, inWord⟩ := exists_isWord_of_mem member clean
        have largerClean := ((sameWords word).mp isWord).clean char inWord
        rw [separator] at largerClean
        exact absurd largerClean (by simp)
  · intro alsoSmaller word
    have same : ∀ char ∈ text, smaller char = larger char :=
      fun char member => Bool.eq_iff_iff.mpr ⟨known char, alsoSmaller char member⟩
    exact ⟨(·.of_same same), (·.of_same fun char member => (same char member).symm)⟩

end TwoClasses

/-- Whatever separates class names is white space. -/
theorem isWhiteSpace_of_isAsciiWhiteSpace
    (char : Char)
    (ascii : isAsciiWhiteSpace char = true) :
    isWhiteSpace char = true := by
  simp only [isAsciiWhiteSpace, Bool.or_eq_true, beq_iff_eq] at ascii
  rcases ascii with (((same | same) | same) | same) | same <;> subst same <;> decide

end TreeSelectors.Text
