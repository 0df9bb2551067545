import TreeSelectors.Proofs.Text.Lowering

namespace TreeSelectors.Text

/-!
# Lower-casing and white space

What the tables of letters say of single characters: white space is left alone
and nothing else becomes white space, neither it nor a hyphen is looked through,
and nothing that is looked through becomes an `a`. From this, lower-casing a
text lowers its words: `IsWord.lowerCase`.
-/

/-- The code points of white space. -/
def whiteSpaceCodes : List Nat :=
  [0x9, 0xA, 0xB, 0xC, 0xD, 0x20, 0x85, 0xA0, 0x1680, 0x2000, 0x2001, 0x2002, 0x2003, 0x2004,
    0x2005, 0x2006, 0x2007, 0x2008, 0x2009, 0x200A, 0x2028, 0x2029, 0x202F, 0x205F, 0x3000]

/-- White space is given by a list of codes. -/
theorem isWhiteSpace_iff
    {char : Char} :
    isWhiteSpace char = true ↔ char.toNat ∈ whiteSpaceCodes := by
  simp only [isWhiteSpace, whiteSpaceCodes, Bool.or_eq_true, Bool.and_eq_true, decide_eq_true_eq,
    beq_iff_eq, List.mem_cons, List.not_mem_nil, or_false]
  omega

/-- A character is lowered to itself, by its own rule, or as one of a run. -/
theorem mem_lowerChar_cases
    {upper lower : Char}
    (member : lower ∈ lowerChar upper) :
    lower = upper ∨
      (upper = '\u0130' ∧ lower ∈ ['i', '\u0307']) ∨
      ∃ run ∈ lowerRuns, run.covers upper.toNat = true ∧
        (lower.toNat = run.lower upper.toNat ∨ lower.toNat = 0) := by
  rw [lowerChar] at member
  by_cases dotted : upper = '\u0130'
  · rw [if_pos (by simpa using dotted)] at member
    exact .inr (.inl ⟨dotted, member⟩)
  · rw [if_neg (by simpa using dotted)] at member
    cases found : lowerRuns.find? (·.covers upper.toNat) with
    | none =>
        rw [found] at member
        exact .inl (List.mem_singleton.mp member)
    | some run =>
        rw [found] at member
        have covered : run.covers upper.toNat = true := by
          simpa using List.find?_some found
        refine .inr (.inr ⟨run, List.mem_of_find?_eq_some found, covered, ?_⟩)
        rw [List.mem_singleton.mp member, Char.ofNat]
        by_cases valid : (run.lower upper.toNat).isValidChar
        · rw [dif_pos valid]
          exact .inl rfl
        · rw [dif_neg valid]
          exact .inr rfl

/-- The lower case of a covered code point stays in the span of its run. -/
theorem LowerRun.lower_bounds
    {run : LowerRun}
    {code : Nat}
    (covered : run.covers code = true) :
    run.first ≤ code ∧ run.lower code ≤ run.target + (run.last - run.first) ∧
      run.target ≤ run.lower code := by
  simp only [covers, Bool.and_eq_true, decide_eq_true_eq] at covered
  simp only [lower]
  omega

/-- Only white space is lowered to white space. -/
theorem isWhiteSpace_of_mem_lowerChar
    {upper lower : Char}
    (member : lower ∈ lowerChar upper)
    (separates : isWhiteSpace lower = true) :
    isWhiteSpace upper = true := by
  have apart : ∀ run ∈ lowerRuns, ∀ code ∈ whiteSpaceCodes,
      code < run.target ∨ run.target + (run.last - run.first) < code := by
    decide +kernel
  rcases mem_lowerChar_cases member with same | ⟨_, parts⟩ | ⟨run, inRuns, covered, code⟩
  · rwa [← same]
  · simp only [List.mem_cons, List.not_mem_nil, or_false] at parts
    rcases parts with rfl | rfl
    · exact absurd separates (by decide)
    · exact absurd separates (by decide)
  · have bounds := run.lower_bounds covered
    have inCodes := isWhiteSpace_iff.mp separates
    rcases code with code | zero
    · rw [code] at inCodes
      have outside := apart run inRuns _ inCodes
      omega
    · rw [zero] at inCodes
      exact absurd inCodes (by decide)

/-- Nothing that is looked through is lowered to an `a`. -/
theorem not_isCaseIgnorable_of_mem_lowerChar
    {upper : Char}
    (member : 'a' ∈ lowerChar upper) :
    isCaseIgnorable upper = false := by
  have apart : ∀ run ∈ lowerRuns,
      0x61 < run.target ∨ run.target + (run.last - run.first) < 0x61 ∨
        (run.first = 0x41 ∧ run.target = 0x61) := by
    decide +kernel
  rcases mem_lowerChar_cases member with same | ⟨_, parts⟩ | ⟨run, inRuns, covered, code⟩
  · rw [← same]
    decide +kernel
  · exact absurd parts (by decide)
  · have bounds := run.lower_bounds covered
    rcases code with code | zero
    · rw [show 'a'.toNat = 0x61 from rfl] at code
      have capital : upper.toNat = 0x41 := by
        rcases apart run inRuns with low | high | ⟨first, target⟩
        · omega
        · omega
        · rw [LowerRun.lower, first, target] at code
          omega
      rw [← Char.ofNat_toNat upper, capital]
      decide +kernel
    · exact absurd zero (by decide)

/-- Whatever stands in a lowered text comes from one of its characters. -/
theorem exists_of_mem_lowerBetween
    {afterCased beforeCased : Bool}
    {text : List Char}
    {lower : Char}
    (member : lower ∈ lowerBetween afterCased beforeCased text) :
    ∃ upper ∈ text,
      lower ∈ lowerChar upper ∨ (upper = capitalSigma ∧ lower = '\u03C2') := by
  induction text generalizing afterCased with
  | nil => exact absurd member List.not_mem_nil
  | cons char rest inductionHypothesis =>
      rw [lowerBetween] at member
      rcases List.mem_append.mp member with first | later
      · refine ⟨char, List.mem_cons_self, ?_⟩
        by_cases sigma : char = capitalSigma
        · rw [if_pos (by simpa using sigma), List.mem_singleton, lowerSigma] at first
          rw [sigma]
          split at first
          · exact .inr ⟨rfl, first⟩
          · rw [first]
            exact .inl (by decide +kernel)
        · rw [if_neg (by simpa using sigma)] at first
          exact .inl first
      · obtain ⟨upper, inRest, lowers⟩ := inductionHypothesis later
        exact ⟨upper, List.mem_cons_of_mem char inRest, lowers⟩

/-- A character that stays as it is and keeps what is before it from what is behind it. -/
structure Divides (char : Char) : Prop where
  kept :
    lowerChar char = [char]
  notSigma :
    char ≠ capitalSigma
  notIgnorable :
    isCaseIgnorable char = false
  notCased :
    isCased char = false

/-- A hyphen divides a text: no sigma looks past it. -/
theorem divides_hyphen :
    Divides '-' where
  kept := by decide +kernel
  notSigma := by decide
  notIgnorable := by decide +kernel
  notCased := by decide +kernel

/-- White space divides a text. -/
theorem divides_of_isWhiteSpace
    {char : Char}
    (separates : isWhiteSpace char = true) :
    Divides char := by
  have all : ∀ code ∈ whiteSpaceCodes,
      lowerChar (Char.ofNat code) = [Char.ofNat code] ∧ Char.ofNat code ≠ capitalSigma ∧
        isCaseIgnorable (Char.ofNat code) = false ∧ isCased (Char.ofNat code) = false := by
    decide +kernel
  have found := all char.toNat (isWhiteSpace_iff.mp separates)
  rw [Char.ofNat_toNat] at found
  obtain ⟨kept, notSigma, notIgnorable, notCased⟩ := found
  exact ⟨kept, notSigma, notIgnorable, notCased⟩

namespace Divides

variable {afterCased beforeCased : Bool} {char : Char}

/-- Behind a character that divides nothing is seen from in front. -/
theorem casedBefore_cons
    (divides : Divides char)
    (rest : List Char) :
    casedBefore beforeCased (char :: rest) = false := by
  rw [casedBefore, if_neg (by simp [divides.notIgnorable]), divides.notCased]

theorem casedAfter_singleton
    (divides : Divides char) :
    casedAfter afterCased [char] = false := by
  rw [casedAfter, if_neg (by simp [divides.notIgnorable]), divides.notCased, casedAfter]

/-- A character that divides stays, and the text behind it is lowered on its own. -/
theorem lowerBetween_cons
    (divides : Divides char)
    (rest : List Char) :
    lowerBetween afterCased beforeCased (char :: rest) =
      char :: lowerBetween false beforeCased rest := by
  rw [lowerBetween, if_neg (by simpa using divides.notSigma), divides.kept,
    divides.casedAfter_singleton, List.singleton_append]

/-- The text in front of a character that divides is lowered on its own. -/
theorem lowerBetween_concat
    (divides : Divides char)
    (front : List Char) :
    lowerBetween afterCased beforeCased (front ++ [char]) =
      lowerBetween afterCased false front ++ [char] := by
  rw [lowerBetween_append, divides.casedBefore_cons, divides.lowerBetween_cons, lowerBetween]

end Divides

section Between

variable {front middle back : List Char}

/-- A text that ends with a divider, or is empty, hides what is before it. -/
theorem casedAfter_of_divides
    (ends : ∀ char, front.getLast? = some char → Divides char) :
    casedAfter false front = false := by
  rcases List.eq_nil_or_concat front with rfl | ⟨init, last, rfl⟩
  · rfl
  · rw [List.concat_eq_append, casedAfter_append]
    exact (ends last (by simp)).casedAfter_singleton

/-- A text that starts with a divider, or is empty, hides what is behind it. -/
theorem casedBefore_of_divides
    (starts : ∀ char, back.head? = some char → Divides char) :
    casedBefore false back = false := by
  cases back with
  | nil => rfl
  | cons char rest => exact (starts char rfl).casedBefore_cons rest

/-- Between dividers a text is lowered as it is on its own. -/
theorem lowerCase_between
    (ends : ∀ char, front.getLast? = some char → Divides char)
    (starts : ∀ char, back.head? = some char → Divides char) :
    lowerCase (front ++ middle ++ back) =
      lowerBetween false (casedBefore false middle) front ++ lowerCase middle ++
        lowerBetween (casedAfter false (front ++ middle)) false back := by
  rw [lowerCase_append, casedBefore_of_divides starts, lowerBetween_append,
    casedAfter_of_divides ends, ← lowerCase_eq]

end Between

/-- Lower-casing a text lowers its words. -/
theorem IsWord.lowerCase
    {text word : List Char}
    (isWord : IsWord isWhiteSpace text word) :
    IsWord isWhiteSpace (lowerCase text) (Text.lowerCase word) := by
  obtain ⟨nonempty, clean, before, behind, rfl, ends, starts⟩ := isWord
  have endsDivided := fun char last => divides_of_isWhiteSpace (ends char last)
  have startsDivided := fun char first => divides_of_isWhiteSpace (starts char first)
  refine ⟨?_, ?_, _, _, lowerCase_between endsDivided startsDivided, ?_, ?_⟩
  · rw [lowerCase_eq]
    exact lowerBetween_ne_nil nonempty
  · intro lower member
    rw [lowerCase_eq] at member
    obtain ⟨upper, inWord, lowers | ⟨_, final⟩⟩ := exists_of_mem_lowerBetween member
    · rw [← Bool.not_eq_true]
      intro separates
      have upperClean := clean upper inWord
      rw [isWhiteSpace_of_mem_lowerChar lowers separates] at upperClean
      exact absurd upperClean (by simp)
    · rw [final]
      decide
  · intro char lastLowered
    rcases List.eq_nil_or_concat before with rfl | ⟨init, last, rfl⟩
    · exact absurd lastLowered (by simp [lowerBetween])
    · rw [List.concat_eq_append] at ends endsDivided lastLowered
      rw [(endsDivided last (by simp)).lowerBetween_concat, List.getLast?_concat,
        Option.some.injEq] at lastLowered
      exact ends char (by simp [lastLowered])
  · intro char firstLowered
    cases behind with
    | nil => exact absurd firstLowered (by simp [lowerBetween])
    | cons first rest =>
        rw [(startsDivided first rfl).lowerBetween_cons, List.head?_cons, Option.some.injEq]
          at firstLowered
        exact starts char (by simp [firstLowered])

section Openness

variable {afterCased beforeCased : Bool} {text : List Char}

/-- A capital sigma and what is looked through have no `a` in their lower case. -/
theorem not_mem_lowerBetween
    (each : ∀ char ∈ text, char = capitalSigma ∨ isCaseIgnorable char = true) :
    'a' ∉ lowerBetween afterCased beforeCased text := by
  intro member
  obtain ⟨upper, inText, lowers | ⟨_, final⟩⟩ := exists_of_mem_lowerBetween member
  · rcases each upper inText with rfl | ignorable
    · exact absurd lowers (by decide +kernel)
    · rw [not_isCaseIgnorable_of_mem_lowerChar lowers] at ignorable
      exact absurd ignorable (by simp)
  · exact absurd final (by decide)

/-- The lower case of a text that ends open does not end with an `a`, whatever is before it. -/
theorem EndsOpen.getLast?_ne
    (ends : EndsOpen text)
    (before : List Char) :
    (before ++ lowerCase text).getLast? ≠ some 'a' := by
  obtain ⟨front, back, rfl, _, ignorable⟩ := ends
  have each : ∀ char ∈ capitalSigma :: back,
      char = capitalSigma ∨ isCaseIgnorable char = true := by
    refine List.forall_mem_cons.mpr ⟨.inl rfl, fun char member => .inr ?_⟩
    exact List.all_eq_true.mp ignorable char member
  rw [lowerCase_append, ← List.append_assoc, List.getLast?_append,
    List.getLast?_eq_some_getLast (lowerBetween_ne_nil (List.cons_ne_nil _ _)), Option.some_or]
  intro last
  apply not_mem_lowerBetween each
  rw [← Option.some.inj last]
  exact List.getLast_mem _

/-- The lower case of a text that starts open does not start with an `a`, whatever is behind it. -/
theorem StartsOpen.head?_ne
    (starts : StartsOpen text)
    (behind : List Char) :
    (lowerCase text ++ behind).head? ≠ some 'a' := by
  obtain ⟨front, back, rfl, ignorable, _⟩ := starts
  have each : ∀ char ∈ front ++ [capitalSigma],
      char = capitalSigma ∨ isCaseIgnorable char = true := by
    intro char member
    rcases List.mem_append.mp member with inFront | same
    · exact .inr (List.all_eq_true.mp ignorable char inFront)
    · exact .inl (List.mem_singleton.mp same)
  rw [← List.singleton_append, ← List.append_assoc front, lowerCase_append, List.append_assoc,
    List.head?_append, List.head?_eq_some_head (lowerBetween_ne_nil (by simp)), Option.some_or]
  intro first
  apply not_mem_lowerBetween each
  rw [← Option.some.inj first]
  exact List.head_mem _

/-- What stands beside a text has no part in how long it is when lowered. -/
theorem length_eq_length_lowerCase
    (text : List Char) :
    (lowerBetween afterCased beforeCased text).length = (lowerCase text).length := by
  rw [lowerCase_eq, length_lowerBetween, length_lowerBetween]

/-- With an `a` behind it, a text that ends open is not lowered as it is alone. -/
theorem EndsOpen.lowerCase_concat_ne
    (ends : EndsOpen text)
    (before behind : List Char) :
    lowerCase (text ++ ['a']) ≠ before ++ lowerCase text ++ behind := by
  intro shape
  have cased : casedBefore false ['a'] = true := by
    decide +kernel
  have kept : ∀ afterCased, lowerBetween afterCased false ['a'] = ['a'] := by
    decide +kernel
  rw [lowerCase_append, cased, kept] at shape
  rcases List.eq_nil_or_concat behind with rfl | ⟨init, last, rfl⟩
  · apply ends.getLast?_ne before
    rw [← List.append_nil (before ++ lowerCase text), ← shape, List.getLast?_concat]
  · have lengths := congrArg List.length shape
    simp only [List.length_append, length_eq_length_lowerCase, List.length_singleton,
      List.concat_eq_append] at lengths
    obtain rfl : before = [] := List.length_eq_zero_iff.mp (by omega)
    rw [List.nil_append] at shape
    exact lowerBetween_before_eq_iff.mp
      (List.append_inj_left shape (length_eq_length_lowerCase text)) ends

/-- With an `a` before it, a text that starts open is not lowered as it is alone. -/
theorem StartsOpen.lowerCase_cons_ne
    (starts : StartsOpen text)
    (before behind : List Char) :
    lowerCase ('a' :: text) ≠ before ++ lowerCase text ++ behind := by
  intro shape
  have cased : casedAfter false ['a'] = true := by
    decide +kernel
  have kept : ∀ beforeCased, lowerBetween false beforeCased ['a'] = ['a'] := by
    decide +kernel
  rw [← List.singleton_append, lowerCase_append, cased, kept] at shape
  cases before with
  | nil =>
      apply starts.head?_ne behind
      rw [← List.nil_append (lowerCase text), ← shape]
      rfl
  | cons first rest =>
      have lengths := congrArg List.length shape
      simp only [List.length_append, length_eq_length_lowerCase, List.length_cons,
        List.length_nil] at lengths
      obtain rfl : behind = [] := List.length_eq_zero_iff.mp (by omega)
      rw [List.append_nil] at shape
      exact lowerBetween_after_eq_iff.mp
        (List.append_inj_right' shape (length_eq_length_lowerCase text)) starts

end Openness

end TreeSelectors.Text
