import TreeSelectors.Token.Scan

namespace TreeSelectors.Lexer

/-!
# Scans move forward

Every scan leaves a suffix of the text it was given, and a step leaves a suffix
of what stands behind its first character: `step_rest_suffix`. Cutting off a
number loses no character: `splitNumber_append`.
-/

open TreeSelectors.Text

/-- A name is cut off the front of a text. -/
theorem scanName_rest_suffix
    (text : List Char) :
    (scanName text).rest <:+ text := by
  fun_induction scanName text with
  | case1 => exact List.suffix_refl []
  | case2 char rest _ inductionHypothesis =>
      exact inductionHypothesis.trans (List.suffix_cons char rest)
  | case3 => exact List.nil_suffix
  | case4 => exact List.suffix_refl _
  | case5 char _ _ escaped others _ inductionHypothesis =>
      exact inductionHypothesis.trans
        ((List.suffix_cons escaped others).trans (List.suffix_cons _ _))
  | case6 => exact List.suffix_refl _

/-- A text that starts with a character of a name loses at least that one. -/
theorem scanName_rest_suffix_tail
    {char : Char}
    {rest : List Char}
    (starts : startsNameChar (char :: rest) = true) :
    (scanName (char :: rest)).rest <:+ rest := by
  unfold scanName
  split
  · exact scanName_rest_suffix rest
  · rename_i notName
    have escape : startsEscape (char :: rest) = true := by
      simpa [startsNameChar, notName] using starts
    unfold startsEscape at escape
    split at escape
    · rename_i escaped others same
      obtain ⟨sameChar, sameRest⟩ := List.cons.inj same
      subst sameChar
      subst sameRest
      have notBreak : (escaped == '\n') = false := by
        simpa using escape
      simp only [beq_self_eq_true, if_true, notBreak, Bool.false_eq_true, if_false,
        Scan.rest_map]
      exact (scanName_rest_suffix others).trans (List.suffix_cons escaped others)
    · simp at escape

/-- A string is cut off the front of a text. -/
theorem scanString_rest_suffix
    (quote : Char)
    (read text : List Char) :
    (scanString quote read text).rest <:+ text := by
  fun_induction scanString quote read text with
  | case1 => exact List.suffix_refl []
  | case2 _ char rest => exact List.suffix_cons char rest
  | case3 _ char rest => exact List.suffix_cons char rest
  | case4 => exact List.nil_suffix
  | case5 _ char _ _ _ escaped others _ inductionHypothesis =>
      exact inductionHypothesis.trans
        ((List.suffix_cons escaped others).trans (List.suffix_cons char _))
  | case6 _ char _ _ _ escaped others _ inductionHypothesis =>
      exact inductionHypothesis.trans
        ((List.suffix_cons escaped others).trans (List.suffix_cons char _))
  | case7 _ char rest _ _ _ inductionHypothesis =>
      exact inductionHypothesis.trans (List.suffix_cons char rest)

/-- A comment is cut off the front of a text. -/
theorem scanComment_rest_suffix
    (text : List Char) :
    (scanComment text).rest <:+ text := by
  fun_induction scanComment text with
  | case1 => exact List.suffix_refl []
  | case2 rest => exact (List.suffix_cons _ rest).trans (List.suffix_cons _ _)
  | case3 => exact List.nil_suffix
  | case4 escaped rest inductionHypothesis =>
      exact inductionHypothesis.trans
        ((List.suffix_cons escaped rest).trans (List.suffix_cons _ _))
  | case5 char rest _ _ _ inductionHypothesis =>
      exact inductionHypothesis.trans (List.suffix_cons char rest)

theorem splitSign_append
    (text : List Char) :
    (splitSign text).1 ++ (splitSign text).2 = text := by
  unfold splitSign
  split <;> rfl

theorem splitDigits_append
    (text : List Char) :
    (splitDigits text).1 ++ (splitDigits text).2 = text :=
  List.takeWhile_append_dropWhile

theorem splitFraction_append
    (text : List Char) :
    (splitFraction text).1 ++ (splitFraction text).2 = text := by
  unfold splitFraction
  split
  · split
    · simp [splitDigits_append]
    · rfl
  · rfl

theorem splitExponent_append
    (text : List Char) :
    (splitExponent text).1 ++ (splitExponent text).2 = text := by
  unfold splitExponent
  split
  · rfl
  · split
    · simp [splitDigits_append, splitSign_append]
    · rfl

/-- Cutting off a number loses nothing. -/
theorem splitNumber_append
    (text : List Char) :
    (splitNumber text).1 ++ (splitNumber text).2 = text := by
  simp [splitNumber, splitExponent_append, splitFraction_append,
    splitDigits_append, splitSign_append]

theorem splitDigits_ne_nil
    {text : List Char}
    (starts : startsDigit text = true) :
    (splitDigits text).1 ≠ [] := by
  cases text with
  | nil => simp [startsDigit] at starts
  | cons char rest =>
      have digit : char.isDigit = true := starts
      simp [splitDigits, digit]

/-- A text that starts with a number has a number cut off. -/
theorem splitNumber_ne_nil
    {text : List Char}
    (starts : startsNumber text = true) :
    (splitNumber text).1 ≠ [] := by
  unfold startsNumber at starts
  split at starts
  · simp [splitNumber, splitSign]
  · simp [splitNumber, splitSign]
  · rename_i notPlus notMinus
    have noSign : splitSign text = ([], text) := by
      unfold splitSign
      split
      · rename_i rest
        exact absurd rfl (notPlus rest)
      · rename_i rest
        exact absurd rfl (notMinus rest)
      · rfl
    unfold startsUnsignedNumber at starts
    split at starts
    · rename_i rest
      have noDigits : splitDigits ('.' :: rest) = ([], '.' :: rest) := by
        simp [splitDigits]
      simp [splitNumber, noSign, noDigits, splitFraction, starts]
    · simp [splitNumber, noSign, splitDigits_ne_nil starts]

/-- A number and its unit are cut off the front of a text. -/
theorem scanNumeric_rest_suffix_tail
    {char : Char}
    {rest : List Char}
    (starts : startsNumber (char :: rest) = true) :
    (scanNumeric (char :: rest)).rest <:+ rest := by
  have shorter : (splitNumber (char :: rest)).2 <:+ rest := by
    have whole := splitNumber_append (char :: rest)
    have some := splitNumber_ne_nil starts
    cases first : (splitNumber (char :: rest)).1 with
    | nil => exact absurd first some
    | cons head tail =>
        rw [first] at whole
        exact ⟨tail, (List.cons.inj whole).2⟩
  unfold scanNumeric
  split
  rename_i digits remaining same
  rw [same] at shorter
  dsimp only
  split
  · exact (scanName_rest_suffix remaining).trans shorter
  · exact shorter

/-- An identifier starts with a character of a name. -/
theorem startsNameChar_of_startsIdent
    {text : List Char}
    (starts : startsIdent text = true) :
    startsNameChar text = true := by
  unfold startsIdent at starts
  split at starts
  · simp at starts
  · split at starts
    · rename_i char rest hyphen
      simp only [beq_iff_eq] at hyphen
      subst hyphen
      simp [startsNameChar, isNameChar]
    · simp only [startsNameChar, isNameChar, Bool.or_eq_true] at starts ⊢
      rcases starts with name | escape
      · exact Or.inl (Or.inl (Or.inl name))
      · exact Or.inr escape

/-- A name or function is cut off the front of a text. -/
theorem scanIdentLike_rest_suffix_tail
    {char : Char}
    {rest : List Char}
    (starts : startsNameChar (char :: rest) = true) :
    (scanIdentLike (char :: rest)).rest <:+ rest := by
  have shorter := scanName_rest_suffix_tail starts
  unfold scanIdentLike
  split <;> rename_i same <;> rw [same] at shorter
  · exact shorter
  · exact (List.suffix_cons _ _).trans shorter
  · exact shorter

theorem scanHash_rest_suffix
    (text : List Char) :
    (scanHash text).rest <:+ text := by
  unfold scanHash
  split
  · exact scanName_rest_suffix text
  · exact List.suffix_refl text

theorem scanAtKeyword_rest_suffix
    (text : List Char) :
    (scanAtKeyword text).rest <:+ text := by
  unfold scanAtKeyword
  split
  · exact scanName_rest_suffix text
  · exact List.suffix_refl text

/-- A token is cut off the front of a text. -/
theorem scanToken_rest_suffix
    (char : Char)
    (rest : List Char) :
    (scanToken char rest).rest <:+ rest := by
  unfold scanToken
  split
  · exact List.dropWhile_suffix _
  split
  · exact scanString_rest_suffix char [] rest
  split
  · exact scanHash_rest_suffix rest
  split
  · exact scanAtKeyword_rest_suffix rest
  split
  · split
    · rename_i starts
      exact scanIdentLike_rest_suffix_tail (by simp [startsNameChar, starts])
    · exact List.suffix_refl rest
  split
  · rename_i starts
    exact scanNumeric_rest_suffix_tail starts
  split
  · rename_i starts
    exact scanIdentLike_rest_suffix_tail (startsNameChar_of_startsIdent starts)
  split <;> exact List.suffix_refl rest

/-- A token or comment is cut off the front of a text. -/
theorem step_rest_suffix
    (char : Char)
    (rest : List Char) :
    (step char rest).rest <:+ rest := by
  unfold step
  split
  · rename_i body
    exact (scanComment_rest_suffix body).trans (List.suffix_cons _ _)
  · exact scanToken_rest_suffix char rest

/-- A step leaves no more than stood behind its first character. -/
theorem step_rest_length
    (char : Char)
    (rest : List Char) :
    (step char rest).rest.length ≤ rest.length :=
  (step_rest_suffix char rest).length_le

end TreeSelectors.Lexer
