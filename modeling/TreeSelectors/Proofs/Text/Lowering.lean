import TreeSelectors.Proofs.Text.Words
import TreeSelectors.Text.LowerCase

namespace TreeSelectors.Text

/-!
# Lower-casing parts of a text

A part of a text is lowered as it would be on its own, unless a capital sigma in
it ends a word in one place and not in the other. `lowerBetween` lowers a part,
told whether it stands after and before cased characters, and
`lowerBetween_eq_lowerCase` says when that makes no difference. Nothing looks
through white space, so words are lowered as they would be on their own:
`isWord_lowerCase`.
-/

/-- Whether the last character that is not case ignorable is cased, as before the text if none. -/
def casedAfter (afterCased : Bool) : List Char → Bool
  | [] => afterCased
  | char :: rest => casedAfter (if isCaseIgnorable char then afterCased else isCased char) rest

/-- Whether the first character that is not case ignorable is cased, as behind the text if none. -/
def casedBefore (beforeCased : Bool) : List Char → Bool
  | [] => beforeCased
  | char :: rest => if isCaseIgnorable char then casedBefore beforeCased rest else isCased char

/-- The lower case of a capital sigma, which is final after and not before a cased character. -/
def lowerSigma (afterCased beforeCased : Bool) : Char :=
  if afterCased && !beforeCased then '\u03C2' else '\u03C3'

/-- A sigma with a cased letter behind it is not final. -/
@[simp] theorem lowerSigma_before
    (afterCased : Bool) :
    lowerSigma afterCased true = '\u03C3' := by
  simp [lowerSigma]

/-- A sigma without a cased letter in front of it is not final. -/
@[simp] theorem lowerSigma_notAfter
    (beforeCased : Bool) :
    lowerSigma false beforeCased = '\u03C3' :=
  rfl

/-- The lower case of a text between other texts. -/
def lowerBetween (afterCased beforeCased : Bool) : List Char → List Char
  | [] => []
  | char :: rest =>
      (if char == capitalSigma then
          [lowerSigma afterCased (casedBefore beforeCased rest)]
        else
          lowerChar char) ++
        lowerBetween (casedAfter afterCased [char]) beforeCased rest

/-- To start with a cased letter is to have one in front, with nothing known of what follows. -/
theorem startsCased_eq
    (text : List Char) :
    startsCased text = casedBefore false text := by
  induction text with
  | nil => rfl
  | cons char rest inductionHypothesis =>
      rw [startsCased] at inductionHypothesis ⊢
      rw [casedBefore, List.dropWhile_cons]
      by_cases ignorable : isCaseIgnorable char = true
      · rw [if_pos ignorable, if_pos ignorable]
        exact inductionHypothesis
      · rw [if_neg ignorable, if_neg ignorable]

/-- Lowering behind a text is lowering between it and nothing. -/
theorem lowerAfter_eq
    (afterCased : Bool)
    (text : List Char) :
    lowerAfter afterCased text = lowerBetween afterCased false text := by
  induction text generalizing afterCased with
  | nil => rfl
  | cons char rest inductionHypothesis =>
      rw [lowerAfter, lowerBetween, inductionHypothesis, startsCased_eq, lowerSigma, casedAfter,
        casedAfter]
      by_cases ends : (afterCased && !casedBefore false rest) = true <;> simp [ends]

/-- Lowering a whole text is lowering it between nothing and nothing. -/
theorem lowerCase_eq
    (text : List Char) :
    lowerCase text = lowerBetween false false text :=
  lowerAfter_eq false text

section Parts

variable {afterCased beforeCased : Bool}

/-- What two texts leave behind is found by reading one behind the other. -/
theorem casedAfter_append
    (front back : List Char) :
    casedAfter afterCased (front ++ back) = casedAfter (casedAfter afterCased front) back := by
  induction front generalizing afterCased with
  | nil => rfl
  | cons char rest inductionHypothesis =>
      rw [List.cons_append, casedAfter, casedAfter, inductionHypothesis]

/-- What stands in front of two texts is found by reading them from the end. -/
theorem casedBefore_append
    (front back : List Char) :
    casedBefore beforeCased (front ++ back) =
      casedBefore (casedBefore beforeCased back) front := by
  induction front with
  | nil => rfl
  | cons char rest inductionHypothesis =>
      rw [List.cons_append, casedBefore, casedBefore, inductionHypothesis]

/-- A text is lowered part by part, each as it stands between the others. -/
theorem lowerBetween_append
    (front back : List Char) :
    lowerBetween afterCased beforeCased (front ++ back) =
      lowerBetween afterCased (casedBefore beforeCased back) front ++
        lowerBetween (casedAfter afterCased front) beforeCased back := by
  induction front generalizing afterCased with
  | nil => rfl
  | cons char rest inductionHypothesis =>
      rw [List.cons_append, lowerBetween, lowerBetween, inductionHypothesis, casedBefore_append,
        List.append_assoc]
      rfl

/-- Two texts are lowered each beside the other. -/
theorem lowerCase_append
    (front back : List Char) :
    lowerCase (front ++ back) =
      lowerBetween false (casedBefore false back) front ++
        lowerBetween (casedAfter false front) false back := by
  rw [lowerCase_eq, lowerBetween_append]

/-- Case-ignorable characters are looked through from behind. -/
theorem casedAfter_of_all
    {text : List Char}
    (ignorable : text.all isCaseIgnorable = true) :
    casedAfter afterCased text = afterCased := by
  induction text with
  | nil => rfl
  | cons char rest inductionHypothesis =>
      rw [List.all_cons, Bool.and_eq_true] at ignorable
      rw [casedAfter, if_pos ignorable.1]
      exact inductionHypothesis ignorable.2

/-- Case-ignorable characters are looked through from before. -/
theorem casedBefore_of_all
    {text : List Char}
    (ignorable : text.all isCaseIgnorable = true) :
    casedBefore beforeCased text = beforeCased := by
  induction text with
  | nil => rfl
  | cons char rest inductionHypothesis =>
      rw [List.all_cons, Bool.and_eq_true] at ignorable
      rw [casedBefore, if_pos ignorable.1]
      exact inductionHypothesis ignorable.2

/-- Any other character hides what stands before the text. -/
theorem casedAfter_of_not_all
    {text : List Char}
    (some : ¬ text.all isCaseIgnorable = true) :
    casedAfter afterCased text = casedAfter false text := by
  induction text generalizing afterCased with
  | nil => exact absurd rfl some
  | cons char rest inductionHypothesis =>
      rw [casedAfter, casedAfter]
      by_cases ignorable : isCaseIgnorable char = true
      · rw [if_pos ignorable, if_pos ignorable]
        exact inductionHypothesis (by simpa [ignorable] using some)
      · rw [if_neg ignorable, if_neg ignorable]

/-- Any other character hides what stands behind the text. -/
theorem casedBefore_of_not_all
    {text : List Char}
    (some : ¬ text.all isCaseIgnorable = true) :
    casedBefore beforeCased text = casedBefore false text := by
  induction text with
  | nil => exact absurd rfl some
  | cons char rest inductionHypothesis =>
      rw [casedBefore, casedBefore]
      by_cases ignorable : isCaseIgnorable char = true
      · rw [if_pos ignorable, if_pos ignorable]
        exact inductionHypothesis (by simpa [ignorable] using some)
      · rw [if_neg ignorable, if_neg ignorable]

/-- What came before is forgotten, unless nothing but ignorable characters has come since. -/
theorem casedAfter_eq_of_not
    {text : List Char}
    (unseen : ¬ (afterCased = true ∧ text.all isCaseIgnorable = true)) :
    casedAfter afterCased text = casedAfter false text := by
  cases afterCased with
  | false => rfl
  | true => exact casedAfter_of_not_all fun ignorable => unseen ⟨rfl, ignorable⟩

/-- What comes behind is forgotten in the same way. -/
theorem casedBefore_eq_of_not
    {text : List Char}
    (unseen : ¬ (beforeCased = true ∧ text.all isCaseIgnorable = true)) :
    casedBefore beforeCased text = casedBefore false text := by
  cases beforeCased with
  | false => rfl
  | true => exact casedBefore_of_not_all fun ignorable => unseen ⟨rfl, ignorable⟩

/-- What stands around a text does not change the length of its lower case. -/
theorem length_lowerBetween
    (text : List Char) :
    (lowerBetween afterCased beforeCased text).length = (text.flatMap lowerChar).length := by
  induction text generalizing afterCased with
  | nil => rfl
  | cons char rest inductionHypothesis =>
      rw [lowerBetween, List.length_append, inductionHypothesis, List.flatMap_cons,
        List.length_append]
      by_cases sigma : char = capitalSigma
      · have one : (lowerChar capitalSigma).length = 1 := by
          decide +kernel
        simp [sigma, one]
      · simp [sigma]

/-- No character is lowered to nothing. -/
theorem lowerChar_ne_nil
    (char : Char) :
    lowerChar char ≠ [] := by
  rw [lowerChar]
  split
  · simp
  · split <;> simp

/-- No text is lowered to nothing, whatever stands beside it. -/
theorem lowerBetween_ne_nil
    {text : List Char}
    (nonempty : text ≠ []) :
    lowerBetween afterCased beforeCased text ≠ [] := by
  cases text with
  | nil => exact absurd rfl nonempty
  | cons char rest =>
      rw [lowerBetween]
      by_cases sigma : char = capitalSigma <;> simp [sigma, lowerChar_ne_nil]

end Parts

/-- Two lowered texts are the same if every capital sigma ends a word in both or in none. -/
theorem lowerBetween_eq_iff
    {afterCased beforeCased afterOther beforeOther : Bool}
    {text : List Char} :
    lowerBetween afterCased beforeCased text = lowerBetween afterOther beforeOther text ↔
      ∀ front back, text = front ++ capitalSigma :: back →
        lowerSigma (casedAfter afterCased front) (casedBefore beforeCased back) =
          lowerSigma (casedAfter afterOther front) (casedBefore beforeOther back) := by
  induction text generalizing afterCased afterOther with
  | nil => simp [lowerBetween]
  | cons char rest inductionHypothesis =>
      have parts : lowerBetween afterCased beforeCased (char :: rest) =
            lowerBetween afterOther beforeOther (char :: rest) ↔
          (char = capitalSigma →
            lowerSigma afterCased (casedBefore beforeCased rest) =
              lowerSigma afterOther (casedBefore beforeOther rest)) ∧
            lowerBetween (casedAfter afterCased [char]) beforeCased rest =
              lowerBetween (casedAfter afterOther [char]) beforeOther rest := by
        rw [lowerBetween, lowerBetween]
        by_cases sigma : char = capitalSigma <;> simp [sigma]
      rw [parts, inductionHypothesis]
      constructor
      · rintro ⟨first, later⟩ front back shape
        rcases List.cons_eq_append_iff.mp shape with ⟨rfl, same⟩ | ⟨tail, rfl, same⟩
        · obtain ⟨rfl, rfl⟩ := List.cons.inj same
          exact first rfl
        · exact later tail back same
      · intro each
        refine ⟨?_, ?_⟩
        · rintro rfl
          exact each [] rest rfl
        · rintro front back rfl
          exact each (char :: front) back rfl

/-- A capital sigma of the text ends a word, unless a cased character comes behind the text. -/
def EndsOpen (text : List Char) : Prop :=
  ∃ front back, text = front ++ capitalSigma :: back ∧
    casedAfter false front = true ∧ back.all isCaseIgnorable = true

/-- A capital sigma of the text ends a word if a cased character comes before the text. -/
def StartsOpen (text : List Char) : Prop :=
  ∃ front back, text = front ++ capitalSigma :: back ∧
    front.all isCaseIgnorable = true ∧ casedBefore false back = false

section Openness

variable {afterCased beforeCased : Bool} {text : List Char}

/-- A text that is open on no side with a cased character is lowered as it is on its own. -/
theorem lowerBetween_eq_lowerCase
    (starts : afterCased = true → ¬ StartsOpen text)
    (ends : beforeCased = true → ¬ EndsOpen text) :
    lowerBetween afterCased beforeCased text = lowerCase text := by
  rw [lowerCase_eq, lowerBetween_eq_iff]
  intro front back shape
  by_cases seenBefore : afterCased = true ∧ front.all isCaseIgnorable = true
  · have cased : casedBefore false back = true := by
      rw [← Bool.not_eq_false]
      exact fun notCased => starts seenBefore.1 ⟨front, back, shape, seenBefore.2, notCased⟩
    have hidden : ¬ back.all isCaseIgnorable = true := by
      intro ignorable
      rw [casedBefore_of_all ignorable] at cased
      exact absurd cased (by simp)
    rw [casedBefore_of_not_all hidden, cased, lowerSigma_before, lowerSigma_before]
  · rw [casedAfter_eq_of_not seenBefore]
    by_cases seenBehind : beforeCased = true ∧ back.all isCaseIgnorable = true
    · have notCased : casedAfter false front = false := by
        rw [← Bool.not_eq_true]
        exact fun cased => ends seenBehind.1 ⟨front, back, shape, cased, seenBehind.2⟩
      rw [notCased, lowerSigma_notAfter, lowerSigma_notAfter]
    · rw [casedBefore_eq_of_not seenBehind]

/-- A cased character behind a text is seen in it exactly if it ends open. -/
theorem lowerBetween_before_eq_iff :
    lowerBetween false true text = lowerCase text ↔ ¬ EndsOpen text := by
  constructor
  · rintro same ⟨front, back, shape, cased, ignorable⟩
    rw [lowerCase_eq, lowerBetween_eq_iff] at same
    have sigma := same front back shape
    rw [cased, casedBefore_of_all ignorable, casedBefore_of_all ignorable] at sigma
    exact absurd sigma (by decide)
  · exact fun ends => lowerBetween_eq_lowerCase (by simp) fun _ => ends

/-- A cased character before a text is seen in it exactly if it starts open. -/
theorem lowerBetween_after_eq_iff :
    lowerBetween true false text = lowerCase text ↔ ¬ StartsOpen text := by
  constructor
  · rintro same ⟨front, back, shape, ignorable, notCased⟩
    rw [lowerCase_eq, lowerBetween_eq_iff] at same
    have sigma := same front back shape
    rw [notCased, casedAfter_of_all ignorable, casedAfter_of_all ignorable] at sigma
    exact absurd sigma (by decide)
  · exact fun starts => lowerBetween_eq_lowerCase (fun _ => starts) (by simp)

end Openness

instance (text : List Char) : Decidable (EndsOpen text) :=
  decidable_of_iff (lowerBetween false true text ≠ lowerCase text) <| by
    rw [Ne, lowerBetween_before_eq_iff, Classical.not_not]

instance (text : List Char) : Decidable (StartsOpen text) :=
  decidable_of_iff (lowerBetween true false text ≠ lowerCase text) <| by
    rw [Ne, lowerBetween_after_eq_iff, Classical.not_not]

end TreeSelectors.Text
