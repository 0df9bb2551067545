import TreeSelectors.WarningChannel
import Mathlib.Data.List.Induction

namespace TreeSelectors.WarningChannel

/-!
# Histories of a warning channel

A history is a list of calls made on a channel that has reported nothing. A
warning is remembered by its line, and different warnings can have the same
line: a component may hold the bracket that ends it. `Confusable` says when they
do. A warning is reported exactly if the channel is on and neither it nor a
warning confusable with it has been reported since the channel was last cleared:
`answer_eq_true_iff`.
-/

/-- A call that uses a channel. -/
inductive Call where
  | warn (component message : String)
  | clear
  | setEnabled (enabled : Bool)
deriving Repr, DecidableEq

/-- The channel after a call. -/
def Call.perform (channel : WarningChannel) : Call → WarningChannel
  | .warn component message => (channel.warn component message).2
  | .clear => channel.clear
  | .setEnabled enabled => channel.setEnabled enabled

/-- The channel that a history makes out of one that has reported nothing. -/
def after (enabled : Bool) (calls : List Call) : WarningChannel :=
  calls.foldl Call.perform (start enabled)

/-- Whether a warning is reported when it is raised behind a history. -/
def answer (enabled : Bool) (calls : List Call) (component message : String) : Bool :=
  ((after enabled calls).warn component message).1

/-- The switch after a call. -/
def Call.switch (enabled : Bool) : Call → Bool
  | .warn _ _ => enabled
  | .clear => enabled
  | .setEnabled switched => switched

/-- Where a history leaves the switch. -/
def switchAfter (enabled : Bool) (calls : List Call) : Bool :=
  calls.foldl Call.switch enabled

/-- A call has reported a warning, and the channel has not been cleared since. -/
def Reported (enabled : Bool) (calls : List Call) (component message : String) : Prop :=
  ∃ earlier later, calls = earlier ++ .warn component message :: later ∧
    answer enabled earlier component message = true ∧ .clear ∉ later

/-- A warning is reported exactly if the channel is on and has not reported it. -/
def ReportedOnce (enabled : Bool) (calls : List Call) (component message : String) : Prop :=
  answer enabled calls component message = true ↔
    switchAfter enabled calls = true ∧ ¬ Reported enabled calls component message

/--
The component of the second warning holds that of the first with its bracket, and the message of
the first holds the rest of it.
-/
def Confusable (component message longer shorter : String) : Prop :=
  ∃ between, longer = component ++ "] " ++ between ∧ message = between ++ "] " ++ shorter

section Lines

variable {component message other text : String}

theorem toList_line
    (component message : String) :
    (line component message).toList =
      '[' :: (component.toList ++ ']' :: ' ' :: message.toList) := by
  simp [line]

theorem line_eq_of_confusable
    (confusable : Confusable component message other text) :
    line component message = line other text := by
  obtain ⟨between, longer, same⟩ := confusable
  rw [← String.toList_inj, toList_line, toList_line, longer, same]
  simp

/-- A longer component hides the bracket behind the shorter one. -/
theorem confusable_of_longer
    {more : List Char}
    (longer : other.toList = component.toList ++ more)
    (rest : ']' :: ' ' :: message.toList = more ++ ']' :: ' ' :: text.toList) :
    (other = component ∧ text = message) ∨ Confusable component message other text := by
  rcases more with _ | ⟨bracket, _ | ⟨space, between⟩⟩
  · rw [List.append_nil] at longer
    have same := (List.cons.inj (List.cons.inj rest).2).2
    exact Or.inl ⟨String.toList_inj.mp longer, (String.toList_inj.mp same).symm⟩
  · have space := (List.cons.inj (List.cons.inj rest).2).1
    exact absurd space (by decide)
  · obtain ⟨isBracket, behind⟩ := List.cons.inj rest
    obtain ⟨isSpace, same⟩ := List.cons.inj behind
    refine Or.inr ⟨String.ofList between, ?_, ?_⟩
    · rw [← String.toList_inj, longer, ← isBracket, ← isSpace]
      simp
    · rw [← String.toList_inj, same]
      simp

/-- Two warnings share a line if they are the same or confusable. -/
theorem line_eq_iff :
    line component message = line other text ↔
      (other = component ∧ text = message) ∨ Confusable component message other text ∨
        Confusable other text component message := by
  constructor
  · intro same
    rw [← String.toList_inj, toList_line, toList_line, List.cons.injEq,
      List.append_eq_append_iff] at same
    rcases same.2 with ⟨more, longer, rest⟩ | ⟨more, longer, rest⟩
    · rcases confusable_of_longer longer rest with equal | confusable
      · exact Or.inl equal
      · exact Or.inr (Or.inl confusable)
    · rcases confusable_of_longer longer rest with ⟨sameComponent, sameText⟩ | confusable
      · exact Or.inl ⟨sameComponent.symm, sameText.symm⟩
      · exact Or.inr (Or.inr confusable)
  · rintro (⟨sameComponent, sameText⟩ | confusable | confusable)
    · rw [sameComponent, sameText]
    · exact line_eq_of_confusable confusable
    · exact (line_eq_of_confusable confusable).symm

end Lines

section Steps

variable (channel : WarningChannel) (component message : String)

theorem warn_eq_true_iff :
    (channel.warn component message).1 = true ↔
      channel.enabled = true ∧ line component message ∉ channel.reported := by
  unfold warn
  split
  · next reports => simpa using reports
  · next silent => simpa using silent

theorem reported_warn :
    (channel.warn component message).2.reported =
      if (channel.warn component message).1 then
        line component message :: channel.reported
      else
        channel.reported := by
  unfold warn
  split <;> rfl

/-- What is remembered after a call was remembered before, or the call has reported it. -/
theorem mem_reported_perform_iff
    (call : Call)
    (remembered : String) :
    remembered ∈ (call.perform channel).reported ↔
      (call ≠ .clear ∧ remembered ∈ channel.reported) ∨
        ∃ component message, call = .warn component message ∧
          (channel.warn component message).1 = true ∧ line component message = remembered := by
  cases call with
  | warn component message =>
      rw [Call.perform, reported_warn]
      cases reports : (channel.warn component message).1 with
      | false => simp [reports]
      | true => simp [reports, or_comm, @eq_comm _ remembered]
  | clear => simp [Call.perform, clear]
  | setEnabled enabled => simp [Call.perform, setEnabled]

theorem enabled_perform
    (call : Call) :
    (call.perform channel).enabled = call.switch channel.enabled := by
  cases call with
  | warn component message =>
      simp only [Call.perform, Call.switch, warn]
      split <;> rfl
  | clear => rfl
  | setEnabled enabled => rfl

end Steps

section Histories

variable (enabled : Bool) (calls : List Call)

theorem after_concat
    (call : Call) :
    after enabled (calls ++ [call]) = call.perform (after enabled calls) := by
  simp [after]

theorem enabled_after :
    (after enabled calls).enabled = switchAfter enabled calls := by
  induction calls using List.reverseRecOn with
  | nil => rfl
  | append_singleton calls call inductionHypothesis =>
      rw [after_concat, enabled_perform, inductionHypothesis]
      simp [switchAfter]

/-- A warning has been reported before the last call and not forgotten by it, or reported by it. -/
theorem reported_concat_iff
    (call : Call)
    (component message : String) :
    Reported enabled (calls ++ [call]) component message ↔
      (call ≠ .clear ∧ Reported enabled calls component message) ∨
        (call = .warn component message ∧ answer enabled calls component message = true) := by
  constructor
  · rintro ⟨earlier, later, shape, reports, kept⟩
    rcases List.eq_nil_or_concat later with none | ⟨init, last, concat⟩
    · subst none
      obtain ⟨same, isCall⟩ := List.append_inj' shape rfl
      rw [same]
      exact Or.inr ⟨(List.cons.inj isCall).1, reports⟩
    · rw [List.concat_eq_append] at concat
      subst concat
      rw [← List.cons_append, ← List.append_assoc] at shape
      obtain ⟨same, isCall⟩ := List.append_inj' shape rfl
      rw [List.mem_append, not_or] at kept
      refine Or.inl ⟨?_, earlier, init, same, reports, kept.1⟩
      intro isClear
      rw [isClear] at isCall
      exact kept.2 (isCall ▸ List.mem_singleton_self _)
  · rintro (⟨notClear, earlier, later, shape, reports, kept⟩ | ⟨isCall, reports⟩)
    · refine ⟨earlier, later ++ [call], by simp [shape], reports, ?_⟩
      rw [List.mem_append, List.mem_singleton, not_or]
      exact ⟨kept, Ne.symm notClear⟩
    · exact ⟨calls, [], by rw [isCall], reports, List.not_mem_nil⟩

/-- A channel remembers the lines of the warnings that it has reported. -/
theorem mem_reported_after_iff
    (remembered : String) :
    remembered ∈ (after enabled calls).reported ↔
      ∃ component message, line component message = remembered ∧
        Reported enabled calls component message := by
  induction calls using List.reverseRecOn with
  | nil => simp [after, start, Reported]
  | append_singleton calls call inductionHypothesis =>
      rw [after_concat, mem_reported_perform_iff, inductionHypothesis]
      constructor
      · rintro (⟨notClear, component, message, same, earlier⟩ |
          ⟨component, message, isCall, reports, same⟩)
        · exact ⟨component, message, same,
            (reported_concat_iff enabled calls call component message).mpr
              (Or.inl ⟨notClear, earlier⟩)⟩
        · exact ⟨component, message, same,
            (reported_concat_iff enabled calls call component message).mpr
              (Or.inr ⟨isCall, reports⟩)⟩
      · rintro ⟨component, message, same, now⟩
        rcases (reported_concat_iff enabled calls call component message).mp now with
          ⟨notClear, earlier⟩ | ⟨isCall, reports⟩
        · exact Or.inl ⟨notClear, component, message, same, earlier⟩
        · exact Or.inr ⟨component, message, isCall, reports, same⟩

/--
A warning is reported exactly if the channel is on, and neither it nor one that is confusable with
it has been reported since the channel was cleared.
-/
theorem answer_eq_true_iff
    (component message : String) :
    answer enabled calls component message = true ↔
      switchAfter enabled calls = true ∧ ¬ Reported enabled calls component message ∧
        ∀ other text,
          Confusable component message other text ∨ Confusable other text component message →
            ¬ Reported enabled calls other text := by
  rw [answer, warn_eq_true_iff, enabled_after, mem_reported_after_iff]
  refine and_congr_right fun _ => ?_
  constructor
  · intro unreported
    refine ⟨fun reported => unreported ⟨_, _, rfl, reported⟩, ?_⟩
    exact fun other text confusable reported =>
      unreported ⟨other, text, (line_eq_iff.mpr (Or.inr confusable)).symm, reported⟩
  · rintro ⟨unreported, noneConfusable⟩ ⟨other, text, same, reported⟩
    rcases line_eq_iff.mp same.symm with ⟨sameComponent, sameText⟩ | confusable
    · rw [sameComponent, sameText] at reported
      exact unreported reported
    · exact noneConfusable other text confusable reported

/-- A bracket in a component: a warning that was never reported is not reported. -/
theorem not_reportedOnce_bracket :
    ¬ ReportedOnce true [.warn "A] x" "y"] "A" "x] y" := by
  have silent : answer true [.warn "A] x" "y"] "A" "x] y" = false := by
    decide +kernel
  have unreported : ¬ Reported true [.warn "A] x" "y"] "A" "x] y" := by
    rintro ⟨earlier, later, shape, _⟩
    cases earlier with
    | nil => exact absurd (List.cons.inj shape).1 (by decide)
    | cons first earlier =>
        have impossible := (List.cons.inj shape).2
        simp at impossible
  intro once
  rw [once.mpr ⟨rfl, unreported⟩] at silent
  cases silent

end Histories

end TreeSelectors.WarningChannel
