import TreeSelectors.Proofs.Token.Reread

namespace TreeSelectors

/-!
# Escaped names and quoted strings as texts

What is written for a token that is not blank is cut into that token alone if
and only if the token can be read at all, needs nothing behind it and has no
white space at the ends of its text: `Token.tokenize_listText_singleton_iff`.
So it is known of every name and every string whether escaping and quoting are
undone; no name fails that white space neither starts nor ends:
`Token.escaped_readBack`.
-/

open TreeSelectors.Text
open TreeSelectors.Lexer

/-- A name that can be written as a selector on its own. -/
structure Nameable (name : String) : Prop where
  nonempty :
    name.toList ≠ []
  settled :
    Settled name.toList
  trimmed :
    Trimmed name.toList

instance (name : String) : Decidable (Nameable name) :=
  decidable_of_iff
    (name.toList ≠ [] ∧ Settled name.toList ∧
      name.toList.head?.all (fun char => !isWhiteSpace char) = true ∧
        name.toList.getLast?.all (fun char => !isWhiteSpace char) = true) <| by
    simp only [Option.all_eq_true, Bool.not_eq_eq_eq_not, Bool.not_true]
    exact ⟨fun ⟨nonempty, settled, first, last⟩ => ⟨nonempty, settled, ⟨first, last⟩⟩,
      fun ⟨nonempty, settled, ⟨first, last⟩⟩ => ⟨nonempty, settled, first, last⟩⟩

namespace Token

section Alone

variable {token : Token}

theorem listChars_singleton
    (token : Token) :
    listChars [token] = token.chars :=
  List.append_nil token.chars

/-- A text that is cut into the token it was written for has lost nothing at its ends. -/
theorem trim_chars_of_scanned
    (notBlank : token ≠ .whitespace)
    (wellFormed : token.WellFormed)
    (scanned : Scanned (trim token.chars) [token]) :
    trim token.chars = token.chars := by
  have allWellFormed : AllWellFormed [token] := List.forall_mem_singleton.mpr wellFormed
  have ends : EndsEscaped (listChars [token]) :=
    listChars_singleton token ▸ endsEscaped_chars wellFormed notBlank
  rw [← listChars_singleton token] at scanned ⊢
  refine trim_listChars allWellFormed (by simpa using notBlank) ends scanned.closed ?_
  intro char white notSpace
  rw [count_listChars (notMem_marks white) notSpace]
  exact scanned.sublist.count_le char

/-- A text without a comment that is cut into the token it was written for. -/
theorem standsApart_of_scanned
    (notBlank : token ≠ .whitespace)
    (wellFormed : token.WellFormed)
    (scanned : Scanned token.chars [token]) :
    token.standsApart [] = true := by
  have noComment : ¬ (contents [token]).count '*' < token.chars.count '*' := by
    rw [← listChars_singleton token, count_listChars (by decide) (by decide)]
    exact Nat.lt_irrefl _
  have spelt := scanned.spelt.resolve_right noComment
  rw [← List.append_nil token.chars] at spelt
  exact (spelt_cons wellFormed notBlank (by rintro ⟨later, shape⟩; cases shape) spelt).1

/-- When the text of a token is cut into that token and nothing else. -/
theorem tokenize_listText_singleton_iff
    (notBlank : token ≠ .whitespace) :
    tokenize (listText [token]) = .ok [token] ↔
      token.WellFormed ∧ token.standsApart [] = true ∧ Trimmed token.chars := by
  rw [tokenize_eq_ok_iff, toList_listText, listChars_singleton]
  constructor
  · intro read
    have noError : (run (Lexer.normalize token.chars)).error? = none := by
      rw [read]
    have scanned := Scanned.ofRun noError
    rw [read] at scanned
    have wellFormed := scanned.wellFormed (unified_unifyBreaks _) token List.mem_cons_self
    have settled : Settled (trim token.chars) :=
      fun char member => settled_chars wellFormed char ((trim_isInfix _).subset member)
    rw [Lexer.normalize, unifyBreaks_of_settled settled] at scanned
    have untrimmed := trim_chars_of_scanned notBlank wellFormed scanned
    rw [untrimmed] at scanned
    exact ⟨wellFormed, standsApart_of_scanned notBlank wellFormed scanned,
      trim_eq_self_iff.mp untrimmed⟩
  · rintro ⟨wellFormed, apart, trimmed⟩
    have isLegible : legible [token] = true := by
      rw [legible_cons, listChars_nil, apart]
      rfl
    have read := run_listChars_of_legible (List.forall_mem_singleton.mpr wellFormed) isLegible
    rw [listChars_singleton] at read
    rw [Lexer.normalize, trim_eq_self_iff.mpr trimmed,
      unifyBreaks_of_settled (settled_chars wellFormed), read]

end Alone

section Edges

variable {name value : List Char}

/-- A name starts with no white space, unless it is escaped there. -/
def StartsFirm (name : List Char) : Prop :=
  ∀ char ∈ name.head?, isNameStart char = true → isWhiteSpace char = false

/-- A name ends with no white space, escaped or not. -/
def EndsWithoutSpace (name : List Char) : Prop :=
  ∀ char ∈ name.getLast?, isWhiteSpace char = false

theorem startsFirm_iff :
    StartsFirm name ↔ ∀ char ∈ (escapeIdentChars name).head?, isWhiteSpace char = false := by
  cases name with
  | nil => simp [StartsFirm, escapeIdentChars]
  | cons first others =>
      have written : (escapeIdentChars (first :: others)).head? =
          some (if startsUnescaped first others then first else '\\') := by
        rw [escapeIdentChars]
        split <;> rfl
      simp only [StartsFirm, written, List.head?_cons, Option.mem_some_iff, forall_eq']
      by_cases unescaped : startsUnescaped first others = true
      · rw [if_pos unescaped]
        refine ⟨fun firm => ?_, fun visible _ => visible⟩
        rcases startsUnescaped_cases unescaped with starts | ⟨hyphen, _⟩
        · exact firm starts
        · rw [hyphen]
          decide
      · rw [if_neg unescaped]
        refine ⟨fun _ => by decide, fun _ starts => absurd ?_ unescaped⟩
        simp [startsUnescaped, starts]

theorem trimmed_escapeIdentChars_iff :
    Trimmed (escapeIdentChars name) ↔ StartsFirm name ∧ EndsWithoutSpace name := by
  rw [startsFirm_iff, EndsWithoutSpace, ← getLast?_escapeIdentChars]
  exact ⟨fun trimmed => ⟨trimmed.first, trimmed.last⟩,
    fun ⟨first, last⟩ => ⟨first, last⟩⟩

theorem trimmed_function_iff :
    Trimmed (escapeIdentChars name ++ ['(']) ↔ StartsFirm name := by
  have solid : isWhiteSpace '(' = false := by
    decide
  rw [startsFirm_iff]
  constructor
  · intro trimmed char isFirst
    exact trimmed.first char (by rw [List.head?_append, isFirst]; rfl)
  · intro firm
    refine ⟨fun char isFirst => ?_, fun char isLast => ?_⟩
    · rw [List.head?_append, Option.mem_def, Option.or_eq_some_iff] at isFirst
      rcases isFirst with inName | ⟨_, parenthesis⟩
      · exact firm char inName
      · exact Option.some.inj parenthesis ▸ solid
    · rw [List.getLast?_concat] at isLast
      exact Option.some.inj isLast ▸ solid

theorem trimmed_hash_iff :
    Trimmed ('#' :: escapeNameChars name) ↔ EndsWithoutSpace name := by
  have solid : isWhiteSpace '#' = false := by
    decide
  have last : ('#' :: escapeNameChars name).getLast? = some (name.getLast?.getD '#') := by
    rw [List.getLast?_cons, getLast?_escapeNameChars]
  constructor
  · intro trimmed char isLast
    exact trimmed.last char (by rw [last, isLast]; rfl)
  · intro solidEnd
    refine ⟨fun char isFirst => Option.some.inj isFirst ▸ solid, fun char isLast => ?_⟩
    rw [last] at isLast
    cases ending : name.getLast? with
    | none =>
        rw [ending] at isLast
        exact Option.some.inj isLast ▸ solid
    | some final =>
        rw [ending] at isLast
        exact Option.some.inj isLast ▸ solidEnd final ending

theorem trimmed_quoteChars :
    Trimmed (quoteChars value) := by
  have solid : isWhiteSpace doubleQuote = false := by
    decide
  refine ⟨fun char isFirst => ?_, fun char isLast => ?_⟩
  · exact Option.some.inj isFirst ▸ solid
  · rw [quoteChars, List.getLast?_concat] at isLast
    exact Option.some.inj isLast ▸ solid

end Edges

section Reading

variable {name value : String} {kind : HashKind}

/-- Which names are read back as identifiers. -/
theorem tokenize_escapeIdent_iff :
    tokenize (escapeIdent name) = .ok [.ident name] ↔
      (name.toList ≠ [] ∧ Settled name.toList) ∧
        StartsFirm name.toList ∧ EndsWithoutSpace name.toList := by
  have text : escapeIdent name = listText [.ident name] := by
    simp [escapeIdent, listText, chars]
  rw [text, tokenize_listText_singleton_iff (by simp), chars, trimmed_escapeIdentChars_iff]
  simp [WellFormed, standsApart, endsName]

/-- Which names are read back in front of a parenthesis. -/
theorem tokenize_escapeIdent_parenthesis_iff :
    tokenize (escapeIdent name ++ "(") = .ok [.function name] ↔
      (name.toList ≠ [] ∧ Settled name.toList) ∧ StartsFirm name.toList := by
  have text : escapeIdent name ++ "(" = listText [.function name] := by
    rw [← String.toList_inj]
    simp [chars]
  rw [text, tokenize_listText_singleton_iff (by simp), chars, trimmed_function_iff]
  simp [WellFormed, standsApart]

/-- Which names are read back behind a `#`, and with which kind. -/
theorem tokenize_hash_escapeName_iff :
    tokenize ("#" ++ escapeName name) = .ok [.hash name kind] ↔
      (name.toList ≠ [] ∧ Settled name.toList) ∧
        kind = hashKind name ∧ EndsWithoutSpace name.toList := by
  have text : "#" ++ escapeName name = listText [.hash name kind] := by
    rw [← String.toList_inj]
    simp [chars]
  rw [text, tokenize_listText_singleton_iff (by simp), chars, trimmed_hash_iff]
  simp [WellFormed, standsApart, endsName]

/-- Which strings are read back from quotes; blanks at their ends do no harm. -/
theorem tokenize_quoteString_iff :
    tokenize (quoteString value) = .ok [.string value] ↔ Settled value.toList := by
  have text : quoteString value = listText [.string value] := by
    simp [quoteString, listText, chars]
  rw [text, tokenize_listText_singleton_iff (by simp), chars]
  simp [WellFormed, standsApart, trimmed_quoteChars]

end Reading

end Token

namespace Nameable

variable {name : String}

theorem wellFormed
    (nameable : Nameable name) :
    (Token.ident name).WellFormed :=
  ⟨nameable.nonempty, nameable.settled⟩

theorem startsFirm
    (nameable : Nameable name) :
    Token.StartsFirm name.toList :=
  fun char isFirst _ => nameable.trimmed.first char isFirst

/-- Escaping puts nothing but backslashes in front of characters. -/
theorem trimmed_escapeIdentChars
    (nameable : Nameable name) :
    Trimmed (escapeIdentChars name.toList) :=
  Token.trimmed_escapeIdentChars_iff.mpr ⟨nameable.startsFirm, nameable.trimmed.last⟩

end Nameable

namespace Token

/-- Names that can be written and strings without line breaks are read back whole. -/
theorem escaped_readBack
    (name value : String) :
    (Nameable name →
        tokenize (escapeIdent name) = .ok [.ident name] ∧
          tokenize (escapeIdent name ++ "(") = .ok [.function name] ∧
            tokenize ("#" ++ escapeName name) = .ok [.hash name (hashKind name)]) ∧
      (Settled value.toList → tokenize (quoteString value) = .ok [.string value]) := by
  refine ⟨fun nameable => ?_, tokenize_quoteString_iff.mpr⟩
  have written := And.intro nameable.nonempty nameable.settled
  refine ⟨?_, ?_, ?_⟩
  · exact tokenize_escapeIdent_iff.mpr ⟨written, nameable.startsFirm, nameable.trimmed.last⟩
  · exact tokenize_escapeIdent_parenthesis_iff.mpr ⟨written, nameable.startsFirm⟩
  · exact tokenize_hash_escapeName_iff.mpr ⟨written, rfl, nameable.trimmed.last⟩

/-- Hyphens, a digit, a quote and a comment mark in a name; nothing but blanks in a string. -/
theorem escaped_readBack_odd :
    Nameable "--1\"/*\\ x" ∧
      Settled " \t ".toList ∧
        (tokenize (escapeIdent "--1\"/*\\ x") = .ok [.ident "--1\"/*\\ x"] ∧
          tokenize (escapeIdent "--1\"/*\\ x" ++ "(") = .ok [.function "--1\"/*\\ x"] ∧
            tokenize ("#" ++ escapeName "--1\"/*\\ x") =
              .ok [.hash "--1\"/*\\ x" (hashKind "--1\"/*\\ x")]) ∧
          tokenize (quoteString " \t ") = .ok [.string " \t "] := by
  have nameable : Nameable "--1\"/*\\ x" := by
    decide
  have settled : Settled " \t ".toList := by
    decide
  have readBack := escaped_readBack "--1\"/*\\ x" " \t "
  exact ⟨nameable, settled, readBack.1 nameable, readBack.2 settled⟩

end Token

end TreeSelectors
