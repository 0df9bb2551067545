import TreeSelectors.Json.Number
import TreeSelectors.Text.CharClass

namespace TreeSelectors.Json

/-!
# Reading JSON text

A text is a value with blanks around it. Arrays and objects may be nested to a
fixed depth. A key that is repeated keeps its first place and its last value.
A surrogate escape stands for a character only as half of a pair.
-/

/-- How deeply arrays and objects may be nested. -/
def maximalDepth : Nat :=
  127

/-- Blanks between the parts of a JSON text. -/
def isJsonBlank (char : Char) : Bool :=
  char == ' ' || char == '\n' || char == '\t' || char == '\r'

/-- A text without the blanks at its start. -/
def skipBlanks (text : List Char) : List Char :=
  text.dropWhile isJsonBlank

/-- The value of a hexadecimal digit. -/
def hexValue? (char : Char) : Option Nat :=
  if char.isDigit then
    some (char.toNat - '0'.toNat)
  else if Text.isHexDigit char then
    some (char.toLower.toNat - 'a'.toNat + 10)
  else
    none

/-- The value of four hexadecimal digits, and what is behind them. -/
def hexUnit? : List Char → Option (Nat × List Char)
  | first :: second :: third :: fourth :: rest => do
      let a ← hexValue? first
      let b ← hexValue? second
      let c ← hexValue? third
      let d ← hexValue? fourth
      some (((a * 16 + b) * 16 + c) * 16 + d, rest)
  | _ => none

/-- The character of a code point escape, behind its `u`. -/
def unicodeEscape? (text : List Char) : Option (Char × List Char) :=
  match hexUnit? text with
  | none =>
      none
  | some (unit, rest) =>
      if 0xDC00 ≤ unit ∧ unit ≤ 0xDFFF then
        none
      else if 0xD800 ≤ unit ∧ unit ≤ 0xDBFF then
        match rest with
        | '\\' :: 'u' :: behind =>
            match hexUnit? behind with
            | some (low, others) =>
                if 0xDC00 ≤ low ∧ low ≤ 0xDFFF then
                  some (Char.ofNat (0x10000 + (unit - 0xD800) * 0x400 + (low - 0xDC00)), others)
                else
                  none
            | none =>
                none
        | _ =>
            none
      else
        some (Char.ofNat unit, rest)

/-- The character of an escape that is a single letter or mark. -/
def simpleEscape? : Char → Option Char
  | '\x22' => some '\x22'
  | '\\' => some '\\'
  | '/' => some '/'
  | 'b' => some '\x08'
  | 'f' => some '\x0C'
  | 'n' => some '\n'
  | 'r' => some '\r'
  | 't' => some '\t'
  | _ => none

/-- One character of a string, escaped or not, and what is behind it. -/
def stringChar? : List Char → Option (Char × List Char)
  | '\\' :: 'u' :: rest =>
      unicodeEscape? rest
  | '\\' :: letter :: rest =>
      (simpleEscape? letter).map fun char => (char, rest)
  | char :: rest =>
      if char.toNat < 0x20 ∨ char = '\\' then none else some (char, rest)
  | [] =>
      none

theorem hexUnit?_length
    {text rest : List Char}
    {unit : Nat}
    (found : hexUnit? text = some (unit, rest)) :
    rest.length ≤ text.length := by
  unfold hexUnit? at found
  split at found
  · simp only [Option.bind_eq_bind, Option.bind_eq_some_iff] at found
    obtain ⟨_, _, _, _, _, _, _, _, same⟩ := found
    cases same
    simp only [List.length_cons]
    omega
  · simp at found

theorem unicodeEscape?_length
    {text rest : List Char}
    {char : Char}
    (found : unicodeEscape? text = some (char, rest)) :
    rest.length ≤ text.length := by
  unfold unicodeEscape? at found
  split at found
  · simp at found
  · rename_i unit behind first
    have shorter := hexUnit?_length first
    split at found
    · simp at found
    · split at found
      · split at found
        · rename_i tail _
          split at found
          · rename_i low others second
            have shorterStill := hexUnit?_length second
            split at found
            · simp only [Option.some.injEq, Prod.mk.injEq] at found
              rw [← found.2]
              simp only [List.length_cons] at shorter
              omega
            · simp at found
          · simp at found
        · simp at found
      · simp only [Option.some.injEq, Prod.mk.injEq] at found
        rw [← found.2]
        exact shorter

/-- A character of a string takes up text. -/
theorem stringChar?_length
    {text rest : List Char}
    {char : Char}
    (found : stringChar? text = some (char, rest)) :
    rest.length < text.length := by
  unfold stringChar? at found
  split at found
  · have shorter := unicodeEscape?_length found
    simp only [List.length_cons]
    omega
  · obtain ⟨_, _, same⟩ := Option.map_eq_some_iff.mp found
    cases same
    simp only [List.length_cons]
    omega
  · split at found
    · simp at found
    · cases found
      simp
  · simp at found

/-- The rest of a string up to its closing quote; `read` is what stands before. -/
def stringBody? (read : List Char) (text : List Char) : Option (String × List Char) :=
  if text.head? = some '\x22' then
    some (String.ofList read.reverse, text.tail)
  else
    match _found : stringChar? text with
    | none =>
        none
    | some (char, rest) =>
        stringBody? (char :: read) rest
termination_by text.length
decreasing_by exact stringChar?_length _found

/-- A string with its quotes. -/
def string? : List Char → Option (String × List Char)
  | '\x22' :: rest => stringBody? [] rest
  | _ => none

/-- The digits at the start of a text, at least one, and what is behind them. -/
def digits? (text : List Char) : Option (List Char × List Char) :=
  let digits := text.takeWhile Char.isDigit
  if digits.isEmpty then none else some (digits, text.dropWhile Char.isDigit)

/-- The whole part of a number, which starts with a zero only if it is zero. -/
def wholePart? : List Char → Option (List Char × List Char)
  | '0' :: rest => some (['0'], rest)
  | text => digits? text

/-- The fraction of a number, empty if there is no point. -/
def fractionPart? : List Char → Option (List Char × List Char)
  | '.' :: rest => digits? rest
  | text => some ([], text)

/-- The exponent of a number, if there is a mark for one. -/
def exponentPart? : List Char → Option (Option Int × List Char)
  | [] =>
      some (none, [])
  | mark :: rest =>
      if mark == 'e' || mark == 'E' then
        let (negative, unsigned) := Numeral.splitSign rest
        (digits? unsigned).map fun (digits, behind) =>
          let size : Int := Numeral.digitsValue digits
          (some (if negative then -size else size), behind)
      else
        some (none, mark :: rest)

/-- A number and what is behind it. -/
def number? (text : List Char) : Option (JsonNumber × List Char) := do
  let (negative, unsigned) :=
    match text with
    | '-' :: rest => (true, rest)
    | _ => (false, text)
  let (whole, afterWhole) ← wholePart? unsigned
  let (fraction, afterFraction) ← fractionPart? afterWhole
  let (exponent?, rest) ← exponentPart? afterFraction
  let value ← JsonNumber.ofLiteral? { negative, whole, fraction, exponent? }
  some (value, rest)

/-- The items of an array behind its bracket or a comma. -/
def items? (item? : List Char → Option (Json × List Char)) (text : List Char) :
    Option (List Json × List Char) :=
  match item? text with
  | none =>
      none
  | some (item, rest) =>
      match skipBlanks rest with
      | ']' :: behind =>
          some ([item], behind)
      | ',' :: behind =>
          -- An item and its comma take up text.
          if behind.length < text.length then
            (items? item? behind).map fun (others, final) => (item :: others, final)
          else
            none
      | _ =>
          none
termination_by text.length

/-- A key, its colon and its value. -/
def field? (value? : List Char → Option (Json × List Char)) (text : List Char) :
    Option ((String × Json) × List Char) :=
  match string? (skipBlanks text) with
  | none =>
      none
  | some (key, rest) =>
      match skipBlanks rest with
      | ':' :: behind => (value? behind).map fun (value, final) => ((key, value), final)
      | _ => none

/-- The fields of an object behind its brace or a comma, those before it given. -/
def fields?
    (value? : List Char → Option (Json × List Char))
    (read : List (String × Json))
    (text : List Char) :
    Option (List (String × Json) × List Char) :=
  match field? value? text with
  | none =>
      none
  | some ((key, value), rest) =>
      match skipBlanks rest with
      | '\x7d' :: behind =>
          some (setField key value read, behind)
      | ',' :: behind =>
          -- A field and its comma take up text.
          if behind.length < text.length then
            fields? value? (setField key value read) behind
          else
            none
      | _ =>
          none
termination_by text.length

/-- A value nested no deeper than `depth`, and what is behind it. -/
def value? : Nat → List Char → Option (Json × List Char)
  | depth, text =>
      match skipBlanks text with
      | 'n' :: 'u' :: 'l' :: 'l' :: rest =>
          some (.null, rest)
      | 't' :: 'r' :: 'u' :: 'e' :: rest =>
          some (.bool true, rest)
      | 'f' :: 'a' :: 'l' :: 's' :: 'e' :: rest =>
          some (.bool false, rest)
      | '\x22' :: rest =>
          (stringBody? [] rest).map fun (value, behind) => (.string value, behind)
      | '[' :: rest =>
          match depth with
          | 0 => none
          | inner + 1 =>
              match skipBlanks rest with
              | ']' :: behind => some (.array [], behind)
              | _ => (items? (value? inner) rest).map fun (items, behind) => (.array items, behind)
      | '\x7b' :: rest =>
          match depth with
          | 0 => none
          | inner + 1 =>
              match skipBlanks rest with
              | '\x7d' :: behind => some (.object [], behind)
              | _ =>
                  (fields? (value? inner) [] rest).map fun (fields, behind) =>
                    (.object fields, behind)
      | text =>
          (number? text).map fun (value, behind) => (.number value, behind)

/-- The value that a text stands for, if it is valid. -/
def parse? (text : String) : Option Json :=
  match value? maximalDepth text.toList with
  | some (value, rest) => if (skipBlanks rest).isEmpty then some value else none
  | none => none

end TreeSelectors.Json
