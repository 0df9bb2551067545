import TreeSelectors.Json.Number

namespace TreeSelectors.Json

/-!
# Writing JSON text

Every item and field has a line of its own, indented by two blanks for every
array or object around it; empty ones are closed where they are opened.
-/

/-- The four hexadecimal digits of a control character. -/
def controlDigits (char : Char) : List Char :=
  let digits := Nat.toDigits 16 char.toNat
  List.replicate (4 - digits.length) '0' ++ digits

/-- One character inside a string. -/
def quotedChar (char : Char) : List Char :=
  match char with
  | '\x22' => ['\\', '\x22']
  | '\\' => ['\\', '\\']
  | '\x08' => ['\\', 'b']
  | '\x0C' => ['\\', 'f']
  | '\n' => ['\\', 'n']
  | '\r' => ['\\', 'r']
  | '\t' => ['\\', 't']
  | _ => if char.toNat < 0x20 then '\\' :: 'u' :: controlDigits char else [char]

/-- A string in quotes. -/
def quoted (value : String) : String :=
  "\"" ++ String.ofList (value.toList.flatMap quotedChar) ++ "\""

/-- A line break and the blanks of an indentation. -/
def lineBreak (level : Nat) : String :=
  String.ofList ('\n' :: List.replicate (2 * level) ' ')

mutual

/-- A value whose first line stands at an indentation. -/
def prettyAt (level : Nat) : Json → String
  | .null => "null"
  | .bool value => if value then "true" else "false"
  | .number value => value.text
  | .string value => quoted value
  | .array [] => "[]"
  | .array (item :: rest) =>
      "[" ++ lineBreak (level + 1) ++ prettyAt (level + 1) item ++
        prettyItemsAt (level + 1) rest ++ lineBreak level ++ "]"
  | .object [] => "\x7b\x7d"
  | .object ((key, value) :: rest) =>
      "\x7b" ++ lineBreak (level + 1) ++ quoted key ++ ": " ++ prettyAt (level + 1) value ++
        prettyFieldsAt (level + 1) rest ++ lineBreak level ++ "\x7d"

/-- The items behind the first. -/
def prettyItemsAt (level : Nat) : List Json → String
  | [] => ""
  | item :: rest =>
      "," ++ lineBreak level ++ prettyAt level item ++ prettyItemsAt level rest

/-- The fields behind the first. -/
def prettyFieldsAt (level : Nat) : List (String × Json) → String
  | [] => ""
  | (key, value) :: rest =>
      "," ++ lineBreak level ++ quoted key ++ ": " ++ prettyAt level value ++
        prettyFieldsAt level rest

end

/-- The text of a value, laid out over lines. -/
def pretty (value : Json) : String :=
  prettyAt 0 value

end TreeSelectors.Json
