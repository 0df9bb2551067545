import TreeSelectors.Decimal.Binary64

namespace TreeSelectors

/-!
# JSON values

Objects keep their fields in order. Numbers are integers of at most sixty-four
bits or doubles, depending on how they were written.

`Json.equal` decides equality of values; `Json.equal_iff` says so.
-/

/-- A JSON number. -/
inductive JsonNumber where
  | integer (value : Int)
  | double (value : Binary64)
deriving Repr, DecidableEq

/-- A JSON value. -/
inductive Json where
  | null
  | bool (value : Bool)
  | number (value : JsonNumber)
  | string (value : String)
  | array (items : List Json)
  | object (fields : List (String × Json))
deriving Repr

namespace Json

mutual

/-- Whether two values are the same. -/
def equal : Json → Json → Bool
  | .null, .null => true
  | .bool left, .bool right => left == right
  | .number left, .number right => left == right
  | .string left, .string right => left == right
  | .array left, .array right => equalItems left right
  | .object left, .object right => equalFields left right
  | _, _ => false

/-- Whether two lists of values are the same. -/
def equalItems : List Json → List Json → Bool
  | [], [] => true
  | left :: lefts, right :: rights => equal left right && equalItems lefts rights
  | _, _ => false

/-- Whether two lists of fields are the same. -/
def equalFields : List (String × Json) → List (String × Json) → Bool
  | [], [] => true
  | (leftKey, left) :: lefts, (rightKey, right) :: rights =>
      leftKey == rightKey && (equal left right && equalFields lefts rights)
  | _, _ => false

end

mutual

theorem equal_iff :
    (left right : Json) → (equal left right = true ↔ left = right)
  | .null, right => by
      cases right <;> simp [equal]
  | .bool left, right => by
      cases right <;> simp [equal]
  | .number left, right => by
      cases right <;> simp [equal]
  | .string left, right => by
      cases right <;> simp [equal]
  | .array left, right => by
      cases right <;> simp [equal, equalItems_iff left]
  | .object left, right => by
      cases right <;> simp [equal, equalFields_iff left]

theorem equalItems_iff :
    (left right : List Json) → (equalItems left right = true ↔ left = right)
  | [], right => by
      cases right <;> simp [equalItems]
  | left :: lefts, right => by
      cases right with
      | nil => simp [equalItems]
      | cons head tail => simp [equalItems, equal_iff left head, equalItems_iff lefts tail]

theorem equalFields_iff :
    (left right : List (String × Json)) → (equalFields left right = true ↔ left = right)
  | [], right => by
      cases right <;> simp [equalFields]
  | (key, left) :: lefts, right => by
      cases right with
      | nil => simp [equalFields]
      | cons head tail =>
          obtain ⟨otherKey, other⟩ := head
          simp [equalFields, equal_iff left other, equalFields_iff lefts tail, and_assoc]

end

instance : DecidableEq Json := fun left right =>
  if same : equal left right = true then
    .isTrue ((equal_iff left right).mp same)
  else
    .isFalse fun equality => same ((equal_iff left right).mpr equality)

/-- The value of a key among fields, if the key is there. -/
def lookup? (fields : List (String × Json)) (key : String) : Option Json :=
  (fields.find? fun field => field.1 == key).map Prod.snd

/--
The fields with a value for a key: in the place where the key already stands,
or at the end.
-/
def setField (key : String) (value : Json) : List (String × Json) → List (String × Json)
  | [] =>
      [(key, value)]
  | (other, old) :: rest =>
      if other == key then
        (key, value) :: rest
      else
        (other, old) :: setField key value rest

end Json

end TreeSelectors
