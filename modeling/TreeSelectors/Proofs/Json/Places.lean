import TreeSelectors.Json.Basic

namespace TreeSelectors.Json

/-!
# The objects in a JSON value

A path goes down from a value to one that stands in it, one place among the
parts of a value at a time. `objectPlaces` lists the paths to all objects in
the order of the text: it has every such path, `mem_objectPlaces_iff`, and it
is ascending, `pairwise_objectPlaces`, where a path comes before those that go
on from it.
-/

/-- The values directly in a value, in order. -/
def parts : Json → List Json
  | .array items => items
  | .object fields => fields.map Prod.snd
  | _ => []

/-- The fields of a value that is an object. -/
def objectFields? : Json → Option (List (String × Json))
  | .object fields => some fields
  | _ => none

/-- The value that a path leads to. -/
def at? : Json → List Nat → Option Json
  | value, [] => some value
  | value, place :: path => value.parts[place]?.bind fun part => part.at? path

/-- An object stands on a path, above its end. -/
structure ObjectAbove (value : Json) (outer path : List Nat) : Prop where
  onPath :
    outer <+: path
  notEnd :
    outer ≠ path
  isObject :
    ∃ fields, value.at? outer = some (.object fields)

mutual

/-- The paths to the objects in a value, in the order of the text. -/
def objectPlaces : Json → List (List Nat)
  | .object fields => [] :: fieldPlaces 0 fields
  | .array items => itemPlaces 0 items
  | _ => []

/-- The paths to the objects in some values, the first of which has the given place. -/
def itemPlaces (start : Nat) : List Json → List (List Nat)
  | [] => []
  | item :: rest => (objectPlaces item).map (start :: ·) ++ itemPlaces (start + 1) rest

/-- The paths to the objects in some fields, the first of which has the given place. -/
def fieldPlaces (start : Nat) : List (String × Json) → List (List Nat)
  | [] => []
  | (_, value) :: rest => (objectPlaces value).map (start :: ·) ++ fieldPlaces (start + 1) rest

end

/-- An object in an array in the first of two objects. -/
example :
    objectPlaces (.array [.object [("a", .array [.null, .object []])], .object []]) =
      [[0], [0, 0, 1], [1]] :=
  rfl

/-- Only an object has fields. -/
theorem objectFields?_eq_some_iff
    {value : Json}
    {fields : List (String × Json)} :
    value.objectFields? = some fields ↔ value = .object fields := by
  cases value <;> simp [objectFields?]

/-- A part of a value is smaller than the value. -/
theorem sizeOf_part
    {value part : Json}
    (isPart : part ∈ value.parts) :
    sizeOf part < sizeOf value := by
  cases value with
  | array items =>
      have smaller : sizeOf part < sizeOf items := List.sizeOf_lt_of_mem isPart
      simp only [array.sizeOf_spec]
      omega
  | object fields =>
      obtain ⟨⟨key, _⟩, member, same⟩ := List.mem_map.mp isPart
      subst same
      have smaller := List.sizeOf_lt_of_mem member
      simp only [Prod.mk.sizeOf_spec, object.sizeOf_spec] at smaller ⊢
      omega
  | _ => cases isPart

/-- What holds of a value whenever it does of its parts holds of every value. -/
theorem parts_induction
    {motive : Json → Prop}
    (step : ∀ value, (∀ part ∈ value.parts, motive part) → motive value)
    (value : Json) :
    motive value :=
  step value fun part _ => parts_induction step part
termination_by sizeOf value
decreasing_by
  rename_i isPart
  exact sizeOf_part isPart

/-- A longer path is followed in two parts. -/
theorem at?_append
    (value : Json)
    (path further : List Nat) :
    value.at? (path ++ further) = (value.at? path).bind (·.at? further) := by
  induction path generalizing value with
  | nil => rfl
  | cons place path inductionHypothesis =>
      simp only [List.cons_append, at?, inductionHypothesis, Option.bind_assoc]

/-- A path with one more place leads to a part. -/
theorem at?_child
    {value found : Json}
    {path : List Nat}
    (leads : value.at? path = some found)
    (place : Nat) :
    value.at? (path ++ [place]) = found.parts[place]? := by
  rw [at?_append, leads, Option.bind_some]
  simp [at?]

section Places

/-- The places in fields are those in their values. -/
theorem fieldPlaces_eq
    (start : Nat)
    (fields : List (String × Json)) :
    fieldPlaces start fields = itemPlaces start (fields.map Prod.snd) := by
  induction fields generalizing start with
  | nil => rw [fieldPlaces, List.map_nil, itemPlaces]
  | cons field fields inductionHypothesis =>
      rw [fieldPlaces, List.map_cons, itemPlaces, inductionHypothesis]

/-- An object is the first of its places, before those in its parts. -/
theorem objectPlaces_object
    {value : Json}
    {fields : List (String × Json)}
    (isObject : value.objectFields? = some fields) :
    value.objectPlaces = [] :: itemPlaces 0 value.parts := by
  rw [objectFields?_eq_some_iff.mp isObject, objectPlaces, fieldPlaces_eq]
  rfl

/-- Any other value has only the places in its parts. -/
theorem objectPlaces_other
    {value : Json}
    (noObject : value.objectFields? = none) :
    value.objectPlaces = itemPlaces 0 value.parts := by
  cases value with
  | object fields => cases noObject
  | array items =>
      rw [objectPlaces]
      rfl
  | _ => simp [objectPlaces, parts, itemPlaces]

/-- A path into one of some values is the place of that value and a path from there on. -/
theorem mem_itemPlaces_iff
    {start : Nat}
    {items : List Json}
    {path : List Nat} :
    path ∈ itemPlaces start items ↔
      ∃ place item, items[place]? = some item ∧
        ∃ inner ∈ item.objectPlaces, path = (start + place) :: inner := by
  induction items generalizing start with
  | nil => simp [itemPlaces]
  | cons first items inductionHypothesis =>
      rw [itemPlaces, List.mem_append, List.mem_map, inductionHypothesis]
      constructor
      · rintro (⟨inner, member, same⟩ | ⟨place, item, found, inner, member, same⟩)
        · exact ⟨0, first, rfl, inner, member, same.symm⟩
        · refine ⟨place + 1, item, found, inner, member, ?_⟩
          rw [same, Nat.add_right_comm, Nat.add_assoc]
      · rintro ⟨place, item, found, inner, member, same⟩
        cases place with
        | zero =>
            rw [List.getElem?_cons_zero, Option.some.injEq] at found
            subst found
            exact Or.inl ⟨inner, member, same.symm⟩
        | succ place =>
            refine Or.inr ⟨place, item, found, inner, member, ?_⟩
            rw [same, Nat.add_right_comm, Nat.add_assoc]

/-- A value is a place of its own exactly if it is an object. -/
theorem nil_mem_objectPlaces_iff
    {value : Json} :
    [] ∈ value.objectPlaces ↔ ∃ fields, value = .object fields := by
  cases found : value.objectFields? with
  | none =>
      rw [objectPlaces_other found, mem_itemPlaces_iff]
      constructor
      · rintro ⟨_, _, _, _, _, same⟩
        cases same
      · rintro ⟨fields, isObject⟩
        rw [objectFields?_eq_some_iff.mpr isObject] at found
        cases found
  | some fields =>
      rw [objectPlaces_object found]
      exact ⟨fun _ => ⟨fields, objectFields?_eq_some_iff.mp found⟩,
        fun _ => List.mem_cons_self⟩

/-- The other places are those in one of its parts. -/
theorem cons_mem_objectPlaces_iff
    {value : Json}
    {place : Nat}
    {inner : List Nat} :
    place :: inner ∈ value.objectPlaces ↔
      ∃ part, value.parts[place]? = some part ∧ inner ∈ part.objectPlaces := by
  have inParts : place :: inner ∈ value.objectPlaces ↔
      place :: inner ∈ itemPlaces 0 value.parts := by
    cases found : value.objectFields? with
    | none => rw [objectPlaces_other found]
    | some fields =>
        rw [objectPlaces_object found, List.mem_cons]
        exact ⟨fun member => member.resolve_left (by simp), Or.inr⟩
  rw [inParts, mem_itemPlaces_iff]
  constructor
  · rintro ⟨other, part, found, further, member, same⟩
    obtain ⟨samePlace, sameInner⟩ := List.cons.inj same
    rw [Nat.zero_add] at samePlace
    rw [samePlace, sameInner]
    exact ⟨part, found, member⟩
  · rintro ⟨part, found, member⟩
    exact ⟨place, part, found, inner, member, by rw [Nat.zero_add]⟩

/-- The listed paths are those that lead to an object. -/
theorem mem_objectPlaces_iff
    {value : Json}
    {path : List Nat} :
    path ∈ value.objectPlaces ↔ ∃ fields, value.at? path = some (.object fields) := by
  induction path generalizing value with
  | nil => simp [nil_mem_objectPlaces_iff, at?]
  | cons place inner inductionHypothesis =>
      rw [cons_mem_objectPlaces_iff]
      cases found : value.parts[place]? with
      | none => simp [at?, found]
      | some part => simp [at?, found, inductionHypothesis]

/-- The places in some items ascend if they do in each item. -/
theorem pairwise_itemPlaces
    {items : List Json}
    (each : ∀ item ∈ items, item.objectPlaces.Pairwise (· < ·))
    (start : Nat) :
    (itemPlaces start items).Pairwise (· < ·) := by
  induction items generalizing start with
  | nil =>
      rw [itemPlaces]
      exact .nil
  | cons item items inductionHypothesis =>
      obtain ⟨first, others⟩ := List.forall_mem_cons.mp each
      rw [itemPlaces, List.pairwise_append]
      refine ⟨?_, inductionHypothesis others (start + 1), ?_⟩
      · refine first.map _ fun left right less => ?_
        exact List.cons_lt_cons_iff.mpr (Or.inr ⟨rfl, less⟩)
      · intro left inFirst right inOthers
        obtain ⟨inner, _, sameLeft⟩ := List.mem_map.mp inFirst
        obtain ⟨place, _, _, later, _, sameRight⟩ := mem_itemPlaces_iff.mp inOthers
        rw [← sameLeft, sameRight]
        exact List.cons_lt_cons_iff.mpr (Or.inl (by omega))

/-- The listed paths are in the order of the text. -/
theorem pairwise_objectPlaces
    (value : Json) :
    value.objectPlaces.Pairwise (· < ·) := by
  induction value using parts_induction with
  | step value inductionHypothesis =>
      have inside := pairwise_itemPlaces inductionHypothesis 0
      cases found : value.objectFields? with
      | none =>
          rw [objectPlaces_other found]
          exact inside
      | some fields =>
          rw [objectPlaces_object found, List.pairwise_cons]
          refine ⟨fun path member => ?_, inside⟩
          obtain ⟨_, _, _, _, _, same⟩ := mem_itemPlaces_iff.mp member
          rw [same]
          exact List.nil_lt_cons _ _

end Places

end TreeSelectors.Json
