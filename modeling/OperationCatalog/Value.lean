/-!
# Document values

The data that a document holds, whichever format it is written in.  The fields of an object stand in
the order of the text, repeated names included; `Value.distinct` is the reading in which each name
counts once.
-/

namespace OperationCatalog

/-- The first number that does not fit 64 bits. -/
def wordLimit : Nat := 0x10000000000000000

/-- The first number that does not fit 64 bits with a sign. -/
def signLimit : Nat := 0x8000000000000000

/-- A value of a document.  A `natural` is a number written without sign, point and exponent in a
format that has unsigned numbers, an `integer` any other whole number that fits 64 bits. -/
inductive Value where
  | null
  | bool (value : Bool)
  | natural (value : Nat)
  | integer (value : Int)
  | float (value : Float)
  | text (value : String)
  | array (items : List Value)
  | object (fields : List (String × Value))

/-- Named things, in the order of the text. -/
abbrev Entries (α : Type) := List (String × α)

/-- The entries with `x` under `name`: in the place of the first one of that name, or at the end. -/
def Entries.put {α : Type} (name : String) (x : α) : Entries α → Entries α
  | [] => [(name, x)]
  | (k, y) :: rest => if k = name then (name, x) :: rest else (k, y) :: Entries.put name x rest

/-- Named values, in the order of the text. -/
abbrev Fields := Entries Value

namespace Fields

/-- The values under a name, in order. -/
def all (name : String) : Fields → List Value
  | [] => []
  | (k, v) :: rest => if k = name then v :: all name rest else all name rest

/-- The value under a name that stands there exactly once. -/
def only? (name : String) (fields : Fields) : Option Value :=
  match fields.all name with
  | [v] => some v
  | _ => none

/-- The value under a name that may be missing; `none` if it stands there more than once. -/
def atMostOne? (name : String) (fields : Fields) : Option (Option Value) :=
  match fields.all name with
  | [] => some none
  | [v] => some (some v)
  | _ => none

@[simp] theorem all_nil (name : String) : all name [] = [] := rfl

@[simp] theorem all_cons (name k : String) (v : Value) (rest : Fields) :
    all name ((k, v) :: rest) = if k = name then v :: rest.all name else rest.all name := rfl

theorem only?_eq_bind (name : String) (fields : Fields) :
    only? name fields = (atMostOne? name fields).bind id := by
  rw [only?, atMostOne?]
  rcases all name fields with _ | ⟨v, _ | ⟨w, rest⟩⟩ <;> rfl

section Reading

variable {β : Type} {name : String} {read : Value → Option β} {f : Fields → Option β}

/-- A search through the fields for the only one of a name finds what stands there at most once, and
gives what it gives without fields if nothing does. -/
theorem search_eq_atMostOne?
    (hcons : ∀ k v rest, f ((k, v) :: rest) =
      if k = name then if (all name rest).isEmpty then read v else none else f rest)
    (fields : Fields) :
    f fields = (atMostOne? name fields).bind fun v? => (v?.map read).getD (f []) := by
  induction fields with
  | nil => rfl
  | cons field rest ih =>
    obtain ⟨k, v⟩ := field
    rw [hcons, atMostOne?, all_cons]
    by_cases h : k = name
    · rw [if_pos h, if_pos h]
      cases hr : all name rest <;> rfl
    · rw [if_neg h, if_neg h, ih, atMostOne?]

/-- Such a search that gives nothing without fields finds what stands there exactly once. -/
theorem search_eq_only?
    (hcons : ∀ k v rest, f ((k, v) :: rest) =
      if k = name then if (all name rest).isEmpty then read v else none else f rest)
    (hnil : f [] = none) (fields : Fields) : f fields = (only? name fields).bind read := by
  rw [search_eq_atMostOne? hcons, only?_eq_bind, hnil]
  rcases atMostOne? name fields with _ | _ | v <;> rfl

end Reading

/-- Each name once, at its first place and with its last value. -/
def lastOfEach (fields : Fields) : Fields :=
  fields.foldl (fun done f => done.put f.1 f.2) []

end Fields

namespace Value

mutual

/-- The value with every object in it cut down to the last value of each name. -/
def distinct : Value → Value
  | .array items => .array (distinctItems items)
  | .object fields => .object (Fields.lastOfEach (distinctFields fields))
  | v => v

/-- `distinct` of each item. -/
def distinctItems : List Value → List Value
  | [] => []
  | v :: rest => v.distinct :: distinctItems rest

/-- `distinct` of each value. -/
def distinctFields : List (String × Value) → List (String × Value)
  | [] => []
  | (k, v) :: rest => (k, v.distinct) :: distinctFields rest

end

mutual

/-- How many arrays and objects stand inside each other. -/
def nesting : Value → Nat
  | .array items => nestingItems items + 1
  | .object fields => nestingFields fields + 1
  | _ => 0
termination_by structural v => v

/-- The deepest `nesting` among the items. -/
def nestingItems : List Value → Nat
  | [] => 0
  | v :: rest => max v.nesting (nestingItems rest)
termination_by structural vs => vs

/-- The deepest `nesting` among the fields. -/
def nestingFields : List (String × Value) → Nat
  | [] => 0
  | (_, v) :: rest => max v.nesting (nestingFields rest)
termination_by structural fields => fields

end

/-- Whether the value is null. -/
def isNull : Value → Bool
  | .null => true
  | _ => false

/-- A text, if the value is one. -/
def text? : Value → Option String
  | .text s => some s
  | _ => none

/-- A truth value, if the value is one. -/
def bool? : Value → Option Bool
  | .bool b => some b
  | _ => none

/-- The items, if the value is an array. -/
def items? : Value → Option (List Value)
  | .array items => some items
  | _ => none

end Value

end OperationCatalog
