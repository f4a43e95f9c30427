import OperationCatalog.Json.Pass

/-!
# Reading JSON

`read` turns a text into a value, strictly by the grammar, with at most 127 arrays and objects inside
each other.  A `Shape` says which fields are of interest: the value of any other field is passed over,
whatever its depth, and left out of the result.
-/

namespace OperationCatalog.Json

/-- The parts of a document that are read.  An array in the place of a record gives the fields in
order. -/
inductive Shape where
  | whole
  | list (item : Shape)
  | record (fields : List (String × Shape))

namespace Shape

/-- The shape of an item of an array. -/
def item (shape : Shape) (index : Nat) : Shape :=
  match shape with
  | .whole => .whole
  | .list item => item
  | .record fields => (fields[index]?.map (·.2)).getD .whole

/-- The shape of a field of an object; `none` if the field is passed over. -/
def field (shape : Shape) (name : String) : Option Shape :=
  match shape with
  | .record fields => fields.lookup name
  | _ => some .whole

end Shape

mutual

/-- The value at the start of a text, with at most `depth` arrays and objects inside each other, and
what comes after it. -/
def readValue : Nat → Nat → Shape → List Char → Option (Value × List Char)
  | 0, _, _, _ => none
  | fuel + 1, depth, shape, cs =>
    match dropSpace cs with
    | '[' :: rest =>
      if depth = 0 then none
      else
        match dropSpace rest with
        | ']' :: rest => some (.array [], rest)
        | rest =>
          (readItems fuel (depth - 1) shape 0 rest).map fun (items, rest) => (.array items, rest)
    | '{' :: rest =>
      if depth = 0 then none
      else
        match dropSpace rest with
        | '}' :: rest => some (.object [], rest)
        | rest =>
          (readFields fuel (depth - 1) shape rest).map fun (fields, rest) => (.object fields, rest)
    | '"' :: rest => (readText rest).map fun (s, rest) => (.text (String.ofList s), rest)
    | 'n' :: 'u' :: 'l' :: 'l' :: rest => some (.null, rest)
    | 't' :: 'r' :: 'u' :: 'e' :: rest => some (.bool true, rest)
    | 'f' :: 'a' :: 'l' :: 's' :: 'e' :: rest => some (.bool false, rest)
    | cs => (Numeral.read cs).bind fun (n, rest) => n.value?.map (·, rest)

/-- The items of an array from number `index` on, up to the closing bracket. -/
def readItems : Nat → Nat → Shape → Nat → List Char → Option (List Value × List Char)
  | 0, _, _, _, _ => none
  | fuel + 1, depth, shape, index, cs =>
    (readValue fuel depth (shape.item index) cs).bind fun (v, rest) =>
      match dropSpace rest with
      | ',' :: rest =>
        (readItems fuel depth shape (index + 1) rest).map fun (vs, rest) => (v :: vs, rest)
      | ']' :: rest => some ([v], rest)
      | _ => none

/-- The fields of an object, up to the closing brace. -/
def readFields : Nat → Nat → Shape → List Char → Option (Fields × List Char)
  | 0, _, _, _ => none
  | fuel + 1, depth, shape, cs =>
    match dropSpace cs with
    | '"' :: rest =>
      (readText rest).bind fun (name, rest) =>
        match dropSpace rest with
        | ':' :: rest =>
          let entry : Option (Fields × List Char) :=
            match shape.field (String.ofList name) with
            | none => (passValue rest).map fun rest => ([], rest)
            | some s =>
              (readValue fuel depth s rest).map fun (v, rest) => ([(String.ofList name, v)], rest)
          entry.bind fun (entry, rest) =>
            match dropSpace rest with
            | ',' :: rest =>
              (readFields fuel depth shape rest).map fun (fs, rest) => (entry ++ fs, rest)
            | '}' :: rest => some (entry, rest)
            | _ => none
        | _ => none
    | _ => none

end

/-- The value of a whole text with at most `depth` arrays and objects inside each other. -/
def readWithin (depth : Nat) (shape : Shape) (text : String) : Option Value :=
  let cs := text.toList
  (readValue (2 * cs.length + 2) depth shape cs).bind fun (v, rest) =>
    if (dropSpace rest).isEmpty then some v else none

/-- How many arrays and objects may stand inside each other. -/
def nestingLimit : Nat := 127

/-- The value of a whole text. -/
def read (shape : Shape) (text : String) : Option Value := readWithin nestingLimit shape text

end OperationCatalog.Json
