import OperationCatalog.Text.Trim

/-!
# Binding expressions

The tree that says how the URL of a method is put together from literal text, parameters and the
properties of the root context, and its display form.
-/

namespace OperationCatalog

/-- An expression that computes part of a URL. -/
inductive Expression where
  | literal (text : String)
  | concat (items : List Expression)
  /-- A part of the URL that may be left out. -/
  | conditional (inner : Expression)
  /-- The root context itself. -/
  | root
  | property (base : Expression) (name : String)
  | parameter (name : String)
  | formatting (format : String)
  /-- An expression of a kind that is not known. -/
  | unsupported

namespace Expression

/-- The kinds of expression, in the order of their numbers. -/
inductive Kind where
  | literal
  | concat
  | conditional
  | root
  | property
  | parameter
  | formatting
  | unsupported
  deriving DecidableEq

/-- The name of a kind in documents and messages. -/
def Kind.name : Kind → String
  | .literal => "literal"
  | .concat => "concat"
  | .conditional => "conditional"
  | .root => "instance"
  | .property => "property"
  | .parameter => "parameter"
  | .formatting => "formatting"
  | .unsupported => "unsupported"

/-- All kinds, in the order of their numbers. -/
def Kind.all : List Kind :=
  [.literal, .concat, .conditional, .root, .property, .parameter, .formatting, .unsupported]

/-- The kind of an expression. -/
def kind : Expression → Kind
  | .literal _ => .literal
  | .concat _ => .concat
  | .conditional _ => .conditional
  | .root => .root
  | .property _ _ => .property
  | .parameter _ => .parameter
  | .formatting _ => .formatting
  | .unsupported => .unsupported

/-- The names of a chain of properties that starts at the root; `none` for any other expression. -/
def chain? : Expression → Option (List String)
  | .root => some []
  | .property base name => (chain? base).map (· ++ [name])
  | _ => none

/-- Names joined by dots, where no dot follows as long as there is nothing before it. -/
def dotted (names : List String) : String :=
  names.foldl (fun path name => if path.isEmpty then name else path ++ "." ++ name) ""

/-- The text between two braces. -/
def braced (text : String) : String := "\x7b" ++ text ++ "\x7d"

/-- A parameter name without the opening braces before it and the closing braces behind. -/
def unbraced (name : String) : String :=
  String.ofList (Text.dropTrailing (· = '\x7d') (name.toList.dropWhile (· = '\x7b')))

mutual

/-- The display form: literals as they are, names in braces, optional parts in brackets. -/
def display : Expression → String
  | .literal text => text
  | .concat items => displayItems items
  | .conditional inner => "[" ++ display inner ++ "]"
  | .root => ""
  | .property base name =>
    match chain? (.property base name) with
    | some names => braced (dotted names)
    | none => display base ++ "." ++ name
  | .parameter name => braced (unbraced name)
  | .formatting format => braced format
  | .unsupported => "<unsupported>"
termination_by structural e => e

/-- The display forms of the items, one after the other. -/
def displayItems : List Expression → String
  | [] => ""
  | e :: rest => display e ++ displayItems rest
termination_by structural es => es

end

/-- The display forms of items are those of each, one after the other. -/
theorem displayItems_eq_join (items : List Expression) :
    displayItems items = String.join (items.map display) := by
  induction items with
  | nil => rfl
  | cons e rest ih => rw [displayItems, ih, List.map_cons, String.join_cons]

theorem displayItems_append (xs ys : List Expression) :
    displayItems (xs ++ ys) = displayItems xs ++ displayItems ys := by
  induction xs with
  | nil => rw [List.nil_append, displayItems, String.empty_append]
  | cons e rest ih => rw [List.cons_append, displayItems, ih, displayItems, String.append_assoc]

/-! ## Structural equality -/

mutual

/-- Whether two expressions are the same tree. -/
def same : Expression → Expression → Bool
  | .literal s, .literal t => s = t
  | .concat xs, .concat ys => sameItems xs ys
  | .conditional x, .conditional y => same x y
  | .root, .root => true
  | .property x s, .property y t => same x y && s = t
  | .parameter s, .parameter t => s = t
  | .formatting s, .formatting t => s = t
  | .unsupported, .unsupported => true
  | _, _ => false
termination_by structural e => e

/-- Whether two lists hold the same trees. -/
def sameItems : List Expression → List Expression → Bool
  | [], [] => true
  | x :: xs, y :: ys => same x y && sameItems xs ys
  | _, _ => false
termination_by structural es => es

end

mutual

theorem same_iff : ∀ x y : Expression, same x y = true ↔ x = y
  | .literal _, y => by cases y <;> simp [same]
  | .concat xs, y => by cases y <;> simp [same, sameItems_iff xs]
  | .conditional x, y => by cases y <;> simp [same, same_iff x]
  | .root, y => by cases y <;> simp [same]
  | .property x _, y => by cases y <;> simp [same, same_iff x]
  | .parameter _, y => by cases y <;> simp [same]
  | .formatting _, y => by cases y <;> simp [same]
  | .unsupported, y => by cases y <;> simp [same]

theorem sameItems_iff : ∀ xs ys : List Expression, sameItems xs ys = true ↔ xs = ys
  | [], ys => by cases ys <;> simp [sameItems]
  | x :: xs, ys => by cases ys <;> simp [sameItems, same_iff x, sameItems_iff xs]

end

instance : DecidableEq Expression := fun x y => decidable_of_iff _ (same_iff x y)

end Expression

end OperationCatalog
