import OperationCatalog.Proofs.ObjectSchema

/-!
# What schemas are made of

The schema of a type is a text in parentheses, or it is made from schemas of types that stand directly in
that type: it is one of these, or an array of one, or an object of some.  `Made` lists these ways and
nothing later opens the functions again.  So all that stands in a schema keeps to the grammar that is
published, and a schema does not reach deeper than its type.  Nor is there more in the grammar than the
schemas: each of its values is one, and of a type that is no deeper.

## Key results

- `BodyType.made_of_schema`: the ways in which a schema is made
- `BodyType.children_induction`: what holds of a type if it holds of those that stand in it
- `BodyType.isSchemaPart_of_mem_parts`, `BodyType.nesting_schema_le`: the grammar and the depth
- `schema_in_grammar`: both, for every type that has a schema
- `exists_schema_of_grammar`: the converse
-/

namespace OperationCatalog

/-! ## Values that stand in values -/

namespace Value

mutual

/-- All values that stand in a value, itself first. -/
def parts : Value → List Value
  | .array items => .array items :: partsOfItems items
  | .object fields => .object fields :: partsOfFields fields
  | v => [v]
termination_by structural v => v

/-- All values that stand in the items. -/
def partsOfItems : List Value → List Value
  | [] => []
  | v :: rest => parts v ++ partsOfItems rest
termination_by structural vs => vs

/-- All values that stand in the fields. -/
def partsOfFields : List (String × Value) → List Value
  | [] => []
  | (_, v) :: rest => parts v ++ partsOfFields rest
termination_by structural fields => fields

end

theorem mem_partsOfFields {part : Value} {fields : Fields} :
    part ∈ partsOfFields fields ↔ ∃ f ∈ fields, part ∈ f.2.parts := by
  induction fields with
  | nil => simp [partsOfFields]
  | cons f rest ih => simp [partsOfFields, ih]

theorem nestingFields_le_iff {fields : Fields} {n : Nat} :
    nestingFields fields ≤ n ↔ ∀ f ∈ fields, f.2.nesting ≤ n := by
  induction fields with
  | nil => simp [nestingFields]
  | cons f rest ih => simp [nestingFields, ih]

/-- What may stand at a place of a schema: an object in which each name stands once, an array of one
item, or a text in parentheses.  Nothing else may. -/
def IsSchemaPart : Value → Prop
  | .object fields => (fields.map Prod.fst).Nodup
  | .array items => items.length = 1
  | .text s => ∃ inner, s = "(" ++ inner ++ ")"
  | .null | .bool _ | .natural _ | .integer _ | .float _ => False

end Value

namespace BodyType

/-! ## Types that stand in types -/

mutual

/-- How many objects, arrays and dictionaries stand inside each other. -/
def nesting : BodyType → Nat
  | .object members => nestingOfMembers members + 1
  | .array elementFormat elementType => max (nestingOf elementFormat) (nestingOf elementType) + 1
  | .dictionary => 1
  | _ => 0
termination_by structural type => type

/-- The `nesting` of a type that may be missing. -/
def nestingOf : Option BodyType → Nat
  | none => 0
  | some type => nesting type
termination_by structural type? => type?

/-- The deepest `nesting` among the types of members. -/
def nestingOfMembers : List (Member BodyType) → Nat
  | [] => 0
  | member :: rest => max (nesting member.type) (nestingOfMembers rest)
termination_by structural members => members

end

/-- The types that stand directly in a type. -/
def children : BodyType → List BodyType
  | .object members => members.map Member.type
  | .array elementFormat elementType => elementFormat.toList ++ elementType.toList
  | _ => []

theorem nesting_le_nestingOfMembers {m : Member BodyType} {members : List (Member BodyType)}
    (h : m ∈ members) : m.type.nesting ≤ nestingOfMembers members := by
  induction members with
  | nil => cases h
  | cons c rest ih =>
    rw [nestingOfMembers]
    rcases List.mem_cons.1 h with rfl | h
    · exact Nat.le_max_left _ _
    · have hrest := ih h
      omega

theorem nesting_lt_of_mem_children {type part : BodyType} (h : part ∈ type.children) :
    part.nesting < type.nesting := by
  cases type with
  | object members =>
    obtain ⟨m, hm, rfl⟩ := List.mem_map.1 h
    have hle := nesting_le_nestingOfMembers hm
    rw [nesting]
    omega
  | array elementFormat elementType =>
    rw [nesting]
    rcases List.mem_append.1 h with hpart | hpart
    · obtain rfl := Option.mem_toList.1 hpart
      rw [nestingOf]
      omega
    · obtain rfl := Option.mem_toList.1 hpart
      rw [nestingOf]
      omega
  | _ => cases h

/-- What holds of a type if it holds of all types that stand directly in it, holds of every type. -/
@[elab_as_elim]
theorem children_induction {motive : BodyType → Prop}
    (step : ∀ type, (∀ part ∈ type.children, motive part) → motive type) (type : BodyType) :
    motive type :=
  step type fun part _ => children_induction step part
termination_by type.nesting
decreasing_by exact nesting_lt_of_mem_children ‹_›

/-! ## How schemas are made -/

/-- How the schema of a type may be made from the schemas of those that stand directly in it. -/
inductive Made (type : BodyType) : Value → Prop where
  | text (inner : String) : Made type (.text ("(" ++ inner ++ ")"))
  /-- The type is an envelope around another one. -/
  | child {part : BodyType} {s : Value} (hpart : part ∈ type.children) (h : part.schema = .ok s) :
    Made type s
  | array {part : BodyType} {item : Value} (hpart : part ∈ type.children)
    (h : part.schema = .ok item) : Made type (.array [item])
  /-- Only a type that is nested itself has an object for its schema, be it one without fields. -/
  | object {fields : Fields} (hpos : 0 < type.nesting) (hnames : (fields.map Prod.fst).Nodup)
    (h : ∀ f ∈ fields, ∃ part ∈ type.children, part.schema = .ok f.2) : Made type (.object fields)

/-- An element type with a text has it as its schema, too. -/
theorem schema_of_leafSchema {type : BodyType} {s : Value} (h : type.leafSchema = .ok s) :
    type.schema = .ok s := by
  cases type with
  | enumeration | primitive => exact h
  | _ => cases h

theorem made_of_leafSchema {type : BodyType} {s : Value} (h : type.leafSchema = .ok s) :
    Made type s := by
  cases type with
  | enumeration | primitive =>
    cases h
    exact .text _
  | _ => cases h

theorem made_of_object {members : List (Member BodyType)} {s : Value}
    (h : (object members).schema = .ok s) : Made (object members) s := by
  rcases schema_object_cases members with
    ⟨g, hmembers, hschema⟩ | ⟨before, m, after, rfl, -, -, hschema⟩
  · rw [hschema] at h
    cases h
    refine .object (Nat.succ_pos _) (Fields.nodup_lastOfEach _) fun f hf => ?_
    obtain ⟨m, hm, rfl⟩ := List.mem_map.1 (Fields.mem_of_mem_lastOfEach hf)
    exact ⟨m.type, List.mem_map_of_mem hm, (hmembers m hm).2⟩
  · -- the object has the schema of the member that it ends at
    have hm : m ∈ before ++ m :: after := List.mem_append_right _ List.mem_cons_self
    exact .child (List.mem_map_of_mem hm) (hschema ▸ h)

/-- A schema is made in one of these ways. -/
theorem made_of_schema {type : BodyType} {s : Value} (h : type.schema = .ok s) : Made type s := by
  match type, h with
  | .object members, h => exact made_of_object h
  | .array (some format) _, h =>
    rw [schema] at h
    cases hformat : format.schema with
    | error e =>
      rw [hformat] at h
      cases h
    | ok item =>
      rw [hformat] at h
      cases h
      exact .array (by simp [children]) hformat
  | .array none (some element), h =>
    rw [schema] at h
    cases helement : element.leafSchema with
    | error e =>
      rw [helement] at h
      cases h
    | ok item =>
      rw [helement] at h
      cases h
      exact .array (by simp [children]) (schema_of_leafSchema helement)
  | .array none none, h => cases h
  | .dictionary, h =>
    cases h
    exact .object Nat.one_pos List.nodup_nil (by simp)
  | .enumeration _, h => exact made_of_leafSchema h
  | .primitive _ _, h => exact made_of_leafSchema h
  | .xml, h =>
    cases h
    exact .text "xml"
  | .unsupported, h => cases h

/-! ## The grammar and the depth -/

theorem isSchemaPart_of_mem_parts {type : BodyType} {s : Value} (h : type.schema = .ok s) :
    ∀ part ∈ s.parts, part.IsSchemaPart := by
  induction type using children_induction generalizing s with
  | step type ih =>
    cases made_of_schema h with
    | text inner =>
      intro part hpart
      rw [List.mem_singleton.1 hpart]
      exact ⟨inner, rfl⟩
    | child hchild hschema => exact ih _ hchild hschema
    | array hchild hschema =>
      intro part hpart
      rcases List.mem_cons.1 hpart with rfl | hpart
      · rfl
      · rw [Value.partsOfItems, Value.partsOfItems, List.append_nil] at hpart
        exact ih _ hchild hschema part hpart
    | object _ hnames hfields =>
      intro part hpart
      rcases List.mem_cons.1 hpart with rfl | hpart
      · exact hnames
      · -- below the object, the part stands in one of the fields
        obtain ⟨f, hf, hpart⟩ := Value.mem_partsOfFields.1 hpart
        obtain ⟨child, hchild, hschema⟩ := hfields f hf
        exact ih child hchild hschema part hpart

theorem nesting_schema_le {type : BodyType} {s : Value} (h : type.schema = .ok s) :
    s.nesting ≤ type.nesting := by
  induction type using children_induction generalizing s with
  | step type ih =>
    cases made_of_schema h with
    | text inner => exact Nat.zero_le _
    | child hchild hschema =>
      have hle := ih _ hchild hschema
      have hlt := nesting_lt_of_mem_children hchild
      omega
    | array hchild hschema =>
      have hle := ih _ hchild hschema
      have hlt := nesting_lt_of_mem_children hchild
      simp only [Value.nesting, Value.nestingItems]
      omega
    | @object fields hpos _ hfields =>
      -- each field is the schema of a type inside this one, which is at least one level deep itself
      have hroom : Value.nestingFields fields ≤ type.nesting - 1 := by
        refine Value.nestingFields_le_iff.2 fun f hf => ?_
        obtain ⟨child, hchild, hschema⟩ := hfields f hf
        have hle := ih child hchild hschema
        have hlt := nesting_lt_of_mem_children hchild
        omega
      rw [Value.nesting]
      omega

end BodyType

/-- The schema of a type keeps to the grammar at every depth: objects in which each name stands once,
    arrays of one item and texts in parentheses, and nothing else.  It is nested at most as deep as the
    type. -/
theorem schema_in_grammar {type : BodyType} {s : Value} (h : type.schema = .ok s) :
    (∀ part ∈ s.parts, part.IsSchemaPart) ∧ s.nesting ≤ type.nesting :=
  ⟨BodyType.isSchemaPart_of_mem_parts h, BodyType.nesting_schema_le h⟩

/-- An envelope around rows, in which one name stands twice. -/
theorem schema_in_grammar_sample :
    ∃ s, (BodyType.object [⟨"value", .array (some (.object [⟨"id", .primitive "Guid?" true, false⟩,
        ⟨"tags", .xml, false⟩, ⟨"tags", .dictionary, false⟩])) none, true⟩]).schema = .ok s ∧
      (∀ part ∈ s.parts, part.IsSchemaPart) ∧ s.nesting = 3 ∧ s.nesting ≤ 4 := by
  have hschema : (BodyType.object [⟨"value", .array (some (.object [
      ⟨"id", .primitive "Guid?" true, false⟩, ⟨"tags", .xml, false⟩,
      ⟨"tags", .dictionary, false⟩])) none, true⟩]).schema =
      .ok (.array [.object [("id", .text "(guid)"), ("tags", .object [])]]) := by
    rfl
  obtain ⟨hparts, hnesting⟩ := schema_in_grammar hschema
  exact ⟨_, hschema, hparts, rfl, hnesting⟩

/-! ## Every value of the grammar is a schema -/

mutual

theorem exists_schema_of_grammar : ∀ {s : Value}, (∀ part ∈ s.parts, part.IsSchemaPart) →
    ∃ type : BodyType, type.schema = .ok s ∧ type.nesting = s.nesting
  | .text s, h => by
    obtain ⟨inner, rfl⟩ := h (.text s) List.mem_cons_self
    exact ⟨.enumeration [inner], rfl, rfl⟩
  | .array [item], h => by
    obtain ⟨type, hschema, hnesting⟩ := exists_schema_of_grammar (s := item) fun part hpart =>
      h part (List.mem_cons_of_mem _ (List.mem_append_left _ hpart))
    refine ⟨.array (some type) none, ?_, ?_⟩
    · rw [BodyType.schema, hschema]
      rfl
    · simp only [BodyType.nesting, BodyType.nestingOf, Value.nesting, Value.nestingItems, hnesting]
  | .array [], h => by
    have hlength := h (.array []) List.mem_cons_self
    cases hlength
  | .array (_ :: _ :: _), h => by
    have hlength := h (.array _) List.mem_cons_self
    cases hlength
  | .object fields, h => by
    have hnames : (fields.map Prod.fst).Nodup := h (.object fields) List.mem_cons_self
    obtain ⟨members, hgives, hnesting⟩ := exists_members_of_grammar fields fun part hpart =>
      h part (List.mem_cons_of_mem _ hpart)
    refine ⟨.object members, ?_, ?_⟩
    · rw [BodyType.schema_object_of_gives hgives, Fields.lastOfEach_of_nodup hnames]
    · rw [BodyType.nesting, Value.nesting, hnesting]
  | .null, h | .bool _, h | .natural _, h | .integer _, h | .float _, h =>
    (h _ List.mem_cons_self).elim
termination_by structural s => s

/-- Fields of the grammar are given by members that do not pass through. -/
theorem exists_members_of_grammar : ∀ fields : List (String × Value),
    (∀ part ∈ Value.partsOfFields fields, part.IsSchemaPart) →
    ∃ members : List (Member BodyType), List.Forall₂ BodyType.Gives members fields ∧
      BodyType.nestingOfMembers members = Value.nestingFields fields
  | [], _ => ⟨[], .nil, rfl⟩
  | (name, v) :: rest, h => by
    obtain ⟨type, hschema, hnesting⟩ := exists_schema_of_grammar (s := v) fun part hpart =>
      h part (List.mem_append_left _ hpart)
    obtain ⟨members, hgives, hmembers⟩ := exists_members_of_grammar rest fun part hpart =>
      h part (List.mem_append_right _ hpart)
    refine ⟨⟨name, type, false⟩ :: members, .cons ⟨rfl, rfl, hschema⟩ hgives, ?_⟩
    rw [BodyType.nestingOfMembers, Value.nestingFields, hnesting, hmembers]
termination_by structural fields => fields

end

end OperationCatalog
