import OperationCatalog.BodyType.Schema

/-!
# Parts of a type that no schema is read from

Three parts of a type do not count for its schema, at whatever depth they stand: the element type of an
array that has an element format, the members behind the first one of an object that passes through, and
all of an element type but its kind, if that is neither an enumeration nor primitive.  Two types may
differ in any number of these parts at once.  `SameWhereRead` relates such types and goes down the two
trees side by side as far as a schema is read; so does the proof, over values and errors alike.

## Key results

- `leafSchema_of_kind`: an element type that has no schema counts for its kind alone
- `SameWhereRead.schema_eq`, `SameMembers.membersSchema_eq`: one step down both trees
- `schema_of_sameWhereRead`: the schemas are the same
-/

namespace OperationCatalog.BodyType

/-! ## Types that are the same where they are read -/

mutual

/-- Types that differ in nothing but parts that no schema is read from. -/
inductive SameWhereRead : BodyType → BodyType → Prop where
  | refl (type : BodyType) : SameWhereRead type type
  | object {members members' : List (Member BodyType)} (h : SameMembers members members') :
    SameWhereRead (.object members) (.object members')
  /-- Beside an element format any element type may stand, or none. -/
  | format {format format' : BodyType} (h : SameWhereRead format format')
    (elementType elementType' : Option BodyType) :
    SameWhereRead (.array (some format) elementType) (.array (some format') elementType')
  /-- Element types of one kind, which is not known by a text. -/
  | element {type type' : BodyType} (hkind : type.kind = type'.kind)
    (henumeration : type.kind ≠ .enumeration) (hprimitive : type.kind ≠ .primitive) :
    SameWhereRead (.array none (some type)) (.array none (some type'))

/-- Members that differ in nothing but such parts.  Behind the first one that passes through any others
may stand, or none. -/
inductive SameMembers : List (Member BodyType) → List (Member BodyType) → Prop where
  | nil : SameMembers [] []
  | passing (name : String) {type type' : BodyType} (h : SameWhereRead type type')
    (after after' : List (Member BodyType)) :
    SameMembers (⟨name, type, true⟩ :: after) (⟨name, type', true⟩ :: after')
  | next (name : String) {type type' : BodyType} {rest rest' : List (Member BodyType)}
    (h : SameWhereRead type type') (hrest : SameMembers rest rest') :
    SameMembers (⟨name, type, false⟩ :: rest) (⟨name, type', false⟩ :: rest')

end

/-! ## Their schemas -/

/-- What is neither an enumeration nor primitive is refused as an element type, with its kind. -/
theorem leafSchema_of_kind {type : BodyType} (henumeration : type.kind ≠ .enumeration)
    (hprimitive : type.kind ≠ .primitive) :
    type.leafSchema = .error (.unsupportedArrayElement type.kind) := by
  cases type with
  | enumeration values => exact absurd rfl henumeration
  | primitive name nullable => exact absurd rfl hprimitive
  | _ => rfl

mutual

theorem SameWhereRead.schema_eq {type type' : BodyType} :
    SameWhereRead type type' → type.schema = type'.schema
  | .refl _ => rfl
  | .object h => by
    rw [schema, schema]
    exact h.membersSchema_eq []
  | .format h _ _ => by
    -- the element types are not looked at
    rw [schema, schema, h.schema_eq]
  | .element hkind henumeration hprimitive => by
    have hrefused := leafSchema_of_kind henumeration hprimitive
    rw [hkind] at henumeration hprimitive hrefused
    rw [schema, schema, hrefused, leafSchema_of_kind henumeration hprimitive]

/-- The fields that the members before have given are the same on both sides, since the names and the
    schemas are. -/
theorem SameMembers.membersSchema_eq {members members' : List (Member BodyType)} :
    SameMembers members members' → ∀ fields, membersSchema fields members = membersSchema fields members'
  | .nil, _ => rfl
  | .passing name h after after', fields => by
    rw [membersSchema, membersSchema, if_pos rfl, if_pos rfl]
    exact h.schema_eq
  | .next name h hrest, fields => by
    simp only [membersSchema, Bool.false_eq_true, if_false, h.schema_eq]
    split
    · -- both end with the same error
      rfl
    · exact hrest.membersSchema_eq _

end

/-- Other parts in the place of those that no schema is read from, any number of them and at any depth,
    leave the schema of a type as it is, or the reason why it has none. -/
theorem schema_of_sameWhereRead {type type' : BodyType} (h : SameWhereRead type type') :
    type.schema = type'.schema :=
  h.schema_eq

/-- A list of envelopes with other parts in three places at once, and an object that has no schema with
    another element type of the same kind. -/
theorem schema_of_sameWhereRead_sample :
    ((array (some (object [⟨"link", .primitive "String" false, false⟩,
        ⟨"value", .array (some .dictionary) (some .unsupported), true⟩,
        ⟨"count", .unsupported, false⟩])) (some .xml)).schema = .ok (.array [.array [.object []]]) ∧
      (array (some (object [⟨"link", .primitive "String" false, false⟩,
        ⟨"value", .array (some .dictionary) none, true⟩])) none).schema =
        .ok (.array [.array [.object []]])) ∧
    (object [⟨"tags", .array none (some (.object [⟨"id", .xml, false⟩])), false⟩]).schema =
      (object [⟨"tags", .array none (some (.object [])), false⟩]).schema := by
  have henvelope : (array (some (object [⟨"link", .primitive "String" false, false⟩,
      ⟨"value", .array (some .dictionary) (some .unsupported), true⟩,
      ⟨"count", .unsupported, false⟩])) (some .xml)).schema = .ok (.array [.array [.object []]]) := rfl
  have hsame : SameWhereRead
      (array (some (object [⟨"link", .primitive "String" false, false⟩,
        ⟨"value", .array (some .dictionary) (some .unsupported), true⟩,
        ⟨"count", .unsupported, false⟩])) (some .xml))
      (array (some (object [⟨"link", .primitive "String" false, false⟩,
        ⟨"value", .array (some .dictionary) none, true⟩])) none) :=
    .format (.object (.next "link" (.refl _) (.passing "value" (.format (.refl _) _ _) _ _))) _ _
  refine ⟨⟨henvelope, (schema_of_sameWhereRead hsame).symm.trans henvelope⟩, ?_⟩
  exact schema_of_sameWhereRead
    (.object (.next "tags" (.element rfl (by decide) (by decide)) .nil))

end OperationCatalog.BodyType
