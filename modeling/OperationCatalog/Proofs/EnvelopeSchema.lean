import OperationCatalog.BodyType.Schema

/-!
# Schemas of envelopes

An object with a member that passes through is an envelope, and the schema of that member's type stands
for the whole.  The members are looked at in their order, though, and an object ends at the first one
that passes through or whose type has no schema, whichever comes first.  What stands behind that member
is of no account; what stands before it is none either.

An envelope may stand anywhere inside a type where a schema is asked for: as the type of a member or as
the format of an array's elements.

## Key results

- `membersSchema_of_first`: the member that an object ends at
- `schema_exchanged`: a part of a type counts for its schema alone, at any depth
- `schema_of_envelope`: the schema of a type with an envelope in it
-/

namespace OperationCatalog.BodyType

/-! ## A part of a type -/

/-- `whole'` is `whole` with `part'` in the place of `part`, at any depth. -/
inductive Exchanged (part part' : BodyType) : BodyType → BodyType → Prop where
  | here : Exchanged part part' part part'
  | member (before : List (Member BodyType)) (name : String) {type type' : BodyType}
    (passThrough : Bool) (after : List (Member BodyType)) (h : Exchanged part part' type type') :
    Exchanged part part' (.object (before ++ ⟨name, type, passThrough⟩ :: after))
      (.object (before ++ ⟨name, type', passThrough⟩ :: after))
  | element {format format' : BodyType} (elementType : Option BodyType)
    (h : Exchanged part part' format format') :
    Exchanged part part' (.array (some format) elementType) (.array (some format') elementType)

/-- The type of a member counts for its schema alone. -/
theorem membersSchema_congr {type type' : BodyType} (h : type.schema = type'.schema) (name : String)
    (passThrough : Bool) (after : List (Member BodyType)) :
    ∀ (fields : Fields) (before : List (Member BodyType)),
      membersSchema fields (before ++ ⟨name, type, passThrough⟩ :: after) =
        membersSchema fields (before ++ ⟨name, type', passThrough⟩ :: after) := by
  intro fields before
  induction before generalizing fields with
  | nil => simp only [List.nil_append, membersSchema, h]
  | cons b before ih =>
    simp only [List.cons_append, membersSchema]
    split
    · rfl
    · split
      · rfl
      · exact ih _

/-- A part of a type counts for its schema alone. -/
theorem schema_exchanged {part part' whole whole' : BodyType} (h : part.schema = part'.schema)
    (hex : Exchanged part part' whole whole') : whole.schema = whole'.schema := by
  induction hex with
  | here => exact h
  | member before name passThrough after _ ih =>
    -- the members before are gone over in the same way, whatever they come to
    rw [schema, schema]
    exact membersSchema_congr ih name passThrough after [] before
  | element elementType _ ih => rw [schema, schema, ih]

/-! ## The member that an object ends at -/

/-- Members with a schema that do not pass through are gone over. -/
theorem membersSchema_of_first {first rest : List (Member BodyType)} {m : Member BodyType}
    (hfirst : ∀ c ∈ first, c.passThrough = false ∧ ∃ s, c.type.schema = .ok s)
    (hm : m.passThrough = true ∨ ∃ e, m.type.schema = .error e) (fields : Fields) :
    membersSchema fields (first ++ m :: rest) = m.type.schema := by
  induction first generalizing fields with
  | nil =>
    -- the fields that were collected are given up, for the schema of `m` or its error
    rw [List.nil_append, membersSchema]
    rcases hm with hpass | ⟨e, he⟩
    · rw [if_pos hpass]
    · rw [he]
      exact ite_self _
  | cons c first ih =>
    obtain ⟨⟨hpass, s, hs⟩, hrest⟩ := List.forall_mem_cons.1 hfirst
    simp only [List.cons_append, membersSchema, hpass, Bool.false_eq_true, if_false, hs]
    exact ih hrest _

/-- The schema of an object is that of the first member that passes through or has none. -/
theorem schema_object_of_first {first rest : List (Member BodyType)} {m : Member BodyType}
    (hfirst : ∀ c ∈ first, c.passThrough = false ∧ ∃ s, c.type.schema = .ok s)
    (hm : m.passThrough = true ∨ ∃ e, m.type.schema = .error e) :
    (object (first ++ m :: rest)).schema = m.type.schema := by
  rw [schema]
  exact membersSchema_of_first hfirst hm []

/-- An envelope, whose first member that passes through is `m`, counts for the type of that member,
    wherever it stands, if the types of the members before all have schemas.  Otherwise it counts for
    the first of these types that has none.  The members behind are never of account. -/
theorem schema_of_envelope {before after : List (Member BodyType)} {m : Member BodyType}
    (hbefore : ∀ b ∈ before, b.passThrough = false) (hm : m.passThrough = true)
    (whole whole' : BodyType) :
    ((∀ b ∈ before, ∃ s, b.type.schema = .ok s) →
      Exchanged (.object (before ++ m :: after)) m.type whole whole' →
      whole.schema = whole'.schema) ∧
    ∀ first b rest e, before = first ++ b :: rest → (∀ c ∈ first, ∃ s, c.type.schema = .ok s) →
      b.type.schema = .error e → Exchanged (.object (before ++ m :: after)) b.type whole whole' →
      whole.schema = whole'.schema := by
  constructor
  · intro hall hex
    refine schema_exchanged (schema_object_of_first (fun b hb => ?_) (.inl hm)) hex
    exact ⟨hbefore b hb, hall b hb⟩
  · intro first b rest e hsplit hfirst he hex
    rw [hsplit, List.append_assoc, List.cons_append] at hex
    refine schema_exchanged (schema_object_of_first (fun c hc => ?_) (.inr ⟨e, he⟩)) hex
    have hmem : c ∈ before := hsplit ▸ List.mem_append_left _ hc
    exact ⟨hbefore c hmem, hfirst c hc⟩

/-- A list of envelopes, each with a link before the value and a count behind it. -/
theorem schema_of_envelope_sample :
    (array (some (.object [⟨"nextLink", .primitive "String" false, false⟩,
      ⟨"value", .dictionary, true⟩, ⟨"count", .unsupported, false⟩])) none).schema =
      (array (some .dictionary) none).schema := by
  have hbefore : ∀ b ∈ [(⟨"nextLink", .primitive "String" false, false⟩ : Member BodyType)],
      b.passThrough = false := by simp
  have hpass : (⟨"value", .dictionary, true⟩ : Member BodyType).passThrough = true := rfl
  exact (schema_of_envelope hbefore hpass _ _).1 (by simp [schema, leafSchema]) (.element none .here)

/-- The error of a member before the one that passes through is the answer. -/
theorem schema_of_envelope_with_error :
    ¬ ∀ (before after : List (Member BodyType)) (m : Member BodyType),
      (∀ b ∈ before, b.passThrough = false) → m.passThrough = true →
      (object (before ++ m :: after)).schema = m.type.schema := by
  intro h
  have hsame := h [⟨"blob", .unsupported, false⟩] [] ⟨"value", .primitive "String" false, true⟩
    (by simp) rfl
  have hblob : (object [⟨"blob", .unsupported, false⟩,
      ⟨"value", .primitive "String" false, true⟩]).schema =
      .error (.unsupportedType .unsupported) := rfl
  have hvalue : (primitive "String" false).schema = .ok (.text "(string)") := by rfl
  rw [List.singleton_append, hblob, hvalue] at hsame
  cases hsame

end OperationCatalog.BodyType
