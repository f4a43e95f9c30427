import OperationCatalog.BodyType.Document
import OperationCatalog.Expression.Document
import OperationCatalog.Proofs.JsonWriting

/-!
# Written expressions and types of bodies denote what was written

`toValue` writes each tree in one form, the object with all fields of its kind, where `ofValue?` takes
arrays, numbers for kinds and missing fields as well.  What is written is taken back, by induction on
the tree; and a value that denotes a tree is nested at least as deep as the one that is written.

## Key results

- `Expression.ofValue?_toValue`, `BodyType.ofValue?_toValue`: a written tree denotes itself
- `Expression.nesting_toValue_le`, `BodyType.nesting_toValue_le`: no value of a tree is nested less than
  the written one
- `Expression.plain_toValue`, `BodyType.plain_toValue`: no number is written
-/

namespace OperationCatalog

open Json (Plain PlainItems PlainFields)

/-- The value under a name at the front, if the name does not come again. -/
theorem Fields.only?_cons_self {name : String} {v : Value} {rest : Fields} (h : rest.all name = []) :
    Fields.only? name ((name, v) :: rest) = some v := by
  simp only [only?, all_cons, if_true, h]

/-- Fields are nested at least as deep as a value under one of their names. -/
theorem Fields.nesting_of_mem_all {fields : Fields} {name : String} {v : Value}
    (h : v ∈ fields.all name) : v.nesting ≤ Value.nestingFields fields := by
  induction fields with
  | nil => cases h
  | cons f rest ih =>
    obtain ⟨k, w⟩ := f
    rw [Value.nestingFields]
    rw [all_cons] at h
    split at h
    · rcases List.mem_cons.1 h with rfl | hrest
      · exact Nat.le_max_left ..
      · exact Nat.le_trans (ih hrest) (Nat.le_max_right ..)
    · exact Nat.le_trans (ih h) (Nat.le_max_right ..)

theorem Fields.nesting_of_only? {fields : Fields} {name : String} {v : Value}
    (h : fields.only? name = some v) : v.nesting ≤ Value.nestingFields fields := by
  rw [only?] at h
  split at h
  · rename_i w hall
    cases h
    have hmem : v ∈ fields.all name := by
      rw [hall]
      exact List.mem_singleton_self v
    exact nesting_of_mem_all hmem
  · cases h

namespace Expression

theorem Kind.ofName_name (kind : Kind) : Kind.ofName kind.name = kind := by
  cases kind <;> decide

/-- A written kind is taken back. -/
theorem Kind.ofFields?_cons {inner : Bool} {kind : Kind} {fields : Fields}
    (h : fields.all "kind" = []) :
    Kind.ofFields? inner (("kind", .text kind.name) :: fields) = some kind := by
  rw [ofFields?, Fields.only?_cons_self h, Option.bind_some, ofValue?, ofName_name]

mutual

/-- A written expression denotes itself. -/
theorem ofValue?_toValue : ∀ (e : Expression) (inner : Bool), ofValue? inner e.toValue = some e
  | .literal text, inner => by
    simp [toValue, Kind.toValue, ofValue?, Kind.ofFields?_cons, textField?, Fields.only?, Value.text?]
  | .concat items, inner => by
    simp [toValue, Kind.toValue, ofValue?, Kind.ofFields?_cons, arrayField?, ofArray?,
      ofItems?_toValues items]
  | .conditional e, inner => by
    simp [toValue, Kind.toValue, ofValue?, Kind.ofFields?_cons, field?, ofValue?_toValue e true]
  | .root, _ => rfl
  | .property base name, inner => by
    simp [toValue, Kind.toValue, ofValue?, Kind.ofFields?_cons, field?, textField?, Fields.only?,
      Value.text?, ofValue?_toValue base true]
  | .parameter name, inner => by
    simp [toValue, Kind.toValue, ofValue?, Kind.ofFields?_cons, textField?, Fields.only?, Value.text?]
  | .formatting format, inner => by
    simp [toValue, Kind.toValue, ofValue?, Kind.ofFields?_cons, textField?, Fields.only?, Value.text?]
  | .unsupported, _ => rfl
termination_by structural e => e

theorem ofItems?_toValues : ∀ es : List Expression, ofItems? (toValues es) = some es
  | [] => rfl
  | e :: rest => by
    simp only [toValues, ofItems?, ofValue?_toValue e true, ofItems?_toValues rest]
termination_by structural es => es

end

mutual

/-- No number is written for an expression. -/
theorem plain_toValue : ∀ e : Expression, Plain e.toValue
  | .concat items => by simp [toValue, Kind.toValue, Plain, PlainFields, plainItems_toValues items]
  | .conditional e => by simp [toValue, Kind.toValue, Plain, PlainFields, plain_toValue e]
  | .property base _ => by simp [toValue, Kind.toValue, Plain, PlainFields, plain_toValue base]
  | .literal _ | .root | .parameter _ | .formatting _ | .unsupported => by
    simp [toValue, Kind.toValue, Plain, PlainFields]
termination_by structural e => e

theorem plainItems_toValues : ∀ es : List Expression, PlainItems (toValues es)
  | [] => trivial
  | e :: rest => ⟨plain_toValue e, plainItems_toValues rest⟩
termination_by structural es => es

end

@[simp] theorem Kind.nesting_toValue (kind : Kind) (fields : Fields) :
    (kind.toValue fields).nesting = Value.nestingFields fields + 1 := by
  simp [toValue, Value.nesting, Value.nestingFields]

mutual

/-- A value that denotes an expression is nested at least as deep as the object that is written. -/
theorem nesting_toValue_le : ∀ {v : Value} {inner : Bool} {e : Expression},
    ofValue? inner v = some e → e.toValue.nesting ≤ v.nesting
  | .object fields, inner, e, h => by
    rw [ofValue?] at h
    rw [Value.nesting]
    split at h
    · cases h
    · obtain ⟨text, -, rfl⟩ := Option.map_eq_some_iff.1 h
      simp [toValue, Value.nesting, Value.nestingFields]
    · obtain ⟨items, hitems, rfl⟩ := Option.map_eq_some_iff.1 h
      have hle := nestingItems_toValues_le_arrayField hitems
      simp only [toValue, Kind.nesting_toValue, Value.nesting, Value.nestingFields]
      omega
    · obtain ⟨inner, hinner, rfl⟩ := Option.map_eq_some_iff.1 h
      have hle := nesting_toValue_le_field hinner
      simp only [toValue, Kind.nesting_toValue, Value.nestingFields]
      omega
    · cases h
      simp [toValue, Value.nestingFields]
    · split at h
      · rename_i base name hbase hname
        cases h
        have hle := nesting_toValue_le_field hbase
        simp only [toValue, Kind.nesting_toValue, Value.nesting, Value.nestingFields]
        omega
      · cases h
    · obtain ⟨name, -, rfl⟩ := Option.map_eq_some_iff.1 h
      simp [toValue, Value.nesting, Value.nestingFields]
    · obtain ⟨format, -, rfl⟩ := Option.map_eq_some_iff.1 h
      simp [toValue, Value.nesting, Value.nestingFields]
    · cases h
      simp [toValue, Value.nestingFields]
  | .array [], _, _, h => by cases h
  | .array (tag :: arguments), inner, e, h => by
    rw [ofValue?.eq_def] at h
    simp only at h
    rw [Value.nesting, Value.nestingItems]
    split at h
    · cases h
      simp [toValue, Value.nesting, Value.nestingFields]
    · obtain ⟨items, hitems, rfl⟩ := Option.map_eq_some_iff.1 h
      have hle := nestingItems_toValues_le hitems
      simp only [toValue, Kind.nesting_toValue, Value.nesting, Value.nestingFields,
        Value.nestingItems]
      omega
    · obtain ⟨inner, hinner, rfl⟩ := Option.map_eq_some_iff.1 h
      have hle := nesting_toValue_le hinner
      simp only [toValue, Kind.nesting_toValue, Value.nestingFields, Value.nestingItems]
      omega
    · cases h
      simp [toValue, Value.nestingFields]
    · obtain ⟨base, hbase, rfl⟩ := Option.map_eq_some_iff.1 h
      have hle := nesting_toValue_le hbase
      simp only [toValue, Kind.nesting_toValue, Value.nesting, Value.nestingFields,
        Value.nestingItems]
      omega
    · cases h
      simp [toValue, Value.nesting, Value.nestingFields]
    · cases h
      simp [toValue, Value.nesting, Value.nestingFields]
    · cases h
      simp [toValue, Value.nestingFields]
    · cases h
  | .null, _, _, h | .bool _, _, _, h | .natural _, _, _, h | .integer _, _, _, h
  | .float _, _, _, h | .text _, _, _, h => by cases h
termination_by v => sizeOf v

theorem nestingItems_toValues_le : ∀ {items : List Value} {es : List Expression},
    ofItems? items = some es → Value.nestingItems (toValues es) ≤ Value.nestingItems items
  | [], es, h => by
    cases h
    exact Nat.le_refl _
  | v :: rest, es, h => by
    rw [ofItems?] at h
    split at h
    · rename_i e es' he hes
      cases h
      have hle := nesting_toValue_le he
      have hrest := nestingItems_toValues_le hes
      simp only [toValues, Value.nestingItems]
      omega
    · cases h
termination_by items => sizeOf items

theorem nesting_toValue_le_field : ∀ {fields : List (String × Value)} {name : String}
    {e : Expression}, field? name fields = some e → e.toValue.nesting ≤ Value.nestingFields fields
  | [], _, _, h => by cases h
  | (k, v) :: rest, name, e, h => by
    rw [field?] at h
    rw [Value.nestingFields]
    split at h
    · split at h
      · exact Nat.le_trans (nesting_toValue_le h) (Nat.le_max_left ..)
      · cases h
    · exact Nat.le_trans (nesting_toValue_le_field h) (Nat.le_max_right ..)
termination_by fields => sizeOf fields

theorem nestingItems_toValues_le_arrayField : ∀ {fields : List (String × Value)} {name : String}
    {es : List Expression}, arrayField? name fields = some es →
    Value.nestingItems (toValues es) + 1 ≤ Value.nestingFields fields
  | [], _, _, h => by cases h
  | (k, v) :: rest, name, es, h => by
    rw [arrayField?] at h
    rw [Value.nestingFields]
    split at h
    · split at h
      · cases v with
        | array items =>
          have hle := nestingItems_toValues_le h
          rw [Value.nesting]
          omega
        | _ => cases h
      · cases h
    · exact Nat.le_trans (nestingItems_toValues_le_arrayField h) (Nat.le_max_right ..)
termination_by fields => sizeOf fields

end

end Expression

namespace BodyType

theorem Kind.ofName_name (kind : Kind) : Kind.ofName kind.name = kind := by
  cases kind <;> decide

/-- A written kind is taken back. -/
theorem Kind.ofFields?_cons {inner : Bool} {kind : Kind} {fields : Fields}
    (h : fields.all "kind" = []) :
    Kind.ofFields? inner (("kind", .text kind.name) :: fields) = some kind := by
  rw [ofFields?, Fields.only?_cons_self h, Option.bind_some, ofValue?, ofName_name]

/-- Written texts are taken back. -/
theorem texts?_map_text (values : List String) : texts? (.array (values.map .text)) = some values := by
  rw [texts?, Value.items?, Option.bind_some]
  induction values with
  | nil => rfl
  | cons s rest ih => simp [Value.text?, ih]

theorem isNull_toValue (type : BodyType) : type.toValue.isNull = false := by
  cases type <;> rfl

mutual

/-- A written type denotes itself. -/
theorem ofValue?_toValue : ∀ (type : BodyType) (inner : Bool),
    ofValue? inner type.toValue = some type
  | .object members, inner => by
    simp [toValue, Kind.toValue, ofValue?, Kind.ofFields?_cons, membersField?, membersOfValue?,
      membersOfItems?_membersToValues members]
  | .array format type, inner => by
    simp [toValue, Kind.toValue, ofValue?, Kind.ofFields?_cons, elementField?,
      orNull_elementToValue format, orNull_elementToValue type]
  | .dictionary, _ => rfl
  | .enumeration values, inner => by
    simp [toValue, Kind.toValue, ofValue?, Kind.ofFields?_cons, Fields.only?, texts?_map_text]
  | .primitive name nullable, inner => by
    simp [toValue, Kind.toValue, ofValue?, Kind.ofFields?_cons, Fields.only?, Fields.atMostOne?,
      flag?, Value.text?, Value.bool?]
  | .xml, _ => rfl
  | .unsupported, _ => rfl
termination_by structural type => type

/-- A written type of elements is taken back, or that there is none. -/
theorem orNull_elementToValue : ∀ element : Option BodyType,
    orNull (elementToValue element) (ofValue? true (elementToValue element)) = some element
  | none => rfl
  | some type => by
    simp only [elementToValue, orNull, isNull_toValue, ofValue?_toValue type true,
      Bool.false_eq_true, if_false, Option.map_some]
termination_by structural element => element

theorem membersOfItems?_membersToValues : ∀ members : List (Member BodyType),
    membersOfItems? (membersToValues members) = some members
  | [] => rfl
  | member :: rest => by
    have htype := ofValue?_toValue member.type true
    simp [membersToValues, membersOfItems?, memberOfValue?, field?, Fields.only?, Fields.atMostOne?,
      flag?, Value.text?, Value.bool?, htype, membersOfItems?_membersToValues rest]
termination_by structural members => members

end

theorem plain_texts (values : List String) : PlainItems (values.map .text) := by
  rw [Json.plainItems_iff]
  intro v hv
  obtain ⟨s, -, rfl⟩ := List.mem_map.1 hv
  trivial

mutual

/-- No number is written for a type. -/
theorem plain_toValue : ∀ type : BodyType, Plain type.toValue
  | .object members => by
    simp [toValue, Kind.toValue, Plain, PlainFields, plainItems_membersToValues members]
  | .array format type => by
    simp [toValue, Kind.toValue, Plain, PlainFields, plain_elementToValue format,
      plain_elementToValue type]
  | .enumeration values => by simp [toValue, Kind.toValue, Plain, PlainFields, plain_texts values]
  | .dictionary | .primitive .. | .xml | .unsupported => by
    simp [toValue, Kind.toValue, Plain, PlainFields]
termination_by structural type => type

theorem plain_elementToValue : ∀ element : Option BodyType, Plain (elementToValue element)
  | none => trivial
  | some type => plain_toValue type
termination_by structural element => element

theorem plainItems_membersToValues : ∀ members : List (Member BodyType),
    PlainItems (membersToValues members)
  | [] => trivial
  | member :: rest => by
    have htype := plain_toValue member.type
    simp [membersToValues, PlainItems, Plain, PlainFields, htype, plainItems_membersToValues rest]
termination_by structural members => members

end

@[simp] theorem Kind.nesting_toValue (kind : Kind) (fields : Fields) :
    (kind.toValue fields).nesting = Value.nestingFields fields + 1 := by
  simp [toValue, Value.nesting, Value.nestingFields]

theorem nestingItems_texts (values : List String) : Value.nestingItems (values.map .text) = 0 := by
  induction values with
  | nil => rfl
  | cons s rest ih => simp [Value.nestingItems, Value.nesting, ih]

theorem one_le_nesting_of_texts? {v : Value} {values : List String} (h : texts? v = some values) :
    1 ≤ v.nesting := by
  cases v with
  | array items =>
    rw [Value.nesting]
    omega
  | _ => cases h

/-- What is null or denotes a type is nested at least as deep as what is written for it. -/
theorem nesting_elementToValue {v : Value} {element : Option BodyType}
    (htype : ∀ type, ofValue? true v = some type → type.toValue.nesting ≤ v.nesting)
    (h : orNull v (ofValue? true v) = some element) :
    (elementToValue element).nesting ≤ v.nesting := by
  rw [orNull] at h
  split at h
  · cases h
    exact Nat.zero_le _
  · obtain ⟨type, hv, rfl⟩ := Option.map_eq_some_iff.1 h
    exact htype type hv

mutual

/-- A value that denotes a type is nested at least as deep as the object that is written. -/
theorem nesting_toValue_le : ∀ {v : Value} {inner : Bool} {type : BodyType},
    ofValue? inner v = some type → type.toValue.nesting ≤ v.nesting
  | .object fields, inner, type, h => by
    rw [ofValue?] at h
    rw [Value.nesting]
    split at h
    · cases h
    · obtain ⟨members, hmembers, rfl⟩ := Option.map_eq_some_iff.1 h
      have hle := nesting_membersField hmembers
      simp only [toValue, Kind.nesting_toValue, Value.nesting, Value.nestingFields]
      omega
    · split at h
      · rename_i format type hformat htype
        cases h
        have hle := nesting_elementField hformat
        have hle' := nesting_elementField htype
        simp only [toValue, Kind.nesting_toValue, Value.nestingFields]
        omega
      · cases h
    · cases h
      simp [toValue, Value.nestingFields]
    · obtain ⟨values, hvalues, rfl⟩ := Option.map_eq_some_iff.1 h
      obtain ⟨v, hv, htexts⟩ := Option.bind_eq_some_iff.1 hvalues
      have hle := Fields.nesting_of_only? hv
      have hpos := one_le_nesting_of_texts? htexts
      simp only [toValue, Kind.nesting_toValue, Value.nesting, Value.nestingFields,
        nestingItems_texts]
      omega
    · split at h
      · cases h
        simp [toValue, Value.nesting, Value.nestingFields]
      · cases h
    · cases h
      simp [toValue, Value.nestingFields]
    · cases h
      simp [toValue, Value.nestingFields]
  | .array [], _, _, h => by cases h
  | .array (tag :: arguments), inner, type, h => by
    rw [ofValue?.eq_def] at h
    simp only at h
    rw [Value.nesting, Value.nestingItems]
    split at h
    · obtain ⟨members, hmembers, rfl⟩ := Option.map_eq_some_iff.1 h
      have hle := nesting_membersOfValue hmembers
      simp only [toValue, Kind.nesting_toValue, Value.nesting, Value.nestingFields,
        Value.nestingItems]
      omega
    · split at h
      · rename_i format type hformat htype
        cases h
        have hle := nesting_elementToValue (fun _ => nesting_toValue_le) hformat
        have hle' := nesting_elementToValue (fun _ => nesting_toValue_le) htype
        simp only [toValue, Kind.nesting_toValue, Value.nestingFields, Value.nestingItems]
        omega
      · cases h
    · cases h
      simp [toValue, Value.nestingFields]
    · obtain ⟨values, hvalues, rfl⟩ := Option.map_eq_some_iff.1 h
      have hpos := one_le_nesting_of_texts? hvalues
      simp only [toValue, Kind.nesting_toValue, Value.nesting, Value.nestingFields,
        nestingItems_texts, Value.nestingItems]
      omega
    all_goals
      cases h
      try simp [toValue, Value.nesting, Value.nestingFields]
  | .null, _, _, h | .bool _, _, _, h | .natural _, _, _, h | .integer _, _, _, h
  | .float _, _, _, h | .text _, _, _, h => by cases h
termination_by v => sizeOf v

theorem nesting_elementField : ∀ {fields : List (String × Value)} {name : String}
    {element : Option BodyType}, elementField? name fields = some element →
    (elementToValue element).nesting ≤ Value.nestingFields fields
  | [], _, _, h => by
    cases h
    exact Nat.le_refl _
  | (k, v) :: rest, name, element, h => by
    rw [elementField?] at h
    rw [Value.nestingFields]
    split at h
    · split at h
      · exact Nat.le_trans (nesting_elementToValue (fun _ => nesting_toValue_le) h)
          (Nat.le_max_left ..)
      · cases h
    · exact Nat.le_trans (nesting_elementField h) (Nat.le_max_right ..)
termination_by fields => sizeOf fields

theorem nesting_field : ∀ {fields : List (String × Value)} {name : String} {type : BodyType},
    field? name fields = some type → type.toValue.nesting ≤ Value.nestingFields fields
  | [], _, _, h => by cases h
  | (k, v) :: rest, name, type, h => by
    rw [field?] at h
    rw [Value.nestingFields]
    split at h
    · split at h
      · exact Nat.le_trans (nesting_toValue_le h) (Nat.le_max_left ..)
      · cases h
    · exact Nat.le_trans (nesting_field h) (Nat.le_max_right ..)
termination_by fields => sizeOf fields

theorem nesting_memberOfValue : ∀ {v : Value} {member : Member BodyType},
    memberOfValue? v = some member → member.type.toValue.nesting + 1 ≤ v.nesting
  | .object fields, member, h => by
    rw [memberOfValue?] at h
    split at h
    · rename_i name type flag hname htype hflag
      cases h
      exact Nat.succ_le_succ (nesting_field htype)
    · cases h
  | .array items, member, h => by
    rw [memberOfValue?.eq_def] at h
    split at h
    · rename_i heq
      cases heq
    · -- a name and a type
      rename_i name v heq
      cases heq
      obtain ⟨type, htype, rfl⟩ := Option.map_eq_some_iff.1 h
      have hle := nesting_toValue_le htype
      simp only [Value.nesting, Value.nestingItems]
      omega
    · -- and whether it is an envelope
      rename_i name v flag heq
      cases heq
      obtain ⟨type, htype, rfl⟩ := Option.map_eq_some_iff.1 h
      have hle := nesting_toValue_le htype
      simp only [Value.nesting, Value.nestingItems]
      omega
    · cases h
  | .null, _, h | .bool _, _, h | .natural _, _, h | .integer _, _, h | .float _, _, h
  | .text _, _, h => by cases h
termination_by v => sizeOf v

theorem nesting_membersOfItems : ∀ {items : List Value} {members : List (Member BodyType)},
    membersOfItems? items = some members →
    Value.nestingItems (membersToValues members) ≤ Value.nestingItems items
  | [], _, h => by
    cases h
    exact Nat.le_refl _
  | v :: rest, members, h => by
    rw [membersOfItems?] at h
    split at h
    · rename_i member more hmember hmore
      cases h
      have hle := nesting_memberOfValue hmember
      have hrest := nesting_membersOfItems hmore
      simp only [membersToValues, Value.nestingItems, Value.nesting, Value.nestingFields]
      omega
    · cases h
termination_by items => sizeOf items

theorem nesting_membersOfValue : ∀ {v : Value} {members : List (Member BodyType)},
    membersOfValue? v = some members →
    Value.nestingItems (membersToValues members) + 1 ≤ v.nesting
  | .array items, members, h => by
    have hle := nesting_membersOfItems h
    rw [Value.nesting]
    omega
  | .object _, _, h | .null, _, h | .bool _, _, h | .natural _, _, h | .integer _, _, h
  | .float _, _, h | .text _, _, h => by cases h
termination_by v => sizeOf v

theorem nesting_membersField : ∀ {fields : List (String × Value)} {name : String}
    {members : List (Member BodyType)}, membersField? name fields = some members →
    Value.nestingItems (membersToValues members) + 1 ≤ Value.nestingFields fields
  | [], _, _, h => by cases h
  | (k, v) :: rest, name, members, h => by
    rw [membersField?] at h
    rw [Value.nestingFields]
    split at h
    · split at h
      · exact Nat.le_trans (nesting_membersOfValue h) (Nat.le_max_left ..)
      · cases h
    · exact Nat.le_trans (nesting_membersField h) (Nat.le_max_right ..)
termination_by fields => sizeOf fields

end

end BodyType

end OperationCatalog
