import OperationCatalog.Proofs.MethodRoundTrip
import OperationCatalog.Proofs.SchemaGrammar
import OperationCatalog.Rendering

/-!
# Records survive being written and read

A body of a record is left out of its JSON form if there is none, and null reads as no body, so that a
record is read back only if no body is null.  Bodies of rendered records are schemas, and these are
texts, arrays and objects, without numbers, and with each name once in an object.  Nothing of that is
lost on the way.

## Key results

- `BodyType.isSchema`: what schemas are made of
- `Value.IsSchema.plain`, `Value.IsSchema.distinct_eq`: what follows for reading them
- `Record.ofValue?_toValue`: a record whose bodies are schemas denotes itself
- `rendered_records_round_trip`: the JSON form of the records of a method
-/

namespace OperationCatalog

open Json (Plain Denotable)

/-! ## What schemas are made of -/

/-- Texts, arrays of one item, and objects in which each name stands once. -/
inductive Value.IsSchema : Value → Prop where
  | text (s : String) : IsSchema (.text s)
  | array {item : Value} (h : IsSchema item) : IsSchema (.array [item])
  | object {fields : Fields} (hnames : (fields.map Prod.fst).Nodup)
    (h : ∀ f ∈ fields, IsSchema f.2) : IsSchema (.object fields)

/-- The schema of a type is one. -/
theorem BodyType.isSchema {type : BodyType} {s : Value} (h : type.schema = .ok s) : s.IsSchema := by
  induction type using children_induction generalizing s with
  | step type ih =>
    cases made_of_schema h with
    | text inner => exact .text _
    | child hchild hschema => exact ih _ hchild hschema
    | array hchild hschema => exact .array (ih _ hchild hschema)
    | object _ hnames hfields =>
      refine .object hnames fun f hf => ?_
      obtain ⟨child, hchild, hschema⟩ := hfields f hf
      exact ih child hchild hschema

namespace Value.IsSchema

variable {v : Value}

theorem isNull_eq_false (h : v.IsSchema) : v.isNull = false := by
  cases h <;> rfl

/-- A schema has no numbers. -/
theorem plain (h : v.IsSchema) : Plain v := by
  induction h with
  | text s => trivial
  | array _ ih => exact ⟨ih, trivial⟩
  | object _ _ ih => exact Json.plainFields_iff.2 ih

theorem distinctFields_eq {fields : Fields} (h : ∀ f ∈ fields, f.2.distinct = f.2) :
    distinctFields fields = fields := by
  induction fields with
  | nil => rfl
  | cons f rest ih =>
    obtain ⟨hf, hrest⟩ := List.forall_mem_cons.1 h
    rw [distinctFields, hf, ih hrest]

/-- In a schema each name counts once already. -/
theorem distinct_eq (h : v.IsSchema) : v.distinct = v := by
  induction h with
  | text s => rfl
  | array _ ih => simp only [distinct, distinctItems, ih]
  | object hnames _ ih => rw [distinct, distinctFields_eq ih, Fields.lastOfEach_of_nodup hnames]

/-- A schema is the body that it denotes. -/
theorem bodyOfValue?_eq (h : v.IsSchema) : Record.bodyOfValue? v = some (some v) := by
  rw [Record.bodyOfValue?, h.isNull_eq_false, h.distinct_eq]
  rfl

end Value.IsSchema

/-! ## Records -/

namespace Record

/-- Records, as objects. -/
def codec : Codec Record where
  shape := .record (fieldNames.map (·, .whole))
  denoted := fun _ => ofValue?
  written := toValue

/-- Whether the bodies of a record are schemas. -/
structure HasSchemas (r : Record) : Prop where
  request : ∀ s ∈ r.requestBody, s.IsSchema
  response : ∀ s ∈ r.responseBody, s.IsSchema

/-- A written record denotes itself, if its verb is decoded and its bodies are schemas. -/
theorem ofValue?_toValue {r : Record} (hverb : r.verb.Decoded) (h : r.HasSchemas) :
    ofValue? r.toValue = some r := by
  obtain ⟨name, verb, url, request, response⟩ := r
  obtain ⟨hrequest, hresponse⟩ := h
  have hbody : ∀ body : Option Value, (∀ s ∈ body, s.IsSchema) →
      orElse none bodyOfValue? body = some body := by
    intro body hbody
    cases body with
    | none => rfl
    | some s => exact (hbody s rfl).bodyOfValue?_eq
  -- each body is found under its name, or missed
  have hfields : ∃ fields : Fields,
      (toValue ⟨name, verb, url, request, response⟩).recordFields? fieldNames false = some fields ∧
      fields.lookup "MethodName" = some (.text name) ∧ fields.lookup "HttpMethod" = some verb.toValue ∧
      fields.lookup "Url" = some (.text url) ∧ fields.lookup "RequestBody" = request ∧
      fields.lookup "ResponseBody" = response := by
    cases request <;> cases response <;> exact ⟨_, rfl, rfl, rfl, rfl, rfl, rfl⟩
  obtain ⟨fields, hrecord, hname, hverbField, hurl, hrequestField, hresponseField⟩ := hfields
  refine ofValue?_eq_some_iff.2 ⟨fields, hrecord, ?_, ?_, ?_, ?_, ?_⟩
  · rw [hname]
    rfl
  · rw [hverbField]
    exact congrArg some (Verb.ofText_text hverb)
  · rw [hurl]
    rfl
  · rw [hrequestField]
    exact hbody request hrequest
  · rw [hresponseField]
    exact hbody response hresponse

/-- The field of a body holds nothing but the body. -/
theorem forall_mem_bodyField {name : String} {body : Option Value} {p : String × Value → Prop} :
    (∀ f ∈ bodyField name body, p f) ↔ ∀ s ∈ body, p (name, s) := by
  cases body <;> simp [bodyField]

theorem plain_toValue {r : Record} (h : r.HasSchemas) : Plain r.toValue := by
  refine Json.plainFields_iff.2 ?_
  rw [List.forall_mem_append, List.forall_mem_append, forall_mem_bodyField, forall_mem_bodyField]
  refine ⟨⟨?_, fun s hs => (h.request s hs).plain⟩, fun s hs => (h.response s hs).plain⟩
  simp [Plain, Verb.toValue]

/-- No field of a record is passed over. -/
theorem denotable_toValue {r : Record} (h : r.HasSchemas) : Denotable codec.shape r.toValue := by
  refine Json.denotableFields_iff.2 ?_
  rw [List.forall_mem_append, List.forall_mem_append, forall_mem_bodyField, forall_mem_bodyField]
  refine ⟨⟨?_, fun s hs => ⟨.whole, rfl, (h.request s hs).plain.denotable⟩⟩,
    fun s hs => ⟨.whole, rfl, (h.response s hs).plain.denotable⟩⟩
  simp [codec, fieldNames, Json.Shape.field, List.lookup_cons, Denotable, Verb.toValue]

/-- The text of such a record is read as its object, and as the record. -/
theorem read_encode {r : Record} (hverb : r.verb.Decoded) (h : r.HasSchemas)
    (hnest : r.toValue.nesting ≤ Json.nestingLimit) :
    Json.read .whole (codec.encode r) = some r.toValue ∧ codec.decode? (codec.encode r) = some r := by
  have hplain := plain_toValue h
  refine ⟨Json.readWithin_text hplain hplain.denotable hnest, ?_⟩
  have hread : Json.read codec.shape (codec.encode r) = some r.toValue :=
    Json.readWithin_text hplain (denotable_toValue h) hnest
  rw [Codec.decode?, hread]
  exact ofValue?_toValue hverb h

/-- What is shown of the bodies that a method declares: the schema of a single one. -/
def BodyShown (name : String) (types : List BodyType) (fields : Fields) : Prop :=
  (∃ type s, types = [type] ∧ type.schema = .ok s ∧ fields = [(name, s)]) ∨
    types.length ≠ 1 ∧ fields = []

/-- There is a body exactly if there is a type for it, and then it is the schema of that type. -/
theorem schemaOf?_eq_ok {type? : Option BodyType} {body : Option Value}
    (h : BodyType.schemaOf? type? = .ok body) :
    (type? = none ∧ body = none) ∨
      ∃ type s, type? = some type ∧ type.schema = .ok s ∧ body = some s := by
  cases type? with
  | none =>
    cases h
    exact .inl ⟨rfl, rfl⟩
  | some type =>
    rw [BodyType.schemaOf?] at h
    cases hs : type.schema with
    | error e =>
      rw [hs] at h
      cases h
    | ok s =>
      rw [hs] at h
      cases h
      exact .inr ⟨type, s, rfl, hs, rfl⟩

theorem isSchema_of_schemaOf? {type? : Option BodyType} {body : Option Value}
    (h : BodyType.schemaOf? type? = .ok body) : ∀ s ∈ body, s.IsSchema := by
  intro s hs
  rcases schemaOf?_eq_ok h with ⟨-, rfl⟩ | ⟨type, t, -, ht, rfl⟩
  · cases hs
  · cases hs
    exact BodyType.isSchema ht

theorem bodyShown_bodyField {types : List BodyType} {body : Option Value}
    (h : BodyType.schemaOf? (single? types) = .ok body) (name : String) :
    BodyShown name types (bodyField name body) := by
  rcases schemaOf?_eq_ok h with ⟨hnone, rfl⟩ | ⟨type, s, hsome, hs, rfl⟩
  · refine .inr ⟨fun hlength => ?_, rfl⟩
    obtain ⟨type, rfl⟩ := List.length_eq_one_iff.1 hlength
    cases hnone
  · match types, hsome with
    | [_], rfl => exact .inl ⟨type, s, rfl, hs, rfl⟩

end Record

/-- The JSON form of a record is an object with the name, the verb and the URL, and the schema of the
    request body and of the response body, each if the method declares exactly one.  If its nesting is
    allowed, the text is read as this object, and as the same record again. -/
theorem rendered_records_round_trip {ev : Evaluator} {m : Method} {records : List Record}
    (hverb : m.verb.Decoded) (hrender : ev.render m = .ok records) :
    ∀ r ∈ records, ∃ request response : Fields,
      r.toValue = .object ([("MethodName", .text m.name), ("HttpMethod", .text m.verb.text),
        ("Url", .text r.url)] ++ request ++ response) ∧
      Record.BodyShown "RequestBody" m.requestBodies request ∧
      Record.BodyShown "ResponseBody" m.responseBodies response ∧
      (r.toValue.nesting ≤ Json.nestingLimit →
        Json.read .whole (Record.codec.encode r) = some r.toValue ∧
        Record.codec.decode? (Record.codec.encode r) = some r) := by
  obtain ⟨request, response, url, hrequest, hresponse, -, rfl⟩ :=
    Evaluator.render_eq_ok_iff.1 hrender
  intro r hr
  obtain ⟨url', -, rfl⟩ := List.mem_map.1 hr
  have hschemas : Record.HasSchemas ⟨m.name, m.verb, url', request, response⟩ :=
    ⟨Record.isSchema_of_schemaOf? hrequest, Record.isSchema_of_schemaOf? hresponse⟩
  exact ⟨_, _, rfl, Record.bodyShown_bodyField hrequest _, Record.bodyShown_bodyField hresponse _,
    Record.read_encode hverb hschemas⟩

/-- One request body and two response bodies, which are not shown. -/
def sampleMethod : Method where
  name := "merge"
  verb := .ofText "merge "
  url := .literal "/sites[/slots]"
  requestBodies := [.object [⟨"b", .dictionary, false⟩, ⟨"a", .xml, false⟩]]
  responseBodies := [.xml, .dictionary]

theorem rendered_records_round_trip_sample :
    ∃ records, Evaluator.render ⟨"https://h", []⟩ sampleMethod = .ok records ∧ records.length = 2 ∧
      ∀ r ∈ records, r.toValue.nesting = 3 ∧
        Record.codec.decode? (Record.codec.encode r) = some r := by
  refine ⟨_, rfl, rfl, fun r hr => ?_⟩
  obtain ⟨request, response, -, -, -, htext⟩ :=
    rendered_records_round_trip (⟨"merge ", rfl⟩ : sampleMethod.verb.Decoded)
      (rfl : Evaluator.render ⟨"https://h", []⟩ sampleMethod = .ok _) r hr
  have hnest : r.toValue.nesting = 3 := by
    obtain ⟨url, -, rfl⟩ := List.mem_map.1 hr
    rfl
  exact ⟨hnest, (htext (by rw [hnest]; decide)).2⟩

end OperationCatalog
