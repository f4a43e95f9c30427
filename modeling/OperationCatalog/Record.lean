import OperationCatalog.Service.Document

/-!
# Records

An entry of the catalog: a method bound to one variant of its URL, with the schemas of its bodies.
-/

namespace OperationCatalog

/-- One entry of the catalog. -/
structure Record where
  methodName : String
  verb : Verb
  url : String
  requestBody : Option Value
  responseBody : Option Value

namespace Record

/-- The fields of a record, in order. -/
def fieldNames : List String := ["MethodName", "HttpMethod", "Url", "RequestBody", "ResponseBody"]

/-- The body that a value denotes: null denotes none, and in any other value each name of an object
counts once. -/
def bodyOfValue? (v : Value) : Option (Option Value) :=
  if v.isNull then some none else some (some v.distinct)

/-- The record that a value denotes. -/
def ofValue? (v : Value) : Option Record := do
  let fields ← v.recordFields? fieldNames false
  let methodName ← (← fields.lookup "MethodName").text?
  let verb ← Verb.ofValue? (← fields.lookup "HttpMethod")
  let url ← (← fields.lookup "Url").text?
  let requestBody ← orElse none bodyOfValue? (fields.lookup "RequestBody")
  let responseBody ← orElse none bodyOfValue? (fields.lookup "ResponseBody")
  return ⟨methodName, verb, url, requestBody, responseBody⟩

theorem ofValue?_eq_some_iff {v : Value} {r : Record} :
    ofValue? v = some r ↔
      ∃ fields : Fields, v.recordFields? fieldNames false = some fields ∧
        (fields.lookup "MethodName").bind Value.text? = some r.methodName ∧
        (fields.lookup "HttpMethod").bind Verb.ofValue? = some r.verb ∧
        (fields.lookup "Url").bind Value.text? = some r.url ∧
        orElse none bodyOfValue? (fields.lookup "RequestBody") = some r.requestBody ∧
        orElse none bodyOfValue? (fields.lookup "ResponseBody") = some r.responseBody := by
  simp only [ofValue?, Option.bind_eq_bind, Option.bind_eq_some_iff, Option.pure_def,
    Option.some.injEq]
  constructor
  · intro ⟨fields, hfields, name, hname, text, htext, verb, hverb, v', hv', url, hurl, u, hu,
      request, hrequest, response, hresponse, hr⟩
    subst hr
    exact ⟨fields, hfields, ⟨name, hname, htext⟩, ⟨verb, hverb, hv'⟩, ⟨url, hurl, hu⟩, hrequest,
      hresponse⟩
  · intro ⟨fields, hfields, ⟨name, hname, htext⟩, ⟨verb, hverb, hv'⟩, ⟨url, hurl, hu⟩, hrequest,
      hresponse⟩
    exact ⟨fields, hfields, name, hname, _, htext, verb, hverb, _, hv', url, hurl, _, hu, _,
      hrequest, _, hresponse, rfl⟩

/-- The field of a body, left out if there is none. -/
def bodyField (name : String) : Option Value → Fields
  | none => []
  | some body => [(name, body)]

/-- The object that denotes a record. -/
def toValue (r : Record) : Value :=
  .object ([("MethodName", .text r.methodName), ("HttpMethod", r.verb.toValue), ("Url", .text r.url)]
    ++ bodyField "RequestBody" r.requestBody ++ bodyField "ResponseBody" r.responseBody)

end Record

end OperationCatalog
