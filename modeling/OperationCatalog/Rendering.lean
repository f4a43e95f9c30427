import OperationCatalog.BodyType.Schema
import OperationCatalog.Expression.Evaluate
import OperationCatalog.Record
import OperationCatalog.UrlVariants

/-!
# Rendering methods

A method becomes one record for each variant of its URL, all with the same schemas.
-/

namespace OperationCatalog

/-- Why a method cannot be rendered. -/
inductive RenderError where
  | url (error : EvaluationError)
  | requestBody (error : SchemaError)
  | responseBody (error : SchemaError)
  deriving DecidableEq

/-- The wording of an error. -/
def RenderError.message : RenderError → String
  | .url error => "url: " ++ error.message
  | .requestBody error => "request body: " ++ error.message
  | .responseBody error => "response body: " ++ error.message

/-- The schema of a body, if there is a body. -/
def BodyType.schemaOf? : Option BodyType → Except SchemaError (Option Value)
  | none => .ok none
  | some type => type.schema.map some

/-- The records of a method.  Of several errors the request body's comes first and the URL's last. -/
def Evaluator.render (ev : Evaluator) (m : Method) : Except RenderError (List Record) := do
  let request ← (BodyType.schemaOf? m.requestBody?).mapError .requestBody
  let response ← (BodyType.schemaOf? m.responseBody?).mapError .responseBody
  let url ← (ev.evaluateText m.url).mapError .url
  return (UrlVariants.expand url).map fun url => ⟨m.name, m.verb, url, request, response⟩

/-- A method is rendered when its bodies have schemas and its URL has a text, and the variants of the
URL make its records. -/
theorem Evaluator.render_eq_ok_iff {ev : Evaluator} {m : Method} {records : List Record} :
    ev.render m = .ok records ↔
      ∃ request response url, BodyType.schemaOf? m.requestBody? = .ok request ∧
        BodyType.schemaOf? m.responseBody? = .ok response ∧ ev.evaluateText m.url = .ok url ∧
        records = (UrlVariants.expand url).map fun url => ⟨m.name, m.verb, url, request, response⟩ := by
  rw [render]
  constructor
  · intro h
    cases hrequest : BodyType.schemaOf? m.requestBody? with
    | error e =>
      rw [hrequest] at h
      cases h
    | ok request =>
      cases hresponse : BodyType.schemaOf? m.responseBody? with
      | error e =>
        rw [hrequest, hresponse] at h
        cases h
      | ok response =>
        cases hurl : ev.evaluateText m.url with
        | error e =>
          rw [hrequest, hresponse, hurl] at h
          cases h
        | ok url =>
          rw [hrequest, hresponse, hurl] at h
          cases h
          exact ⟨request, response, url, rfl, rfl, rfl, rfl⟩
  · intro ⟨request, response, url, hrequest, hresponse, hurl, hrecords⟩
    rw [hrequest, hresponse, hurl, hrecords]
    rfl

end OperationCatalog
