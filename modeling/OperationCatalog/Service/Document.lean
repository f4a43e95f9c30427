import OperationCatalog.BodyType.Document
import OperationCatalog.Context.Document
import OperationCatalog.Expression.Document
import OperationCatalog.Service

/-!
# Services in documents

Services, groups and methods are objects, or arrays of their fields in order.  A field that is not
known is of no account; one that is known stands there once at most.
-/

namespace OperationCatalog

/-- The fields of a record whose fields have these names in order; `none` if one of them is given
twice, or if an array has further items and they are not `ignored`. -/
def Value.recordFields? (names : List String) (ignored : Bool) : Value → Option Fields
  | .object fields =>
    if names.all fun n => (Fields.all n fields).length ≤ 1 then some fields else none
  | .array items => if ignored || items.length ≤ names.length then some (names.zip items) else none
  | _ => none

/-- What a value denotes that may be missing and is `missing` then. -/
def orElse {α : Type} (missing : α) (denoted : Value → Option α) : Option Value → Option α
  | none => some missing
  | some v => denoted v

/-- The list that an array denotes by its items. -/
def Value.listOf? {α : Type} (denoted : Value → Option α) (v : Value) : Option (List α) :=
  v.items?.bind (·.mapM denoted)

/-- The verb that a value denotes. -/
def Verb.ofValue? (v : Value) : Option Verb := v.text?.map ofText

/-- The value that denotes a verb. -/
def Verb.toValue (v : Verb) : Value := .text v.text

namespace Method

/-- The fields of a method, in order. -/
def fieldNames : List String := ["name", "httpVerb", "url", "requestBodies", "responseBodies"]

/-- The method that a value denotes; further items of an array may be `ignored`. -/
def ofValue? (ignored : Bool) (v : Value) : Option Method := do
  let fields ← v.recordFields? fieldNames ignored
  let name ← (← fields.lookup "name").text?
  let verb ← Verb.ofValue? (← fields.lookup "httpVerb")
  let url ← Expression.ofValue? false (← fields.lookup "url")
  let requests ← orElse [] (Value.listOf? (BodyType.ofValue? false)) (fields.lookup "requestBodies")
  let responses ← orElse [] (Value.listOf? (BodyType.ofValue? false)) (fields.lookup "responseBodies")
  return ⟨name, verb, url, requests, responses⟩

theorem ofValue?_eq_some_iff {ignored : Bool} {v : Value} {m : Method} :
    ofValue? ignored v = some m ↔
      ∃ fields : Fields, v.recordFields? fieldNames ignored = some fields ∧
        (fields.lookup "name").bind Value.text? = some m.name ∧
        (fields.lookup "httpVerb").bind Verb.ofValue? = some m.verb ∧
        (fields.lookup "url").bind (Expression.ofValue? false) = some m.url ∧
        orElse [] (Value.listOf? (BodyType.ofValue? false)) (fields.lookup "requestBodies") =
          some m.requestBodies ∧
        orElse [] (Value.listOf? (BodyType.ofValue? false)) (fields.lookup "responseBodies") =
          some m.responseBodies := by
  simp only [ofValue?, Option.bind_eq_bind, Option.bind_eq_some_iff, Option.pure_def,
    Option.some.injEq]
  constructor
  · intro ⟨fields, hfields, name, hname, text, htext, verb, hverb, v', hv', url, hurl, e, he,
      requests, hrequests, responses, hresponses, hm⟩
    subst hm
    exact ⟨fields, hfields, ⟨name, hname, htext⟩, ⟨verb, hverb, hv'⟩, ⟨url, hurl, he⟩, hrequests,
      hresponses⟩
  · intro ⟨fields, hfields, ⟨name, hname, htext⟩, ⟨verb, hverb, hv'⟩, ⟨url, hurl, he⟩, hrequests,
      hresponses⟩
    exact ⟨fields, hfields, name, hname, _, htext, verb, hverb, _, hv', url, hurl, _, he, _,
      hrequests, _, hresponses, rfl⟩

/-- The object that denotes a method. -/
def toValue (m : Method) : Value :=
  .object [("name", .text m.name), ("httpVerb", m.verb.toValue), ("url", m.url.toValue),
    ("requestBodies", .array (m.requestBodies.map BodyType.toValue)),
    ("responseBodies", .array (m.responseBodies.map BodyType.toValue))]

end Method

namespace Group

/-- The fields of a group, in order. -/
def fieldNames : List String := ["name", "methods"]

/-- The group that a value denotes; further items of an array may be `ignored`. -/
def ofValue? (ignored : Bool) (v : Value) : Option Group := do
  let fields ← v.recordFields? fieldNames ignored
  let name ← (← fields.lookup "name").text?
  let methods ← orElse [] (Value.listOf? (Method.ofValue? ignored)) (fields.lookup "methods")
  return ⟨name, methods⟩

theorem ofValue?_eq_some_iff {ignored : Bool} {v : Value} {g : Group} :
    ofValue? ignored v = some g ↔
      ∃ fields : Fields, v.recordFields? fieldNames ignored = some fields ∧
        (fields.lookup "name").bind Value.text? = some g.name ∧
        orElse [] (Value.listOf? (Method.ofValue? ignored)) (fields.lookup "methods") =
          some g.methods := by
  simp only [ofValue?, Option.bind_eq_bind, Option.bind_eq_some_iff, Option.pure_def,
    Option.some.injEq]
  constructor
  · intro ⟨fields, hfields, name, hname, text, htext, methods, hmethods, hg⟩
    subst hg
    exact ⟨fields, hfields, ⟨name, hname, htext⟩, hmethods⟩
  · intro ⟨fields, hfields, ⟨name, hname, htext⟩, hmethods⟩
    exact ⟨fields, hfields, name, hname, _, htext, _, hmethods, rfl⟩

/-- The object that denotes a group. -/
def toValue (g : Group) : Value :=
  .object [("name", .text g.name), ("methods", .array (g.methods.map Method.toValue))]

end Group

namespace Service

/-- The fields of a service, in order. -/
def fieldNames : List String := ["name", "context", "methods", "groups"]

/-- The service that a value denotes; further items of an array may be `ignored`. -/
def ofValue? (ignored : Bool) (v : Value) : Option Service := do
  let fields ← v.recordFields? fieldNames ignored
  let name ← (← fields.lookup "name").text?
  let context ← orElse [] Context.ofValue? (fields.lookup "context")
  let methods ← orElse [] (Value.listOf? (Method.ofValue? ignored)) (fields.lookup "methods")
  let groups ← orElse [] (Value.listOf? (Group.ofValue? ignored)) (fields.lookup "groups")
  return ⟨name, context, methods, groups⟩

theorem ofValue?_eq_some_iff {ignored : Bool} {v : Value} {s : Service} :
    ofValue? ignored v = some s ↔
      ∃ fields : Fields, v.recordFields? fieldNames ignored = some fields ∧
        (fields.lookup "name").bind Value.text? = some s.name ∧
        orElse [] Context.ofValue? (fields.lookup "context") = some s.context ∧
        orElse [] (Value.listOf? (Method.ofValue? ignored)) (fields.lookup "methods") =
          some s.methods ∧
        orElse [] (Value.listOf? (Group.ofValue? ignored)) (fields.lookup "groups") =
          some s.groups := by
  simp only [ofValue?, Option.bind_eq_bind, Option.bind_eq_some_iff, Option.pure_def,
    Option.some.injEq]
  constructor
  · intro ⟨fields, hfields, name, hname, text, htext, context, hcontext, methods, hmethods, groups,
      hgroups, hs⟩
    subst hs
    exact ⟨fields, hfields, ⟨name, hname, htext⟩, hcontext, hmethods, hgroups⟩
  · intro ⟨fields, hfields, ⟨name, hname, htext⟩, hcontext, hmethods, hgroups⟩
    exact ⟨fields, hfields, name, hname, _, htext, _, hcontext, _, hmethods, _, hgroups, rfl⟩

end Service

end OperationCatalog
