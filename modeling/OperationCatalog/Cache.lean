import OperationCatalog.Catalog

/-!
# The catalog cache

A cache keeps one catalog for each type of model.  The catalog is built at the first request that
finds a service, and kept for good; a failure is not kept.
-/

namespace OperationCatalog

/-- The catalogs that are kept, by type of model. -/
structure Cache (κ : Type) where
  baseEndpoint : String
  catalogs : List (κ × Catalog)

/-- What a request for a catalog comes to. -/
structure Reply where
  answer : Except ModelError Catalog
  /-- Whether the model was asked for its service. -/
  instantiated : Bool
  events : List Event

namespace Cache

variable {κ : Type} [DecidableEq κ]

/-- A cache without catalogs. -/
def new (baseEndpoint : String) : Cache κ := ⟨baseEndpoint, []⟩

/-- The catalog that is kept for a type of model. -/
def find? (c : Cache κ) (key : κ) : Option Catalog := c.catalogs.lookup key

/-- Asks for the catalog of a type of model, whose service is `instantiate` if it has to be built. -/
def request (c : Cache κ) (key : κ) (instantiate : Except ModelError Service) : Reply × Cache κ :=
  match c.find? key with
  | some catalog => (⟨.ok catalog, false, [.cacheHit catalog.service]⟩, c)
  | none =>
    match instantiate with
    | .error e => (⟨.error e, true, []⟩, c)
    | .ok s =>
      let b := Building.of c.baseEndpoint s
      (⟨.ok b.catalog, true, b.events⟩, { c with catalogs := (key, b.catalog) :: c.catalogs })

/-- A catalog that is kept is the answer, and the model is not asked. -/
theorem request_of_kept {c : Cache κ} {key : κ} {catalog : Catalog}
    (h : c.find? key = some catalog) (instantiate : Except ModelError Service) :
    c.request key instantiate = (⟨.ok catalog, false, [.cacheHit catalog.service]⟩, c) := by
  simp only [request, h]

/-- A failure of the model is the answer, and nothing is kept. -/
theorem request_of_error {c : Cache κ} {key : κ} (h : c.find? key = none) (e : ModelError) :
    c.request key (.error e) = (⟨.error e, true, []⟩, c) := by
  simp only [request, h]

/-- The catalog of the service that the model gives is the answer, and is kept. -/
theorem request_of_ok {c : Cache κ} {key : κ} (h : c.find? key = none) (s : Service) :
    c.request key (.ok s) =
      (⟨.ok (Catalog.of c.baseEndpoint s), true, (Building.of c.baseEndpoint s).events⟩,
        { c with catalogs := (key, Catalog.of c.baseEndpoint s) :: c.catalogs }) := by
  simp only [request, h, Catalog.of]

/-- The reply depends on the base endpoint and on what is kept for the type. -/
theorem request_congr {c d : Cache κ} {key : κ} (hbase : c.baseEndpoint = d.baseEndpoint)
    (hkept : c.find? key = d.find? key) (instantiate : Except ModelError Service) :
    (c.request key instantiate).1 = (d.request key instantiate).1 := by
  cases h : c.find? key with
  | some catalog => rw [request_of_kept h, request_of_kept (hkept ▸ h)]
  | none =>
    cases instantiate with
    | error e => rw [request_of_error h, request_of_error (hkept ▸ h)]
    | ok s => rw [request_of_ok h, request_of_ok (hkept ▸ h), hbase]

/-- A request that fails leaves the cache as it was. -/
theorem request_of_failure {c : Cache κ} {key : κ} {instantiate : Except ModelError Service}
    {e : ModelError} (he : (c.request key instantiate).1.answer = .error e) :
    (c.request key instantiate).2 = c := by
  cases h : c.find? key with
  | some catalog => rw [request_of_kept h]
  | none =>
    cases instantiate with
    | error e' => rw [request_of_error h]
    | ok s =>
      rw [request_of_ok h] at he
      cases he

/-- A request does not move the base endpoint. -/
@[simp] theorem baseEndpoint_request (c : Cache κ) (key : κ)
    (instantiate : Except ModelError Service) :
    (c.request key instantiate).2.baseEndpoint = c.baseEndpoint := by
  cases h : c.find? key with
  | some catalog => rw [request_of_kept h]
  | none =>
    cases instantiate with
    | error e => rw [request_of_error h]
    | ok s => rw [request_of_ok h]

/-- After a request its type has the catalog it had, or that of the service which the model gives. -/
theorem find?_request_self (c : Cache κ) (key : κ) (instantiate : Except ModelError Service) :
    (c.request key instantiate).2.find? key =
      (c.find? key <|> instantiate.toOption.map (Catalog.of c.baseEndpoint)) := by
  cases h : c.find? key with
  | some catalog =>
    rw [request_of_kept h]
    exact h
  | none =>
    cases instantiate with
    | error e =>
      rw [request_of_error h]
      exact h
    | ok s =>
      rw [request_of_ok h]
      exact List.lookup_cons_self

/-- A request is of no account to the other types of models. -/
theorem find?_request_of_ne {c : Cache κ} {key other : κ} (h : other ≠ key)
    (instantiate : Except ModelError Service) :
    (c.request key instantiate).2.find? other = c.find? other := by
  cases hk : c.find? key with
  | some catalog => rw [request_of_kept hk]
  | none =>
    cases instantiate with
    | error e => rw [request_of_error hk]
    | ok s =>
      rw [request_of_ok hk]
      simp only [find?, List.lookup_cons, beq_eq_false_iff_ne.2 h]

end Cache

/-- The visible records of the catalog, or the hidden ones. -/
def Reply.records (r : Reply) (hidden : Bool) : Except ModelError (List Record) :=
  r.answer.map (·.records hidden)

end OperationCatalog
