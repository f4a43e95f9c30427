import OperationCatalog.Proofs.CatalogAssembly
import OperationCatalog.Proofs.RelatedRuns

/-!
# A change of the base endpoint

The base endpoint is a text like others: it comes into an evaluation where the root token stands and flows
on through concatenations, conditionals and lookups, all of which take any text.  So another base endpoint
makes other texts and nothing else.  The methods that cannot be rendered are the same, and so are the
reasons for it.

## Key results

- `Evaluator.outcomes_of_baseEndpoint`: what an expression evaluates to, but for the wording of a text
- `Evaluator.failure?_eq_of_outcomes`: a method fails for the same reason if its URL does
- `failures_of_baseEndpoint`: the catalogs of a service with two base endpoints
-/

namespace OperationCatalog

/-- Any two texts, but contexts only with themselves. -/
def Pairing.anyTexts : Pairing where
  text _ _ := True
  place _ p q := p = q

/-- A value stands opposite itself. -/
theorem Pairing.values_anyTexts_self (e : Expression) (v : BoundValue) :
    anyTexts.Values e v v := by
  cases v with
  | null => exact .null
  | text s => exact .text trivial
  | context p => exact .context rfl

theorem Pairing.anyTexts_holds (b b' : String) (root : Context) (parts : List Expression) :
    anyTexts.Holds ⟨b, root⟩ ⟨b', root⟩ parts where
  same _ := trivial
  append _ _ := trivial
  baseEndpoint := trivial
  root _ := rfl
  property := by
    rintro base name p _ - rfl
    -- the same is found in one and the same context
    cases p.get? name with
    | none => exact .none
    | some v => exact .some (values_anyTexts_self _ v)

namespace Evaluator

/-- The same error, nothing, the same context, or a text on both sides. -/
def SameButText (r r' : Except EvaluationError BoundValue) : Prop :=
  (∃ error, r = .error error ∧ r' = .error error) ∨
  (r = .ok .null ∧ r' = .ok .null) ∨
  (∃ place, r = .ok (.context place) ∧ r' = .ok (.context place)) ∨
  ∃ s t, r = .ok (.text s) ∧ r' = .ok (.text t)

/-- With another base endpoint, an expression has another text at most. -/
theorem outcomes_of_baseEndpoint (b b' : String) (root : Context) (e : Expression) :
    SameButText (evaluate ⟨b, root⟩ e) (evaluate ⟨b', root⟩ e) := by
  have h := Pairing.evaluate e (Pairing.anyTexts_holds b b' root e.parts)
  generalize evaluate ⟨b, root⟩ e = r, evaluate ⟨b', root⟩ e = r' at h ⊢
  cases h with
  | error error => exact .inl ⟨error, rfl, rfl⟩
  | ok h =>
    cases h with
    | null => exact .inr (.inl ⟨rfl, rfl⟩)
    | context h =>
      cases h
      exact .inr (.inr (.inl ⟨_, rfl, rfl⟩))
    | text h => exact .inr (.inr (.inr ⟨_, _, rfl, rfl⟩))

/-- Of a method only the URL is evaluated, so two evaluators part over a method only if they part over
    its URL, and a text there is as good as another. -/
theorem failure?_eq_of_outcomes {ev ev' : Evaluator} {m : Method} {r : String → String → Prop}
    (h : Outcomes r (ev.evaluateText m.url) (ev'.evaluateText m.url)) :
    ev.failure? m = ev'.failure? m := by
  rw [failure?, failure?, render, render]
  cases BodyType.schemaOf? m.requestBody? with
  | error error => rfl
  | ok request =>
    cases BodyType.schemaOf? m.responseBody? with
    | error error => rfl
    | ok response =>
      generalize ev.evaluateText m.url = t, ev'.evaluateText m.url = t' at h ⊢
      cases h with
      | error error => rfl
      | ok h => rfl

theorem failure?_baseEndpoint (b b' : String) (root : Context) (m : Method) :
    failure? ⟨b, root⟩ m = failure? ⟨b', root⟩ m :=
  failure?_eq_of_outcomes (Pairing.evaluateText (Pairing.anyTexts_holds b b' root m.url.parts))

end Evaluator

/-- With two base endpoints the same methods of a service are left out, in the same order and with the
    same warnings.  Every expression has the same outcome, but for the wording of a text. -/
theorem failures_of_baseEndpoint (b b' : String) (s : Service) :
    (∀ m ∈ s.allMethods, (s.evaluator b).failure? m = (s.evaluator b').failure? m) ∧
    (Catalog.of b s).skipped = (Catalog.of b' s).skipped ∧
    (Building.of b s).events.filter (·.level = .warn) =
      (Building.of b' s).events.filter (·.level = .warn) ∧
    ∀ (root : Context) (e : Expression), Evaluator.SameButText
      (Evaluator.evaluate ⟨b, root⟩ e) (Evaluator.evaluate ⟨b', root⟩ e) := by
  have hfailure : ∀ m, (s.evaluator b).failure? m = (s.evaluator b').failure? m :=
    fun m => Evaluator.failure?_baseEndpoint b b' s.context m
  have hskipped : (s.evaluator b).skippedName? = (s.evaluator b').skippedName? := by
    funext m
    rw [Evaluator.skippedName?, Evaluator.skippedName?, hfailure]
  have hwarning : (s.evaluator b).warning? s.name = (s.evaluator b').warning? s.name := by
    funext m
    rw [Evaluator.warning?, Evaluator.warning?, hfailure]
  refine ⟨fun m _ => hfailure m, ?_, ?_, Evaluator.outcomes_of_baseEndpoint b b'⟩
  · rw [Catalog.of_eq, Catalog.of_eq, hskipped]
  · -- the report at the end, whose counts may differ, is no warning
    have hwarnings : ∀ base, (Building.of base s).events.filter (·.level = .warn) =
        (s.allMethods.filterMap ((s.evaluator base).warning? s.name)).filter (·.level = .warn) := by
      intro base
      rw [(Building.of_assembled base s).events, List.filter_append]
      exact List.append_nil _
    rw [hwarnings, hwarnings, hwarning]

end OperationCatalog
