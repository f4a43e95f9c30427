import OperationCatalog.Catalog

/-!
# How a catalog is put together

`Building.of` walks over the methods of a service with three accumulators and a log.  Here the walk
is replaced by what each method gives on its own: `Evaluator.recordsFor` is what it adds to the visible
or to the hidden records, `Evaluator.failure?` why it adds none.  The catalog is the concatenation of
these, in the order of the methods, so it is additive over lists of methods and knows nothing of
groups.

## Key results

- `Building.foldl_add`: the walk appends what each method gives, whatever is there before
- `Evaluator.places_eq_one`: a method gives something to exactly one of the three lists
- `Building.of_assembled`: catalog and log of a service in terms of its methods
- `Catalog.of_append`, `Catalog.of_failing`: more methods append, a failing one leaves but its name
- `catalog_of_methods`: all of this together, for any service and base endpoint
-/

namespace OperationCatalog

/-! ## What one method gives -/

namespace Evaluator

/-- The records that a method adds to the visible or to the hidden ones: all it has if its name is
    classified so, otherwise none. -/
def recordsFor (ev : Evaluator) (v : Visibility) (m : Method) : List Record :=
  match ev.render m with
  | .ok records => if Visibility.ofName m.name = v then records else []
  | .error _ => []

/-- Why a method has no records, if it has none. -/
def failure? (ev : Evaluator) (m : Method) : Option RenderError :=
  match ev.render m with
  | .ok _ => none
  | .error e => some e

/-- The name of a method that has no records. -/
def skippedName? (ev : Evaluator) (m : Method) : Option String := (ev.failure? m).map fun _ => m.name

/-- The warning about a method that has no records. -/
def warning? (ev : Evaluator) (service : String) (m : Method) : Option Event :=
  (ev.failure? m).map fun e => .skippedMethod service m.name e

/-- In how many of the three lists of a catalog a method leaves something. -/
def places (ev : Evaluator) (m : Method) : Nat :=
  [!(ev.recordsFor .visible m).isEmpty, !(ev.recordsFor .hidden m).isEmpty,
    (ev.skippedName? m).isSome].count true

theorem recordsFor_of_ok {ev : Evaluator} {m : Method} {records : List Record}
    (h : ev.render m = .ok records) (v : Visibility) :
    ev.recordsFor v m = if Visibility.ofName m.name = v then records else [] := by
  simp only [recordsFor, h]

theorem recordsFor_of_error {ev : Evaluator} {m : Method} {e : RenderError}
    (h : ev.render m = .error e) (v : Visibility) : ev.recordsFor v m = [] := by
  simp only [recordsFor, h]

theorem failure?_of_ok {ev : Evaluator} {m : Method} {records : List Record}
    (h : ev.render m = .ok records) : ev.failure? m = none := by
  simp only [failure?, h]

theorem failure?_of_error {ev : Evaluator} {m : Method} {e : RenderError}
    (h : ev.render m = .error e) : ev.failure? m = some e := by
  simp only [failure?, h]

/-- A method that fails adds no records anywhere. -/
theorem recordsFor_of_failure? {ev : Evaluator} {m : Method} {e : RenderError}
    (h : ev.failure? m = some e) (v : Visibility) : ev.recordsFor v m = [] := by
  cases hr : ev.render m with
  | error e' => exact recordsFor_of_error hr v
  | ok records => rw [failure?_of_ok hr] at h; cases h

/-- A method that can be rendered has at least one record. -/
theorem render_ne_nil {ev : Evaluator} {m : Method} {records : List Record}
    (h : ev.render m = .ok records) : records ≠ [] := by
  have hexpand : ∀ url, UrlVariants.expand url ≠ [] := by
    intro url
    simp only [UrlVariants.expand]
    split <;> exact List.cons_ne_nil _ _
  obtain ⟨_, _, url, -, -, -, rfl⟩ := render_eq_ok_iff.1 h
  exact fun hnil => hexpand url (List.map_eq_nil_iff.1 hnil)

/-- A method leaves something in exactly one list: visible records, hidden ones, or its name. -/
theorem places_eq_one (ev : Evaluator) (m : Method) : ev.places m = 1 := by
  cases hr : ev.render m with
  | error e =>
    simp [places, skippedName?, recordsFor_of_error hr, failure?_of_error hr]
  | ok records =>
    have hne : records.isEmpty = false := by simpa using render_ne_nil hr
    cases hv : Visibility.ofName m.name <;>
      simp [places, skippedName?, recordsFor_of_ok hr, failure?_of_ok hr, hv, hne]

end Evaluator

/-- What the methods of a service are evaluated against. -/
def Service.evaluator (s : Service) (baseEndpoint : String) : Evaluator :=
  ⟨baseEndpoint, s.context⟩

/-! ## The walk over the methods -/

namespace Building

/-- One method appends what it gives to each of the lists, and its warning to the log. -/
theorem add_eq (ev : Evaluator) (b : Building) (m : Method) :
    add ev b m =
      ⟨⟨b.catalog.service, b.catalog.visible ++ ev.recordsFor .visible m,
        b.catalog.hidden ++ ev.recordsFor .hidden m,
        b.catalog.skipped ++ (ev.skippedName? m).toList⟩,
       b.events ++ (ev.warning? b.catalog.service m).toList⟩ := by
  cases hr : ev.render m with
  | error e =>
    simp [add, hr, Evaluator.skippedName?, Evaluator.warning?, Evaluator.recordsFor_of_error hr,
      Evaluator.failure?_of_error hr]
  | ok records =>
    cases hv : Visibility.ofName m.name <;>
      simp [add, hr, hv, Evaluator.skippedName?, Evaluator.warning?,
        Evaluator.recordsFor_of_ok hr, Evaluator.failure?_of_ok hr]

/-- The walk appends what each method gives, in order.  The accumulators are those of the methods
    before, so this is the invariant of the loop. -/
theorem foldl_add (ev : Evaluator) (b : Building) (ms : List Method) :
    ms.foldl (add ev) b =
      ⟨⟨b.catalog.service, b.catalog.visible ++ ms.flatMap (ev.recordsFor .visible),
        b.catalog.hidden ++ ms.flatMap (ev.recordsFor .hidden),
        b.catalog.skipped ++ ms.filterMap ev.skippedName?⟩,
       b.events ++ ms.filterMap (ev.warning? b.catalog.service)⟩ := by
  induction ms generalizing b with
  | nil => simp
  | cons m rest ih =>
    -- the accumulators of the rest are those after the first method
    rw [List.foldl_cons, ih, add_eq]
    simp only [List.flatMap_cons, List.append_assoc, List.filterMap_cons]
    cases ev.skippedName? m <;> cases ev.warning? b.catalog.service m <;> simp

/-- What the methods of a service, one by one, make of its catalog and of the log. -/
structure Assembled (baseEndpoint : String) (s : Service) (b : Building) : Prop where
  service : b.catalog.service = s.name
  visible : b.catalog.visible =
    s.allMethods.flatMap ((s.evaluator baseEndpoint).recordsFor .visible)
  hidden : b.catalog.hidden =
    s.allMethods.flatMap ((s.evaluator baseEndpoint).recordsFor .hidden)
  skipped : b.catalog.skipped =
    s.allMethods.filterMap (s.evaluator baseEndpoint).skippedName?
  /-- A warning for each method without records, and then the three lengths. -/
  events : b.events =
    s.allMethods.filterMap ((s.evaluator baseEndpoint).warning? s.name) ++
      [.builtCatalog s.name b.catalog.visible.length b.catalog.hidden.length
        b.catalog.skipped.length]
  levels : b.events.map Event.level =
    List.replicate b.catalog.skipped.length .warn ++ [.info]

/-- There is one warning for each name that is left out, and nothing else before the report. -/
private theorem warnings_level (ev : Evaluator) (service : String) (ms : List Method) :
    (ms.filterMap (ev.warning? service)).map Event.level =
      List.replicate (ms.filterMap ev.skippedName?).length .warn := by
  induction ms with
  | nil => rfl
  | cons m rest ih =>
    simp only [List.filterMap_cons, Evaluator.warning?, Evaluator.skippedName?]
    cases ev.failure? m with
    | none => exact ih
    | some e =>
      simp only [Option.map_some, List.map_cons, List.length_cons, List.replicate_succ]
      exact congrArg (Level.warn :: ·) ih

/-- Catalog and log of a service are those that its methods make. -/
theorem of_assembled (baseEndpoint : String) (s : Service) :
    (of baseEndpoint s).Assembled baseEndpoint s := by
  -- the walk starts with empty accumulators
  have hwalk := foldl_add (s.evaluator baseEndpoint) ⟨⟨s.name, [], [], []⟩, []⟩ s.allMethods
  simp only [List.nil_append] at hwalk
  rw [show of baseEndpoint s = _ from congrArg finish hwalk]
  constructor
  case levels =>
    simp only [finish, List.map_append, warnings_level]
    rfl
  all_goals rfl

end Building

/-! ## Catalogs of several lists of methods -/

/-- Whether two services differ in nothing but their methods. -/
def Service.Alike (s t : Service) : Prop := s.name = t.name ∧ s.context = t.context

theorem Service.Alike.evaluator_eq {s t : Service} (h : s.Alike t) (baseEndpoint : String) :
    s.evaluator baseEndpoint = t.evaluator baseEndpoint := by
  simp only [Service.evaluator, h.2]

namespace Catalog

/-- The catalog with the lists of another one behind its own. -/
def append (c d : Catalog) : Catalog :=
  ⟨c.service, c.visible ++ d.visible, c.hidden ++ d.hidden, c.skipped ++ d.skipped⟩

/-- The catalog of a service, list by list. -/
theorem of_eq (baseEndpoint : String) (s : Service) :
    Catalog.of baseEndpoint s =
      ⟨s.name, s.allMethods.flatMap ((s.evaluator baseEndpoint).recordsFor .visible),
        s.allMethods.flatMap ((s.evaluator baseEndpoint).recordsFor .hidden),
        s.allMethods.filterMap (s.evaluator baseEndpoint).skippedName?⟩ := by
  -- each list is the one of the finished walk
  have h := Building.of_assembled baseEndpoint s
  rw [← h.service, ← h.visible, ← h.hidden, ← h.skipped]
  rfl

/-- The methods of two services make the catalogs of both, one behind the other. -/
theorem of_append {baseEndpoint : String} {s t u : Service} (ht : t.Alike s) (hu : u.Alike s)
    (h : s.allMethods = t.allMethods ++ u.allMethods) :
    Catalog.of baseEndpoint s = (Catalog.of baseEndpoint t).append (Catalog.of baseEndpoint u) := by
  simp only [of_eq, append, h, ht.1, ht.evaluator_eq, hu.evaluator_eq, List.flatMap_append,
    List.filterMap_append]

/-- A method that fails leaves its name and no other trace. -/
theorem of_failing {baseEndpoint : String} {s : Service} {before after : List Method} {m : Method}
    {e : RenderError} (h : s.allMethods = before ++ m :: after)
    (hm : (s.evaluator baseEndpoint).failure? m = some e) :
    Catalog.of baseEndpoint s =
      ⟨s.name,
        (before ++ after).flatMap ((s.evaluator baseEndpoint).recordsFor .visible),
        (before ++ after).flatMap ((s.evaluator baseEndpoint).recordsFor .hidden),
        before.filterMap (s.evaluator baseEndpoint).skippedName? ++
          m.name :: after.filterMap (s.evaluator baseEndpoint).skippedName?⟩ := by
  have hname : (s.evaluator baseEndpoint).skippedName? m = some m.name := by
    rw [Evaluator.skippedName?, hm]
    rfl
  rw [of_eq, h]
  simp only [List.flatMap_append, List.flatMap_cons, List.filterMap_append,
    List.filterMap_cons_some hname, Evaluator.recordsFor_of_failure? hm, List.nil_append]

end Catalog

/-- The catalog of a service is made of what its methods give, each in exactly one of the three lists
    and in order.  Lists of methods add up, a failing method takes nothing from the others, and how the
    methods are grouped is of no account. -/
theorem catalog_of_methods (baseEndpoint : String) (s : Service) :
    (Building.of baseEndpoint s).Assembled baseEndpoint s ∧
    (∀ m ∈ s.allMethods, (s.evaluator baseEndpoint).places m = 1) ∧
    (∀ t u : Service, t.Alike s → u.Alike s → s.allMethods = t.allMethods ++ u.allMethods →
      Catalog.of baseEndpoint s = (Catalog.of baseEndpoint t).append (Catalog.of baseEndpoint u)) ∧
    (∀ (t : Service) (before after : List Method) (m : Method) (e : RenderError), t.Alike s →
      s.allMethods = before ++ m :: after → t.allMethods = before ++ after →
      (s.evaluator baseEndpoint).failure? m = some e →
      (Catalog.of baseEndpoint s).visible = (Catalog.of baseEndpoint t).visible ∧
      (Catalog.of baseEndpoint s).hidden = (Catalog.of baseEndpoint t).hidden ∧
      (Catalog.of baseEndpoint t).skipped =
        before.filterMap (s.evaluator baseEndpoint).skippedName? ++
          after.filterMap (s.evaluator baseEndpoint).skippedName? ∧
      (Catalog.of baseEndpoint s).skipped =
        before.filterMap (s.evaluator baseEndpoint).skippedName? ++
          m.name :: after.filterMap (s.evaluator baseEndpoint).skippedName?) ∧
    (∀ t : Service, t.Alike s → t.allMethods = s.allMethods →
      Building.of baseEndpoint t = Building.of baseEndpoint s) := by
  refine ⟨Building.of_assembled baseEndpoint s, fun m _ => Evaluator.places_eq_one _ m,
    fun t u ht hu h => Catalog.of_append ht hu h, ?_, ?_⟩
  · intro t before after m e ht hs hms hm
    rw [Catalog.of_failing hs hm, Catalog.of_eq baseEndpoint t, ht.evaluator_eq, hms]
    exact ⟨rfl, rfl, List.filterMap_append, rfl⟩
  · intro t ht h
    simp only [Building.of, ht.1, ht.2, h]

end OperationCatalog
