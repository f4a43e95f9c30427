import OperationCatalog.Log
import OperationCatalog.Visibility

/-!
# Catalogs

The records of a service, visible and hidden ones apart, and the names of the methods that could not
be rendered.  `Building.of` renders the methods one after the other and reports what it does.
-/

namespace OperationCatalog

/-- The classified operations of a service. -/
structure Catalog where
  service : String
  visible : List Record
  hidden : List Record
  skipped : List String

/-- The visible records, or the hidden ones. -/
def Catalog.records (c : Catalog) (hidden : Bool) : List Record :=
  if hidden then c.hidden else c.visible

/-- A catalog in the making, and the events so far. -/
structure Building where
  catalog : Catalog
  events : List Event

namespace Building

/-- What one method adds. -/
def add (ev : Evaluator) (b : Building) (m : Method) : Building :=
  match ev.render m with
  | .error e =>
    { catalog := { b.catalog with skipped := b.catalog.skipped ++ [m.name] }
      events := b.events ++ [.skippedMethod b.catalog.service m.name e] }
  | .ok records =>
    match Visibility.ofName m.name with
    | .visible => { b with catalog := { b.catalog with visible := b.catalog.visible ++ records } }
    | .hidden => { b with catalog := { b.catalog with hidden := b.catalog.hidden ++ records } }

/-- The report of the finished catalog. -/
def finish (b : Building) : Building :=
  { b with events := b.events ++ [.builtCatalog b.catalog.service b.catalog.visible.length
      b.catalog.hidden.length b.catalog.skipped.length] }

/-- The catalog of a service whose operations are found below `baseEndpoint`. -/
def of (baseEndpoint : String) (s : Service) : Building :=
  (s.allMethods.foldl (add ⟨baseEndpoint, s.context⟩) ⟨⟨s.name, [], [], []⟩, []⟩).finish

end Building

/-- The catalog of a service whose operations are found below `baseEndpoint`. -/
def Catalog.of (baseEndpoint : String) (s : Service) : Catalog := (Building.of baseEndpoint s).catalog

end OperationCatalog
