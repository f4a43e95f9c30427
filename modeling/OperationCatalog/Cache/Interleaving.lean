import OperationCatalog.Cache.History

/-!
# Concurrent requests

Requests on one cache that run at the same time, as a system of states and steps.  Each type of model
has a cell, which is found or made under the lock of the cache.  A cell that holds a catalog is only
read; one that is empty lets in one request at a time, which asks the model for its service and stores
the catalog, or leaves the cell empty when that fails.

`Cell.act?` is what an action of a request makes of its cell, and `Cell.Acts` says the same as a list
of rules.  `Shared.step?` does one step of one request, and a history is a list of steps.
-/

namespace OperationCatalog

/-- Where the catalog of one type of model is kept. -/
structure Cell where
  catalog : Option Catalog
  /-- The request that is inside. -/
  inside : Option Nat

/-- A cell as it is made. -/
def Cell.empty : Cell := ⟨none, none⟩

/-- How far a request has come. -/
inductive Phase where
  | begun
  /-- It has its cell. -/
  | placed
  /-- It has seen that the cell is empty. -/
  | waiting
  /-- It is inside the cell and may ask the model. -/
  | inside
  /-- It has asked the model; a catalog is not stored yet. -/
  | built (result : Except ModelError Catalog)
  /-- It has got the catalog or an error to return. -/
  | decided (result : Except ModelError Catalog)
  | answered (answer : Except ModelError Content)

/-- What a request does in one step. -/
inductive Action where
  /-- Finds or makes its cell. -/
  | take
  /-- Looks into the cell. -/
  | look
  /-- Goes into the cell when nobody is inside, unless it has got its catalog in the meantime. -/
  | enter
  /-- Asks the model, which answers like this, and builds the catalog. -/
  | build (instantiate : Except ModelError Service)
  /-- Stores the catalog, if there is one, and leaves the cell. -/
  | leave
  /-- Returns what its view shows of the catalog, or the error. -/
  | answer

/-- A step of the request with this number. -/
structure CallStep where
  call : Nat
  action : Action

/-! ## One cell -/

namespace Cell

/-- The cell and the phase of a request after an action; `none` if the request cannot do it now. -/
def act? (baseEndpoint : String) (call : Nat) (view : View) (cell : Cell) (phase : Phase)
    (action : Action) : Option (Cell × Phase) :=
  match phase, action with
  | .begun, .take => some (cell, .placed)
  | .placed, .look =>
    match cell.catalog with
    | some catalog => some (cell, .decided (.ok catalog))
    | none => some (cell, .waiting)
  | .waiting, .enter =>
    match cell.catalog, cell.inside with
    | some catalog, _ => some (cell, .decided (.ok catalog))
    | none, none => some ({ cell with inside := some call }, .inside)
    | none, some _ => none
  | .inside, .build instantiate =>
    some (cell, .built (instantiate.map (Catalog.of baseEndpoint)))
  | .built (.ok catalog), .leave => some (⟨some catalog, none⟩, .decided (.ok catalog))
  | .built (.error e), .leave => some ({ cell with inside := none }, .decided (.error e))
  | .decided result, .answer => some (cell, .answered (result.map view.content))
  | _, _ => none

/-- The actions of a request with the cells and phases before and after. -/
inductive Acts (baseEndpoint : String) (call : Nat) (view : View) (cell : Cell) :
    Phase → Action → Cell → Phase → Prop where
  | take : Acts baseEndpoint call view cell .begun .take cell .placed
  | hit {catalog : Catalog} (hcell : cell.catalog = some catalog) :
    Acts baseEndpoint call view cell .placed .look cell (.decided (.ok catalog))
  | miss (hcell : cell.catalog = none) :
    Acts baseEndpoint call view cell .placed .look cell .waiting
  | late {catalog : Catalog} (hcell : cell.catalog = some catalog) :
    Acts baseEndpoint call view cell .waiting .enter cell (.decided (.ok catalog))
  | enter (hcatalog : cell.catalog = none) (hinside : cell.inside = none) :
    Acts baseEndpoint call view cell .waiting .enter ⟨none, some call⟩ .inside
  | build (instantiate : Except ModelError Service) :
    Acts baseEndpoint call view cell .inside (.build instantiate) cell
      (.built (instantiate.map (Catalog.of baseEndpoint)))
  | store (catalog : Catalog) :
    Acts baseEndpoint call view cell (.built (.ok catalog)) .leave ⟨some catalog, none⟩
      (.decided (.ok catalog))
  | giveUp (e : ModelError) :
    Acts baseEndpoint call view cell (.built (.error e)) .leave ⟨cell.catalog, none⟩
      (.decided (.error e))
  | answer (result : Except ModelError Catalog) :
    Acts baseEndpoint call view cell (.decided result) .answer cell
      (.answered (result.map view.content))

/-- `act?` does what the rules allow. -/
theorem act?_eq_some_iff {baseEndpoint : String} {call : Nat} {view : View} {cell cell' : Cell}
    {phase phase' : Phase} {action : Action} :
    cell.act? baseEndpoint call view phase action = some (cell', phase') ↔
      Acts baseEndpoint call view cell phase action cell' phase' := by
  obtain ⟨catalog?, inside?⟩ := cell
  constructor
  · intro h
    unfold act? at h
    split at h
    · cases h
      exact .take
    · split at h <;> cases h
      · exact .hit ‹_›
      · exact .miss ‹_›
    · split at h <;> cases h
      · exact .late ‹_›
      · rename_i hcatalog hinside
        obtain rfl : catalog? = none := hcatalog
        exact .enter rfl hinside
    · cases h
      exact .build _
    · cases h
      exact .store _
    · cases h
      exact .giveUp _
    · cases h
      exact .answer _
    · cases h
  · intro h
    cases h with
    | hit hcell | miss hcell | late hcell => simp_all [act?]
    | enter hcatalog hinside => simp_all [act?]
    | _ => rfl

end Cell

/-! ## A cache with its requests -/

/-- A request for the catalog of a type of model, or for what a view shows of it. -/
structure Call (κ : Type) where
  key : κ
  view : View
  /-- The number of its cell, once it has one. -/
  cell : Option Nat
  phase : Phase

/-- A cache and the requests on it. -/
structure Shared (κ : Type) where
  baseEndpoint : String
  /-- The cells of the types of models that have one. -/
  keys : List (κ × Nat)
  cells : List Cell
  calls : List (Call κ)

namespace Shared

variable {κ : Type} [DecidableEq κ]

/-- Requests for these types of models, on a cache that holds no catalogs. -/
def start (baseEndpoint : String) (requests : List (κ × View)) : Shared κ :=
  ⟨baseEndpoint, [], [], requests.map fun (key, view) => ⟨key, view, none, .begun⟩⟩

/-- The cell of a request: the one it has, or else that of its type, made if there is none. -/
def cellOf (s : Shared κ) (call : Call κ) : Nat × Shared κ :=
  match call.cell with
  | some cell => (cell, s)
  | none =>
    match s.keys.lookup call.key with
    | some cell => (cell, s)
    | none =>
      let cell := s.cells.length
      (cell, { s with keys := (call.key, cell) :: s.keys, cells := s.cells ++ [.empty] })

/-- The state after a step; `none` if the request cannot do it now. -/
def step? (s : Shared κ) (step : CallStep) : Option (Shared κ) := do
  let call ← s.calls[step.call]?
  let (number, s) := s.cellOf call
  let cell ← s.cells[number]?
  let (cell, phase) ← cell.act? s.baseEndpoint step.call call.view call.phase step.action
  return { s with
    cells := s.cells.set number cell
    calls := s.calls.set step.call { call with cell := some number, phase } }

/-- The state after a history; `none` if one of its steps cannot be done. -/
def run? (s : Shared κ) (history : List CallStep) : Option (Shared κ) := history.foldlM step? s

end Shared

end OperationCatalog
