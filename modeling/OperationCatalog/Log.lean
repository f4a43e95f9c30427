import OperationCatalog.Model.Error
import OperationCatalog.Rendering

/-!
# Log events

What the library reports while it works.
-/

namespace OperationCatalog

/-- How much an event matters. -/
inductive Level where
  | debug
  | info
  | warn
  | error
  deriving DecidableEq

/-- The name of a level. -/
def Level.name : Level → String
  | .debug => "DEBUG"
  | .info => "INFO"
  | .warn => "WARN"
  | .error => "ERROR"

/-- Something that is reported. -/
inductive Event where
  /-- A method was left out of the catalog. -/
  | skippedMethod (service method : String) (error : RenderError)
  | builtCatalog (service : String) (visible hidden skipped : Nat)
  | cacheHit (service : String)
  /-- A request could not be answered. -/
  | modelUnavailable (error : ModelError)
  | starting (host : String) (port : Nat) (model baseEndpoint : String)
  | listening (address baseEndpoint : String)
  deriving DecidableEq

namespace Event

/-- The level of an event. -/
def level : Event → Level
  | .skippedMethod .. => .warn
  | .builtCatalog .. => .info
  | .cacheHit _ => .debug
  | .modelUnavailable _ => .error
  | .starting .. => .info
  | .listening .. => .info

/-- The wording of an event. -/
def message : Event → String
  | .skippedMethod service method error =>
    "skipping method service=" ++ service ++ " method=" ++ method ++ ": " ++ error.message
  | .builtCatalog service visible hidden skipped =>
    "built operation catalog service=" ++ service ++ " visible=" ++ toString visible ++ " hidden="
      ++ toString hidden ++ " skipped=" ++ toString skipped
  | .cacheHit service => "operation catalog cache hit service=" ++ service
  | .modelUnavailable error => "service model unavailable: " ++ error.message
  | .starting host port model baseEndpoint =>
    "starting opscope-server host=" ++ host ++ " port=" ++ toString port ++ " model=" ++ model
      ++ " base_endpoint=" ++ baseEndpoint
  | .listening address baseEndpoint =>
    "opscope-core listening on http://" ++ address ++ ", base_endpoint=" ++ baseEndpoint

/-- An event as a line of the log. -/
def line (e : Event) : String := e.level.name ++ " " ++ e.message

end Event

end OperationCatalog
