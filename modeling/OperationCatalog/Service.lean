import OperationCatalog.BodyType
import OperationCatalog.Context
import OperationCatalog.Expression
import OperationCatalog.Verb

/-!
# Services

A service is a root context and the methods that clients may call, at the top level or in groups.
-/

namespace OperationCatalog

/-- A method of a service. -/
structure Method where
  name : String
  verb : Verb
  url : Expression
  requestBodies : List BodyType
  responseBodies : List BodyType

/-- The element of a list that holds just one. -/
def single? {α : Type} : List α → Option α
  | [x] => some x
  | _ => none

namespace Method

/-- The type of the request body, if just one is declared. -/
def requestBody? (m : Method) : Option BodyType := single? m.requestBodies

/-- The type of the response body, if just one is declared. -/
def responseBody? (m : Method) : Option BodyType := single? m.responseBodies

end Method

/-- Methods that belong together. -/
structure Group where
  name : String
  methods : List Method

/-- A service with all it declares. -/
structure Service where
  name : String
  context : Context
  methods : List Method
  groups : List Group

namespace Service

/-- A service without methods. -/
def empty (name : String) (context : Context) : Service := ⟨name, context, [], []⟩

/-- The service with one more method at the top level. -/
def withMethod (s : Service) (m : Method) : Service := { s with methods := s.methods ++ [m] }

/-- The service with one more group. -/
def withGroup (s : Service) (g : Group) : Service := { s with groups := s.groups ++ [g] }

/-- The methods at the top level and then those of each group. -/
def allMethods (s : Service) : List Method := s.methods ++ s.groups.flatMap Group.methods

end Service

end OperationCatalog
