import OperationCatalog.Cache
import OperationCatalog.Model
import OperationCatalog.Settings

/-!
# The server

Requests for the catalog of one model file, which is looked at as long as no catalog is kept.  The
server is a value; each request gives an answer, the events, and the server after it.
-/

namespace OperationCatalog

/-- A running server. -/
structure Server where
  settings : Settings
  /-- What is said of a model file whose text cannot be read. -/
  wording : Model.Wording
  cache : Cache Unit

/-- A request as it comes in: its method and its target. -/
structure Request where
  method : String
  target : String

/-- The answer to a request. -/
structure Response where
  status : Nat
  /-- Whether the answer says that its body is JSON. -/
  isJson : Bool
  body : Option Value

/-- An answer without a document. -/
def Response.plain (status : Nat) : Response := ⟨status, false, none⟩

/-! ## Targets -/

/-- The path and the query of a target: a fragment does not count, and before the path there may be a
scheme and an authority. -/
def splitTarget (target : String) : List Char × List Char :=
  let cs := target.toList.takeWhile (· ≠ '#')
  let cs :=
    if cs.head? = some '/' then cs
    else
      match (cs.dropWhile (· ≠ ':')) with
      | ':' :: '/' :: '/' :: rest =>
        let rest := rest.dropWhile fun c => c ≠ '/' && c ≠ '?'
        if rest.head? = some '/' then rest else '/' :: rest
      | _ => []
  (cs.takeWhile (· ≠ '?'), (cs.dropWhile (· ≠ '?')).drop 1)

/-- A part of a query, decoded: a plus sign is a blank, and two hexadecimal digits behind a percent sign
are a byte. -/
def decodeForm : List Char → List Char
  | [] => []
  | '+' :: rest => ' ' :: decodeForm rest
  | '%' :: a :: b :: rest =>
    match Text.hexadecimal? [a, b] with
    | some n => Char.ofNat n :: decodeForm rest
    | none => '%' :: decodeForm (a :: b :: rest)
  | c :: rest => c :: decodeForm rest

/-- The names and values of a query. -/
def queryPairs (query : List Char) : List (List Char × List Char) :=
  ((query.splitOn '&').filter (!·.isEmpty)).map fun part =>
    (decodeForm (part.takeWhile (· ≠ '=')), decodeForm ((part.dropWhile (· ≠ '=')).drop 1))

/-- Whether a query asks for the hidden records; `none` if it does not say so clearly. -/
def hiddenOfQuery? (query : List Char) : Option Bool :=
  match (queryPairs query).filter (·.1 = "hidden".toList) with
  | [] => some false
  | [(_, value)] =>
    if value = "true".toList then some true
    else if value = "false".toList then some false
    else none
  | _ => none

/-- What a target asks for. -/
inductive Route where
  | operations (query : List Char)
  | health
  deriving DecidableEq

/-- What a target asks for, if anything. -/
def Route.ofTarget? (target : String) : Option Route :=
  let (path, query) := splitTarget target
  if path = "/api/operations".toList then some (.operations query)
  else if path = "/healthz".toList then some .health
  else none

/-! ## Answers -/

/-- The state of a server whose catalog is there. -/
structure Health where
  service : String
  baseEndpoint : String
  visible : Nat
  hidden : Nat
  skipped : Nat
  deriving DecidableEq

namespace Health

/-- The health of a server with this catalog. -/
def of (baseEndpoint : String) (c : Catalog) : Health :=
  ⟨c.service, baseEndpoint, c.visible.length, c.hidden.length, c.skipped.length⟩

/-- The object that denotes it, with the time in milliseconds since the server was started. -/
def toValue (h : Health) (uptime : Nat) : Value :=
  .object [("ok", .bool true), ("service", .text h.service), ("baseEndpoint", .text h.baseEndpoint),
    ("operations", .object [("visible", .natural h.visible), ("hidden", .natural h.hidden),
      ("skipped", .natural h.skipped)]),
    ("uptimeMs", .natural uptime)]

end Health

namespace Server

/-- A server that has not looked at its model yet. -/
def start (s : Settings) (wording : Model.Wording) : Server := ⟨s, wording, Cache.new s.baseEndpoint⟩

/-- Asks for the catalog while the model file is in this state. -/
def catalog (server : Server) (file : FileState) : Reply × Server :=
  let (reply, cache) :=
    server.cache.request () (Model.load server.wording server.settings.model file)
  (reply, { server with cache })

/-- The answer when there is no catalog. -/
def unavailable (e : ModelError) : Response :=
  ⟨503, true, some (.object [("ok", .bool false), ("error", .text e.message)])⟩

/-- An answer from the catalog, or that there is none. -/
def respond (server : Server) (file : FileState) (body : Catalog → Value) :
    Response × List Event × Server :=
  let (reply, server) := server.catalog file
  match reply.answer with
  | .ok c => (⟨200, true, some (body c)⟩, reply.events, server)
  | .error e => (unavailable e, reply.events ++ [.modelUnavailable e], server)

/-- The answer to a request that gets a document. -/
def get (server : Server) (file : FileState) (uptime : Nat) :
    Route → Response × List Event × Server
  | .operations query =>
    match hiddenOfQuery? query with
    | none => (.plain 400, [], server)
    | some hidden =>
      server.respond file fun c => .array ((c.records hidden).map Record.toValue)
  | .health =>
    server.respond file fun c => (Health.of server.cache.baseEndpoint c).toValue uptime

/-- The answer to a request, `uptime` milliseconds after the start.  The method `HEAD` gets the answer
of `GET` without its body. -/
def handle (server : Server) (file : FileState) (uptime : Nat) (request : Request) :
    Response × List Event × Server :=
  match Route.ofTarget? request.target with
  | none => (.plain 404, [], server)
  | some route =>
    if request.method = "GET" then server.get file uptime route
    else if request.method = "HEAD" then
      let (response, events, server) := server.get file uptime route
      ({ response with body := none }, events, server)
    else (.plain 405, [], server)

/-- The events of a start that listens on `address`. -/
def startEvents (s : Settings) (address : String) : List Event :=
  [.starting s.host.text s.port s.model s.baseEndpoint, .listening address s.baseEndpoint]

end Server

end OperationCatalog
