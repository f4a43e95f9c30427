import OperationCatalog.Server

/-!
# Histories of a server

Requests that come one after the other while the model file changes in between.  `Server.run` gives
the responses to all requests of a history.  What a request asks for is told from it alone, by
`Request.ask?`; the requests that ask for nothing are turned away whatever the server has.
-/

namespace OperationCatalog

/-- What a request can ask of a catalog. -/
inductive Ask where
  /-- The hidden records, or else the visible ones. -/
  | operations (hidden : Bool)
  | health
  deriving DecidableEq

/-- The document that answers a request. -/
def Ask.body (baseEndpoint : String) (uptime : Nat) (c : Catalog) : Ask → Value
  | .operations hidden => .array ((c.records hidden).map Record.toValue)
  | .health => (Health.of baseEndpoint c).toValue uptime

/-- What a route asks for, or the status with which a request for it is turned away. -/
def Route.ask? : Route → Except Nat Ask
  | .operations query =>
    match hiddenOfQuery? query with
    | none => .error 400
    | some hidden => .ok (.operations hidden)
  | .health => .ok .health

namespace Request

/-- What a request asks for, or the status with which it is turned away. -/
def ask? (r : Request) : Except Nat Ask :=
  match Route.ofTarget? r.target with
  | none => .error 404
  | some route => if r.method = "GET" ∨ r.method = "HEAD" then route.ask? else .error 405

/-- A response as the request gets it: without its body if only the head is asked for. -/
def shown (r : Request) (response : Response) : Response :=
  if r.method = "HEAD" then { response with body := none } else response

end Request

namespace Server

/-- Something that happens to a server or to the file of its model. -/
inductive Occurrence where
  /-- From now on the file is in this state. -/
  | change (file : FileState)
  /-- A request, so many milliseconds after the start. -/
  | request (uptime : Nat) (request : Request)

/-- What one occurrence comes to, if it is a request, and the server and the file after it. -/
def step (server : Server) (file : FileState) : Occurrence → Option Response × Server × FileState
  | .change file => (none, server, file)
  | .request uptime request =>
    let (response, _, server) := server.handle file uptime request
    (some response, server, file)

/-- The responses to the requests of a history, in order, and the server and the file after it. -/
def run (server : Server) (file : FileState) : List Occurrence → List Response × Server × FileState
  | [] => ([], server, file)
  | o :: rest =>
    let next := (server.step file o).2
    ((server.step file o).1.toList ++ (next.1.run next.2 rest).1, (next.1.run next.2 rest).2)

/-- A history goes on from the server and the file after its first part. -/
theorem run_append (server : Server) (file : FileState) (h t : List Occurrence) :
    server.run file (h ++ t) =
      ((server.run file h).1 ++ ((server.run file h).2.1.run (server.run file h).2.2 t).1,
        ((server.run file h).2.1.run (server.run file h).2.2 t).2) := by
  induction h generalizing server file with
  | nil => rfl
  | cons o rest ih => simp only [List.cons_append, run, ih, List.append_assoc]

/-- A route is turned away, or answered from the catalog that the server keeps or builds. -/
theorem get_eq (server : Server) (file : FileState) (uptime : Nat) (route : Route) :
    server.get file uptime route =
      match route.ask? with
      | .error status => (.plain status, [], server)
      | .ok ask => server.respond file fun c => ask.body server.cache.baseEndpoint uptime c := by
  cases route with
  | health => rfl
  | operations query =>
    rw [get, Route.ask?]
    cases hiddenOfQuery? query <;> rfl

/-- The same for a request; it may want the head of the response only. -/
theorem handle_eq (server : Server) (file : FileState) (uptime : Nat) (r : Request) :
    server.handle file uptime r =
      match r.ask? with
      | .error status => (.plain status, [], server)
      | .ok ask =>
        let (response, events, server) :=
          server.respond file fun c => ask.body server.cache.baseEndpoint uptime c
        (r.shown response, events, server) := by
  rw [handle, Request.ask?]
  cases Route.ofTarget? r.target with
  | none => rfl
  | some route =>
    simp only [get_eq]
    by_cases hget : r.method = "GET"
    · cases route.ask? <;> simp [hget, Request.shown]
    · by_cases hhead : r.method = "HEAD"
      · cases route.ask? <;> simp [hhead, Request.shown, Response.plain]
      · simp [hget, hhead]

end Server

end OperationCatalog
