import OperationCatalog.Proofs.CatalogAssembly
import OperationCatalog.Proofs.ModelAcceptance
import OperationCatalog.Proofs.ShapedReading
import OperationCatalog.Server.History

/-!
# What a server answers over its history

Each request that asks for something would find a service in the model file as it is then, or an error;
these are the attempts of a history.  The server keeps the catalog of the first attempt that succeeds,
`Server.Keeps`, and nothing before, so that a response depends on the attempts up to its own and on no
other part of the history.

## Key results

- `Model.fault_iff`: what is said of a file that gives no service
- `Server.Keeps.step`, `Server.Keeps.run`: the catalog that a server keeps after one occurrence, and
  after a history
- `Server.answered`: the response to the request that follows a history
- `server_freezes_first_success`: the responses of a whole history
-/

namespace OperationCatalog

/-! ## Files without a service -/

namespace Model

/-- What is said of a model file that gives no service: why there is no text of it, or what its reader
    says of the text, or which name is missing, where that of the service comes first. -/
inductive Fault (wording : Wording) (path : String) : FileState → String → Prop
  | absent : Fault wording path .absent
      ("failed to read model " ++ path ++ ": " ++ "No such file or directory (os error 2)")
  | directory : Fault wording path .directory
      ("failed to read model " ++ path ++ ": " ++ "Is a directory (os error 21)")
  | unreadable (reason : String) : Fault wording path (.unreadable reason)
      ("failed to read model " ++ path ++ ": " ++ reason)
  | notUtf8 {content : ByteArray} (h : String.fromUTF8? content = none) :
    Fault wording path (.bytes content)
      ("failed to read model " ++ path ++ ": " ++ "stream did not contain valid UTF-8")
  | unread {content : ByteArray} {text : String} (h : String.fromUTF8? content = some text)
    (hread : (Format.ofPath path).read? text = none) :
    Fault wording path (.bytes content)
      ("failed to parse model " ++ path ++ ": " ++ wording (Format.ofPath path) text)
  | unnamed {content : ByteArray} {text : String} {s : Service}
    (h : String.fromUTF8? content = some text) (hread : (Format.ofPath path).read? text = some s)
    (hname : Text.trim s.name = "") :
    Fault wording path (.bytes content) "invalid model: model name must not be empty"
  | unnamedMethod {content : ByteArray} {text : String} {s : Service}
    (h : String.fromUTF8? content = some text) (hread : (Format.ofPath path).read? text = some s)
    (hname : Text.trim s.name ≠ "") (hmethod : s.DeclaresUnnamed) :
    Fault wording path (.bytes content)
      ("invalid model: model " ++ s.name ++ " declares a method without a name")

variable {wording : Wording} {path : String} {file : FileState}

/-- A file that gives no service is at fault in one of these ways. -/
theorem fault_of_load {e : ModelError} (h : load wording path file = .error e) :
    Fault wording path file e.message := by
  rw [load] at h
  cases file with
  | absent =>
    cases h
    exact .absent
  | directory =>
    cases h
    exact .directory
  | unreadable reason =>
    cases h
    exact .unreadable reason
  | bytes content =>
    rw [FileState.text] at h
    cases hutf8 : String.fromUTF8? content with
    | none =>
      rw [hutf8] at h
      cases h
      exact .notUtf8 hutf8
    | some text =>
      rw [hutf8] at h
      rcases parse_eq_error_iff.1 h with ⟨hread, rfl⟩ | ⟨flaw, hread, rfl⟩
      · exact .unread hutf8 (Option.map_eq_none_iff.1 hread)
      · obtain ⟨s, hs, hflaw⟩ := Option.map_eq_some_iff.1 hread
        rcases Service.flaw?_eq_some_iff.1 hflaw with ⟨hname, rfl⟩ | ⟨hname, hmethod, rfl⟩
        · exact .unnamed hutf8 hs hname
        · exact .unnamedMethod hutf8 hs hname hmethod

/-- The text of a file at fault is that of the error. -/
theorem Fault.exists_load {text : String} (h : Fault wording path file text) :
    ∃ e, load wording path file = .error e ∧ e.message = text := by
  -- a text that was had is parsed
  have hparse : ∀ {content : ByteArray} {t : String}, String.fromUTF8? content = some t →
      load wording path (.bytes content) = parse wording path t := by
    intro content t hutf8
    rw [load, FileState.text, hutf8]
  cases h with
  | absent | directory | unreadable => exact ⟨_, rfl, rfl⟩
  | notUtf8 hutf8 =>
    refine ⟨.read path .notUtf8, ?_, rfl⟩
    rw [load, FileState.text, hutf8]
  | unread hutf8 hread =>
    refine ⟨.parse path _, ?_, rfl⟩
    rw [hparse hutf8, parse_eq_unread_iff, hread]
    rfl
  | unnamed hutf8 hread hname =>
    refine ⟨.invalid .blankName, ?_, rfl⟩
    rw [hparse hutf8, parse_eq_invalid_iff, hread, Option.map_some, Option.some_inj]
    exact Service.flaw?_eq_some_iff.2 (.inl ⟨hname, rfl⟩)
  | @unnamedMethod _ _ s hutf8 hread hname hmethod =>
    refine ⟨.invalid (.unnamedMethod s.name), ?_, rfl⟩
    rw [hparse hutf8, parse_eq_invalid_iff, hread, Option.map_some, Option.some_inj]
    exact Service.flaw?_eq_some_iff.2 (.inr ⟨hname, hmethod, rfl⟩)

theorem fault_iff {text : String} : Fault wording path file text ↔
    ∃ e, load wording path file = .error e ∧ e.message = text := by
  refine ⟨Fault.exists_load, ?_⟩
  rintro ⟨e, he, rfl⟩
  exact fault_of_load he

end Model

/-! ## Attempts -/

/-- No attempt succeeds. -/
def AllFail (attempts : List (Except ModelError Service)) : Prop :=
  ∀ x ∈ attempts, ∃ e, x = .error e

/-- The first attempt that succeeds finds this service. -/
def FirstSuccess (s : Service) (attempts : List (Except ModelError Service)) : Prop :=
  ∃ failed more, attempts = failed ++ .ok s :: more ∧ AllFail failed

/-- The service of the first attempt that succeeds. -/
def firstSuccess? (attempts : List (Except ModelError Service)) : Option Service :=
  attempts.findSome? Except.toOption

theorem toOption_eq_none_iff {x : Except ModelError Service} :
    x.toOption = none ↔ ∃ e, x = .error e := by
  cases x <;> simp [Except.toOption]

theorem firstSuccess?_eq_none_iff {attempts : List (Except ModelError Service)} :
    firstSuccess? attempts = none ↔ AllFail attempts := by
  simp only [firstSuccess?, List.findSome?_eq_none_iff, toOption_eq_none_iff, AllFail]

theorem firstSuccess?_eq_some_iff {s : Service} {attempts : List (Except ModelError Service)} :
    firstSuccess? attempts = some s ↔ FirstSuccess s attempts := by
  rw [firstSuccess?, List.findSome?_eq_some_iff]
  constructor
  · rintro ⟨failed, x, more, rfl, hx, hfailed⟩
    cases x with
    | error e => cases hx
    | ok t =>
      cases hx
      exact ⟨failed, more, rfl, fun y hy => toOption_eq_none_iff.1 (hfailed y hy)⟩
  · rintro ⟨failed, more, rfl, hfailed⟩
    exact ⟨failed, .ok s, more, rfl, rfl, fun y hy => toOption_eq_none_iff.2 (hfailed y hy)⟩

theorem firstSuccess?_append (xs ys : List (Except ModelError Service)) :
    firstSuccess? (xs ++ ys) = (firstSuccess? xs <|> firstSuccess? ys) := by
  simp only [firstSuccess?, List.findSome?_append, Option.orElse_eq_orElse, Option.orElse_eq_or]

theorem firstSuccess?_singleton (x : Except ModelError Service) :
    firstSuccess? [x] = x.toOption := by
  cases x <;> rfl

/-- Attempts that come later do not change which one is the first to succeed. -/
theorem FirstSuccess.append {s : Service} {xs : List (Except ModelError Service)}
    (h : FirstSuccess s xs) (ys : List (Except ModelError Service)) : FirstSuccess s (xs ++ ys) := by
  rw [← firstSuccess?_eq_some_iff] at h ⊢
  rw [firstSuccess?_append, h]
  rfl

theorem FirstSuccess.unique {s t : Service} {attempts : List (Except ModelError Service)}
    (hs : FirstSuccess s attempts) (ht : FirstSuccess t attempts) : s = t := by
  rw [← firstSuccess?_eq_some_iff] at hs ht
  exact Option.some.inj (hs.symm.trans ht)

namespace Server

/-- The state of the file after a history. -/
def fileAfter (file : FileState) : List Occurrence → FileState
  | [] => file
  | .change file :: rest => fileAfter file rest
  | .request .. :: rest => fileAfter file rest

/-- What each request of a history that is not turned away would find in the file. -/
def attempts (wording : Model.Wording) (path : String) (file : FileState) :
    List Occurrence → List (Except ModelError Service)
  | [] => []
  | .change file :: rest => attempts wording path file rest
  | .request _ r :: rest =>
    match r.ask? with
    | .error _ => attempts wording path file rest
    | .ok _ => Model.load wording path file :: attempts wording path file rest

variable {settings : Settings} {wording : Model.Wording}

theorem attempts_append (wording : Model.Wording) (path : String) (file : FileState)
    (h t : List Occurrence) :
    attempts wording path file (h ++ t) =
      attempts wording path file h ++ attempts wording path (fileAfter file h) t := by
  induction h generalizing file with
  | nil => rfl
  | cons o rest ih =>
    cases o with
    | change file' => exact ih file'
    | request uptime r =>
      simp only [List.cons_append, attempts, fileAfter, ih]
      cases r.ask? <;> rfl

/-- The request at the end of a history adds what it finds in the file. -/
theorem attempts_concat_request {path : String} {file : FileState} {before : List Occurrence}
    {uptime : Nat} {r : Request} {ask : Ask} (hask : r.ask? = .ok ask) :
    attempts wording path file (before ++ [.request uptime r]) =
      attempts wording path file before ++ [Model.load wording path (fileAfter file before)] := by
  rw [attempts_append]
  simp only [attempts, hask]

/-! ## One request -/

/-- A server with these settings and words that keeps the catalog of the service it has found, if it
    has. -/
structure Keeps (settings : Settings) (wording : Model.Wording) (server : Server)
    (found? : Option Service) : Prop where
  settings_eq : server.settings = settings
  wording_eq : server.wording = wording
  base : server.cache.baseEndpoint = settings.baseEndpoint
  kept : server.cache.find? () = found?.map (Catalog.of settings.baseEndpoint)

theorem keeps_start (settings : Settings) (wording : Model.Wording) :
    Keeps settings wording (start settings wording) none :=
  ⟨rfl, rfl, rfl, rfl⟩

variable {server : Server} {found? : Option Service}

/-- An answer changes the server as asking for the catalog does. -/
theorem respond_server (server : Server) (file : FileState) (body : Catalog → Value) :
    (server.respond file body).2.2 =
      { server with cache := (server.cache.request ()
          (Model.load server.wording server.settings.model file)).2 } := by
  simp only [Server.respond, catalog]
  split <;> rfl

/-- After an answer the server keeps what it had, or else what it finds in the file. -/
theorem Keeps.respond (h : Keeps settings wording server found?) (file : FileState)
    (body : Catalog → Value) :
    Keeps settings wording (server.respond file body).2.2
      (found? <|> (Model.load wording settings.model file).toOption) := by
  rw [respond_server]
  refine ⟨h.settings_eq, h.wording_eq, ?_, ?_⟩
  · simp only [Cache.baseEndpoint_request, h.base]
  · simp only [Cache.find?_request_self, h.kept, h.base, h.settings_eq, h.wording_eq]
    cases found? <;> simp

/-- With a service found now or before, the answer is from its catalog. -/
theorem Keeps.respond_of_found (h : Keeps settings wording server found?) {file : FileState}
    {s : Service} (hs : (found? <|> (Model.load wording settings.model file).toOption) = some s)
    (body : Catalog → Value) :
    (server.respond file body).1 =
      ⟨200, true, some (body (Catalog.of settings.baseEndpoint s))⟩ := by
  rw [Server.respond, catalog, h.settings_eq, h.wording_eq]
  cases found? with
  | some t =>
    cases hs
    rw [Cache.request_of_kept h.kept]
  | none =>
    cases hload : Model.load wording settings.model file with
    | error e =>
      rw [hload] at hs
      cases hs
    | ok t =>
      rw [hload] at hs
      cases hs
      rw [Cache.request_of_ok h.kept, h.base]

/-- Without one, the answer is the error of the file. -/
theorem Keeps.respond_of_error (h : Keeps settings wording server none) {file : FileState}
    {e : ModelError} (he : Model.load wording settings.model file = .error e)
    (body : Catalog → Value) :
    (server.respond file body).1 = unavailable e := by
  rw [Server.respond, catalog, h.settings_eq, h.wording_eq, he, Cache.request_of_error h.kept]

/-! ## Histories -/

/-- One occurrence adds its attempt. -/
theorem Keeps.step (h : Keeps settings wording server found?) (file : FileState) (o : Occurrence) :
    Keeps settings wording (server.step file o).2.1
      (found? <|> firstSuccess? (attempts wording settings.model file [o])) := by
  cases o with
  | change file' => simpa [Server.step, attempts, firstSuccess?] using h
  | request uptime r =>
    simp only [Server.step, handle_eq, attempts]
    cases r.ask? with
    | error status => simpa [firstSuccess?] using h
    | ok ask =>
      rw [firstSuccess?_singleton]
      exact h.respond file _

theorem file_step (server : Server) (file : FileState) (o : Occurrence) :
    (server.step file o).2.2 = fileAfter file [o] := by
  cases o <;> rfl

theorem file_run (server : Server) (file : FileState) (history : List Occurrence) :
    (server.run file history).2.2 = fileAfter file history := by
  induction history generalizing server file with
  | nil => rfl
  | cons o rest ih =>
    rw [run, ih, file_step]
    cases o <;> rfl

/-- A server keeps the catalog of the first attempt of its history that succeeds. -/
theorem Keeps.run (h : Keeps settings wording server found?) (file : FileState)
    (history : List Occurrence) :
    Keeps settings wording (server.run file history).2.1
      (found? <|> firstSuccess? (attempts wording settings.model file history)) := by
  induction history generalizing server file found? with
  | nil => simpa [Server.run, attempts, firstSuccess?] using h
  | cons o rest ih =>
    -- the first occurrence comes before the others
    have hsplit := attempts_append wording settings.model file [o] rest
    rw [List.singleton_append] at hsplit
    have hrest := ih (h.step file o) (server.step file o).2.2
    rw [file_step] at hrest
    rw [hsplit, firstSuccess?_append, Server.run, file_step]
    cases found? <;> simpa using hrest

/-- What a request is answered that follows a history.  As long as no attempt has succeeded, its own
    included, it is told what is wrong with the file as it is now; from then on it is answered from the
    catalog of the first that has, whatever has become of the file: with the visible records, the hidden
    ones, or the numbers of both and of the names that are left out. -/
structure AnsweredAfter (settings : Settings) (wording : Model.Wording) (file : FileState)
    (before : List Occurrence) (uptime : Nat) (r : Request) (response : Response) : Prop where
  rejected : ∀ status, r.ask? = .error status → response = .plain status
  failed : ∀ ask e, r.ask? = .ok ask → AllFail (attempts wording settings.model file before) →
    Model.load wording settings.model (fileAfter file before) = .error e →
    ∃ text, Model.Fault wording settings.model (fileAfter file before) text ∧
      response = r.shown ⟨503, true, some (.object [("ok", .bool false), ("error", .text text)])⟩
  visible : ∀ s, r.ask? = .ok (.operations false) →
    FirstSuccess s (attempts wording settings.model file (before ++ [.request uptime r])) →
    response = r.shown ⟨200, true, some (.array
      ((Catalog.of settings.baseEndpoint s).visible.map Record.toValue))⟩
  hidden : ∀ s, r.ask? = .ok (.operations true) →
    FirstSuccess s (attempts wording settings.model file (before ++ [.request uptime r])) →
    response = r.shown ⟨200, true, some (.array
      ((Catalog.of settings.baseEndpoint s).hidden.map Record.toValue))⟩
  health : ∀ s, r.ask? = .ok .health →
    FirstSuccess s (attempts wording settings.model file (before ++ [.request uptime r])) →
    response = r.shown ⟨200, true, some (.object [("ok", .bool true), ("service", .text s.name),
      ("baseEndpoint", .text settings.baseEndpoint),
      ("operations", .object [
        ("visible", .natural (Catalog.of settings.baseEndpoint s).visible.length),
        ("hidden", .natural (Catalog.of settings.baseEndpoint s).hidden.length),
        ("skipped", .natural (Catalog.of settings.baseEndpoint s).skipped.length)]),
      ("uptimeMs", .natural uptime)])⟩

/-- The response to the request that follows a history. -/
theorem answered (settings : Settings) (wording : Model.Wording) (file : FileState)
    (before : List Occurrence) (uptime : Nat) (r : Request) :
    AnsweredAfter settings wording file before uptime r
      (((start settings wording).run file before).2.1.handle (fileAfter file before) uptime r).1 := by
  have hkeeps := (keeps_start settings wording).run file before
  generalize ((start settings wording).run file before).2.1 = server at hkeeps
  rw [handle_eq]
  -- once an attempt has succeeded, the answer is made of the catalog that is kept
  have hserved : ∀ ask s, r.ask? = .ok ask →
      FirstSuccess s (attempts wording settings.model file (before ++ [.request uptime r])) →
      (server.respond (fileAfter file before)
          fun c => ask.body server.cache.baseEndpoint uptime c).1 =
        ⟨200, true, some (ask.body settings.baseEndpoint uptime
          (Catalog.of settings.baseEndpoint s))⟩ := by
    intro ask s hask hfirst
    rw [attempts_concat_request hask, ← firstSuccess?_eq_some_iff, firstSuccess?_append,
      firstSuccess?_singleton] at hfirst
    rw [hkeeps.respond_of_found hfirst, hkeeps.base]
  constructor
  case rejected =>
    intro status hask
    rw [hask]
  case failed =>
    intro ask e hask hfail hload
    rw [firstSuccess?_eq_none_iff.2 hfail] at hkeeps
    rw [hask]
    refine ⟨e.message, Model.fault_of_load hload, ?_⟩
    simp only [Keeps.respond_of_error hkeeps hload, unavailable]
  case visible =>
    intro s hask hfirst
    rw [hask]
    simp only [hserved _ s hask hfirst]
    rfl
  case hidden =>
    intro s hask hfirst
    rw [hask]
    simp only [hserved _ s hask hfirst]
    rfl
  case health =>
    intro s hask hfirst
    rw [hask]
    simp only [hserved _ s hask hfirst]
    rw [Ask.body, Health.of, Health.toValue, Catalog.of_eq]

/-- A request in a history is answered as `AnsweredAfter` says, and no response to an earlier request
    depends on it. -/
theorem run_request (settings : Settings) (wording : Model.Wording) (file : FileState)
    (before : List Occurrence) (uptime : Nat) (r : Request) (after : List Occurrence) :
    ∃ response,
      ((start settings wording).run file (before ++ [.request uptime r])).1 =
        ((start settings wording).run file before).1 ++ [response] ∧
      ((start settings wording).run file (before ++ [.request uptime r])).1 <+:
        ((start settings wording).run file (before ++ .request uptime r :: after)).1 ∧
      AnsweredAfter settings wording file before uptime r response := by
  refine ⟨_, ?_, ?_, answered settings wording file before uptime r⟩
  · rw [run_append, run, file_run]
    rfl
  · rw [List.append_cons before _ after, run_append _ _ _ after]
    exact List.prefix_append _ _

end Server

/-! ## Records -/

/-- The records of a method have its name. -/
theorem Evaluator.methodName_of_render {ev : Evaluator} {m : Method} {records : List Record}
    (h : ev.render m = .ok records) : ∀ r ∈ records, r.methodName = m.name := by
  obtain ⟨request, response, url, -, -, -, rfl⟩ := render_eq_ok_iff.1 h
  intro r hr
  obtain ⟨_, -, rfl⟩ := List.mem_map.1 hr
  rfl

theorem Evaluator.visibility_of_mem_recordsFor {ev : Evaluator} {v : Visibility} {m : Method}
    {r : Record} (h : r ∈ ev.recordsFor v m) : Visibility.ofName r.methodName = v := by
  cases hrender : ev.render m with
  | error e =>
    rw [recordsFor_of_error hrender] at h
    cases h
  | ok records =>
    rw [recordsFor_of_ok hrender] at h
    split at h
    · rename_i hname
      rw [methodName_of_render hrender r h, hname]
    · cases h

/-- The records of a catalog are in the list that their names are classified for. -/
theorem Catalog.visibility_of_mem {baseEndpoint : String} {s : Service} {hidden : Bool} {r : Record}
    (h : r ∈ (Catalog.of baseEndpoint s).records hidden) :
    Visibility.ofName r.methodName = if hidden then .hidden else .visible := by
  rw [of_eq] at h
  cases hidden <;>
    · obtain ⟨m, -, hm⟩ := List.mem_flatMap.1 h
      exact Evaluator.visibility_of_mem_recordsFor hm

/-- In any history of requests while the model file changes: until the first request that is not turned
    away and finds a service, all of these are told what is wrong with the file as it is then; from that
    one on, all are answered from the catalog of this service, whichever of them they ask for and whatever
    becomes of the file.  Each record is in the list its name is classified for, and the health counts the
    records of both lists. -/
theorem server_freezes_first_success (settings : Settings) (wording : Model.Wording)
    (file : FileState) (history : List Server.Occurrence) :
    (∀ before uptime r after, history = before ++ .request uptime r :: after →
      ∃ response,
        ((Server.start settings wording).run file (before ++ [.request uptime r])).1 =
          ((Server.start settings wording).run file before).1 ++ [response] ∧
        ((Server.start settings wording).run file (before ++ [.request uptime r])).1 <+:
          ((Server.start settings wording).run file history).1 ∧
        Server.AnsweredAfter settings wording file before uptime r response) ∧
    (AllFail (Server.attempts wording settings.model file history) ∨
      ∃ s, FirstSuccess s (Server.attempts wording settings.model file history) ∧
        ∀ t, FirstSuccess t (Server.attempts wording settings.model file history) → t = s) ∧
    (∀ before after s, history = before ++ after →
      FirstSuccess s (Server.attempts wording settings.model file before) →
      FirstSuccess s (Server.attempts wording settings.model file history)) ∧
    (∀ file text, Model.Fault wording settings.model file text ↔
      ∃ e, Model.load wording settings.model file = .error e ∧ e.message = text) ∧
    (∀ s hidden, ∀ r ∈ (Catalog.of settings.baseEndpoint s).records hidden,
      Visibility.ofName r.methodName = if hidden then .hidden else .visible) ∧
    Request.ask? ⟨"GET", "/api/operations"⟩ = .ok (.operations false) ∧
    Request.ask? ⟨"GET", "/api/operations?hidden=false"⟩ = .ok (.operations false) ∧
    Request.ask? ⟨"GET", "/api/operations?hidden=true"⟩ = .ok (.operations true) ∧
    Request.ask? ⟨"GET", "/healthz"⟩ = .ok .health := by
  refine ⟨?_, ?_, ?_, fun file text => Model.fault_iff, fun s hidden r => Catalog.visibility_of_mem,
    ?_⟩
  · intro before uptime r after hsplit
    rw [hsplit]
    exact Server.run_request settings wording file before uptime r after
  · cases h : firstSuccess? (Server.attempts wording settings.model file history) with
    | none => exact .inl (firstSuccess?_eq_none_iff.1 h)
    | some s =>
      have hfirst := firstSuccess?_eq_some_iff.1 h
      exact .inr ⟨s, hfirst, fun t ht => ht.unique hfirst⟩
  · intro before after s hsplit hfirst
    rw [hsplit, Server.attempts_append]
    exact hfirst.append _
  · exact ⟨rfl, rfl, rfl, rfl⟩

namespace Server

/-- A visible method. -/
def sampleFind : Method := ⟨"Find", .get, .literal "/a", [], []⟩

/-- A hidden one. -/
def sampleClone : Method := ⟨"Clone", .get, .literal "/b", [], []⟩

/-- A method whose URL has no text. -/
def sampleOdd : Method := ⟨"Odd", .get, .unsupported, [], []⟩

/-- A service with these methods. -/
def sampleService : Service := ⟨"S", [], [sampleFind, sampleClone, sampleOdd], []⟩

/-- The document of the service. -/
def sampleDocument : Value :=
  .object [("name", .text "S"),
    ("methods", .array [sampleFind.toValue, sampleClone.toValue, sampleOdd.toValue])]

/-- The settings of a server for one file. -/
def sampleSettings : Settings := ⟨.v4 127 0 0 1, 80, "https://h", "m.json", "info", false⟩

/-- The same words for all texts that cannot be read. -/
def sampleWording : Model.Wording := fun _ _ => "EOF while parsing"

/-- The file is created with a text that cannot be read, the document comes in its place, and then it is
    removed.  Before and after each of these there is a request, and one more that is turned away. -/
def sampleHistory : List Occurrence :=
  [.request 1 ⟨"GET", "/healthz"⟩, .change (.bytes "\x7b".toUTF8),
    .request 2 ⟨"GET", "/api/operations"⟩, .change (.bytes (Json.text sampleDocument).toUTF8),
    .request 3 ⟨"GET", "/healthz"⟩, .change .absent,
    .request 4 ⟨"GET", "/api/operations?hidden=true"⟩, .request 5 ⟨"POST", "/healthz"⟩]

/-- The responses to as many of these occurrences. -/
def sampleResponses (n : Nat) : List Response :=
  ((start sampleSettings sampleWording).run .absent (sampleHistory.take n)).1

theorem load_sampleDocument :
    Model.load sampleWording "m.json" (.bytes (Json.text sampleDocument).toUTF8) =
      .ok sampleService := by
  have hplain : Json.Plain sampleDocument := by
    simp [sampleDocument, sampleFind, sampleClone, sampleOdd, Method.toValue, Verb.toValue,
      Expression.toValue, Expression.Kind.toValue, Json.Plain, Json.PlainFields, Json.PlainItems]
  have hread : Json.read Service.shape (Json.text sampleDocument) = some sampleDocument :=
    Json.read_text hplain (by decide) rfl
  have hdenoted : Service.ofValue? false sampleDocument = some sampleService := rfl
  have hutf8 : ∀ text : String, String.fromUTF8? text.toUTF8 = some text :=
    fun text => dif_pos text.isValidUTF8
  rw [Model.load, FileState.text, hutf8]
  exact (Model.parse_json_iff (by decide) hread).2 ⟨hdenoted, rfl⟩

theorem load_opened : Model.load sampleWording "m.json" (.bytes "\x7b".toUTF8) =
    .error (.parse "m.json" "EOF while parsing") := by
  have hread : Json.read Service.shape "\x7b" = none :=
    Option.isNone_iff_eq_none.1 (by decide +kernel)
  have hutf8 : String.fromUTF8? "\x7b".toUTF8 = some "\x7b" := dif_pos (String.isValidUTF8 _)
  have hpath : Model.Format.ofPath "m.json" = .json := by decide
  rw [Model.load, FileState.text, hutf8]
  refine Model.parse_eq_unread_iff.2 ?_
  rw [hpath, Model.Format.read?, hread]
  rfl

theorem catalog_of_sampleService :
    Catalog.of "https://h" sampleService = ⟨"S", [⟨"Find", .get, "/a", none, none⟩],
      [⟨"Clone", .get, "/b", none, none⟩], ["Odd"]⟩ := by
  have hfind : (sampleService.evaluator "https://h").render sampleFind =
      .ok [⟨"Find", .get, "/a", none, none⟩] := rfl
  have hclone : (sampleService.evaluator "https://h").render sampleClone =
      .ok [⟨"Clone", .get, "/b", none, none⟩] := rfl
  obtain ⟨e, hodd⟩ : ∃ e, (sampleService.evaluator "https://h").render sampleOdd = .error e :=
    ⟨_, rfl⟩
  have hvisible : Visibility.ofName sampleFind.name = .visible := by decide +kernel
  have hhidden : Visibility.ofName sampleClone.name = .hidden := by decide +kernel
  have hall : sampleService.allMethods = [sampleFind, sampleClone, sampleOdd] := rfl
  simp only [Catalog.of_eq, hall, List.flatMap_cons, List.flatMap_nil, List.filterMap_cons,
    List.filterMap_nil, Evaluator.recordsFor, Evaluator.skippedName?, Evaluator.failure?, hfind,
    hclone, hodd, hvisible, hhidden]
  rfl

/-- The catalog is that of the document, which is found by the third request. -/
theorem server_freezes_first_success_sample :
    ((start sampleSettings sampleWording).run .absent sampleHistory).1 =
      [⟨503, true, some (.object [("ok", .bool false), ("error", .text
          "failed to read model m.json: No such file or directory (os error 2)")])⟩,
        ⟨503, true, some (.object [("ok", .bool false), ("error", .text
          "failed to parse model m.json: EOF while parsing")])⟩,
        ⟨200, true, some (.object [("ok", .bool true), ("service", .text "S"),
          ("baseEndpoint", .text "https://h"),
          ("operations", .object [("visible", .natural 1), ("hidden", .natural 1),
            ("skipped", .natural 1)]),
          ("uptimeMs", .natural 3)])⟩,
        ⟨200, true, some (.array [Record.toValue ⟨"Clone", .get, "/b", none, none⟩])⟩,
        .plain 405] := by
  obtain ⟨hanswers, -, -, hfault, -⟩ :=
    server_freezes_first_success sampleSettings sampleWording .absent sampleHistory
  obtain ⟨r₁, hrun₁, -, h₁⟩ := hanswers (sampleHistory.take 0) _ _ (sampleHistory.drop 1) rfl
  obtain ⟨r₂, hrun₂, -, h₂⟩ := hanswers (sampleHistory.take 2) _ _ (sampleHistory.drop 3) rfl
  obtain ⟨r₃, hrun₃, -, h₃⟩ := hanswers (sampleHistory.take 4) _ _ (sampleHistory.drop 5) rfl
  obtain ⟨r₄, hrun₄, -, h₄⟩ := hanswers (sampleHistory.take 6) _ _ (sampleHistory.drop 7) rfl
  obtain ⟨r₅, hrun₅, -, h₅⟩ := hanswers (sampleHistory.take 7) _ _ (sampleHistory.drop 8) rfl
  -- a change of the file is not answered
  have hchange : ∀ (before : List Occurrence) (file : FileState),
      ((start sampleSettings sampleWording).run .absent (before ++ [.change file])).1 =
        ((start sampleSettings sampleWording).run .absent before).1 := by
    intro before file
    rw [run_append]
    exact List.append_nil _
  have hthird : sampleResponses 3 = [r₁, r₂] :=
    hrun₂.trans (congrArg (· ++ [r₂]) ((hchange (sampleHistory.take 1) _).trans hrun₁))
  have hfifth : sampleResponses 5 = [r₁, r₂, r₃] :=
    hrun₃.trans (congrArg (· ++ [r₃]) ((hchange (sampleHistory.take 3) _).trans hthird))
  have hseventh : sampleResponses 7 = [r₁, r₂, r₃, r₄] :=
    hrun₄.trans (congrArg (· ++ [r₄]) ((hchange (sampleHistory.take 5) _).trans hfifth))
  have hrun : ((start sampleSettings sampleWording).run .absent sampleHistory).1 =
      [r₁, r₂, r₃, r₄, r₅] :=
    hrun₅.trans (congrArg (· ++ [r₅]) hseventh)
  -- until the document is there, there are errors
  have herror : ∀ file e text, Model.load sampleWording "m.json" file = .error e →
      Model.Fault sampleWording "m.json" file text → text = e.message := by
    intro file e text hload htext
    obtain ⟨e', hload', rfl⟩ := (hfault file text).1 htext
    cases hload.symm.trans hload'
    rfl
  obtain ⟨text₁, htext₁, rfl⟩ := h₁.failed .health _ rfl (by simp [AllFail, attempts]) rfl
  obtain ⟨text₂, htext₂, rfl⟩ := h₂.failed (.operations false) _ rfl
    (List.forall_mem_singleton.2 ⟨_, rfl⟩) load_opened
  cases herror _ _ _ rfl htext₁
  cases herror _ _ _ load_opened htext₂
  -- from then on, there is the catalog
  have hfirst : ∀ more, FirstSuccess sampleService ([Model.load sampleWording "m.json" .absent,
      Model.load sampleWording "m.json" (.bytes "\x7b".toUTF8),
      Model.load sampleWording "m.json" (.bytes (Json.text sampleDocument).toUTF8)] ++ more) := by
    intro more
    rw [load_opened, load_sampleDocument]
    exact ⟨[_, _], more, rfl, by simp [AllFail, Model.load, FileState.text]⟩
  have hhealth := h₃.health sampleService rfl (hfirst [])
  have hhidden := h₄.hidden sampleService rfl (hfirst [_])
  have hrejected := h₅.rejected 405 rfl
  rw [hrun, hhealth, hhidden, hrejected]
  simp only [sampleSettings, catalog_of_sampleService]
  rfl

end Server

end OperationCatalog
