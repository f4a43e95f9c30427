import OperationCatalog.Json.Reader
import OperationCatalog.Model.Error
import OperationCatalog.Model.Path
import OperationCatalog.Service.Document
import OperationCatalog.Toml.Reader
import OperationCatalog.Text.Trim

/-!
# Models

The text of a model denotes a service.  `Model.parse` reads it by the format of its path and checks
that the service and its methods have names; `Model.load` does so with a file.  What is said of a text
that cannot be read is up to the readers of the formats, a `Model.Wording`.
-/

namespace OperationCatalog

/-- The fields of methods. -/
def Method.shape : Json.Shape := .record (Method.fieldNames.map (·, .whole))

/-- The fields of groups. -/
def Group.shape : Json.Shape := .record [("name", .whole), ("methods", .list Method.shape)]

/-- The fields of services. -/
def Service.shape : Json.Shape :=
  .record [("name", .whole), ("context", .whole), ("methods", .list Method.shape),
    ("groups", .list Group.shape)]

/-- What is wrong with a service, if anything is: that it has a blank name, or that a method has. -/
def Service.flaw? (s : Service) : Option ModelFlaw :=
  if Text.isAllBlank s.name then some .blankName
  else if s.allMethods.any fun m => Text.isAllBlank m.name then some (.unnamedMethod s.name)
  else none

/-- What is wrong with a service depends on its name and those of its methods only. -/
theorem Service.flaw?_congr {s s' : Service} (hname : s.name = s'.name)
    (hnames : s.allMethods.map Method.name = s'.allMethods.map Method.name) :
    s.flaw? = s'.flaw? := by
  have hany : ∀ ms : List Method, (ms.any fun m => Text.isAllBlank m.name) =
      (ms.map Method.name).any Text.isAllBlank := by
    intro ms
    rw [List.any_map]
    rfl
  rw [flaw?, flaw?, hany, hany, hnames, hname]

/-- What stands under the path of a model. -/
inductive FileState where
  | absent
  | directory
  | unreadable (text : String)
  | bytes (content : ByteArray)

/-- The text of a file. -/
def FileState.text : FileState → Except ReadProblem String
  | .absent => .error .notFound
  | .directory => .error .isDirectory
  | .unreadable text => .error (.other text)
  | .bytes content =>
    match String.fromUTF8? content with
    | some text => .ok text
    | none => .error .notUtf8

namespace Model

/-- The service that a text denotes.  In TOML the items of an array beyond the fields of a record are
of no account. -/
def Format.read? : Format → String → Option Service
  | .json, text => (Json.read Service.shape text).bind (Service.ofValue? false)
  | .toml, text => (Toml.read text).bind (Service.ofValue? true)

/-- What the readers of the formats say of a text that they do not take. -/
abbrev Wording := Format → String → String

/-- The service of a model with this path and text. -/
def parse (wording : Wording) (path text : String) : Except ModelError Service :=
  match (Format.ofPath path).read? text with
  | none => .error (.parse path (wording (Format.ofPath path) text))
  | some s =>
    match s.flaw? with
    | some flaw => .error (.invalid flaw)
    | none => .ok s

variable {wording : Wording}

theorem parse_eq_ok_iff {path text : String} {s : Service} :
    parse wording path text = .ok s ↔ (Format.ofPath path).read? text = some s ∧ s.flaw? = none := by
  rw [parse]
  cases (Format.ofPath path).read? text with
  | none => simp
  | some t =>
    simp only [Option.some.injEq]
    cases hflaw : t.flaw? with
    | none =>
      constructor
      · intro h
        cases h
        exact ⟨rfl, hflaw⟩
      · intro ⟨hts, _⟩
        rw [hts]
    | some flaw =>
      constructor
      · intro h
        cases h
      · intro ⟨hts, hnone⟩
        rw [hts, hnone] at hflaw
        cases hflaw

/-- A text in JSON is parsed by way of its value. -/
theorem parse_json_iff {path text : String} {v : Value} {s : Service}
    (hpath : Format.ofPath path = .json) (hread : Json.read Service.shape text = some v) :
    parse wording path text = .ok s ↔ Service.ofValue? false v = some s ∧ s.flaw? = none := by
  rw [parse_eq_ok_iff, hpath, Format.read?, hread, Option.bind_some]

/-- The service of a model file. -/
def load (wording : Wording) (path : String) (file : FileState) : Except ModelError Service :=
  match file.text with
  | .error problem => .error (.read path problem)
  | .ok text => parse wording path text

end Model

end OperationCatalog
