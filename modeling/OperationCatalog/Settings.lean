import OperationCatalog.Settings.CommandLine
import OperationCatalog.Text.Trim

/-!
# Settings

The settings of the program: those of the command line, else those of the environment, else the
defaults, checked and put into their normal form.
-/

namespace OperationCatalog

/-- The values of all settings, as they are given. -/
structure Arguments where
  host : Address
  port : Nat
  baseEndpoint : String
  model : String
  logFilter : String
  jsonLogs : Bool
  deriving DecidableEq

namespace Arguments

/-- The base endpoint that is taken if none is given. -/
def defaultBaseEndpoint : String := "https://management.azure.com"

/-- The values that are given, and the defaults for the others; only the model has none. -/
def ofChoices (c : Choices) : Except ArgumentError Arguments :=
  match c.model with
  | none => .error .missingModel
  | some model =>
    .ok { host := c.host.getD (.v4 127 0 0 1)
          port := c.port.getD 18790
          baseEndpoint := c.baseEndpoint.getD defaultBaseEndpoint
          model
          logFilter := c.logFilter.getD "info"
          jsonLogs := c.jsonLogs.getD false }

/-- The values of the command line, then those of the environment, then the defaults. -/
def read (arguments : List String) (environment : List (String × String)) :
    Except ArgumentError Arguments := do
  ofChoices (← (← Choices.ofArguments arguments).complete environment)

end Arguments

/-- Why settings are not valid. -/
inductive SettingsError where
  | zeroPort
  | emptyBaseEndpoint
  deriving DecidableEq

/-- The wording of an error. -/
def SettingsError.message : SettingsError → String
  | .zeroPort => "port must be greater than 0"
  | .emptyBaseEndpoint => "base_endpoint must not be empty"

/-- The wording of the failure to start with such settings. -/
def SettingsError.startMessage (e : SettingsError) : String :=
  "invalid request: configuration error: " ++ e.message

/-- A base endpoint without the white space around it and then the slashes at its end. -/
def normalBaseEndpoint (text : String) : Except SettingsError String :=
  let trimmed := Text.trimEnd (· = '/') (Text.trim text)
  if trimmed.isEmpty then .error .emptyBaseEndpoint else .ok trimmed

/-- Valid settings. -/
structure Settings where
  host : Address
  port : Nat
  baseEndpoint : String
  model : String
  logFilter : String
  jsonLogs : Bool
  deriving DecidableEq

namespace Settings

/-- The settings that arguments denote; the port is looked at first. -/
def ofArguments (a : Arguments) : Except SettingsError Settings :=
  if a.port = 0 then .error .zeroPort
  else
    match normalBaseEndpoint a.baseEndpoint with
    | .error e => .error e
    | .ok baseEndpoint =>
      .ok { host := a.host, port := a.port, baseEndpoint, model := a.model,
            logFilter := a.logFilter, jsonLogs := a.jsonLogs }

/-- The text of the address to listen on. -/
def bindText (s : Settings) : String := s.host.textWithPort s.port

end Settings

end OperationCatalog
