import OperationCatalog.Settings.Address

/-!
# The command line

Which settings the arguments and the environment give.  An option is written `--name value` or
`--name=value`; its value is looked at when the next option begins.  What the command line does not
give is taken from the environment.
-/

namespace OperationCatalog

/-- The settings of the program, in the order in which the environment is asked for them. -/
inductive Setting where
  | host
  | port
  | baseEndpoint
  | model
  | logFilter
  /-- A switch: it is given without a value. -/
  | jsonLogs
  deriving DecidableEq

namespace Setting

/-- All settings, in order. -/
def all : List Setting := [.host, .port, .baseEndpoint, .model, .logFilter, .jsonLogs]

/-- The name of the option, without its dashes. -/
def option : Setting → String
  | .host => "host"
  | .port => "port"
  | .baseEndpoint => "base-endpoint"
  | .model => "model"
  | .logFilter => "log-filter"
  | .jsonLogs => "json-logs"

/-- The name of the environment variable. -/
def environmentName : Setting → String
  | .host => "OPSCOPE_HOST"
  | .port => "OPSCOPE_PORT"
  | .baseEndpoint => "OPSCOPE_BASE_ENDPOINT"
  | .model => "OPSCOPE_MODEL"
  | .logFilter => "RUST_LOG"
  | .jsonLogs => "OPSCOPE_JSON_LOGS"

end Setting

/-- Why the arguments give no settings: a fault in them, or that they ask for something else. -/
inductive ArgumentError where
  | missingModel
  | unknownArgument
  /-- A value is missing, is empty, or is not one of those possible. -/
  | invalidValue
  /-- A value does not denote an address or a port. -/
  | valueValidation
  /-- An option is given twice. -/
  | conflict
  /-- A switch is given a value. -/
  | tooManyValues
  | help
  | version
  deriving DecidableEq

/-- The values that are given for the settings. -/
structure Choices where
  host : Option Address
  port : Option Nat
  baseEndpoint : Option String
  model : Option String
  logFilter : Option String
  jsonLogs : Option Bool
  deriving DecidableEq

/-- The whole number that a text denotes: decimal digits, with a sign before them or without. -/
def intOfText? (text : String) : Option Int :=
  let number (ds : List Char) : Option Nat :=
    if ds.isEmpty || !ds.all Char.isDigit then none else some (Text.decimal ds)
  match text.toList with
  | '-' :: ds => (number ds).map fun n => -(n : Int)
  | '+' :: ds => (number ds).map fun n => (n : Int)
  | ds => (number ds).map fun n => (n : Int)

/-- The port that a text denotes. -/
def portOfText? (text : String) : Option Nat :=
  (intOfText? text).bind fun n => if 0 ≤ n ∧ n < 65536 then some n.toNat else none

namespace Choices

/-- No values at all. -/
def empty : Choices := ⟨none, none, none, none, none, none⟩

/-- Whether a value is given for a setting. -/
def has (c : Choices) : Setting → Bool
  | .host => c.host.isSome
  | .port => c.port.isSome
  | .baseEndpoint => c.baseEndpoint.isSome
  | .model => c.model.isSome
  | .logFilter => c.logFilter.isSome
  | .jsonLogs => c.jsonLogs.isSome

/-- The values with that of one setting, which a text denotes. -/
def set (c : Choices) (setting : Setting) (text : String) : Except ArgumentError Choices :=
  match setting with
  | .host =>
    match Address.ofText? text with
    | some address => .ok { c with host := some address }
    | none => .error .valueValidation
  | .port =>
    match portOfText? text with
    | some port => .ok { c with port := some port }
    | none => .error .valueValidation
  | .baseEndpoint => .ok { c with baseEndpoint := some text }
  | .model => if text.isEmpty then .error .invalidValue else .ok { c with model := some text }
  | .logFilter => .ok { c with logFilter := some text }
  | .jsonLogs =>
    if text = "true" then .ok { c with jsonLogs := some true }
    else if text = "false" then .ok { c with jsonLogs := some false }
    else .error .invalidValue

/-- The values with one that the command line gives, where no setting may be given twice. -/
def give (c : Choices) (setting : Setting) (text : String) : Except ArgumentError Choices :=
  if c.has setting then .error .conflict else c.set setting text

/-- The values with those of the environment for the settings that have none. -/
def complete (c : Choices) (environment : List (String × String)) : Except ArgumentError Choices :=
  Setting.all.foldlM (fun c setting =>
    match c.has setting, environment.lookup setting.environmentName with
    | false, some text => c.set setting text
    | _, _ => .ok c) c

end Choices

/-! ## Arguments -/

/-- The sorts of arguments. -/
inductive Argument where
  /-- `--name`, or `--name=value`. -/
  | option (name : String) (value : Option String)
  /-- A dash and letters. -/
  | letters (first : Char)
  /-- `--`: no option comes after it. -/
  | endOfOptions
  | value (text : String)
  deriving DecidableEq

/-- The sort of an argument. -/
def Argument.ofText (text : String) : Argument :=
  match text.toList with
  | ['-', '-'] => .endOfOptions
  | '-' :: '-' :: cs =>
    .option (String.ofList (cs.takeWhile (· ≠ '=')))
      (match cs.dropWhile (· ≠ '=') with
        | [] => none
        | _ :: rest => some (String.ofList rest))
  | '-' :: c :: _ => .letters c
  | _ => .value text

/-- An option that has begun, and its value if it has come. -/
structure Pending where
  setting : Setting
  value : Option String
  deriving DecidableEq

/-- The values so far, and the option that has begun. -/
structure CommandLine where
  choices : Choices
  pending : Option Pending

namespace CommandLine

/-- Ends the option that has begun. -/
def settle (line : CommandLine) : Except ArgumentError Choices :=
  match line.pending with
  | none => .ok line.choices
  | some ⟨_, none⟩ => .error .invalidValue
  | some ⟨setting, some text⟩ => line.choices.give setting text

/-- Takes an option, which ends the one before.  An option that is not known, and a value where none
may be, are found before that. -/
def takeOption (line : CommandLine) (name : String) (value : Option String) :
    Except ArgumentError CommandLine :=
  if name = "help" ∨ name = "version" then
    if value.isSome then .error .tooManyValues
    else line.settle.bind fun _ => .error (if name = "help" then .help else .version)
  else
    match Setting.all.find? (·.option = name), value with
    | none, _ => .error .unknownArgument
    | some .jsonLogs, some _ => .error .tooManyValues
    | some .jsonLogs, none => do return ⟨← (← line.settle).give .jsonLogs "true", none⟩
    | some setting, some text => do return ⟨← (← line.settle).give setting text, none⟩
    | some setting, none => do return ⟨← line.settle, some ⟨setting, none⟩⟩

/-- Takes one argument before the end of the options. -/
def take (line : CommandLine) : Argument → Except ArgumentError CommandLine
  | .option name value => line.takeOption name value
  | .letters 'h' => line.settle.bind fun _ => .error .help
  | .letters 'V' => line.settle.bind fun _ => .error .version
  | .letters _ => .error .unknownArgument
  | .endOfOptions => .ok line
  | .value text =>
    match line.pending with
    | some ⟨setting, none⟩ => .ok { line with pending := some ⟨setting, some text⟩ }
    | _ => .error .unknownArgument

/-- The values that the remaining arguments and those before give. -/
def read (line : CommandLine) : List String → Except ArgumentError Choices
  | [] => line.settle
  | arg :: rest =>
    if Argument.ofText arg = .endOfOptions then
      if rest.isEmpty then line.settle else .error .unknownArgument
    else
      match line.take (Argument.ofText arg) with
      | .error e => .error e
      | .ok line => read line rest

end CommandLine

/-- The values that the arguments give. -/
def Choices.ofArguments (arguments : List String) : Except ArgumentError Choices :=
  CommandLine.read ⟨Choices.empty, none⟩ arguments

end OperationCatalog
