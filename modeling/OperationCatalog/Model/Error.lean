/-!
# Failures of models

Why a service cannot be had from its model.
-/

namespace OperationCatalog

/-- Why the file of a model cannot be read. -/
inductive ReadProblem where
  | notFound
  | isDirectory
  | notUtf8
  | other (text : String)
  deriving DecidableEq

/-- The wording of a problem. -/
def ReadProblem.message : ReadProblem → String
  | .notFound => "No such file or directory (os error 2)"
  | .isDirectory => "Is a directory (os error 21)"
  | .notUtf8 => "stream did not contain valid UTF-8"
  | .other text => text

/-- What is wrong with a model that can be read. -/
inductive ModelFlaw where
  | blankName
  /-- A method of the service has a blank name. -/
  | unnamedMethod (service : String)
  /-- A source of its own says what is wrong. -/
  | other (text : String)
  deriving DecidableEq

/-- The wording of a flaw. -/
def ModelFlaw.message : ModelFlaw → String
  | .blankName => "model name must not be empty"
  | .unnamedMethod service => "model " ++ service ++ " declares a method without a name"
  | .other text => text

/-- Why there is no service. -/
inductive ModelError where
  | read (path : String) (problem : ReadProblem)
  /-- The text is not a document of its format, or does not denote a service.  The reader of the format
      says what is wrong with it. -/
  | parse (path message : String)
  | invalid (flaw : ModelFlaw)
  deriving DecidableEq

/-- The wording of an error. -/
def ModelError.message : ModelError → String
  | .read path problem => "failed to read model " ++ path ++ ": " ++ problem.message
  | .parse path message => "failed to parse model " ++ path ++ ": " ++ message
  | .invalid flaw => "invalid model: " ++ flaw.message

end OperationCatalog
